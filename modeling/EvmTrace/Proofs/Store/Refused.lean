import EvmTrace.Proofs.Disk.Nesting
import EvmTrace.Proofs.Store.DocumentFile
import EvmTrace.Proofs.Store.Writing
import EvmTrace.Sink

/-!
What is left of a trace that is not kept. Nothing is taken back: directories that were made stay, and
so do the tables that were stored before one was refused. On an orderly tree, though, directories are
only made if all that is to be stored in them will be.
-/

set_option autoImplicit false

namespace EvmTrace

namespace FileTree

variable {tree after : FileTree} {path outer : String}

/-- A file is stored at the end of an open way unless a directory stands there. -/
theorem exists_store (allowed : badPath? path = none) (openEnded : Path.endsWithSlash path = false)
    (way : ∀ stop ∈ tree.way path, tree.look stop = .ok (some .directory))
    (short : ((tree.target path).any fun name => nameLimit < name.utf8ByteSize) = false)
    (free : tree.get? (tree.target path) ≠ some .directory) (content : Bytes) :
    ∃ after, tree.store path content = (.ok (), after) := by
  have located := (tree.locate_eq_ok_iff path _).mpr ⟨allowed, way, rfl⟩
  have looked := (tree.look_eq_ok_iff (tree.target path) _).mpr ⟨short, rfl⟩
  rw [store, locateNew, Path.withoutTrailingSlashes_eq path openEnded, ← locate, located]
  simp only [openEnded, Bool.false_eq_true, ↓reduceIte, looked]
  cases stands : tree.get? (tree.target path) with
  | none => exact ⟨_, rfl⟩
  | some node =>
      cases node with
      | file old => exact ⟨_, rfl⟩
      | directory => exact absurd stands free

/-- A directory is made at the end of an open way unless a file stands there. -/
theorem exists_ensure (allowed : badPath? path = none)
    (plain : tree.locateNew path = tree.locate path)
    (way : ∀ stop ∈ tree.way path, tree.look stop = .ok (some .directory))
    (short : ((tree.target path).any fun name => nameLimit < name.utf8ByteSize) = false)
    (free : ∀ content, tree.get? (tree.target path) ≠ some (.file content)) :
    ∃ after, tree.ensure path = (.ok (), after) := by
  have located := (tree.locate_eq_ok_iff path _).mpr ⟨allowed, way, rfl⟩
  have looked := (tree.look_eq_ok_iff (tree.target path) _).mpr ⟨short, rfl⟩
  rcases tree.ensure_cases path with ⟨after, _, same⟩ | ⟨_, same⟩ | ⟨missing, e, refused, _⟩
  · exact ⟨after, same⟩
  · exact ⟨tree, same⟩
  · rw [makeDirectory, plain, located] at refused
    dsimp only at refused
    rw [isDirectory, find, located] at missing
    dsimp only at missing
    cases stands : tree.get? (tree.target path) with
    | none => simp [looked, stands] at refused
    | some node =>
        cases node with
        | file content => exact absurd stands (free content)
        | directory => simp [looked, stands] at missing

/-- A directory that was asked for stands, and nothing stood there if the tree is another one. -/
theorem isDirectory_of_ensure (plain : tree.locateNew path = tree.locate path)
    (ensured : tree.ensure path = (.ok (), after)) :
    after.isDirectory path = true ∧ (after = tree ∨ tree.get? (tree.target path) = none) := by
  rcases tree.ensure_cases path with ⟨_, made, same⟩ | ⟨stands, same⟩ | ⟨_, e, _, same⟩
  · rw [same] at ensured
    cases ensured
    rcases tree.makeDirectory_cases path with ⟨place, located, looked, new⟩ | ⟨e, refused⟩
    · rw [made] at new
      cases new
      rw [plain] at located
      obtain ⟨short, free⟩ := (tree.look_eq_ok_iff place none).mp looked
      have below : place ≠ [] := by
        rintro rfl
        cases free
      have keeps := tree.keeps_put place .directory (by simp [free])
      have stands : (tree.put place .directory).look place = .ok (some .directory) :=
        (look_eq_ok_iff _ _ _).mpr ⟨short, tree.get?_put_same place .directory below⟩
      rw [isDirectory, find, keeps.locate located]
      simp only [stands, ← target_of_locate located, free, or_true, and_self]
    · rw [made] at refused
      cases refused
  · rw [same] at ensured
    cases ensured
    exact ⟨stands, .inl rfl⟩
  · rw [same] at ensured
    cases ensured

/-- Out of a directory that does not stand, a path leads one name further. -/
theorem Follows.target_of_free (follows : tree.Follows path outer)
    (free : tree.get? (tree.target outer) = none) :
    ∃ name, tree.target path = tree.target outer ++ [name] := by
  obtain ⟨part, named, up, target⟩ := follows.target
  have down : part ≠ ".." := by
    intro same
    rw [up same] at free
    cases free
  exact ⟨part, by rw [target, next_of_named named down]⟩

theorem Follows.get?_target (follows : tree.Follows path outer) (orderly : tree.Orderly path)
    (free : tree.get? (tree.target outer) = none) : tree.get? (tree.target path) = none := by
  obtain ⟨name, target⟩ := follows.target_of_free free
  rw [target]
  exact orderly.get?_below (by simp [free]) name

/-- Nothing stands yet in a directory that has been made, since its own path does not pass there. -/
theorem Follows.get?_made (follows : tree.Follows path outer) (orderly : tree.Orderly path)
    (orderly' : tree.Orderly outer)
    (differs : tree.Differs after
      (fun place => place ∈ tree.way outer ∨ place = tree.target outer) fun _ => False)
    (free : tree.get? (tree.target outer) = none) : after.get? (tree.target path) = none := by
  rcases differs.get?_free not_false (follows.get?_target orderly free) with none | ⟨reached, _⟩
  · exact none
  · obtain ⟨name, target⟩ := follows.target_of_free free
    rw [target] at reached
    rcases reached with passes | here
    · exact absurd passes (orderly'.not_mem_way_beneath (by simp [free]) (List.cons_ne_nil _ _))
    · simp at here

/-- The way to a path is open once the directory around it stands. -/
theorem Follows.way_open (follows : tree.Follows path outer)
    (working : after.working = tree.working) (stands : after.isDirectory outer = true) :
    ∀ stop ∈ after.way path, after.look stop = .ok (some .directory) := by
  intro stop passes
  rw [way_congr working] at passes
  apply ((after.isDirectory_iff outer).mp stands).2 stop
  rw [way_congr working, target_congr working]
  exact follows.way stop passes

theorem ensure_of_error {e : Disk.Error} (failed : tree.ensure path = (.error e, after)) :
    after = tree := by
  rcases tree.ensure_cases path with ⟨_, _, same⟩ | ⟨_, same⟩ | ⟨_, _, _, same⟩
  · rw [same] at failed
    cases failed
  · rw [same] at failed
    cases failed
  · rw [same] at failed
    cases failed
    rfl

/-- In a directory that stands, a file is stored where no directory stands. -/
theorem Follows.exists_store (follows : tree.Follows path outer) (orderly : tree.Orderly path)
    (openEnded : Path.endsWithSlash path = false) (working : after.working = tree.working)
    (stands : after.isDirectory outer = true)
    (free : after.get? (tree.target path) ≠ some .directory) (content : Bytes) :
    ∃ last, after.store path content = (.ok (), last) := by
  have target := target_congr working path
  apply FileTree.exists_store orderly.allowed openEnded (follows.way_open working stands)
  · rw [target]
    exact orderly.short _ (.inr rfl)
  · rwa [target]

/-- In a directory that has been made for it, a directory can be made. -/
theorem Follows.exists_ensure {made : Place → Prop} (follows : tree.Follows path outer)
    (orderly : tree.Orderly path) (plain : after.locateNew path = after.locate path)
    (differs : tree.Differs after made fun _ => False) (stands : after.isDirectory outer = true)
    (free : tree.get? (tree.target outer) = none) : ∃ last, after.ensure path = (.ok (), last) := by
  have target := target_congr differs.working path
  apply FileTree.exists_ensure orderly.allowed plain (follows.way_open differs.working stands)
  · rw [target]
    exact orderly.short _ (.inr rfl)
  · intro content file
    rw [target] at file
    rcases differs.get?_free not_false (follows.get?_target orderly free) with none | ⟨_, directory⟩
    · simp [none] at file
    · simp [directory] at file

end FileTree

namespace Store

variable {tree : FileTree}

/--
Of directories inside each other all up to the first one are made, or none is; and some are made only
if the first one did not stand.
-/
def AllOrNone (tree : FileTree) (paths : List String) : Prop :=
  (∃ e, (makeDirectories paths : StateM FileTree _) tree = (.error e, tree)) ∨
    ∃ after, (makeDirectories paths : StateM FileTree _) tree = (.ok (), after) ∧
      ∀ path ∈ paths.head?, after.isDirectory path = true ∧
        (after = tree ∨ tree.get? (tree.target path) = none)

theorem allOrNone_of_ensure {path : String} {outer : List String}
    (plain : tree.locateNew path = tree.locate path)
    (same : (makeDirectories (path :: outer) : StateM FileTree _) tree = tree.ensure path) :
    AllOrNone tree (path :: outer) := by
  obtain ⟨answer, after, ensured⟩ : ∃ answer after, tree.ensure path = (answer, after) :=
    ⟨_, _, rfl⟩
  rw [AllOrNone, same, ensured]
  cases answer with
  | error e =>
      have unchanged := FileTree.ensure_of_error ensured
      exact .inl ⟨e, by rw [unchanged]⟩
  | ok done =>
      refine .inr ⟨after, rfl, fun first head => ?_⟩
      cases head
      exact FileTree.isDirectory_of_ensure plain ensured

/-- The induction is on the directories around; what was made of them is on the way to the first. -/
theorem allOrNone {paths : List String} (chain : paths.IsChain tree.Follows)
    (orderly : ∀ path ∈ paths, tree.Orderly path)
    (plain : ∀ path ∈ paths, ∀ between : FileTree, between.locateNew path = between.locate path) :
    AllOrNone tree paths := by
  induction paths with
  | nil => exact .inr ⟨tree, rfl, by simp⟩
  | cons path outer ih =>
      obtain ⟨own, others⟩ := List.forall_mem_cons.mp orderly
      obtain ⟨ownPlain, otherPlain⟩ := List.forall_mem_cons.mp plain
      rcases makeDirectories_cases path outer tree with
        same | ⟨_, answer, between, around, same⟩
      · exact allOrNone_of_ensure (ownPlain tree) same
      · rcases ih chain.tail others otherPlain with ⟨e, failed⟩ | ⟨_, made, opened⟩
        · rw [failed] at around
          cases around
          exact .inl ⟨e, same⟩
        · have differs : tree.Differs ((makeDirectories outer : StateM FileTree _) tree).2
              (fun _ => True) fun _ => False := differs_makeDirectories fun _ _ _ _ _ _ => trivial
          rw [made] at around differs
          cases around
          cases outer with
          | nil =>
              cases made
              exact allOrNone_of_ensure (ownPlain tree) same
          | cons next more =>
              rcases opened next rfl with ⟨stands, unchanged | free⟩
              · rw [unchanged] at same
                exact allOrNone_of_ensure (ownPlain tree) same
              · have follows := (List.isChain_cons_cons.mp chain).1
                obtain ⟨after, ensured⟩ :=
                  follows.exists_ensure own (ownPlain between) differs stands free
                refine .inr ⟨after, same.trans ensured, fun first head => ?_⟩
                cases head
                exact ⟨(FileTree.isDirectory_of_ensure (ownPlain between) ensured).1,
                  .inr (follows.get?_target own free)⟩

/-- Directories are made up to the one at the end of a path, or none is. -/
theorem allOrNone_ancestors {path outer : String} (orderly : tree.Orderly path)
    (inside : outer ∈ Path.ancestors path) : AllOrNone tree (Path.ancestors outer) := by
  have own := orderly.ancestor inside
  exact allOrNone own.isChain_ancestors (fun _ around => own.ancestor around)
    fun _ around between => between.locateNew_of_ancestor around

/-- A directory around a path is made, or no directory is. -/
theorem makePath_cases {path outer : String} (orderly : tree.Orderly path)
    (inside : outer ∈ Path.ancestors path) :
    (∃ reason, (makePath outer : StateM FileTree _) tree = (.error reason, tree)) ∨
      ∃ after, (makePath outer : StateM FileTree _) tree = (.ok (), after) ∧
        after.isDirectory outer = true ∧ (after = tree ∨ tree.get? (tree.target outer) = none) := by
  rw [makePath_apply]
  rcases allOrNone_ancestors orderly inside with ⟨e, failed⟩ | ⟨after, made, reached⟩
  · rw [failed]
    exact .inl ⟨_, rfl⟩
  · rw [made]
    exact .inr ⟨after, rfl, reached outer (Path.head?_ancestors inside)⟩

/-- The directory around a path that ends with a name. -/
theorem follows_parent {directory name outer : String} (named : Path.Named name)
    (orderly : tree.Orderly (Path.join directory name))
    (parent : Path.parent? (Path.join directory name) = some outer) (filled : outer ≠ "") :
    tree.Follows (Path.join directory name) outer ∧
      outer ∈ Path.ancestors (Path.join directory name) := by
  obtain ⟨front, parts⟩ := Path.exists_split_join named.whole directory
  have chain := orderly.isChain_ancestors
  rw [Path.parent?] at parent
  rw [Path.ancestors_of_last parts named.shown] at parent chain ⊢
  cases around : (Path.shortened front.reverse).map Path.ofParts with
  | nil =>
      rw [around] at parent
      simp only at parent
      split at parent
      · cases parent
      · cases parent
        exact absurd rfl filled
  | cons next rest =>
      rw [around] at parent chain
      cases parent
      exact ⟨(List.isChain_cons_cons.mp chain).1, by simp⟩

/-- Directories are made around a path only if a file can be stored there. -/
theorem makeParent_idle_or_ready {directory name : String} {answer : Except Error Unit}
    {between : FileTree} (named : Path.Named name)
    (orderly : tree.Orderly (Path.join directory name))
    (made : (makeParent (Path.join directory name) : StateM FileTree _) tree = (answer, between)) :
    between = tree ∨ answer = .ok () ∧ ∀ content, ∃ last,
      between.store (Path.join directory name) content = (.ok (), last) := by
  rcases makeParent_cases (Path.join directory name) tree with
    still | ⟨outer, parent, filled, around⟩
  · rw [still] at made
    cases made
    exact .inl rfl
  · obtain ⟨follows, inside⟩ := follows_parent named orderly parent filled
    have differs := differs_makePath outer tree
    rw [← around, made] at differs
    rcases makePath_cases orderly inside with ⟨_, refused⟩ | ⟨_, done, stands, still | free⟩
    · rw [← around, made] at refused
      cases refused
      exact .inl rfl
    · rw [← around, made] at done
      cases done
      exact .inl still
    · rw [← around, made] at done
      cases done
      have absent := follows.get?_made orderly (orderly.ancestor inside) differs free
      exact .inr ⟨rfl, follows.exists_store orderly (Path.endsWithSlash_join named directory)
        differs.working stands (by simp [absent])⟩

theorem writeText_of_error {path text : String} {reason : Error} {after : FileTree}
    (failed : (writeText path text : StateM FileTree _) tree = (.error reason, after)) :
    after = tree ∧ ∃ e, tree.store path (Text.encode text) = (.error e, tree) := by
  rw [writeText_apply] at failed
  rcases tree.store_ok_or_error path (Text.encode text) with ⟨_, stored⟩ | ⟨e, refused⟩
  · rw [stored] at failed
    cases failed
  · rw [refused] at failed
    cases failed
    exact ⟨rfl, e, refused⟩

/-- On an orderly tree a document that is not written leaves nothing. -/
theorem unchanged_of_document {document : Document} {directory name : String} {after : FileTree}
    {reason : Error} (named : Path.Named name)
    (orderly : tree.Orderly (Path.join directory name))
    (failed : (writeDocument document (Path.join directory name) : StateM FileTree _) tree =
      (.error reason, after)) : after = tree := by
  rcases writeDocument_cases document (Path.join directory name) tree with
    ⟨_, refused⟩ | ⟨answer, between, made, same⟩
  · rw [refused] at failed
    cases failed
    rfl
  · rw [same] at failed
    rcases makeParent_idle_or_ready named orderly made with rfl | ⟨rfl, ready⟩
    · cases answer with
      | error e =>
          cases failed
          rfl
      | ok done => exact (writeText_of_error failed).1
    · obtain ⟨e, refused⟩ := (writeText_of_error failed).2
      obtain ⟨last, stored⟩ := ready (Text.encode document.print)
      rw [stored] at refused
      cases refused

/-- A document that is not written changes no file. -/
theorem differs_of_document {document : Document} {path : String} {after : FileTree}
    {reason : Error}
    (failed : (writeDocument document path : StateM FileTree _) tree = (.error reason, after)) :
    tree.Differs after (· ∈ tree.way path) fun _ => False := by
  rcases writeDocument_cases document path tree with
    ⟨_, refused⟩ | ⟨answer, between, made, same⟩
  · rw [refused] at failed
    cases failed
    exact .refl tree _ _
  · have differs := differs_makeParent path tree
    rw [made] at differs
    rw [same] at failed
    cases answer with
    | error e =>
        cases failed
        exact differs
    | ok done =>
        rw [(writeText_of_error failed).1]
        exact differs

section Tables

variable {directory inner : String} {trace : Trace} {between after : FileTree}

/-- The directory around a name in a directory that is itself named. -/
theorem follows_join {name : String} (named : Path.Named inner) (named' : Path.Named name)
    (orderly : tree.Orderly (Path.join (Path.join directory inner) name)) :
    tree.Follows (Path.join (Path.join directory inner) name) (Path.join directory inner) ∧
      Path.join directory inner ∈ Path.ancestors (Path.join (Path.join directory inner) name) := by
  obtain ⟨front, parts⟩ := Path.exists_split_join named.whole directory
  have chain := orderly.isChain_ancestors
  rw [Path.ancestors_join_join named named', Path.ancestors_of_last parts named.shown] at chain ⊢
  exact ⟨(List.isChain_cons_cons.mp chain).1, by simp⟩

/-- In a directory that stands, a file is refused only where a directory stands. -/
theorem directory_of_refused {file : String × String} {e : Disk.Error} (named : Path.Named inner)
    (named' : Path.Named file.1)
    (orderly : tree.Orderly (Path.join (Path.join directory inner) file.1))
    (working : after.working = tree.working)
    (stands : after.isDirectory (Path.join directory inner) = true)
    (refused : after.store (Path.join (Path.join directory inner) file.1) (Text.encode file.2) =
      (.error e, after)) :
    after.get? (tree.target (Path.join (Path.join directory inner) file.1)) = some .directory := by
  by_contra free
  obtain ⟨follows, _⟩ := follows_join named named' orderly
  obtain ⟨last, stored⟩ := follows.exists_store orderly
    (Path.endsWithSlash_join named' (Path.join directory inner)) working stands free
    (Text.encode file.2)
  rw [stored] at refused
  cases refused

/-- Directories are made for tables only if all tables can be stored in them. -/
theorem unchanged_of_refused {kept rest : List (String × String)} {refused : String × String}
    {e : Disk.Error} (named : Path.Named inner)
    (made : (makePath (Path.join directory inner) : StateM FileTree _) tree = (.ok (), between))
    (files : tables trace = kept ++ refused :: rest)
    (held : Kept (Path.join directory inner) kept between after)
    (denied : after.store (Path.join (Path.join directory inner) refused.1)
      (Text.encode refused.2) = (.error e, after))
    (orderly : ∀ file ∈ tables trace,
      tree.Orderly (Path.join (Path.join directory inner) file.1)) :
    between = tree ∧
      tree.get? (tree.target (Path.join (Path.join directory inner) refused.1)) =
        some .directory := by
  have among : refused ∈ tables trace := by simp [files]
  have named' := named_tables trace refused among
  obtain ⟨follows, inside⟩ := follows_join named named' (orderly refused among)
  have differs := differs_makePath (Path.join directory inner) tree
  rw [made] at differs
  rcases makePath_cases (orderly refused among) inside with ⟨_, failed⟩ | ⟨_, done, stands, how⟩
  · rw [made] at failed
    cases failed
  · rw [made] at done
    cases done
    have last := directory_of_refused named named' (orderly refused among)
      (held.differs.working.trans differs.working) (held.differs.keeps.isDirectory stands) denied
    have early := held.differs.get?_directory not_false last
    rcases how with same | free
    · refine ⟨same, ?_⟩
      rw [same] at early
      exact early
    · have absent := follows.get?_made (orderly refused among)
        ((orderly refused among).ancestor inside) differs free
      rw [early] at absent
      cases absent

theorem unchanged_of_makePath {name : String} {reason : Error} (named : Path.Named inner)
    (named' : Path.Named name)
    (orderly : tree.Orderly (Path.join (Path.join directory inner) name))
    (failed : (makePath (Path.join directory inner) : StateM FileTree _) tree =
      (.error reason, between)) : between = tree := by
  rcases makePath_cases orderly (follows_join named named' orderly).2 with
    ⟨_, refused⟩ | ⟨_, made, _⟩
  · rw [failed] at refused
    cases refused
    rfl
  · rw [failed] at made
    cases made

end Tables

/--
What a sink leaves of a trace that it does not take. A document leaves every file as it was, and at
most new directories on the way to it. Tables leave at most new directories on the way to their own
directory and, whole, those that were stored before one of them was refused. If the tree is orderly
for the paths that are written, no directory is left: a document leaves the tree as it was, and so do
tables unless the name of one behind the first is that of a directory.
-/
theorem untaken_traces_leave_directories_and_whole_tables (times : FileTree → String)
    (directory : String) (trace : Trace) (tree after : FileTree) (reason : Error) :
    ((Sink.documents (FileTree.clock times) directory).write trace tree =
        (.error reason, after) →
      let path := documentPath directory trace
      tree.Differs after (· ∈ tree.way path) (fun _ => False) ∧ (tree.Orderly path → after = tree)) ∧
    (((Sink.tables directory).write trace : StateM FileTree _) tree = (.error reason, after) →
      let path := tablesPath directory trace
      ∃ kept refused rest between, tables trace = kept ++ refused :: rest ∧
        tree.Differs between (fun place => place ∈ tree.way path ∨ place = tree.target path)
          (fun _ => False) ∧
        Kept path kept between after ∧
        (kept ≠ [] → ∃ e, reason = .disk e ∧
          after.store (Path.join path refused.1) (Text.encode refused.2) = (.error e, after)) ∧
        ((∀ file ∈ tables trace, tree.Orderly (Path.join path file.1)) →
          between = tree ∧ (kept ≠ [] →
            tree.get? (tree.target (Path.join path refused.1)) = some .directory))) := by
  refine ⟨fun failed => ?_, fun failed => ?_⟩
  · intro path
    exact ⟨differs_of_document failed,
      fun orderly => unchanged_of_document (named_document _) orderly failed⟩
  · intro path
    have named := named_hex trace.metadata.hash.bytes
    change (writeTables path trace : StateM FileTree _) tree = (.error reason, after) at failed
    rcases writeTables_cases path trace tree with ⟨_, refused⟩ | ⟨answer, between, made, same⟩
    · rw [refused] at failed
      cases failed
      exact ⟨[], _, _, tree, rfl, .refl tree _ _, .none path tree, fun some => absurd rfl some,
        fun _ => ⟨rfl, fun some => absurd rfl some⟩⟩
    · have differs := differs_makePath path tree
      rw [made] at differs
      rw [same] at failed
      cases answer with
      | error e =>
          cases failed
          refine ⟨[], _, _, after, rfl, differs, .none path after, fun some => absurd rfl some,
            fun orderly => ⟨?_, fun some => absurd rfl some⟩⟩
          have first : ("optrace.csv", Csv.steps trace.steps) ∈ tables trace :=
            List.mem_cons_self
          exact unchanged_of_makePath named (named_tables trace _ first) (orderly _ first) made
      | ok done =>
          obtain ⟨kept, rest, last, files, held, ended⟩ :=
            writeFiles_cases path (named_tables trace) (nodup_tables trace) between
          rcases ended with ⟨_, wrote⟩ | ⟨refused, more, e, rfl, denied, wrote⟩
          · rw [wrote] at failed
            cases failed
          · rw [wrote] at failed
            cases failed
            refine ⟨kept, refused, more, between, files, differs, held,
              fun _ => ⟨e, rfl, denied⟩, fun orderly => ?_⟩
            have unchanged := unchanged_of_refused named made files held denied orderly
            exact ⟨unchanged.1, fun _ => unchanged.2⟩

/-- The second table is refused for the sake of a directory, and a document for the sake of a file. -/
theorem first_table_is_left_before_directory :
    let metadata : Metadata :=
      { block := 0, hash := .zero 32, sender := .zero 20, recipient := none, value := 0
        gasPrice := 0, gasUsed := 0 }
    let trace : Trace := { metadata, steps := [], calls := [], logs := [], transfers := [] }
    let own := Hex.text metadata.hash.bytes
    let occupied : FileTree := ⟨[], [(["f"], .file [])]⟩
    let blocked : FileTree :=
      ⟨[], [(["out"], .directory), (["out", own], .directory),
        (["out", own, "functrace.csv"], .directory)]⟩
    let left := blocked.put ["out", own, "optrace.csv"] (.file (Text.encode (Csv.steps [])))
    let document : Except Error Unit × FileTree :=
      (Sink.documents (FileTree.clock fun _ => "") "f/new").write trace occupied
    let written : Except Error Unit × FileTree :=
      ((Sink.tables "out").write trace : StateM FileTree _) blocked
    (document.1 =
        .error (.badPath "Cannot create directory f/new: Not a directory (os error 20)") ∧
      document.2 = occupied) ∧
      written = (.error (.disk .isDirectory), left) ∧
      ∃ kept refused rest, tables trace = kept ++ refused :: rest ∧
        Kept (tablesPath "out" trace) kept blocked left := by
  intro metadata trace own occupied blocked left document written
  have refused : document.1 = .error
      (.badPath "Cannot create directory f/new: Not a directory (os error 20)") := by
    decide +kernel
  have denied : written = (.error (.disk .isDirectory), left) := by decide +kernel
  have orderly : occupied.Orderly (documentPath "f/new" trace) := by
    apply FileTree.Orderly.of_nodes <;> decide +kernel
  have orderly' : ∀ file ∈ tables trace,
      blocked.Orderly (Path.join (tablesPath "out" trace) file.1) := by
    have each : ∀ name ∈ tableNames,
        let path := Path.join (tablesPath "out" trace) name
        FileTree.badPath? path = none ∧
          (∀ place ∈ blocked.target path :: blocked.way path,
            (place.any fun part => FileTree.nameLimit < part.utf8ByteSize) = false) ∧
          ".." ∉ Text.split '/' path := by
      decide +kernel
    intro file inside
    obtain ⟨allowed, short, straight⟩ := each file.1 (name_mem_tableNames inside)
    exact .of_nodes (by decide +kernel) allowed short straight
  have first := (untaken_traces_leave_directories_and_whole_tables (fun _ => "") "f/new" trace
    occupied document.2 _).1 (Prod.ext refused rfl)
  obtain ⟨kept, next, rest, between, files, _, held, _, idle⟩ :=
    (untaken_traces_leave_directories_and_whole_tables (fun _ => "") "out" trace
      blocked left _).2 denied
  have same := (idle orderly').1
  rw [same] at held
  exact ⟨⟨refused, first.2 orderly⟩, denied, kept, next, rest, files, held⟩

/-- A refused table leaves the one before it. -/
theorem untaken_traces_leave_something :
    let metadata : Metadata :=
      { block := 0, hash := .zero 32, sender := .zero 20, recipient := none, value := 0
        gasPrice := 0, gasUsed := 0 }
    let trace : Trace := { metadata, steps := [], calls := [], logs := [], transfers := [] }
    let own := Hex.text metadata.hash.bytes
    let blocked : FileTree :=
      ⟨[], [(["out"], .directory), (["out", own], .directory),
        (["out", own, "functrace.csv"], .directory)]⟩
    let left := blocked.put ["out", own, "optrace.csv"] (.file (Text.encode (Csv.steps [])))
    let written : Except Error Unit × FileTree :=
      ((Sink.tables "out").write trace : StateM FileTree _) blocked
    written = (.error (.disk .isDirectory), left) ∧ left ≠ blocked := by
  constructor <;> decide +kernel

end Store

end EvmTrace
