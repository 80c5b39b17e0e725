import EvmTrace.Proofs.Bytes.Hex
import EvmTrace.Proofs.Disk.Ancestors
import EvmTrace.Proofs.Disk.Changes
import EvmTrace.Proofs.Store.DocumentFile

set_option autoImplicit false

namespace EvmTrace

namespace FileTree

/-- Makes a directory unless it stands already. -/
def ensure (tree : FileTree) (path : String) : Except Disk.Error Unit × FileTree :=
  match tree.makeDirectory path with
  | (.ok (), after) => (.ok (), after)
  | (.error e, after) => (if after.isDirectory path then .ok () else .error e, after)

variable (tree : FileTree) (path : String)

theorem ensure_cases :
    (∃ after, tree.makeDirectory path = (.ok (), after) ∧ tree.ensure path = (.ok (), after)) ∨
      (tree.isDirectory path = true ∧ tree.ensure path = (.ok (), tree)) ∨
      tree.isDirectory path = false ∧
        ∃ e, tree.makeDirectory path = (.error e, tree) ∧ tree.ensure path = (.error e, tree) := by
  rcases tree.makeDirectory_cases path with ⟨place, _, _, made⟩ | ⟨e, refused⟩
  · exact .inl ⟨_, made, by rw [ensure, made]⟩
  · cases stands : tree.isDirectory path with
    | true => exact .inr (.inl ⟨rfl, by simp only [ensure, refused, stands, ↓reduceIte]⟩)
    | false =>
        refine .inr (.inr ⟨rfl, e, refused, ?_⟩)
        simp only [ensure, refused, stands, Bool.false_eq_true, ↓reduceIte]

variable {tree path}

theorem differs_ensure {made : Place → Prop}
    (reached : ∀ place, tree.locateNew path = .ok place → made place) :
    tree.Differs (tree.ensure path).2 made fun _ => False := by
  have differs := tree.differs_makeDirectory reached
  rcases tree.ensure_cases path with ⟨after, new, same⟩ | ⟨_, same⟩ | ⟨_, e, _, same⟩
  · rw [same]
    rwa [new] at differs
  · rw [same]
    exact .refl tree _ _
  · rw [same]
    exact .refl tree _ _

end FileTree

namespace Store

theorem named_of_head {name : String} (whole : '/' ∉ name.toList)
    (first : name.toList.head? = some '0') : Path.Named name := by
  have other : ∀ text : String, text.toList.head? ≠ some '0' → name ≠ text := by
    rintro _ different rfl
    exact different first
  have empty := other "" (by decide)
  have here := other "." (by decide)
  exact ⟨by simp [Path.isBlank, empty, here], other ".." (by decide), whole⟩

theorem slash_not_mem_hex (bytes : Bytes) : '/' ∉ (Hex.text bytes).toList := by
  intro inside
  exact Hex.forall_mem_text (p := (· ≠ '/')) (by decide) (by decide) bytes '/' inside rfl

theorem named_hex (bytes : Bytes) : Path.Named (Hex.text bytes) := by
  apply named_of_head (slash_not_mem_hex bytes)
  rw [Hex.text, String.toList_ofList, List.head?_cons]

theorem named_document (bytes : Bytes) : Path.Named (Hex.text bytes ++ ".json") := by
  apply named_of_head
  · rw [String.toList_append, List.mem_append, not_or]
    exact ⟨slash_not_mem_hex bytes, by decide⟩
  · rw [String.toList_append, Hex.text, String.toList_ofList, List.cons_append, List.head?_cons]

def tableNames : List String :=
  ["optrace.csv", "functrace.csv", "eventtrace.csv", "transfertrace.csv"]

theorem names_tables (trace : Trace) : (tables trace).map Prod.fst = tableNames := rfl

theorem name_mem_tableNames {trace : Trace} {file : String × String}
    (inside : file ∈ tables trace) : file.1 ∈ tableNames := by
  rw [← names_tables trace]
  exact List.mem_map_of_mem inside

theorem named_of_mem {name : String} (inside : name ∈ tableNames) : Path.Named name := by
  have named : ∀ name ∈ tableNames,
      Path.isBlank name = false ∧ name ≠ ".." ∧ '/' ∉ name.toList := by
    decide
  obtain ⟨shown, down, whole⟩ := named name inside
  exact ⟨shown, down, whole⟩

theorem named_tables (trace : Trace) : ∀ file ∈ tables trace, Path.Named file.1 :=
  fun _ inside => named_of_mem (name_mem_tableNames inside)

theorem nodup_tables (trace : Trace) : ((tables trace).map Prod.fst).Nodup := by
  rw [names_tables]
  decide

variable {tree : FileTree}

/-- What is answered if a directory is not made. -/
theorem settled_apply (path : String) (e : Disk.Error) (tree : FileTree) :
    (do if ← Disk.isDirectory path then pure (.ok ()) else pure (.error e) :
        StateM FileTree (Except Disk.Error Unit)) tree =
      (if tree.isDirectory path then .ok () else .error e, tree) := by
  rw [FileTree.bind_apply, FileTree.isDirectory_apply]
  cases tree.isDirectory path <;> rfl

/-- A directory is made at once, or behind those around it if it was not found. -/
theorem makeDirectories_cases (path : String) (outer : List String) (tree : FileTree) :
    (makeDirectories (path :: outer) : StateM FileTree _) tree = tree.ensure path ∨
      tree.makeDirectory path = (.error .notFound, tree) ∧
        ∃ answer between, (makeDirectories outer : StateM FileTree _) tree = (answer, between) ∧
          (makeDirectories (path :: outer) : StateM FileTree _) tree =
            match answer with
            | .error e => (.error e, between)
            | .ok () => between.ensure path := by
  rw [makeDirectories, FileTree.bind_apply, FileTree.makeDirectory_apply]
  rcases tree.makeDirectory_cases path with ⟨place, _, _, made⟩ | ⟨e, refused⟩
  · refine .inl ?_
    rw [FileTree.ensure, made]
    rfl
  · rw [FileTree.ensure, refused]
    by_cases missing : e = .notFound
    · subst missing
      obtain ⟨answer, between, around⟩ : ∃ answer between,
          (makeDirectories outer : StateM FileTree _) tree = (answer, between) := ⟨_, _, rfl⟩
      refine .inr ⟨rfl, answer, between, around, ?_⟩
      dsimp only
      rw [FileTree.bind_apply, around]
      cases answer with
      | error e => rfl
      | ok done =>
          dsimp only
          rw [FileTree.bind_apply, FileTree.makeDirectory_apply, FileTree.ensure]
          cases between.makeDirectory path with
          | mk again after =>
              cases again with
              | ok done => rfl
              | error e => exact settled_apply path e after
    · refine .inl ?_
      cases e <;> first | exact absurd rfl missing | exact settled_apply path _ tree

theorem differs_makeDirectories {made : Place → Prop} {paths : List String}
    (reached : ∀ path ∈ paths, ∀ between : FileTree, between.working = tree.working →
      ∀ place, between.locateNew path = .ok place → made place) :
    tree.Differs ((makeDirectories paths : StateM FileTree _) tree).2 made fun _ => False := by
  induction paths with
  | nil => exact .refl tree _ _
  | cons path outer ih =>
      have own := reached path List.mem_cons_self
      rcases makeDirectories_cases path outer tree with
        same | ⟨_, answer, between, around, same⟩
      · rw [same]
        exact tree.differs_ensure (own tree rfl)
      · have first := ih fun other inside => reached other (List.mem_cons_of_mem _ inside)
        rw [around] at first
        rw [same]
        cases answer with
        | error e => exact first
        | ok done => exact first.trans (FileTree.differs_ensure (own between first.working))

theorem makePath_apply (path : String) (tree : FileTree) :
    (makePath path : StateM FileTree _) tree =
      let (answer, after) := (makeDirectories (Path.ancestors path) : StateM FileTree _) tree
      (answer.mapError fun e => .badPath ("Cannot create directory " ++ path ++ ": " ++ e.message),
        after) := by
  rw [makePath, FileTree.bind_apply]
  cases (makeDirectories (Path.ancestors path) : StateM FileTree _) tree with
  | mk answer after => cases answer <;> rfl

theorem differs_makePath (path : String) (tree : FileTree) :
    tree.Differs ((makePath path : StateM FileTree _) tree).2
      (fun place => place ∈ tree.way path ∨ place = tree.target path) fun _ => False := by
  rw [makePath_apply]
  apply differs_makeDirectories
  intro outer inside between same place located
  rw [between.locateNew_of_ancestor inside] at located
  apply tree.mem_way_of_ancestor inside
  rw [FileTree.target_of_locate located, FileTree.target_congr same]
  exact .inr rfl

theorem pathExists_apply (path : String) (tree : FileTree) :
    (pathExists path : StateM FileTree Bool) tree =
      (tree.isFile path || tree.isDirectory path, tree) := by
  rw [pathExists, FileTree.bind_apply, FileTree.isFile_apply]
  cases tree.isFile path <;> rfl

/-- The directories around a path stand already, or they are made. -/
theorem makeParent_cases (path : String) (tree : FileTree) :
    (makeParent path : StateM FileTree _) tree = (.ok (), tree) ∨
      ∃ outer, Path.parent? path = some outer ∧ outer ≠ "" ∧
        (makeParent path : StateM FileTree _) tree = (makePath outer : StateM FileTree _) tree := by
  rw [makeParent]
  cases parent : Path.parent? path with
  | none => exact .inl rfl
  | some outer =>
      dsimp only
      by_cases empty : outer = ""
      · rw [if_pos (by simpa using empty)]
        exact .inl rfl
      · rw [if_neg (by simpa using empty), FileTree.bind_apply]
        rw [pathExists_apply]
        cases tree.isFile outer || tree.isDirectory outer with
        | true => exact .inl rfl
        | false => exact .inr ⟨outer, rfl, empty, rfl⟩

theorem differs_makeParent (path : String) (tree : FileTree) :
    tree.Differs ((makeParent path : StateM FileTree _) tree).2 (· ∈ tree.way path)
      fun _ => False := by
  rcases makeParent_cases path tree with same | ⟨outer, parent, shown, same⟩
  · rw [same]
    exact .refl tree _ _
  · rw [same]
    refine (differs_makePath outer tree).mono (fun place reached => ?_) fun _ never => never
    exact tree.mem_way_of_parent parent shown reached

theorem writeText_apply (path text : String) (tree : FileTree) :
    (writeText path text : StateM FileTree _) tree =
      let (answer, after) := tree.store path (Text.encode text)
      (answer.mapError .disk, after) := by
  rw [writeText, FileTree.bind_apply, FileTree.store_apply]
  cases tree.store path (Text.encode text) with
  | mk answer after => cases answer <;> rfl

/-- Either of the paths is no good, or the directories are made and then a file is stored. -/
theorem writeDocument_cases (document : Document) (path : String) (tree : FileTree) :
    (∃ reason, (writeDocument document path : StateM FileTree _) tree = (.error reason, tree)) ∨
      ∃ answer between, (makeParent path : StateM FileTree _) tree = (answer, between) ∧
        (writeDocument document path : StateM FileTree _) tree =
          match answer with
          | .error reason => (.error reason, between)
          | .ok () => (writeText path document.print : StateM FileTree _) between := by
  unfold writeDocument
  by_cases empty : path = ""
  · rw [if_pos (by simpa using empty)]
    exact .inl ⟨_, rfl⟩
  · rw [if_neg (by simpa using empty), FileTree.bind_apply, FileTree.isDirectory_apply]
    cases tree.isDirectory path with
    | true => exact .inl ⟨_, rfl⟩
    | false =>
        obtain ⟨answer, between, made⟩ : ∃ answer between,
            (makeParent path : StateM FileTree _) tree = (answer, between) := ⟨_, _, rfl⟩
        refine .inr ⟨answer, between, made, ?_⟩
        simp only [Bool.false_eq_true, ↓reduceIte, FileTree.bind_apply, made]
        cases answer <;> rfl

theorem writeTables_cases (path : String) (trace : Trace) (tree : FileTree) :
    (∃ reason, (writeTables path trace : StateM FileTree _) tree = (.error reason, tree)) ∨
      ∃ answer between, (makePath path : StateM FileTree _) tree = (answer, between) ∧
        (writeTables path trace : StateM FileTree _) tree =
          match answer with
          | .error reason => (.error reason, between)
          | .ok () => (writeFiles path (tables trace) : StateM FileTree _) between := by
  unfold writeTables
  rw [FileTree.bind_apply, FileTree.isFile_apply]
  cases tree.isFile path with
  | true => exact .inl ⟨_, rfl⟩
  | false =>
      obtain ⟨answer, between, made⟩ : ∃ answer between,
          (makePath path : StateM FileTree _) tree = (answer, between) := ⟨_, _, rfl⟩
      refine .inr ⟨answer, between, made, ?_⟩
      simp only [Bool.false_eq_true, ↓reduceIte, FileTree.bind_apply, made]
      cases answer <;> rfl

/-- A tree has been changed by files with texts in a directory, which it holds now. -/
structure Kept (directory : String) (files : List (String × String)) (tree after : FileTree) :
    Prop where
  differs : tree.Differs after (fun _ => False) fun place =>
    ∃ file ∈ files, place = tree.target (Path.join directory file.1)
  contents : ∀ file ∈ files,
    after.contents (Path.join directory file.1) = .ok (Text.encode file.2)
  unchanged : files = [] → after = tree

theorem Kept.none (directory : String) (tree : FileTree) : Kept directory [] tree tree :=
  ⟨.refl tree _ _, fun _ inside => absurd inside List.not_mem_nil, fun _ => rfl⟩

/-- A file that was stored stays whole while files are stored at other places. -/
theorem Kept.cons {directory name text : String} {kept : List (String × String)}
    {tree between after : FileTree}
    (stored : tree.store (Path.join directory name) (Text.encode text) = (.ok (), between))
    (elsewhere : ∀ file ∈ kept,
      tree.target (Path.join directory name) ≠ tree.target (Path.join directory file.1))
    (later : Kept directory kept between after) :
    Kept directory ((name, text) :: kept) tree after := by
  have first := tree.differs_store (Path.join directory name) (Text.encode text)
  rw [stored] at first
  have target : ∀ path, between.target path = tree.target path :=
    FileTree.target_congr first.working
  refine ⟨?_, fun file inside => ?_, fun nothing => absurd nothing (List.cons_ne_nil _ _)⟩
  · refine (first.mono (fun _ never => never) fun place here => ?_).trans
      (later.differs.mono (fun _ never => never) fun place there => ?_)
    · exact ⟨_, List.mem_cons_self, here⟩
    · obtain ⟨file, inside, same⟩ := there
      exact ⟨file, List.mem_cons_of_mem _ inside, same.trans (target _)⟩
  · rcases List.mem_cons.mp inside with rfl | inside
    · apply later.differs.contents _ (FileTree.contents_store stored)
      rintro ⟨file, inside, same⟩
      rw [target, target] at same
      exact elsewhere file inside same
    · exact later.contents file inside

/-- Files are stored whole, one after the other, until one is refused. -/
theorem writeFiles_cases (directory : String) {files : List (String × String)}
    (named : ∀ file ∈ files, Path.Named file.1) (distinct : (files.map Prod.fst).Nodup)
    (tree : FileTree) :
    ∃ kept rest after, files = kept ++ rest ∧ Kept directory kept tree after ∧
      (rest = [] ∧ (writeFiles directory files : StateM FileTree _) tree = (.ok (), after) ∨
        ∃ file more e, rest = file :: more ∧
          after.store (Path.join directory file.1) (Text.encode file.2) = (.error e, after) ∧
          (writeFiles directory files : StateM FileTree _) tree = (.error (.disk e), after)) := by
  induction files generalizing tree with
  | nil => exact ⟨[], [], tree, rfl, .none directory tree, .inl ⟨rfl, rfl⟩⟩
  | cons file files ih =>
      obtain ⟨name, text⟩ := file
      obtain ⟨own, others⟩ := List.forall_mem_cons.mp named
      obtain ⟨fresh, distinct⟩ := List.nodup_cons.mp distinct
      rcases tree.store_ok_or_error (Path.join directory name) (Text.encode text) with
        ⟨between, stored⟩ | ⟨e, refused⟩
      · obtain ⟨kept, rest, after, rfl, later, ended⟩ := ih others distinct between
        have goesOn : (writeFiles directory ((name, text) :: (kept ++ rest)) :
            StateM FileTree _) tree =
              (writeFiles directory (kept ++ rest) : StateM FileTree _) between := by
          rw [writeFiles, FileTree.bind_apply, writeText_apply, stored]
          rfl
        refine ⟨(name, text) :: kept, rest, after, rfl, later.cons stored ?_, goesOn ▸ ended⟩
        intro file inside same
        have among : file ∈ kept ++ rest := List.mem_append_left _ inside
        have names := tree.target_join_inj directory own (others file among) same
        exact fresh (List.mem_map.mpr ⟨file, among, names.symm⟩)
      · refine ⟨[], (name, text) :: files, tree, rfl, .none directory tree, .inr ?_⟩
        refine ⟨(name, text), files, e, rfl, refused, ?_⟩
        rw [writeFiles, FileTree.bind_apply, writeText_apply, refused]
        rfl

variable {after : FileTree}

/-- A document that is written stands in its file, and the rest of the tree is as before. -/
theorem differs_of_written_document {document : Document} {path : String}
    (written : (writeDocument document path : StateM FileTree _) tree = (.ok (), after)) :
    tree.Differs after (· ∈ tree.way path) (· = tree.target path) := by
  rcases writeDocument_cases document path tree with
    ⟨_, refused⟩ | ⟨answer, between, made, same⟩
  · rw [refused] at written
    cases written
  · have around := differs_makeParent path tree
    rw [made] at around
    rw [same] at written
    cases answer with
    | error e => cases written
    | ok done =>
        have stored := between.differs_store path (Text.encode document.print)
        rw [stored_of_writeText written, FileTree.target_congr around.working] at stored
        exact (around.mono (fun _ passes => passes) fun _ never => never.elim).trans
          (stored.mono (fun _ never => never.elim) fun _ here => here)

/-- Tables that are written stand in their files, in directories that stand or have been made. -/
theorem kept_of_written_tables {path : String} {trace : Trace}
    (written : (writeTables path trace : StateM FileTree _) tree = (.ok (), after)) :
    ∃ between, tree.Differs between
        (fun place => place ∈ tree.way path ∨ place = tree.target path) (fun _ => False) ∧
      Kept path (tables trace) between after := by
  rcases writeTables_cases path trace tree with ⟨_, refused⟩ | ⟨answer, between, made, same⟩
  · rw [refused] at written
    cases written
  · have around := differs_makePath path tree
    rw [made] at around
    rw [same] at written
    cases answer with
    | error e => cases written
    | ok done =>
        obtain ⟨kept, rest, last, files, held, ended⟩ :=
          writeFiles_cases path (named_tables trace) (nodup_tables trace) between
        rcases ended with ⟨rfl, wrote⟩ | ⟨_, _, _, _, _, wrote⟩
        · rw [wrote] at written
          cases written
          rw [files, List.append_nil]
          exact ⟨between, around, held⟩
        · rw [wrote] at written
          cases written

end Store

end EvmTrace
