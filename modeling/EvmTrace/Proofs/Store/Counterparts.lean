import EvmTrace.Proofs.Disk.Places
import EvmTrace.Store

/-!
Two trees that differ in the contents of their files only. Where paths lead, what can be made and what
can be stored does not depend on contents, so traces that are written in both trees alike meet with
the same answers, and the trees still differ in contents only.
-/

set_option autoImplicit false

namespace EvmTrace

/-- What stands at a place of two trees: nothing, a directory, or files with related contents. -/
inductive Node.Counterpart (Related : Bytes → Bytes → Prop) : Option Node → Option Node → Prop
  | nothing : Counterpart Related none none
  | directory : Counterpart Related (some .directory) (some .directory)
  | file {content other : Bytes} (related : Related content other) :
      Counterpart Related (some (.file content)) (some (.file other))

namespace FileTree

/-- The same files and directories stand in two trees, and the contents of the files are related. -/
structure Counterpart (Related : Place → Bytes → Bytes → Prop) (tree other : FileTree) : Prop where
  working : other.working = tree.working
  nodes : ∀ place, Node.Counterpart (Related place) (tree.get? place) (other.get? place)

namespace Counterpart

variable {Related : Place → Bytes → Bytes → Prop} {tree other : FileTree}

theorem refl (reflexive : ∀ place content, Related place content content) (tree : FileTree) :
    tree.Counterpart Related tree := by
  refine ⟨rfl, fun place => ?_⟩
  cases tree.get? place with
  | none => exact .nothing
  | some node =>
      cases node with
      | file content => exact .file (reflexive place content)
      | directory => exact .directory

theorem look_cases (counterpart : tree.Counterpart Related other) (place : Place) :
    (∃ e, tree.look place = .error e ∧ other.look place = .error e) ∨
      ∃ here there, Node.Counterpart (Related place) here there ∧
        tree.look place = .ok here ∧ other.look place = .ok there := by
  unfold look
  split
  · exact .inl ⟨_, rfl, rfl⟩
  · exact .inr ⟨_, _, counterpart.nodes place, rfl, rfl⟩

theorem follow (counterpart : tree.Counterpart Related other) (parts : List String)
    (place : Place) : other.follow place parts = tree.follow place parts := by
  induction parts generalizing place with
  | nil => rfl
  | cons part rest ih =>
      rw [FileTree.follow, FileTree.follow]
      obtain ⟨e, first, second⟩ | ⟨here, there, nodes, first, second⟩ :=
        counterpart.look_cases place
      · rw [first, second]
      · rw [first, second]
        cases nodes with
        | nothing => rfl
        | file => rfl
        | directory => simp only [ih]

theorem locate (counterpart : tree.Counterpart Related other) (path : String) :
    other.locate path = tree.locate path := by
  rw [FileTree.locate, FileTree.locate, start_congr counterpart.working]
  simp only [counterpart.follow]

theorem locateNew (counterpart : tree.Counterpart Related other) (path : String) :
    other.locateNew path = tree.locateNew path := by
  rw [FileTree.locateNew, FileTree.locateNew, start_congr counterpart.working]
  simp only [counterpart.follow]

theorem find_cases (counterpart : tree.Counterpart Related other) (path : String) :
    (∃ e, tree.find path = .error e ∧ other.find path = .error e) ∨
      ∃ place here there, Node.Counterpart (Related place) here there ∧
        tree.find path = .ok here ∧ other.find path = .ok there := by
  rw [find, find, counterpart.locate]
  cases tree.locate path with
  | error e => exact .inl ⟨e, rfl, rfl⟩
  | ok place =>
      rcases counterpart.look_cases place with refused | found
      · exact .inl refused
      · exact .inr ⟨place, found⟩

theorem isFile (counterpart : tree.Counterpart Related other) (path : String) :
    other.isFile path = tree.isFile path := by
  rw [FileTree.isFile, FileTree.isFile]
  obtain ⟨e, first, second⟩ | ⟨place, here, there, nodes, first, second⟩ :=
    counterpart.find_cases path
  · rw [first, second]
  · rw [first, second]
    cases nodes <;> rfl

theorem isDirectory (counterpart : tree.Counterpart Related other) (path : String) :
    other.isDirectory path = tree.isDirectory path := by
  rw [FileTree.isDirectory, FileTree.isDirectory]
  obtain ⟨e, first, second⟩ | ⟨place, here, there, nodes, first, second⟩ :=
    counterpart.find_cases path
  · rw [first, second]
  · rw [first, second]
    cases nodes <;> rfl

theorem put (counterpart : tree.Counterpart Related other) {place : Place} {node node' : Node}
    (nodes : Node.Counterpart (Related place) (some node) (some node')) :
    (tree.put place node).Counterpart Related (other.put place node') := by
  refine ⟨counterpart.working, fun spot => ?_⟩
  by_cases here : spot = place
  · subst here
    by_cases top : spot = []
    · rw [get?, get?, if_pos top, if_pos top]
      exact .directory
    · rw [get?_put_same _ _ _ top, get?_put_same _ _ _ top]
      exact nodes
  · rw [get?_put_other _ _ _ _ here, get?_put_other _ _ _ _ here]
    exact counterpart.nodes spot

/-- A file may be given other content. -/
theorem of_put_file (reflexive : ∀ place content, Related place content content) {place : Place}
    {content content' : Bytes} (stands : tree.get? place = some (.file content))
    (related : Related place content content') :
    tree.Counterpart Related (tree.put place (.file content')) := by
  refine ⟨rfl, fun spot => ?_⟩
  by_cases here : spot = place
  · subst here
    have below : spot ≠ [] := by
      rintro rfl
      cases stands
    rw [stands, get?_put_same _ _ _ below]
    exact .file related
  · rw [get?_put_other _ _ _ _ here]
    exact (refl reflexive tree).nodes spot

/-- A file that is found may be stored with other content. -/
theorem of_store (reflexive : ∀ place content, Related place content content) {path : String}
    {content content' : Bytes} (held : tree.contents path = .ok content)
    (stored : tree.store path content' = (.ok (), other))
    (related : Related (tree.target path) content content') : tree.Counterpart Related other := by
  obtain ⟨place, node, located, openEnded, found, free, rfl⟩ := store_cases stored
  have reached := locate_of_locateNew openEnded located
  obtain rfl := target_of_locate reached
  obtain ⟨_, stands⟩ := (look_eq_ok_iff tree _ node).mp found
  rw [FileTree.contents, find, reached] at held
  dsimp only at held
  rw [found] at held
  cases node with
  | none => cases held
  | some node =>
      cases node with
      | file old =>
          cases held
          exact of_put_file reflexive stands related
      | directory => cases held

end Counterpart

/-- Two computations answer the same on counterparts and leave counterparts. -/
def Agree (Related : Place → Bytes → Bytes → Prop) {α : Type} (first second : StateM FileTree α) :
    Prop :=
  ∀ tree other, tree.Counterpart Related other →
    (second other).1 = (first tree).1 ∧ (first tree).2.Counterpart Related (second other).2

namespace Agree

variable {Related : Place → Bytes → Bytes → Prop} {α β : Type}

theorem pure (value : α) :
    Agree Related (Pure.pure value : StateM FileTree α) (Pure.pure value) :=
  fun _ _ counterpart => ⟨rfl, counterpart⟩

theorem bind {first second : StateM FileTree α} {next next' : α → StateM FileTree β}
    (agree : Agree Related first second)
    (later : ∀ value, Agree Related (next value) (next' value)) :
    Agree Related (first >>= next) (second >>= next') := by
  intro tree other counterpart
  obtain ⟨same, still⟩ := agree tree other counterpart
  rw [bind_apply, bind_apply, same]
  exact later _ _ _ still

theorem map (change : α → β) {first second : StateM FileTree α}
    (agree : Agree Related first second) : Agree Related (change <$> first) (change <$> second) := by
  intro tree other counterpart
  obtain ⟨same, still⟩ := agree tree other counterpart
  exact ⟨congrArg change same, still⟩

theorem mapM {first second : α → StateM FileTree β}
    (agree : ∀ item, Agree Related (first item) (second item)) (items : List α) :
    Agree Related (items.mapM first) (items.mapM second) := by
  induction items with
  | nil => exact .pure []
  | cons item rest ih =>
      rw [List.mapM_cons, List.mapM_cons]
      exact .bind (agree item) fun value => .bind ih fun values => .pure _

theorem isFile (path : String) :
    Agree Related (Disk.isFile path : StateM FileTree Bool) (Disk.isFile path) :=
  fun _ _ counterpart => ⟨counterpart.isFile path, counterpart⟩

theorem isDirectory (path : String) :
    Agree Related (Disk.isDirectory path : StateM FileTree Bool) (Disk.isDirectory path) :=
  fun _ _ counterpart => ⟨counterpart.isDirectory path, counterpart⟩

theorem makeDirectory (path : String) :
    Agree Related (Disk.makeDirectory path : StateM FileTree (Except Disk.Error Unit))
      (Disk.makeDirectory path) := by
  intro tree other counterpart
  rw [makeDirectory_apply, makeDirectory_apply, FileTree.makeDirectory, FileTree.makeDirectory,
    counterpart.locateNew]
  cases tree.locateNew path with
  | error e => exact ⟨rfl, counterpart⟩
  | ok place =>
      dsimp only
      obtain ⟨e, first, second⟩ | ⟨here, there, nodes, first, second⟩ :=
        counterpart.look_cases place
      · rw [first, second]
        exact ⟨rfl, counterpart⟩
      · rw [first, second]
        cases nodes with
        | nothing => exact ⟨rfl, counterpart.put .directory⟩
        | directory => exact ⟨rfl, counterpart⟩
        | file => exact ⟨rfl, counterpart⟩

theorem store (path : String) {content content' : Bytes}
    (related : ∀ place, Related place content content') :
    Agree Related (Disk.store path content : StateM FileTree (Except Disk.Error Unit))
      (Disk.store path content') := by
  intro tree other counterpart
  rw [store_apply, store_apply, FileTree.store, FileTree.store, counterpart.locateNew]
  cases tree.locateNew path with
  | error e => exact ⟨rfl, counterpart⟩
  | ok place =>
      dsimp only
      split
      · exact ⟨rfl, counterpart⟩
      · obtain ⟨e, first, second⟩ | ⟨here, there, nodes, first, second⟩ :=
          counterpart.look_cases place
        · rw [first, second]
          exact ⟨rfl, counterpart⟩
        · rw [first, second]
          cases nodes with
          | nothing => exact ⟨rfl, counterpart.put (.file (related place))⟩
          | directory => exact ⟨rfl, counterpart⟩
          | file => exact ⟨rfl, counterpart.put (.file (related place))⟩

end Agree

end FileTree

namespace Store

open FileTree (Agree)

variable {Related : Place → Bytes → Bytes → Prop}

theorem agree_pathExists (path : String) :
    Agree Related (pathExists path : StateM FileTree Bool) (pathExists path) := by
  refine .bind (.isFile path) fun isFile => ?_
  cases isFile with
  | true => exact .pure true
  | false => exact .isDirectory path

theorem agree_makeDirectories (paths : List String) :
    Agree Related (makeDirectories paths : StateM FileTree (Except Disk.Error Unit))
      (makeDirectories paths) := by
  induction paths with
  | nil => exact .pure _
  | cons path outer ih =>
      have settled : ∀ e : Disk.Error, Agree Related
          (do if ← Disk.isDirectory path then pure (.ok ()) else pure (.error e) :
            StateM FileTree (Except Disk.Error Unit))
          (do if ← Disk.isDirectory path then pure (.ok ()) else pure (.error e)) := by
        refine fun e => .bind (.isDirectory path) fun stands => ?_
        split <;> exact .pure _
      rw [makeDirectories]
      refine .bind (.makeDirectory path) fun made => ?_
      split
      · exact .pure _
      · refine .bind ih fun madeAround => ?_
        split
        · exact .pure _
        · refine .bind (.makeDirectory path) fun madeAgain => ?_
          split
          · exact .pure _
          · exact settled _
      · exact settled _

theorem agree_makePath (path : String) :
    Agree Related (makePath path : StateM FileTree (Except Error Unit)) (makePath path) := by
  refine .bind (agree_makeDirectories _) fun made => ?_
  split <;> exact .pure _

theorem agree_makeParent (path : String) :
    Agree Related (makeParent path : StateM FileTree (Except Error Unit)) (makeParent path) := by
  unfold makeParent
  split
  · exact .pure _
  · split
    · exact .pure _
    · refine .bind (agree_pathExists _) fun stands => ?_
      split
      · exact .pure _
      · exact agree_makePath _

theorem agree_writeText (path : String) {text text' : String}
    (related : ∀ place, Related place (Text.encode text) (Text.encode text')) :
    Agree Related (writeText path text : StateM FileTree (Except Error Unit))
      (writeText path text') := by
  refine .bind (.store path related) fun stored => ?_
  split <;> exact .pure _

theorem agree_writeDocument {document document' : Document} (path : String)
    (related : ∀ place,
      Related place (Text.encode document.print) (Text.encode document'.print)) :
    Agree Related (writeDocument document path : StateM FileTree (Except Error Unit))
      (writeDocument document' path) := by
  unfold writeDocument
  split
  · exact .pure _
  · refine .bind (.isDirectory path) fun stands => ?_
    split
    · exact .pure _
    · refine .bind (agree_makeParent path) fun made => ?_
      split
      · exact .pure _
      · exact agree_writeText path related

theorem agree_writeFiles (reflexive : ∀ place content, Related place content content)
    (directory : String) (files : List (String × String)) :
    Agree Related (writeFiles directory files : StateM FileTree (Except Error Unit))
      (writeFiles directory files) := by
  induction files with
  | nil => exact .pure _
  | cons file rest ih =>
      rw [writeFiles]
      refine .bind (agree_writeText _ fun place => reflexive place _) fun written => ?_
      split
      · exact .pure _
      · exact ih

theorem agree_writeTables (reflexive : ∀ place content, Related place content content)
    (path : String) (trace : Trace) :
    Agree Related (writeTables path trace : StateM FileTree (Except Error Unit))
      (writeTables path trace) := by
  refine .bind (.isFile path) fun stands => ?_
  split
  · exact .pure _
  · refine .bind (agree_makePath path) fun made => ?_
    split
    · exact .pure _
    · exact agree_writeFiles reflexive path _

end Store

end EvmTrace
