import EvmTrace.Disk.FileTree

/-!
Where a file is found after it is stored. A path leads through directories only, and storing a file
takes none of them away, so the path still leads to the place where the file was put.
-/

set_option autoImplicit false

namespace EvmTrace

namespace Path

theorem withoutTrailingSlashes_eq (path : String) (openEnded : endsWithSlash path = false) :
    withoutTrailingSlashes path = path := by
  have last : path.toList.reverse.head? ≠ some '/' := by
    simpa [endsWithSlash, List.head?_reverse] using openEnded
  cases backwards : path.toList.reverse with
  | nil =>
      have empty := List.reverse_eq_nil_iff.mp backwards
      simp [withoutTrailingSlashes, empty, ← String.toList_inj]
  | cons c rest =>
      rw [backwards, List.head?_cons, ne_eq, Option.some.injEq] at last
      have forwards : (c :: rest).reverse = path.toList := by
        rw [← backwards, List.reverse_reverse]
      simp only [withoutTrailingSlashes, backwards, List.dropWhile_cons, last, decide_false,
        Bool.false_eq_true, ↓reduceIte, forwards, String.ofList_toList]

end Path

namespace FileTree

section Computation

variable {α β : Type} (tree : FileTree) (path : String)

@[simp]
theorem bind_apply (first : StateM FileTree α) (next : α → StateM FileTree β) :
    (first >>= next) tree = next (first tree).1 (first tree).2 := rfl

@[simp]
theorem pure_apply (value : α) : (pure value : StateM FileTree α) tree = (value, tree) := rfl

@[simp]
theorem map_apply (change : α → β) (first : StateM FileTree α) :
    (change <$> first) tree = (change (first tree).1, (first tree).2) := rfl

@[simp]
theorem isFile_apply :
    (Disk.isFile path : StateM FileTree Bool) tree = (tree.isFile path, tree) := rfl

@[simp]
theorem isDirectory_apply :
    (Disk.isDirectory path : StateM FileTree Bool) tree = (tree.isDirectory path, tree) := rfl

@[simp]
theorem contents_apply :
    (Disk.contents path : StateM FileTree (Except Disk.Error Bytes)) tree =
      (tree.contents path, tree) := rfl

@[simp]
theorem makeDirectory_apply :
    (Disk.makeDirectory path : StateM FileTree (Except Disk.Error Unit)) tree =
      tree.makeDirectory path := rfl

@[simp]
theorem store_apply (content : Bytes) :
    (Disk.store path content : StateM FileTree (Except Disk.Error Unit)) tree =
      tree.store path content := rfl

end Computation

/-- A clock, which shows a time and changes no file. -/
def clock (times : FileTree → String) : StateM FileTree String :=
  fun tree => (times tree, tree)

variable {tree after : FileTree}

/-- The directories of a tree are directories of a later one, and paths begin at the same place. -/
structure Keeps (tree after : FileTree) : Prop where
  working : after.working = tree.working
  directories : ∀ place, tree.get? place = some .directory → after.get? place = some .directory

theorem look_eq_ok_iff (tree : FileTree) (place : Place) (node : Option Node) :
    tree.look place = .ok node ↔
      (place.any fun name => nameLimit < name.utf8ByteSize) = false ∧ tree.get? place = node := by
  unfold look
  split
  · rename_i long
    simp only [reduceCtorEq, long, Bool.true_eq_false, false_and]
  · rename_i short
    simp only [Except.ok.injEq, short, true_and]

theorem Keeps.look_directory (keeps : tree.Keeps after) (place : Place)
    (found : tree.look place = .ok (some .directory)) :
    after.look place = .ok (some .directory) := by
  rw [look_eq_ok_iff] at found ⊢
  exact ⟨found.1, keeps.directories place found.2⟩

theorem Keeps.follow (keeps : tree.Keeps after) (parts : List String) (place target : Place)
    (leads : tree.follow place parts = .ok target) : after.follow place parts = .ok target := by
  induction parts generalizing place with
  | nil => exact leads
  | cons part rest ih =>
      rw [FileTree.follow] at leads ⊢
      split at leads
      · cases leads
      · cases leads
      · cases leads
      · rename_i found
        rw [keeps.look_directory place found]
        split at leads
        · rename_i blank
          simp only [blank, ↓reduceIte]
          exact ih place leads
        · rename_i named
          simp only [named, Bool.false_eq_true, ↓reduceIte]
          split at leads
          · rename_i up
            simp only [up, ↓reduceIte]
            exact ih place.dropLast leads
          · rename_i down
            simp only [down, ↓reduceIte]
            exact ih (place ++ [part]) leads

theorem keeps_put (tree : FileTree) (place : Place) (node : Node)
    (free : tree.get? place ≠ some .directory) : tree.Keeps (tree.put place node) := by
  refine ⟨rfl, fun other directory => ?_⟩
  have apart : other ≠ place := by
    intro same
    rw [same] at directory
    exact free directory
  rw [get?_put_other tree place other node apart, directory]

/-- What a file that was stored has replaced, and where it stands. -/
theorem store_cases {path : String} {content : Bytes}
    (stored : tree.store path content = (.ok (), after)) :
    ∃ place node, tree.locateNew path = .ok place ∧ Path.endsWithSlash path = false ∧
      tree.look place = .ok node ∧ node ≠ some .directory ∧
      after = tree.put place (.file content) := by
  unfold store at stored
  split at stored
  · cases stored
  · rename_i place located
    split at stored
    · cases stored
    · rename_i closed
      have openEnded : Path.endsWithSlash path = false := by simpa using closed
      split at stored
      · cases stored
      · cases stored
      · rename_i free found
        cases stored
        exact ⟨place, _, located, openEnded, found, free, rfl⟩

theorem locate_of_locateNew {path : String} {place : Place}
    (openEnded : Path.endsWithSlash path = false)
    (located : tree.locateNew path = .ok place) : tree.locate path = .ok place := by
  rwa [locateNew, Path.withoutTrailingSlashes_eq path openEnded] at located

theorem Keeps.locate (keeps : tree.Keeps after) {path : String} {place : Place}
    (located : tree.locate path = .ok place) : after.locate path = .ok place := by
  unfold FileTree.locate at located ⊢
  split
  · rename_i bad
    rw [bad] at located
    cases located
  · rename_i good
    rw [good] at located
    have begins : after.start path = tree.start path := by
      rw [start, start, keeps.working]
    rw [begins]
    exact keeps.follow _ _ _ located

/-- A file that was stored is found by its path, with what was stored. -/
theorem contents_store {path : String} {content : Bytes}
    (stored : tree.store path content = (.ok (), after)) :
    after.contents path = .ok content := by
  obtain ⟨place, node, located, openEnded, found, free, rfl⟩ := store_cases stored
  obtain ⟨short, node_eq⟩ := (look_eq_ok_iff tree place node).mp found
  have unoccupied : tree.get? place ≠ some .directory := by
    rw [node_eq]
    exact free
  have below : place ≠ [] := by
    intro top
    apply unoccupied
    rw [top, get?, if_pos rfl]
  have keeps := tree.keeps_put place (.file content) unoccupied
  have still := keeps.locate (locate_of_locateNew openEnded located)
  have stands : (tree.put place (.file content)).look place = .ok (some (.file content)) := by
    rw [look_eq_ok_iff]
    exact ⟨short, tree.get?_put_same place (.file content) below⟩
  rw [contents, find, still]
  simp only [stands]

end FileTree

end EvmTrace
