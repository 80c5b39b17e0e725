import EvmTrace.Proofs.Disk.Places

/-!
What becomes of a tree when directories are made and files are stored. A place that is not named
holds what it held; a directory is made only where nothing stood, and a file never takes the place of
a directory.
-/

set_option autoImplicit false

namespace EvmTrace.FileTree

/-- What a place comes to hold where a directory may be made and where a file may be stored. -/
inductive Turned (made stored : Prop) : Option Node → Option Node → Prop where
  | same (node : Option Node) : Turned made stored node node
  | made (allowed : made) : Turned made stored none (some .directory)
  | stored {node : Option Node} (allowed : stored) (free : node ≠ some .directory)
      (content : Bytes) : Turned made stored node (some (.file content))

/-- A later tree has new directories at some places, new content of files at others, and no more. -/
structure Differs (tree after : FileTree) (made stored : Place → Prop) : Prop where
  working : after.working = tree.working
  places : ∀ place, Turned (made place) (stored place) (tree.get? place) (after.get? place)

theorem Turned.mono {made stored made' stored' : Prop} {first last : Option Node}
    (turned : Turned made stored first last) (wider : made → made') (wider' : stored → stored') :
    Turned made' stored' first last := by
  cases turned with
  | same => exact .same _
  | made allowed => exact .made (wider allowed)
  | stored allowed free content => exact .stored (wider' allowed) free content

theorem Turned.trans {made stored : Prop} {first next last : Option Node}
    (turned : Turned made stored first next) (again : Turned made stored next last) :
    Turned made stored first last := by
  cases again with
  | same => exact turned
  | made allowed =>
      cases turned with
      | same => exact .made allowed
  | stored allowed free content =>
      cases turned with
      | same => exact .stored allowed free content
      | made _ => exact absurd rfl free
      | stored _ free' _ => exact .stored allowed free' content

namespace Differs

variable {tree between after : FileTree} {made stored made' stored' : Place → Prop}

theorem refl (tree : FileTree) (made stored : Place → Prop) : tree.Differs tree made stored :=
  ⟨rfl, fun _ => .same _⟩

theorem mono (differs : tree.Differs after made stored) (wider : ∀ place, made place → made' place)
    (wider' : ∀ place, stored place → stored' place) : tree.Differs after made' stored' :=
  ⟨differs.working, fun place => (differs.places place).mono (wider place) (wider' place)⟩

theorem trans (first : tree.Differs between made stored)
    (last : between.Differs after made stored) : tree.Differs after made stored :=
  ⟨last.working.trans first.working, fun place => (first.places place).trans (last.places place)⟩

theorem keeps (differs : tree.Differs after made stored) : tree.Keeps after := by
  refine ⟨differs.working, fun place directory => ?_⟩
  have turned := differs.places place
  rw [directory] at turned
  generalize after.get? place = last at turned ⊢
  cases turned with
  | same => rfl
  | stored _ free _ => exact absurd rfl free

/-- A place where no file may be stored holds the file that it held. -/
theorem get?_file (differs : tree.Differs after made stored) {place : Place} {content : Bytes}
    (untouched : ¬stored place) (found : tree.get? place = some (.file content)) :
    after.get? place = some (.file content) := by
  have turned := differs.places place
  rw [found] at turned
  generalize after.get? place = last at turned ⊢
  cases turned with
  | same => rfl
  | stored allowed _ _ => exact absurd allowed untouched

/-- A place where no file may be stored stays free, or a directory is made there. -/
theorem get?_free (differs : tree.Differs after made stored) {place : Place}
    (untouched : ¬stored place) (free : tree.get? place = none) :
    after.get? place = none ∨ made place ∧ after.get? place = some .directory := by
  have turned := differs.places place
  rw [free] at turned
  generalize after.get? place = last at turned ⊢
  cases turned with
  | same => exact .inl rfl
  | made allowed => exact .inr ⟨allowed, rfl⟩
  | stored allowed _ _ => exact absurd allowed untouched

/-- A directory that was not made stood before. -/
theorem get?_directory (differs : tree.Differs after made stored) {place : Place}
    (old : ¬made place) (stands : after.get? place = some .directory) :
    tree.get? place = some .directory := by
  have turned := differs.places place
  rw [stands] at turned
  generalize tree.get? place = first at turned ⊢
  cases turned with
  | same => rfl
  | made allowed => exact absurd allowed old

theorem contents (differs : tree.Differs after made stored) {path : String} {content : Bytes}
    (untouched : ¬stored (tree.target path)) (found : tree.contents path = .ok content) :
    after.contents path = .ok content := by
  rw [FileTree.contents, find] at found ⊢
  cases located : tree.locate path with
  | error e =>
      rw [located] at found
      cases found
  | ok place =>
      rw [← target_of_locate located] at untouched
      rw [located] at found
      rw [differs.keeps.locate located]
      dsimp only at found ⊢
      split at found
      · cases found
      · cases found
      · cases found
      · rename_i looked
        obtain ⟨short, stands⟩ := (look_eq_ok_iff tree place _).mp looked
        have still := (look_eq_ok_iff after place _).mpr ⟨short, differs.get?_file untouched stands⟩
        rw [still]
        exact found

end Differs

variable (tree : FileTree)

theorem differs_put_directory {place : Place} (free : tree.get? place = none) :
    tree.Differs (tree.put place .directory) (· = place) fun _ => False := by
  refine ⟨rfl, fun other => ?_⟩
  by_cases here : other = place
  · subst here
    have below : other ≠ [] := by
      rintro rfl
      cases free
    rw [free, tree.get?_put_same other .directory below]
    exact .made rfl
  · rw [tree.get?_put_other place other .directory here]
    exact .same _

theorem differs_put_file {place : Place} (free : tree.get? place ≠ some .directory)
    (content : Bytes) :
    tree.Differs (tree.put place (.file content)) (fun _ => False) (· = place) := by
  refine ⟨rfl, fun other => ?_⟩
  by_cases here : other = place
  · subst here
    have below : other ≠ [] := by
      rintro rfl
      exact free rfl
    rw [tree.get?_put_same other (.file content) below]
    exact .stored rfl free content
  · rw [tree.get?_put_other place other (.file content) here]
    exact .same _

/-- A directory is made at a place where nothing stands, or nothing is changed. -/
theorem makeDirectory_cases (path : String) :
    (∃ place, tree.locateNew path = .ok place ∧ tree.look place = .ok none ∧
        tree.makeDirectory path = (.ok (), tree.put place .directory)) ∨
      ∃ e, tree.makeDirectory path = (.error e, tree) := by
  unfold makeDirectory
  cases tree.locateNew path with
  | error e => exact .inr ⟨e, rfl⟩
  | ok place =>
      cases looked : tree.look place with
      | error e => exact .inr ⟨e, by simp only [looked]⟩
      | ok node =>
          cases node with
          | some node => exact .inr ⟨.alreadyExists, by simp only [looked]⟩
          | none => exact .inl ⟨place, rfl, looked, by simp only [looked]⟩

theorem differs_makeDirectory {made : Place → Prop} {path : String}
    (reached : ∀ place, tree.locateNew path = .ok place → made place) :
    tree.Differs (tree.makeDirectory path).2 made fun _ => False := by
  rcases tree.makeDirectory_cases path with ⟨place, located, looked, new⟩ | ⟨e, refused⟩
  · rw [new]
    have free := ((tree.look_eq_ok_iff place none).mp looked).2
    refine (tree.differs_put_directory free).mono ?_ fun _ never => never
    intro other same
    rw [same]
    exact reached place located
  · rw [refused]
    exact .refl tree _ _

/-- A file is stored, or nothing is changed. -/
theorem store_ok_or_error (path : String) (content : Bytes) :
    (∃ after, tree.store path content = (.ok (), after)) ∨
      ∃ e, tree.store path content = (.error e, tree) := by
  unfold store
  split
  · exact .inr ⟨_, rfl⟩
  · split
    · exact .inr ⟨_, rfl⟩
    · split
      · exact .inr ⟨_, rfl⟩
      · exact .inr ⟨_, rfl⟩
      · exact .inl ⟨_, rfl⟩

theorem differs_store (path : String) (content : Bytes) :
    tree.Differs (tree.store path content).2 (fun _ => False) (· = tree.target path) := by
  rcases tree.store_ok_or_error path content with ⟨after, stored⟩ | ⟨e, refused⟩
  · obtain ⟨place, node, located, openEnded, looked, free, rfl⟩ := store_cases stored
    rw [stored, ← target_of_locateNew openEnded located]
    rw [← ((tree.look_eq_ok_iff place node).mp looked).2] at free
    exact tree.differs_put_file free content
  · rw [refused]
    exact .refl tree _ _

end EvmTrace.FileTree
