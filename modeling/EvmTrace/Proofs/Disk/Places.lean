import EvmTrace.Proofs.Disk.Storing
import EvmTrace.Proofs.Text.Joined

/-!
Where paths lead. The parts of a path alone settle the place that it leads to; the tree only decides
whether the way there is open, which takes a directory at every place that the path passes.
-/

set_option autoImplicit false

namespace EvmTrace

namespace FileTree

def next (place : Place) (part : String) : Place :=
  if Path.isBlank part then place
  else if part = ".." then place.dropLast
  else place ++ [part]

def along (place : Place) (parts : List String) : Place :=
  parts.foldl next place

/-- The places from which the parts of a path go on. -/
def passed (place : Place) : List String → List Place
  | [] => []
  | part :: rest => place :: passed (next place part) rest

/-- The place that a path leads to, if the way is open. -/
def target (tree : FileTree) (path : String) : Place :=
  along (tree.start path) (Text.split '/' path)

def way (tree : FileTree) (path : String) : List Place :=
  passed (tree.start path) (Text.split '/' path)

theorem along_append (place : Place) (front back : List String) :
    along place (front ++ back) = along (along place front) back :=
  List.foldl_append

theorem passed_append (place : Place) (front back : List String) :
    passed place (front ++ back) = passed place front ++ passed (along place front) back := by
  induction front generalizing place with
  | nil => rfl
  | cons part rest ih =>
      rw [List.cons_append, passed, passed, ih (next place part), List.cons_append]
      rfl

/-- The end of a part of the way is passed when the way goes on. -/
theorem along_mem_passed (place : Place) (front : List String) {back : List String}
    (goesOn : back ≠ []) : along place front ∈ passed place (front ++ back) := by
  obtain ⟨part, rest, rfl⟩ := List.exists_cons_of_ne_nil goesOn
  rw [passed_append, passed]
  exact List.mem_append_right _ List.mem_cons_self

theorem exists_of_mem_passed {place stop : Place} {parts : List String}
    (inside : stop ∈ passed place parts) :
    ∃ front back, parts = front ++ back ∧ stop = along place front := by
  induction parts generalizing place with
  | nil => cases inside
  | cons part rest ih =>
      rw [passed] at inside
      rcases List.mem_cons.mp inside with rfl | later
      · exact ⟨[], part :: rest, rfl, rfl⟩
      · obtain ⟨front, back, rfl, reached⟩ := ih later
        exact ⟨part :: front, back, rfl, reached⟩

theorem follow_cons (tree : FileTree) {place : Place}
    (here : tree.look place = .ok (some .directory)) (part : String) (rest : List String) :
    tree.follow place (part :: rest) = tree.follow (next place part) rest := by
  rw [follow]
  simp only [here, next]
  split
  · rfl
  · split <;> rfl

/-- A path leads where its parts do, if every place that it passes is a directory. -/
theorem follow_eq_ok_iff (tree : FileTree) (parts : List String) (place goal : Place) :
    tree.follow place parts = .ok goal ↔
      (∀ stop ∈ passed place parts, tree.look stop = .ok (some .directory)) ∧
        along place parts = goal := by
  induction parts generalizing place with
  | nil => simp [follow, passed, along]
  | cons part rest ih =>
      by_cases here : tree.look place = .ok (some .directory)
      · rw [tree.follow_cons here, ih, passed, List.forall_mem_cons]
        simp only [here, true_and]
        rfl
      · rw [passed, List.forall_mem_cons]
        simp only [here, false_and, iff_false]
        rw [follow]
        split
        · simp
        · simp
        · simp
        · rename_i found
          exact absurd found here

variable {tree after : FileTree} {path : String} {place : Place}

theorem start_congr (same : after.working = tree.working) (path : String) :
    after.start path = tree.start path := by
  rw [start, start, same]

theorem target_congr (same : after.working = tree.working) (path : String) :
    after.target path = tree.target path := by
  rw [target, target, start_congr same]

theorem way_congr (same : after.working = tree.working) (path : String) :
    after.way path = tree.way path := by
  rw [way, way, start_congr same]

theorem target_of_locate (located : tree.locate path = .ok place) : place = tree.target path := by
  rw [locate] at located
  split at located
  · cases located
  · exact ((tree.follow_eq_ok_iff _ _ _).mp located).2.symm

theorem target_of_locateNew (openEnded : Path.endsWithSlash path = false)
    (located : tree.locateNew path = .ok place) : place = tree.target path :=
  target_of_locate (locate_of_locateNew openEnded located)

end FileTree

namespace Path

/-- A part of a path that names a file or a directory. -/
structure Named (name : String) : Prop where
  shown : isBlank name = false
  down : name ≠ ".."
  whole : '/' ∉ name.toList

theorem split_slash {path before : String} (ended : path.toList = before.toList ++ ['/']) :
    Text.split '/' path = Text.split '/' before ++ [""] := by
  have divided : path.toList = before.toList ++ '/' :: "".toList := ended
  exact Text.split_divided divided

theorem exists_of_endsWithSlash {path : String} (ended : endsWithSlash path = true) :
    ∃ before : String, path.toList = before.toList ++ ['/'] := by
  have last : path.toList.getLast? = some '/' := by simpa [endsWithSlash] using ended
  obtain ⟨before, whole⟩ := List.getLast?_eq_some_iff.mp last
  exact ⟨String.ofList before, by rw [whole, String.toList_ofList]⟩

/-- The parts of a directory's path, and what stands between them and those of a name in it. -/
theorem split_join {name : String} (whole : '/' ∉ name.toList) (directory : String) :
    (directory = "" ∧ Text.split '/' (join directory name) = [name]) ∨
      ∃ parts, (Text.split '/' directory = parts ∨ Text.split '/' directory = parts ++ [""]) ∧
        Text.split '/' (join directory name) = parts ++ [name] := by
  have single : Text.split '/' name = [name] := Text.split_of_not_mem whole
  by_cases empty : directory = ""
  · refine .inl ⟨empty, ?_⟩
    rw [empty, join, if_pos (.inl rfl), String.empty_append, single]
  · have shown : directory.isEmpty = false := by simpa using empty
    cases ended : endsWithSlash directory with
    | true =>
        obtain ⟨before, whole_directory⟩ := exists_of_endsWithSlash ended
        have last : directory.toList.getLast? = some '/' := by simpa [endsWithSlash] using ended
        refine .inr ⟨Text.split '/' before, .inr (split_slash whole_directory), ?_⟩
        have divided : (join directory name).toList = before.toList ++ '/' :: name.toList := by
          rw [join, if_pos (.inr last), String.toList_append, whole_directory]
          simp
        rw [Text.split_divided divided, single]
    | false =>
        have last : directory.toList.getLast? ≠ some '/' := by simpa [endsWithSlash] using ended
        refine .inr ⟨Text.split '/' directory, .inl rfl, ?_⟩
        have divided : (join directory name).toList = directory.toList ++ '/' :: name.toList := by
          rw [join, if_neg (by simp [shown, last]), String.toList_append, String.toList_append]
          simp
        rw [Text.split_divided divided, single]

/-- A path in a directory begins where the path of the directory does. -/
theorem beginsWithSlash_join {name : String} (whole : '/' ∉ name.toList) (directory : String) :
    beginsWithSlash (join directory name) = beginsWithSlash directory := by
  cases begun : directory.toList with
  | nil =>
      have empty : directory = "" := by simpa using begun
      have other : name.toList.head? ≠ some '/' := fun first =>
        whole (List.mem_of_mem_head? first)
      simp [beginsWithSlash, join, empty, other]
  | cons c rest =>
      rw [beginsWithSlash, beginsWithSlash, join]
      split <;> simp [begun]

end Path

namespace FileTree

variable (tree : FileTree) (directory : String) {name : String}

theorem start_join (whole : '/' ∉ name.toList) :
    tree.start (Path.join directory name) = tree.start directory := by
  rw [start, start, Path.beginsWithSlash_join whole]

theorem next_blank (place : Place) : next place "" = place := rfl

theorem next_of_named (shown : Path.isBlank name = false) (down : name ≠ "..") (place : Place) :
    next place name = place ++ [name] := by
  rw [next, if_neg (by simp [shown]), if_neg down]

/-- A name in a directory leads to the place of that name below the place of the directory. -/
theorem target_join (named : Path.Named name) :
    tree.target (Path.join directory name) = tree.target directory ++ [name] := by
  rw [target, tree.start_join directory named.whole, target]
  rcases Path.split_join named.whole directory with ⟨rfl, joined⟩ | ⟨parts, own, joined⟩
  · rw [joined]
    exact next_of_named named.shown named.down _
  · have ends : along (tree.start directory) (Text.split '/' directory) =
        along (tree.start directory) parts := by
      rcases own with own | own
      · rw [own]
      · rw [own, along_append]
        rfl
    rw [joined, ends, along_append]
    exact next_of_named named.shown named.down _

/-- Different names in a directory lead to different places. -/
theorem target_join_inj {other : String} (named : Path.Named name) (named' : Path.Named other)
    (same : tree.target (Path.join directory name) = tree.target (Path.join directory other)) :
    name = other := by
  rw [tree.target_join directory named, tree.target_join directory named'] at same
  simpa using (List.append_inj' same rfl).2

/-- The way to a name in a directory is the way to the directory and the directory itself. -/
theorem mem_way_join (whole : '/' ∉ name.toList) (place : Place) :
    place ∈ tree.way (Path.join directory name) ↔
      place ∈ tree.way directory ∨ place = tree.target directory := by
  rw [way, tree.start_join directory whole, way, target]
  rcases Path.split_join whole directory with ⟨rfl, joined⟩ | ⟨parts, own, joined⟩
  · have blank : Text.split '/' "" = [""] := rfl
    rw [joined, blank]
    simp [passed, along, next_blank]
  · have last : ∀ part : String, place ∈ passed (tree.start directory) (parts ++ [part]) ↔
        place ∈ passed (tree.start directory) parts ∨
          place = along (tree.start directory) parts := by
      intro part
      rw [passed_append, List.mem_append, passed, passed, List.mem_singleton]
    rw [joined, last]
    rcases own with own | own
    · rw [own]
    · rw [own, last, along_append]
      simp [along, next_blank]

end FileTree

end EvmTrace
