import EvmTrace.Proofs.Disk.Ancestors
import EvmTrace.Proofs.Disk.Changes
import Mathlib.Data.List.Chain
import Mathlib.Data.List.Induction

/-!
Directories inside each other. Each of the directories around a path leads one name further, or one
level up, than the next one, so that nothing stands at the end of a path if nothing stands where the
directory around it would be.
-/

set_option autoImplicit false

namespace EvmTrace

namespace Path

theorem exists_blanks_of_shortened {parts first : List String} {rest : List (List String)}
    (shape : shortened parts = first :: rest) :
    ∃ blanks, (∀ blank ∈ blanks, isBlank blank = true) ∧ parts = blanks ++ first := by
  induction parts with
  | nil => cases shape
  | cons part outer ih =>
      rw [shortened] at shape
      split at shape
      · rename_i dropped
        have blank : isBlank part = true := by simp_all
        obtain ⟨blanks, each, rfl⟩ := ih shape
        exact ⟨part :: blanks, List.forall_mem_cons.mpr ⟨blank, each⟩, rfl⟩
      · obtain ⟨rfl, _⟩ := List.cons.inj shape
        exact ⟨[], by simp, rfl⟩

/-- Shortened once more, a list of parts loses one part and the blank ones behind it. -/
theorem isChain_shortened (parts : List String) :
    (shortened parts).IsChain fun inner outer =>
      ∃ part blanks, isBlank part = false ∧ (∀ blank ∈ blanks, isBlank blank = true) ∧
        inner = part :: (blanks ++ outer) := by
  induction parts with
  | nil => exact .nil
  | cons part outer ih =>
      rw [shortened]
      split
      · exact ih
      · rename_i kept
        refine List.isChain_cons.mpr ⟨fun next first => ?_, ih⟩
        obtain ⟨rest, shape⟩ := List.head?_eq_some_iff.mp first
        obtain ⟨blanks, each, parts⟩ := exists_blanks_of_shortened shape
        have goesOn : outer ≠ [] := by
          rintro rfl
          cases shape
        have named : isBlank part = false := by simpa [goesOn] using kept
        exact ⟨part, blanks, named, each, by rw [parts]⟩

/-- A path begins with the paths of the directories around it. -/
theorem exists_append_of_ancestor {path outer : String} (inside : outer ∈ ancestors path) :
    outer ≠ "" ∧ ∃ rest, path = outer ++ rest := by
  obtain ⟨shown, list, shorter, rfl⟩ := exists_of_mem_ancestors inside
  rcases cases_of_mem_shortened shown shorter with ⟨rfl, begun⟩ | ⟨own, _, _⟩
  · have first : path.toList.head? = some '/' := by simpa [beginsWithSlash] using begun
    obtain ⟨rest, whole⟩ := List.head?_eq_some_iff.mp first
    have slash : ofParts [""] = "/" := rfl
    refine ⟨by decide, String.ofList rest, ?_⟩
    rw [slash, ← String.toList_inj, whole]
    simp
  · have filled : list ≠ [] := by
      rintro rfl
      exact Text.split_ne_nil _ own
    have named : list ≠ [""] := by
      rintro rfl
      exact absurd own (by decide +kernel)
    refine ⟨fun empty => named ?_, ?_⟩
    · rw [empty] at own
      exact List.reverse_inj.mp own.symm
    · obtain ⟨back, parts⟩ := exists_split_of_shortened shorter
      rw [ofParts_eq named, ← intercalate_split path, parts]
      by_cases last : back = []
      · exact ⟨"", by rw [last, List.append_nil, String.append_empty]⟩
      · rw [String.intercalate_append_of_ne_nil (by simpa using filled) last, String.append_assoc]
        exact ⟨_, rfl⟩

end Path

namespace FileTree

variable {tree : FileTree} {path outer : String}

theorem badPath?_eq_none_iff (path : String) :
    badPath? path = none ↔
      '\x00' ∉ path.toList ∧ path ≠ "" ∧ path.utf8ByteSize ≤ pathLimit := by
  rw [badPath?]
  by_cases zero : '\x00' ∈ path.toList
  · simp [zero]
  · by_cases empty : path = ""
    · simp [empty]
    · by_cases long : pathLimit < path.utf8ByteSize
      · simp [zero, empty, long]
      · simp [zero, empty, long, Nat.le_of_not_lt long]

/-- The path of a directory around a path that is allowed is allowed. -/
theorem badPath?_of_ancestor (inside : outer ∈ Path.ancestors path)
    (allowed : badPath? path = none) : badPath? outer = none := by
  obtain ⟨shown, rest, rfl⟩ := Path.exists_append_of_ancestor inside
  rw [badPath?_eq_none_iff] at allowed ⊢
  obtain ⟨clean, _, bounded⟩ := allowed
  rw [String.toList_append, List.mem_append, not_or] at clean
  rw [String.utf8ByteSize_append] at bounded
  exact ⟨clean.1, shown, by omega⟩

theorem locate_eq_ok_iff (tree : FileTree) (path : String) (place : Place) :
    tree.locate path = .ok place ↔
      badPath? path = none ∧ (∀ stop ∈ tree.way path, tree.look stop = .ok (some .directory)) ∧
        tree.target path = place := by
  rw [locate]
  cases badPath? path with
  | some e => simp
  | none =>
      simp only [true_and]
      exact tree.follow_eq_ok_iff (Text.split '/' path) (tree.start path) place

theorem isDirectory_iff (tree : FileTree) (path : String) :
    tree.isDirectory path = true ↔
      badPath? path = none ∧
        ∀ place, place ∈ tree.way path ∨ place = tree.target path →
          tree.look place = .ok (some .directory) := by
  constructor
  · intro found
    rw [isDirectory, find] at found
    cases located : tree.locate path with
    | error e => simp [located] at found
    | ok place =>
        obtain ⟨allowed, way, rfl⟩ := (tree.locate_eq_ok_iff path place).mp located
        rw [located] at found
        refine ⟨allowed, fun place reached => ?_⟩
        rcases reached with passes | rfl
        · exact way place passes
        · dsimp only at found
          split at found
          · assumption
          · cases found
  · rintro ⟨allowed, reached⟩
    have located := (tree.locate_eq_ok_iff path (tree.target path)).mpr
      ⟨allowed, fun stop passes => reached stop (.inl passes), rfl⟩
    rw [isDirectory, find, located]
    simp only [reached _ (.inr rfl)]

theorem Keeps.isDirectory {after : FileTree} (keeps : tree.Keeps after)
    (stands : tree.isDirectory path = true) : after.isDirectory path = true := by
  rw [isDirectory_iff] at stands ⊢
  refine ⟨stands.1, fun place reached => ?_⟩
  rw [way_congr keeps.working, target_congr keeps.working] at reached
  exact keeps.look_directory place (stands.2 place reached)

/--
Nothing but a file in place of a directory, or a directory in place of a file, can keep something
from being stored at the end of a path: what stands in the tree stands in directories, no name is too
long, and a part that leads up leads out of a directory that stands already.
-/
structure Orderly (tree : FileTree) (path : String) : Prop where
  closed : ∀ place name, tree.get? (place ++ [name]) ≠ none → tree.get? place = some .directory
  allowed : badPath? path = none
  short : ∀ place, place ∈ tree.way path ∨ place = tree.target path →
    (place.any fun name => nameLimit < name.utf8ByteSize) = false
  climbs : ∀ front back, Text.split '/' path = front ++ ".." :: back →
    tree.get? (along (tree.start path) front) = some .directory

/-- A path leads one name further or one level up from where the path of a directory leads. -/
structure Follows (tree : FileTree) (path outer : String) : Prop where
  way : ∀ place ∈ tree.way path, place ∈ tree.way outer ∨ place = tree.target outer
  target : ∃ part, Path.isBlank part = false ∧
    (part = ".." → tree.get? (tree.target outer) = some .directory) ∧
    tree.target path = next (tree.target outer) part

theorem exists_mem_of_listed {place : Place} {nodes : List (Place × Node)}
    (something : listed place nodes ≠ none) : ∃ node, (place, node) ∈ nodes := by
  induction nodes with
  | nil => exact absurd rfl something
  | cons entry rest ih =>
      obtain ⟨other, node⟩ := entry
      rw [listed] at something
      split at something
      · rename_i same
        exact ⟨node, by rw [same]; exact List.mem_cons_self⟩
      · obtain ⟨node, inside⟩ := ih something
        exact ⟨node, List.mem_cons_of_mem _ inside⟩

theorem along_blanks {blanks : List String} (each : ∀ blank ∈ blanks, Path.isBlank blank = true)
    (place : Place) : along place blanks = place := by
  induction blanks with
  | nil => rfl
  | cons blank rest ih =>
      obtain ⟨first, others⟩ := List.forall_mem_cons.mp each
      have stays : next place blank = place := by rw [next, if_pos first]
      rw [along, List.foldl_cons, stays]
      exact ih others

theorem eq_of_mem_passed_blanks {blanks : List String}
    (each : ∀ blank ∈ blanks, Path.isBlank blank = true) {place stop : Place}
    (inside : stop ∈ passed place blanks) : stop = place := by
  induction blanks with
  | nil => cases inside
  | cons blank rest ih =>
      obtain ⟨first, others⟩ := List.forall_mem_cons.mp each
      have stays : next place blank = place := by rw [next, if_pos first]
      rw [passed, stays] at inside
      rcases List.mem_cons.mp inside with here | later
      · exact here
      · exact ih others later

namespace Orderly

/-- What is to be checked of a given tree and a path without parts that lead up. -/
theorem of_nodes
    (nodes : ∀ entry ∈ tree.nodes, tree.get? entry.1.dropLast = some .directory)
    (allowed : badPath? path = none)
    (short : ∀ place ∈ tree.target path :: tree.way path,
      (place.any fun name => nameLimit < name.utf8ByteSize) = false)
    (straight : ".." ∉ Text.split '/' path) : tree.Orderly path := by
  refine ⟨fun place name something => ?_, allowed, fun place reached => ?_, fun front back parts => ?_⟩
  · rw [get?, if_neg (by simp)] at something
    obtain ⟨node, inside⟩ := exists_mem_of_listed something
    have around := nodes _ inside
    rwa [List.dropLast_concat] at around
  · exact short place (List.mem_cons.mpr reached.symm)
  · apply absurd _ straight
    rw [parts]
    simp

/-- Each of the directories around a path follows the next one. -/
theorem isChain_ancestors (orderly : tree.Orderly path) :
    (Path.ancestors path).IsChain tree.Follows := by
  rw [Path.ancestors]
  split
  · exact .nil
  · rename_i empty
    have shown : path ≠ "" := by simpa using empty
    rw [List.isChain_map]
    refine (Path.isChain_shortened _).imp_of_mem_imp ?_
    rintro inner outer insideInner insideOuter ⟨part, blanks, named, each, rfl⟩
    have forward : (part :: (blanks ++ outer)).reverse =
        outer.reverse ++ blanks.reverse ++ [part] := by simp
    have blank : ∀ blank ∈ blanks.reverse, Path.isBlank blank = true := by simpa using each
    have still : along (tree.start path) (outer.reverse ++ blanks.reverse) =
        along (tree.start path) outer.reverse := by
      rw [along_append, along_blanks blank]
    have ends := tree.target_of_shortened shown insideOuter
    refine ⟨fun place passes => ?_, part, named, fun up => ?_, ?_⟩
    · rw [tree.mem_way_of_shortened shown insideInner, forward, passed_append, passed_append,
        List.mem_append, List.mem_append, still] at passes
      rw [tree.mem_way_of_shortened shown insideOuter, ends]
      rcases passes with (passes | passes) | passes
      · exact .inl passes
      · exact .inr (eq_of_mem_passed_blanks blank passes)
      · exact .inr (List.mem_singleton.mp passes)
    · obtain ⟨back, parts⟩ := Path.exists_split_of_shortened insideInner
      rw [forward, up, List.append_assoc] at parts
      have stands := orderly.climbs _ back parts
      rwa [still, ← ends] at stands
    · rw [tree.target_of_shortened shown insideInner, forward, along_append, still, ends]
      rfl

/-- What is true of a path is true of the paths of the directories around it. -/
theorem ancestor (orderly : tree.Orderly path) (inside : outer ∈ Path.ancestors path) :
    tree.Orderly outer := by
  refine ⟨orderly.closed, badPath?_of_ancestor inside orderly.allowed, fun place reached => ?_,
    fun front back parts => ?_⟩
  · exact orderly.short place (tree.mem_way_of_ancestor inside reached)
  · obtain ⟨shown, list, shorter, rfl⟩ := Path.exists_of_mem_ancestors inside
    rcases Path.cases_of_mem_shortened shown shorter with ⟨rfl, _⟩ | ⟨own, _, begins⟩
    · have blank : ".." ∈ Text.split '/' (Path.ofParts [""]) := by
        rw [parts]
        simp
      exact absurd blank (by decide +kernel)
    · obtain ⟨more, whole⟩ := Path.exists_split_of_shortened shorter
      rw [start, begins, ← start]
      apply orderly.climbs front (back ++ more)
      rw [whole, ← own, parts, List.append_assoc, List.cons_append]

/-- What is no directory holds nothing. -/
theorem get?_below (orderly : tree.Orderly path) {place : Place}
    (free : tree.get? place ≠ some .directory) (name : String) :
    tree.get? (place ++ [name]) = none := by
  by_contra something
  exact free (orderly.closed place name something)

theorem get?_beneath (orderly : tree.Orderly path) {place : Place}
    (free : tree.get? place ≠ some .directory) {more : Place} (below : more ≠ []) :
    tree.get? (place ++ more) = none := by
  induction more using List.reverseRecOn with
  | nil => exact absurd rfl below
  | append_singleton inner name ih =>
      rw [← List.append_assoc]
      apply orderly.get?_below
      by_cases direct : inner = []
      · rwa [direct, List.append_nil]
      · simp [ih direct]

/-- The rest of a path does not lead back from below a place that is no directory. -/
theorem along_beneath (orderly : tree.Orderly path) {place : Place}
    (free : tree.get? place ≠ some .directory) {front back : List String}
    (parts : Text.split '/' path = front ++ back)
    (below : ∃ more, more ≠ [] ∧ along (tree.start path) front = place ++ more) :
    ∃ more, more ≠ [] ∧ tree.target path = place ++ more := by
  induction back generalizing front with
  | nil =>
      rw [List.append_nil] at parts
      rwa [target, parts]
  | cons part back ih =>
      obtain ⟨more, filled, reached⟩ := below
      have parts' : Text.split '/' path = front ++ [part] ++ back := by
        rw [parts, List.append_assoc]
        rfl
      apply ih parts'
      have goesOn : along (tree.start path) (front ++ [part]) = next (place ++ more) part := by
        rw [along_append, reached]
        rfl
      rw [goesOn, next]
      split
      · exact ⟨more, filled, rfl⟩
      · split
        · rename_i up
          have stands := orderly.climbs front back (by rw [parts, up])
          rw [reached, orderly.get?_beneath free filled] at stands
          cases stands
        · exact ⟨more ++ [part], by simp, List.append_assoc place more [part]⟩

/-- A path to a place that is no directory passes no place below it. -/
theorem not_mem_way_beneath (orderly : tree.Orderly path)
    (free : tree.get? (tree.target path) ≠ some .directory) {more : Place} (below : more ≠ []) :
    tree.target path ++ more ∉ tree.way path := by
  intro passes
  obtain ⟨front, back, parts, reached⟩ := exists_of_mem_passed passes
  obtain ⟨again, filled, same⟩ := orderly.along_beneath free parts ⟨more, below, reached.symm⟩
  have sizes := congrArg List.length same
  rw [List.length_append] at sizes
  have positive := List.length_pos_of_ne_nil filled
  omega

end Orderly

end FileTree

end EvmTrace
