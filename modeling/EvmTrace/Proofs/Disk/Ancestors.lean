import EvmTrace.Proofs.Disk.Places

set_option autoImplicit false

namespace EvmTrace

namespace Path

/-- A shortened list of parts ends where the whole list does and begins with a name, if it can. -/
theorem exists_of_mem_shortened {parts list : List String} (inside : list ∈ shortened parts) :
    ∃ part outer, list = part :: outer ∧ list <:+ parts ∧ (isBlank part = true → outer = []) := by
  induction parts with
  | nil => cases inside
  | cons part outer ih =>
      have deeper : list ∈ shortened outer → ∃ part' outer', list = part' :: outer' ∧
          list <:+ part :: outer ∧ (isBlank part' = true → outer' = []) := by
        intro later
        obtain ⟨part', outer', shape, suffix, last⟩ := ih later
        exact ⟨part', outer', shape, suffix.trans (List.suffix_cons part outer), last⟩
      rw [shortened] at inside
      split at inside
      · exact deeper inside
      · rename_i kept
        rcases List.mem_cons.mp inside with rfl | later
        · refine ⟨part, outer, rfl, List.suffix_refl _, fun blank => ?_⟩
          simpa [blank] using kept
        · exact deeper later

theorem ofParts_eq {parts : List String} (named : parts ≠ [""]) :
    ofParts parts = "/".intercalate parts.reverse := by
  unfold ofParts
  split
  · exact absurd rfl named
  · rfl

theorem split_ofParts {parts : List String} (some_part : parts ≠ []) (named : parts ≠ [""])
    (whole : ∀ part ∈ parts, '/' ∉ part.toList) : Text.split '/' (ofParts parts) = parts.reverse := by
  rw [ofParts_eq named]
  apply Text.split_intercalate rfl
  · simpa using some_part
  · intro part inside
    exact whole part (List.mem_reverse.mp inside)

theorem intercalate_split (path : String) : "/".intercalate (Text.split '/' path) = path :=
  Text.intercalate_split rfl path

theorem beginsWithSlash_eq {path first : String} {rest : List String}
    (parts : Text.split '/' path = first :: rest) :
    beginsWithSlash path = decide (first = "" ∧ rest ≠ []) := by
  have whole : '/' ∉ first.toList :=
    Text.not_mem_of_mem_split (parts ▸ List.mem_cons_self)
  have path_eq := intercalate_split path
  rw [parts] at path_eq
  rw [← path_eq, beginsWithSlash]
  cases rest with
  | nil =>
      have other : first.toList.head? ≠ some '/' := fun here => whole (List.mem_of_mem_head? here)
      simp [other]
  | cons second rest =>
      rw [String.intercalate_cons_cons, String.toList_append, String.toList_append]
      cases shown : first.toList with
      | nil => simp [String.toList_eq_nil_iff.mp shown]
      | cons c more =>
          have other : c ≠ '/' := by
            intro same
            apply whole
            rw [shown, same]
            exact List.mem_cons_self
          have filled : first ≠ "" := by
            intro empty
            simp [empty] at shown
          simp [other, filled]

theorem exists_split_of_shortened {path : String} {list : List String}
    (inside : list ∈ shortened (Text.split '/' path).reverse) :
    ∃ back, Text.split '/' path = list.reverse ++ back := by
  obtain ⟨_, _, _, ⟨front, parts⟩, _⟩ := exists_of_mem_shortened inside
  refine ⟨front.reverse, ?_⟩
  rw [← List.reverse_append, parts, List.reverse_reverse]

/-- A path whose last part is not empty does not end in a slash. -/
theorem endsWithSlash_of_last {path last : String} {front : List String}
    (parts : Text.split '/' path = front ++ [last]) (filled : last ≠ "") :
    endsWithSlash path = false := by
  rw [Bool.eq_false_iff]
  intro ended
  obtain ⟨before, whole⟩ := exists_of_endsWithSlash ended
  rw [split_slash whole] at parts
  have blank : "" = last := by simpa using (List.append_inj' parts rfl).2
  exact filled blank.symm

/-- Further parts do not change where a path begins, unless it has no part but an empty one. -/
theorem beginsWithSlash_of_longer {path outer : String} {back : List String}
    (parts : Text.split '/' path = Text.split '/' outer ++ back)
    (filled : Text.split '/' outer ≠ [""]) : beginsWithSlash outer = beginsWithSlash path := by
  obtain ⟨first, rest, forward⟩ := List.exists_cons_of_ne_nil (Text.split_ne_nil outer)
  rw [forward, List.cons_append] at parts
  rw [beginsWithSlash_eq forward, beginsWithSlash_eq parts]
  by_cases empty : first = ""
  · have goesOn : rest ≠ [] := by
      rintro rfl
      exact filled (by rw [forward, empty])
    simp [empty, goesOn]
  · simp [empty]

/-- The path of a directory around a path is a slash alone, or its parts are the first parts. -/
theorem cases_of_mem_shortened {path : String} {list : List String} (shown : path ≠ "")
    (inside : list ∈ shortened (Text.split '/' path).reverse) :
    list = [""] ∧ beginsWithSlash path = true ∨
      Text.split '/' (ofParts list) = list.reverse ∧ endsWithSlash (ofParts list) = false ∧
        beginsWithSlash (ofParts list) = beginsWithSlash path := by
  obtain ⟨part, outer, shape, suffix, last⟩ := exists_of_mem_shortened inside
  obtain ⟨back, parts⟩ := exists_split_of_shortened inside
  by_cases top : list = [""]
  · subst top
    refine .inl ⟨rfl, ?_⟩
    have goesOn : back ≠ [] := by
      rintro rfl
      apply shown
      rw [← intercalate_split path, parts]
      rfl
    rw [beginsWithSlash_eq parts]
    simpa using goesOn
  · have whole : ∀ part ∈ list, '/' ∉ part.toList := by
      intro part member
      have within : part ∈ Text.split '/' path := by
        rw [parts]
        exact List.mem_append_left _ (List.mem_reverse.mpr member)
      exact Text.not_mem_of_mem_split within
    have own := split_ofParts (by simp [shape]) top whole
    refine .inr ⟨own, ?_, ?_⟩
    · rw [shape, List.reverse_cons] at own
      rw [shape]
      refine endsWithSlash_of_last own fun blank => top ?_
      rw [shape, blank, last (by rw [blank]; rfl)]
    · refine beginsWithSlash_of_longer (by rw [parts, own]) fun single => top ?_
      rw [own] at single
      exact List.reverse_eq_iff.mp single

theorem exists_of_mem_ancestors {path outer : String} (inside : outer ∈ ancestors path) :
    path ≠ "" ∧ ∃ list ∈ shortened (Text.split '/' path).reverse, ofParts list = outer := by
  rw [ancestors] at inside
  by_cases empty : path = ""
  · simp [empty] at inside
  · rw [if_neg (by simpa using empty), List.mem_map] at inside
    exact ⟨empty, inside⟩

theorem length_lt_of_shortened {parts first : List String} {rest : List (List String)}
    (shape : shortened parts = first :: rest) : ∀ list ∈ rest, list.length < first.length := by
  induction parts with
  | nil => cases shape
  | cons part outer ih =>
      rw [shortened] at shape
      split at shape
      · exact ih shape
      · obtain ⟨rfl, rfl⟩ := List.cons.inj shape
        intro list inside
        obtain ⟨_, _, _, suffix, _⟩ := exists_of_mem_shortened inside
        exact Nat.lt_succ_of_le suffix.length_le

/-- The path of the directory around a path has fewer parts than the path. -/
theorem exists_of_parent? {path outer : String} (parent : parent? path = some outer)
    (shown : outer ≠ "") :
    path ≠ "" ∧ ∃ list ∈ shortened (Text.split '/' path).reverse, ofParts list = outer ∧
      list.length < (Text.split '/' path).length := by
  rw [parent?] at parent
  split at parent
  · cases parent
  · split at parent
    · cases parent
    · cases parent
      exact absurd rfl shown
  · rename_i first second others listed
    cases parent
    have inside : outer ∈ ancestors path := by
      rw [listed]
      exact List.mem_cons_of_mem _ List.mem_cons_self
    have path_shown := (exists_of_mem_ancestors inside).1
    rw [ancestors, if_neg (by simpa using path_shown)] at listed
    obtain ⟨whole, rest, shape, _, later⟩ := List.map_eq_cons_iff.mp listed
    obtain ⟨list, tail, shape', same, _⟩ := List.map_eq_cons_iff.mp later
    have whole_inside : whole ∈ shortened (Text.split '/' path).reverse := by
      rw [shape]
      exact List.mem_cons_self
    obtain ⟨_, _, _, suffix, _⟩ := exists_of_mem_shortened whole_inside
    have shorter := length_lt_of_shortened shape list (by rw [shape']; exact List.mem_cons_self)
    have bounded := suffix.length_le
    rw [List.length_reverse] at bounded
    refine ⟨path_shown, list, ?_, same, by omega⟩
    rw [shape, shape']
    exact List.mem_cons_of_mem _ List.mem_cons_self

/-- A path that ends with a name is the first one of those that it is shortened to. -/
theorem ancestors_of_last {path name : String} {front : List String}
    (parts : Text.split '/' path = front ++ [name]) (shown : isBlank name = false) :
    ancestors path = path :: (shortened front.reverse).map ofParts := by
  have named : name ≠ "" := by
    rintro rfl
    cases shown
  have filled : path ≠ "" := by
    rintro rfl
    have last := congrArg List.getLast? parts
    rw [List.getLast?_concat] at last
    exact named (Option.some.inj last).symm
  have backward : (front ++ [name]).reverse = name :: front.reverse := by simp
  have whole : ofParts (name :: front.reverse) = path := by
    rw [ofParts_eq (by simp [named]), ← backward, List.reverse_reverse, ← parts, intercalate_split]
  rw [ancestors, if_neg (by simpa using filled), parts, backward, shortened,
    if_neg (by simp [shown]), List.map_cons, whole]

theorem exists_split_join {name : String} (whole : '/' ∉ name.toList) (directory : String) :
    ∃ front, Text.split '/' (join directory name) = front ++ [name] := by
  rcases split_join whole directory with ⟨_, joined⟩ | ⟨parts, _, joined⟩
  · exact ⟨[], joined⟩
  · exact ⟨parts, joined⟩

theorem endsWithSlash_join {name : String} (named : Named name) (directory : String) :
    endsWithSlash (join directory name) = false := by
  obtain ⟨front, parts⟩ := exists_split_join named.whole directory
  refine endsWithSlash_of_last parts ?_
  rintro rfl
  cases named.shown

/-- Around a name in a directory that is itself named lie this directory and those around it. -/
theorem ancestors_join_join {inner name : String} (named : Named inner) (named' : Named name)
    (directory : String) :
    ancestors (join (join directory inner) name) =
      join (join directory inner) name :: ancestors (join directory inner) := by
  obtain ⟨front, parts⟩ := exists_split_join named.whole directory
  have around := ancestors_of_last parts named.shown
  have filled : join directory inner ≠ "" := by
    intro empty
    rw [ancestors, empty] at around
    cases around
  rcases split_join named'.whole (join directory inner) with ⟨empty, _⟩ | ⟨own, ended, joined⟩
  · exact absurd empty filled
  · have same : Text.split '/' (join directory inner) = own := by
      rcases ended with same | same
      · exact same
      · rw [parts] at same
        have blank : inner = "" := by simpa using (List.append_inj' same rfl).2
        have shown := named.shown
        rw [blank] at shown
        cases shown
    rw [ancestors_of_last joined named'.shown, ← same, ancestors, if_neg (by simpa using filled)]

/-- The path of a directory around a path is the first one that it is shortened to itself. -/
theorem head?_ancestors {path outer : String} (inside : outer ∈ ancestors path) :
    (ancestors outer).head? = some outer := by
  obtain ⟨shown, list, shorter, rfl⟩ := exists_of_mem_ancestors inside
  obtain ⟨part, rest, rfl, _, last⟩ := exists_of_mem_shortened shorter
  rcases cases_of_mem_shortened shown shorter with ⟨same, _⟩ | ⟨own, _, _⟩
  · rw [same]
    decide +kernel
  · have filled : ofParts (part :: rest) ≠ "" := by
      intro empty
      rw [empty] at own
      have single : Text.split '/' "" = [""] := rfl
      rw [single, ← List.reverse_inj, List.reverse_reverse] at own
      rw [← own] at empty
      exact absurd empty (by decide)
    have kept : ¬(isBlank part && !rest.isEmpty) = true := by
      intro dropped
      have split := Bool.and_eq_true_iff.mp dropped
      rw [last split.1] at split
      cases split.2
    rw [ancestors, if_neg (by simpa using filled), own, List.reverse_reverse, shortened,
      if_neg kept, List.map_cons, List.head?_cons]

end Path

namespace FileTree

variable (tree : FileTree) {path outer : String} {place : Place} {list : List String}

/-- The path of a directory around a path leads where its parts lead from the start of the path. -/
theorem target_of_shortened (shown : path ≠ "")
    (inside : list ∈ Path.shortened (Text.split '/' path).reverse) :
    tree.target (Path.ofParts list) = along (tree.start path) list.reverse := by
  rcases Path.cases_of_mem_shortened shown inside with ⟨rfl, begun⟩ | ⟨own, _, begins⟩
  · rw [start, begun]
    rfl
  · rw [target, own, start, begins, start]

theorem mem_way_of_shortened (shown : path ≠ "")
    (inside : list ∈ Path.shortened (Text.split '/' path).reverse) :
    place ∈ tree.way (Path.ofParts list) ↔ place ∈ passed (tree.start path) list.reverse := by
  rcases Path.cases_of_mem_shortened shown inside with ⟨rfl, begun⟩ | ⟨own, _, begins⟩
  · have way : tree.way (Path.ofParts [""]) = [[], []] := rfl
    have passes : passed [] [""].reverse = [[]] := rfl
    rw [start, begun, way, if_pos rfl, passes]
    simp
  · rw [way, own, start, begins, start]

/-- A place on the way to a directory around a path is on the way to the path. -/
theorem reached_of_shortened (shown : path ≠ "")
    (inside : list ∈ Path.shortened (Text.split '/' path).reverse)
    (reached : place ∈ tree.way (Path.ofParts list) ∨ place = tree.target (Path.ofParts list)) :
    place ∈ tree.way path ∨
      place = tree.target path ∧ list.length = (Text.split '/' path).length := by
  rw [tree.mem_way_of_shortened shown inside, tree.target_of_shortened shown inside] at reached
  obtain ⟨back, parts⟩ := Path.exists_split_of_shortened inside
  rw [way, target, parts]
  by_cases whole : back = []
  · rw [whole, List.append_nil, List.length_reverse]
    exact reached.imp_right fun ends => ⟨ends, rfl⟩
  · refine .inl ?_
    rcases reached with passes | ends
    · rw [passed_append]
      exact List.mem_append_left _ passes
    · rw [ends]
      exact along_mem_passed _ _ whole

theorem mem_way_of_ancestor (inside : outer ∈ Path.ancestors path)
    (reached : place ∈ tree.way outer ∨ place = tree.target outer) :
    place ∈ tree.way path ∨ place = tree.target path := by
  obtain ⟨shown, list, shorter, rfl⟩ := Path.exists_of_mem_ancestors inside
  exact (tree.reached_of_shortened shown shorter reached).imp_right And.left

theorem mem_way_of_parent (parent : Path.parent? path = some outer) (shown : outer ≠ "")
    (reached : place ∈ tree.way outer ∨ place = tree.target outer) : place ∈ tree.way path := by
  obtain ⟨path_shown, list, inside, rfl, shorter⟩ := Path.exists_of_parent? parent shown
  rcases tree.reached_of_shortened path_shown inside reached with passes | ends
  · exact passes
  · exact absurd ends.2 (Nat.ne_of_lt shorter)

/-- The path of a directory around a path leads to a new directory where it leads to an old one. -/
theorem locateNew_of_ancestor (inside : outer ∈ Path.ancestors path) :
    tree.locateNew outer = tree.locate outer := by
  obtain ⟨shown, list, shorter, rfl⟩ := Path.exists_of_mem_ancestors inside
  rcases Path.cases_of_mem_shortened shown shorter with ⟨rfl, _⟩ | ⟨_, openEnded, _⟩
  · have slash : Path.ofParts [""] = "/" := rfl
    have parts : Text.split '/' (Path.withoutTrailingSlashes "/") = [""] := by decide +kernel
    have parts' : Text.split '/' "/" = ["", ""] := by decide +kernel
    rw [slash, locateNew, locate, parts, parts']
    rfl
  · rw [locateNew, locate, Path.withoutTrailingSlashes_eq _ openEnded]

end FileTree

end EvmTrace
