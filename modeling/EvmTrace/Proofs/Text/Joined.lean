import EvmTrace.Text

set_option autoImplicit false

namespace EvmTrace

theorem mapM_eq_some {α β : Type} {read : α → Option β} {value : α → β} (items : List α)
    (each : ∀ item ∈ items, read item = some (value item)) :
    items.mapM read = some (items.map value) := by
  induction items with
  | nil => rfl
  | cons item rest ih =>
      have first := each item List.mem_cons_self
      have later := ih fun other member => each other (List.mem_cons_of_mem item member)
      simp [List.mapM_cons, first, later]

theorem mapM_inverse {α β : Type} {read : β → Option α} {write : α → β}
    (back : ∀ a, read (write a) = some a) (values : List α) :
    (values.map write).mapM read = some values := by
  have each : ∀ a ∈ values, (read ∘ write) a = some (id a) := fun a _ => back a
  rw [List.mapM_map, mapM_eq_some values each, List.map_id]

namespace Text

theorem forall_mem_intercalate {p : Char → Prop} {divider : String} {parts : List String}
    (between : ∀ c ∈ divider.toList, p c) (within : ∀ part ∈ parts, ∀ c ∈ part.toList, p c) :
    ∀ c ∈ (divider.intercalate parts).toList, p c := by
  induction parts with
  | nil => simp
  | cons part rest ih =>
      have first := within part List.mem_cons_self
      have later := ih fun other inside => within other (List.mem_cons_of_mem part inside)
      cases rest with
      | nil => simpa using first
      | cons second rest =>
          intro c inside
          rw [String.intercalate_cons_cons, String.toList_append, String.toList_append,
            List.mem_append, List.mem_append] at inside
          rcases inside with (inside | inside) | inside
          · exact first c inside
          · exact between c inside
          · exact later c inside

theorem intercalate_ne_empty {divider first : String} (shown : first ≠ "") (rest : List String) :
    divider.intercalate (first :: rest) ≠ "" := by
  cases rest with
  | nil => simpa using shown
  | cons second rest => simp [String.intercalate_cons_cons, shown]

section Split

variable {separator : Char}

theorem splitAfter_append (part piece rest : List Char) (free : separator ∉ piece) :
    splitAfter separator part (piece ++ rest) =
      splitAfter separator (piece.reverse ++ part) rest := by
  induction piece generalizing part with
  | nil => rfl
  | cons c piece ih =>
      rw [List.mem_cons, not_or] at free
      have apart : c ≠ separator := Ne.symm free.1
      rw [List.cons_append, splitAfter, if_neg apart, ih (c :: part) free.2, List.reverse_cons,
        List.append_assoc, List.singleton_append]

theorem splitAfter_intercalate (first : List Char) (rest : List (List Char))
    (free : ∀ part ∈ first :: rest, separator ∉ part) :
    splitAfter separator [] ([separator].intercalate (first :: rest)) = first :: rest := by
  induction rest generalizing first with
  | nil =>
      have read := splitAfter_append [] first [] (free first List.mem_cons_self)
      simpa [splitAfter] using read
  | cons second rest ih =>
      have later := ih second fun part inside => free part (List.mem_cons_of_mem first inside)
      rw [List.intercalate_cons_cons, List.append_assoc,
        splitAfter_append [] first _ (free first List.mem_cons_self), List.singleton_append,
        splitAfter, if_pos rfl, later]
      simp

/-- A text has at least one part, so that no parts at all cannot be told from an empty one. -/
theorem split_intercalate {divider : String} {parts : List String}
    (single : divider.toList = [separator]) (some_part : parts ≠ [])
    (free : ∀ part ∈ parts, separator ∉ part.toList) :
    split separator (divider.intercalate parts) = parts := by
  obtain ⟨first, rest, rfl⟩ := List.exists_cons_of_ne_nil some_part
  have free_lists : ∀ part ∈ first.toList :: rest.map String.toList, separator ∉ part := by
    intro part inside
    rw [← List.map_cons, List.mem_map] at inside
    obtain ⟨text, member, rfl⟩ := inside
    exact free text member
  rw [split, String.toList_intercalate, single, List.map_cons,
    splitAfter_intercalate first.toList (rest.map String.toList) free_lists]
  simp

theorem splitAfter_divided (part front back : List Char) :
    splitAfter separator part (front ++ separator :: back) =
      splitAfter separator part front ++ splitAfter separator [] back := by
  induction front generalizing part with
  | nil => simp [splitAfter]
  | cons c front ih =>
      rw [List.cons_append, splitAfter, splitAfter]
      by_cases here : c = separator
      · rw [if_pos here, if_pos here, ih [], List.cons_append]
      · rw [if_neg here, if_neg here, ih (c :: part)]

/-- The parts before a separator and the parts behind it. -/
theorem split_divided {text front back : String}
    (divided : text.toList = front.toList ++ separator :: back.toList) :
    split separator text = split separator front ++ split separator back := by
  rw [split, divided, splitAfter_divided, List.map_append, split, split]

theorem splitAfter_ne_nil (part text : List Char) : splitAfter separator part text ≠ [] := by
  induction text generalizing part with
  | nil => exact List.cons_ne_nil _ _
  | cons c rest ih =>
      rw [splitAfter]
      split
      · exact List.cons_ne_nil _ _
      · exact ih (c :: part)

theorem split_ne_nil (text : String) : split separator text ≠ [] := by
  rw [split, ne_eq, List.map_eq_nil_iff]
  exact splitAfter_ne_nil [] text.toList

theorem intercalate_splitAfter (part text : List Char) :
    [separator].intercalate (splitAfter separator part text) = part.reverse ++ text := by
  induction text generalizing part with
  | nil => simp [splitAfter]
  | cons c rest ih =>
      rw [splitAfter]
      by_cases here : c = separator
      · obtain ⟨second, others, later⟩ :=
          List.exists_cons_of_ne_nil (@splitAfter_ne_nil separator [] rest)
        have whole := ih []
        rw [later] at whole
        rw [if_pos here, later, List.intercalate_cons_cons, whole, here]
        simp
      · rw [if_neg here, ih (c :: part)]
        simp

/-- The parts of a text make up the text. -/
theorem intercalate_split {divider : String} (single : divider.toList = [separator])
    (text : String) : divider.intercalate (split separator text) = text := by
  have lists : (split separator text).map String.toList = splitAfter separator [] text.toList := by
    simp [split, Function.comp_def]
  rw [← String.toList_inj, String.toList_intercalate, single, lists, intercalate_splitAfter,
    List.reverse_nil, List.nil_append]

theorem not_mem_of_mem_splitAfter {part text : List Char} (free : separator ∉ part) :
    ∀ piece ∈ splitAfter separator part text, separator ∉ piece := by
  induction text generalizing part with
  | nil =>
      intro piece inside
      rw [splitAfter, List.mem_singleton] at inside
      rwa [inside, List.mem_reverse]
  | cons c rest ih =>
      intro piece inside
      rw [splitAfter] at inside
      by_cases here : c = separator
      · rw [if_pos here, List.mem_cons] at inside
        rcases inside with rfl | later
        · rwa [List.mem_reverse]
        · exact ih List.not_mem_nil piece later
      · rw [if_neg here] at inside
        refine ih ?_ piece inside
        rw [List.mem_cons, not_or]
        exact ⟨Ne.symm here, free⟩

theorem not_mem_of_mem_split {text part : String} (inside : part ∈ split separator text) :
    separator ∉ part.toList := by
  rw [split, List.mem_map] at inside
  obtain ⟨piece, found, rfl⟩ := inside
  rw [String.toList_ofList]
  exact not_mem_of_mem_splitAfter List.not_mem_nil piece found

/-- A text without the separator is its own only part. -/
theorem split_of_not_mem {text : String} (free : separator ∉ text.toList) :
    split separator text = [text] := by
  have whole := splitAfter_append [] text.toList [] free
  rw [List.append_nil, List.append_nil, splitAfter, List.reverse_reverse] at whole
  rw [split, whole, List.map_singleton, String.ofList_toList]

end Split

end Text

end EvmTrace
