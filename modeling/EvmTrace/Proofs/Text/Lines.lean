import EvmTrace.Proofs.Text.Joined
import EvmTrace.Text

set_option autoImplicit false

namespace EvmTrace.Text

def lineFeeds (text : String) : Nat :=
  text.toList.count '\n'

/-- Whether the last line of a text is not ended. -/
def EndsInLine (text : String) : Prop :=
  text.toList.getLast? ≠ some '\n'

theorem lineFeeds_append (front back : String) :
    lineFeeds (front ++ back) = lineFeeds front + lineFeeds back := by
  rw [lineFeeds, String.toList_append, List.count_append, lineFeeds, lineFeeds]

theorem lineFeeds_eq_zero_iff (text : String) : lineFeeds text = 0 ↔ '\n' ∉ text.toList :=
  List.count_eq_zero

def lineFeedsIn : List String → Nat
  | [] => 0
  | text :: rest => lineFeeds text + lineFeedsIn rest

theorem lineFeedsIn_append (front back : List String) :
    lineFeedsIn (front ++ back) = lineFeedsIn front + lineFeedsIn back := by
  induction front with
  | nil => rw [List.nil_append, lineFeedsIn, Nat.zero_add]
  | cons text rest ih => rw [List.cons_append, lineFeedsIn, lineFeedsIn, ih, Nat.add_assoc]

theorem lineFeedsIn_flatMap_congr {α : Type} {left right : α → List String}
    (same : ∀ entry, lineFeedsIn (left entry) = lineFeedsIn (right entry)) (entries : List α) :
    lineFeedsIn (entries.flatMap left) = lineFeedsIn (entries.flatMap right) := by
  induction entries with
  | nil => rfl
  | cons entry rest ih =>
      rw [List.flatMap_cons, List.flatMap_cons, lineFeedsIn_append, lineFeedsIn_append, same, ih]

theorem lineFeedsIn_eq_zero_iff (texts : List String) :
    lineFeedsIn texts = 0 ↔ ∀ text ∈ texts, '\n' ∉ text.toList := by
  induction texts with
  | nil => simp [lineFeedsIn]
  | cons text rest ih =>
      rw [lineFeedsIn, Nat.add_eq_zero_iff, lineFeeds_eq_zero_iff, ih, List.forall_mem_cons]

theorem lineFeeds_intercalate (divider first : String) (rest : List String) :
    lineFeeds (divider.intercalate (first :: rest)) =
      lineFeedsIn (first :: rest) + rest.length * lineFeeds divider := by
  induction rest generalizing first with
  | nil => simp [lineFeedsIn]
  | cons second rest ih =>
      rw [String.intercalate_cons_cons, lineFeeds_append, lineFeeds_append, ih, List.length_cons,
        Nat.succ_mul]
      simp only [lineFeedsIn]
      omega

theorem endsInLine_append {front back : String} (covered : EndsInLine front ∨ back ≠ "")
    (ends : EndsInLine back) : EndsInLine (front ++ back) := by
  rw [EndsInLine, String.toList_append, List.getLast?_append]
  cases last : back.toList.getLast? with
  | none =>
      rcases covered with front_ends | shown
      · exact front_ends
      · have empty : back.toList = [] := List.getLast?_eq_none_iff.mp last
        exact absurd (by simpa using empty) shown
  | some c =>
      rw [EndsInLine, last] at ends
      exact ends

/-- A separator may end with a line feed if there is something behind it. -/
theorem endsInLine_intercalate {divider : String} {parts : List String}
    (covered : EndsInLine divider ∨ ∀ part ∈ parts, part ≠ "")
    (ends : ∀ part ∈ parts, EndsInLine part) : EndsInLine (divider.intercalate parts) := by
  induction parts with
  | nil => simp [EndsInLine]
  | cons part rest ih =>
      have within : ∀ other ∈ rest, other ∈ part :: rest := fun _ => List.mem_cons_of_mem part
      have first := ends part List.mem_cons_self
      have covered_rest := covered.imp_right fun shown other inside =>
        shown other (within other inside)
      have later := ih covered_rest fun other inside => ends other (within other inside)
      cases rest with
      | nil => simpa using first
      | cons second rest =>
          rw [String.intercalate_cons_cons, String.append_assoc]
          refine endsInLine_append (.inl first) (endsInLine_append ?_ later)
          rcases covered with divides | shown
          · exact .inl divides
          · exact .inr (intercalate_ne_empty (shown second (within second List.mem_cons_self)) rest)

theorem length_linesAfter (line front : List Char) (last : Char) (shown : last ≠ '\n') :
    (linesAfter line (front ++ [last])).length = front.count '\n' + 1 := by
  induction front generalizing line with
  | nil => simp [linesAfter]
  | cons c front ih =>
      by_cases feed : c = '\n'
      · subst feed
        rw [List.cons_append, linesAfter, List.length_cons, ih [], List.count_cons_self]
      · have other : ('\n' : Char) ≠ c := Ne.symm feed
        rw [List.cons_append, linesAfter, ih (c :: line), List.count_cons_of_ne feed]
        exact feed

theorem length_lines {text : String} (shown : text ≠ "") (ends : EndsInLine text) :
    (lines text).length = lineFeeds text + 1 := by
  cases last : text.toList.getLast? with
  | none =>
      have empty : text.toList = [] := List.getLast?_eq_none_iff.mp last
      exact absurd (by simpa using empty) shown
  | some c =>
      obtain ⟨front, whole⟩ := List.getLast?_eq_some_iff.mp last
      have visible : c ≠ '\n' := by
        rintro rfl
        exact ends last
      rw [lines, List.length_map, whole, length_linesAfter [] front c visible, lineFeeds, whole,
        List.count_append]
      simp [visible]

theorem linesAfter_single (line first : List Char) (single : '\n' ∉ first)
    (shown : first.reverse ++ line ≠ []) :
    linesAfter line first = [(first.reverse ++ line).reverse] := by
  induction first generalizing line with
  | nil =>
      have filled : line.isEmpty = false := by simpa using shown
      rw [linesAfter, if_neg (by simp [filled]), List.reverse_nil, List.nil_append]
  | cons c first ih =>
      rw [List.mem_cons, not_or] at single
      have other : c ≠ '\n' := Ne.symm single.1
      rw [linesAfter, ih (c :: line) single.2 (by simp), List.reverse_cons, List.append_assoc,
        List.singleton_append]
      exact other

theorem head?_linesAfter (line first rest : List Char) (single : '\n' ∉ first) :
    (linesAfter line (first ++ '\n' :: rest)).head? =
      some (withoutReturn (first.reverse ++ line)).reverse := by
  induction first generalizing line with
  | nil => simp [linesAfter]
  | cons c first ih =>
      rw [List.mem_cons, not_or] at single
      have other : c ≠ '\n' := Ne.symm single.1
      rw [List.cons_append, linesAfter, ih (c :: line) single.2, List.reverse_cons,
        List.append_assoc, List.singleton_append]
      exact other

theorem withoutReturn_eq (line : List Char) (bare : '\r' ∉ line) : withoutReturn line = line := by
  unfold withoutReturn
  split
  · simp at bare
  · rfl

/-- A first part without line breaks is the first line. -/
theorem head?_lines {first : String} (shown : first ≠ "")
    (unbroken : ∀ c ∈ first.toList, c ≠ '\n' ∧ c ≠ '\r') (rest : List String) :
    (lines ("\n".intercalate (first :: rest))).head? = some first := by
  have single : '\n' ∉ first.toList := fun inside => (unbroken '\n' inside).1 rfl
  have bare : '\r' ∉ first.toList.reverse ++ [] := by
    intro inside
    exact (unbroken '\r' (by simpa using inside)).2 rfl
  cases rest with
  | nil =>
      have filled : first.toList.reverse ++ [] ≠ [] := by simpa using shown
      simp [lines, linesAfter_single [] first.toList single filled]
  | cons second rest =>
      have written : ("\n".intercalate (first :: second :: rest)).toList =
          first.toList ++ '\n' :: ("\n".intercalate (second :: rest)).toList := by
        simp [String.intercalate_cons_cons]
      rw [lines, written, List.head?_map, head?_linesAfter [] first.toList _ single,
        withoutReturn_eq _ bare]
      simp

end EvmTrace.Text
