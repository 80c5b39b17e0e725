import EvmTrace.Call

/-!
The shape of a tree that is known only by the depths of its calls in the order of their entry: the
parent of a call is the nearest call in front of it that lies one level higher, and the path of a
call is read off the parents. Nothing here is counted along the way; all of it is looked up in the
list of depths.
-/

set_option autoImplicit false

namespace EvmTrace.Depths

/-- The last position in front of a given one at which a call of a depth stands. -/
def lastBefore (depths : List Nat) (depth : Nat) : Nat → Option Nat
  | 0 => none
  | position + 1 =>
    if depths[position]? = some depth then some position else lastBefore depths depth position

/-- The position of the parent of a call; a call of depth zero has none. -/
def parent? (depths : List Nat) (position : Nat) : Option Nat :=
  match depths[position]? with
  | some (depth + 1) => lastBefore depths depth position
  | _ => none

/-- How many calls in front of a position have a given parent. -/
def childrenBefore (depths : List Nat) (parent position : Nat) : Nat :=
  (List.range position).countP fun child => parent? depths child = some parent

/--
The path of a call of a given depth: empty at depth zero, and otherwise the path of its parent
followed by one more than the number of earlier children of that parent.
-/
def pathAt (depths : List Nat) : Nat → Nat → CallPath
  | 0, _ => []
  | depth + 1, position =>
    match lastBefore depths depth position with
    | none => []
    | some parent => pathAt depths depth parent ++ [childrenBefore depths parent position + 1]

def paths (depths : List Nat) : List CallPath :=
  depths.mapIdx fun position depth => pathAt depths depth position

example : paths [0, 1, 2, 3, 1, 2, 0, 1] =
    [[], [1], [1, 1], [1, 1, 1], [2], [2, 1], [], [1]] := by decide

theorem lastBefore_some {depths : List Nat} {depth position last : Nat}
    (found : lastBefore depths depth position = some last) :
    last < position ∧ depths[last]? = some depth := by
  induction position with
  | zero => cases found
  | succ position ih =>
      rw [lastBefore] at found
      split at found
      · rename_i here
        cases found
        exact ⟨Nat.lt_succ_self _, here⟩
      · obtain ⟨below, stands⟩ := ih found
        exact ⟨Nat.lt_succ_of_lt below, stands⟩

/-- Calls that are entered later do not change what stands in front of a position. -/
theorem lastBefore_append (depths more : List Nat) (depth position : Nat)
    (inside : position ≤ depths.length) :
    lastBefore (depths ++ more) depth position = lastBefore depths depth position := by
  induction position with
  | zero => rfl
  | succ position ih =>
      rw [lastBefore, lastBefore, ih (by omega), List.getElem?_append_left (by omega)]

theorem lastBefore_snoc (depths : List Nat) (last depth : Nat) :
    lastBefore (depths ++ [last]) depth (depths.length + 1) =
      if last = depth then some depths.length else lastBefore depths depth depths.length := by
  rw [lastBefore, lastBefore_append _ _ _ _ (Nat.le_refl _), List.getElem?_concat_length]
  simp only [Option.some.injEq]

theorem parent?_lt {depths : List Nat} {parent child : Nat}
    (found : parent? depths child = some parent) : parent < child := by
  unfold parent? at found
  split at found
  · exact (lastBefore_some found).1
  · cases found

theorem parent?_append (depths more : List Nat) (position : Nat)
    (inside : position < depths.length) :
    parent? (depths ++ more) position = parent? depths position := by
  unfold parent?
  rw [List.getElem?_append_left inside]
  split
  · exact lastBefore_append _ _ _ _ (Nat.le_of_lt inside)
  · rfl

theorem parent?_snoc_succ (depths : List Nat) (depth : Nat) :
    parent? (depths ++ [depth + 1]) depths.length = lastBefore depths depth depths.length := by
  unfold parent?
  rw [List.getElem?_concat_length]
  exact lastBefore_append _ _ _ _ (Nat.le_refl _)

theorem parent?_snoc_zero (depths : List Nat) :
    parent? (depths ++ [0]) depths.length = none := by
  unfold parent?
  rw [List.getElem?_concat_length]

theorem childrenBefore_succ (depths : List Nat) (parent position : Nat) :
    childrenBefore depths parent (position + 1) =
      childrenBefore depths parent position +
        if parent? depths position = some parent then 1 else 0 := by
  simp [childrenBefore, List.range_succ, List.countP_append, List.countP_singleton]

theorem childrenBefore_append (depths more : List Nat) (parent position : Nat)
    (inside : position ≤ depths.length) :
    childrenBefore (depths ++ more) parent position = childrenBefore depths parent position := by
  induction position with
  | zero => rfl
  | succ position ih =>
      rw [childrenBefore_succ, childrenBefore_succ, ih (by omega),
        parent?_append _ _ _ (by omega)]

/-- No call in front of a call, nor the call itself, is its child. -/
theorem childrenBefore_eq_zero (depths : List Nat) (parent position : Nat)
    (front : position ≤ parent + 1) : childrenBefore depths parent position = 0 := by
  apply List.countP_eq_zero.mpr
  intro child member
  have below := List.mem_range.mp member
  simp only [decide_eq_true_eq]
  intro found
  have later := parent?_lt found
  omega

theorem pathAt_append (depths more : List Nat) (depth position : Nat)
    (inside : position ≤ depths.length) :
    pathAt (depths ++ more) depth position = pathAt depths depth position := by
  induction depth generalizing position with
  | zero => rfl
  | succ depth ih =>
      rw [pathAt, pathAt, lastBefore_append _ _ _ _ inside]
      cases found : lastBefore depths depth position with
      | none => rfl
      | some parent =>
          have below := (lastBefore_some found).1
          simp only [ih parent (by omega), childrenBefore_append _ _ _ _ inside]

theorem paths_snoc (depths : List Nat) (depth : Nat) :
    paths (depths ++ [depth]) = paths depths ++ [pathAt depths depth depths.length] := by
  have front : ∀ position last, depths[position]? = some last →
      pathAt (depths ++ [depth]) last position = pathAt depths last position := by
    intro position last stands
    apply pathAt_append
    have inside := (List.getElem?_eq_some_iff.mp stands).1
    omega
  rw [paths, List.mapIdx_append, paths]
  congr 1
  · apply List.ext_getElem?
    intro position
    simp only [List.getElem?_mapIdx]
    cases stands : depths[position]? with
    | none => rfl
    | some last => simp [front position last stands]
  · simp [pathAt_append]

end EvmTrace.Depths
