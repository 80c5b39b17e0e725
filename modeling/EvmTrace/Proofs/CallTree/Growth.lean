import EvmTrace.Proofs.CallTree.Branch

/-!
How a branch grows while a call runs. What is entered inside a call leaves the level of the call
and those above it alone, so that the exit finds the call where it was entered, and the branch goes
on above it as if nothing had been open.
-/

set_option autoImplicit false

namespace EvmTrace

namespace Branch

/-- A branch has grown by calls and has kept the levels above a depth. -/
structure Grown (before after : Branch) (depth : Nat) (calls : List PlacedCall) : Prop where
  consistent : after.Consistent
  calls : after.calls = before.calls ++ calls
  openCalls : after.openCalls = before.openCalls
  levels : after.levels.take depth = before.levels.take depth
  complete : 0 < depth → after.complete = before.complete

namespace Grown

variable {before between after : Branch} {depth : Nat} {calls more : List PlacedCall}

theorem refl {branch : Branch} (consistent : branch.Consistent) (depth : Nat) :
    branch.Grown branch depth [] :=
  ⟨consistent, (List.append_nil _).symm, rfl, rfl, fun _ => rfl⟩

theorem trans (first : before.Grown between depth calls) (rest : between.Grown after depth more) :
    before.Grown after depth (calls ++ more) := by
  refine ⟨rest.consistent, ?_, rest.openCalls.trans first.openCalls,
    rest.levels.trans first.levels, fun inner => (rest.complete inner).trans (first.complete inner)⟩
  rw [rest.calls, first.calls, List.append_assoc]

theorem take (grown : before.Grown after depth calls) (level : Nat) (above : level ≤ depth) :
    after.levels.take level = before.levels.take level := by
  rw [← Nat.min_eq_left above, ← List.take_take, grown.levels, List.take_take]

theorem getElem? (grown : before.Grown after depth calls) (level : Nat) (above : level < depth) :
    after.levels[level]? = before.levels[level]? := by
  rw [← List.getElem?_take_of_lt above, grown.levels, List.getElem?_take_of_lt above]

theorem nextOrdinal (grown : before.Grown after depth calls) (level : Nat) (above : level < depth) :
    after.nextOrdinal level = before.nextOrdinal level := by
  rw [Branch.nextOrdinal, grown.getElem? level above, Branch.nextOrdinal]

theorem upTo (grown : before.Grown after depth calls) (inner : 0 < depth) :
    after.upTo depth = before.upTo depth := by
  rw [Branch.upTo, grown.levels, grown.complete inner, Branch.upTo]

end Grown

section Call

variable {before inner : Branch} {call : Call} {calls : List PlacedCall}

theorem Grown.reached (grown : (before.place call).Grown inner (call.depth + 1) calls)
    (reached : call.depth ≤ before.levels.length) :
    call.depth < inner.levels.length := by
  have kept := congrArg List.length grown.levels
  rw [List.length_take, List.length_take, length_levels_place before call reached] at kept
  omega

/-- What was entered inside a call stands behind it when it exits. -/
theorem Grown.calls_exited (grown : (before.place call).Grown inner (call.depth + 1) calls)
    (consistent : before.Consistent) (reached : call.depth ≤ before.levels.length)
    (output : Bytes) :
    (inner.exited (before.opened call) output).calls =
      before.calls ++ CallTree.withOutput output (before.placed call) :: calls := by
  have member : before.opened call ∈ inner.openCalls := by
    rw [grown.openCalls, openCalls_place before call consistent]
    exact List.mem_cons_self
  obtain ⟨front, placed, stands⟩ := grown.consistent.standing _ member
  obtain ⟨level, found, last⟩ := Option.map_eq_some_iff.mp stands.last
  have split : inner.upTo call.depth ++ front ++ [placed] =
      before.calls ++ [before.placed call] := by
    have upTo := grown.upTo (Nat.zero_lt_succ _)
    rw [upTo_succ inner call.depth level found, last,
      upTo_of_length_le (before.place call) (call.depth + 1)
        (by rw [length_levels_place before call reached]), calls_place] at upTo
    rw [← upTo, List.append_assoc]
  obtain ⟨entered, same⟩ := List.append_inj' split rfl
  have same : placed = before.placed call := by simpa using same
  have all := grown.calls
  rw [stands.calls, calls_place, same] at all
  have written := stands.calls_setOutput output
  change (inner.setOutput (before.opened call).depth (before.opened call).slot output).calls = _
  change inner.upTo call.depth ++ front ++ _ = _ at all
  change _ = inner.upTo call.depth ++ front ++ _ at written
  rw [entered, List.append_assoc, List.append_cancel_left_eq, List.singleton_append,
    List.cons_inj_right] at all
  rw [written, entered, same]
  exact congrArg (fun rest => before.calls ++ _ :: rest) all

theorem Grown.exited (grown : (before.place call).Grown inner (call.depth + 1) calls)
    (consistent : before.Consistent)
    (outer : ∀ other ∈ before.openCalls, other.depth < call.depth)
    (reached : call.depth ≤ before.levels.length) (output : Bytes) :
    before.Grown (inner.exited (before.opened call) output) call.depth
      (CallTree.withOutput output (before.placed call) :: calls) := by
  refine ⟨grown.consistent.exited _ output, grown.calls_exited consistent reached output,
    ?_, ?_, ?_⟩
  · -- Everything around the call is open again as it was before.
    have kept : before.openCalls.filter (fun other => other.depth < call.depth) =
        before.openCalls :=
      List.filter_eq_self.mpr fun other member => by simpa using outer other member
    change inner.openCalls.filter (fun other => other.depth < call.depth) = before.openCalls
    rw [grown.openCalls, openCalls_place before call consistent, kept,
      List.filter_cons_of_neg (by simp [opened]), kept]
  · change (inner.levels.modify call.depth _).take call.depth = before.levels.take call.depth
    rw [List.take_modify, List.modify_eq_self (by rw [List.length_take]; omega),
      grown.take call.depth (Nat.le_succ _),
      take_levels_place before call _ (Nat.le_refl _) reached]
  · intro inside
    change inner.complete = before.complete
    rw [grown.complete (Nat.zero_lt_succ _), place, completeBefore, if_neg (by omega)]

theorem Grown.nextOrdinal_exited
    (grown : (before.place call).Grown inner (call.depth + 1) calls)
    (reached : call.depth ≤ before.levels.length) (output : Bytes) :
    (inner.exited (before.opened call) output).nextOrdinal call.depth =
      before.nextOrdinal call.depth + 1 := by
  have entered := nextOrdinal_place before call call.depth reached
  rw [if_neg (Nat.lt_irrefl _), if_pos rfl] at entered
  rw [← entered, ← grown.nextOrdinal call.depth (Nat.lt_succ_self _)]
  exact nextOrdinal_setOutput inner _ _ _ output

theorem Grown.reached_exited (grown : (before.place call).Grown inner (call.depth + 1) calls)
    (reached : call.depth ≤ before.levels.length) (output : Bytes) :
    call.depth < (inner.exited (before.opened call) output).levels.length := by
  change call.depth < (inner.levels.modify _ _).length
  rw [List.length_modify]
  exact grown.reached reached

end Call

end Branch

end EvmTrace
