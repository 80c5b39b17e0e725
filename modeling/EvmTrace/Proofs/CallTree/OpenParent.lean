import EvmTrace.Proofs.CallTree.Preorder

/-!
Whether the parent of an accepted call still runs. A call is judged by the depth of the call that
was accepted last and not by the calls that are open, so a call is also accepted below a parent that
an exit has ended. In every other case the parent of an accepted call is open.
-/

set_option autoImplicit false

namespace EvmTrace

namespace Ledger

/-- The parent that a call has if it is entered next, with its position. -/
def parent? (ledger : Ledger) (call : Call) : Option (Nat × Entry) := do
  let position ← Depths.parent? (ledger.depths ++ [call.depth]) ledger.length
  let entry ← ledger[position]?
  pure (position, entry)

end Ledger

namespace Holds

/-- The tree accepts what lies at most one below the call that was accepted last. -/
theorem accepts_iff {tree : CallTree} {maxDepth : Nat} {ledger : Ledger}
    (holds : Holds tree maxDepth ledger) (call : Call) :
    (∃ next, tree.enter call = .ok next) ↔ call.depth ≤ maxDepth ∧ call.depth ≤ ledger.deepest := by
  rw [holds.enter_eq call, ← Ledger.admission_eq_ok_iff]
  cases ledger.admission maxDepth call <;> simp [Except.map]

/-- The parent of an accepted call is open unless an exit has ended it. -/
theorem parent_of_reached {tree : CallTree} {maxDepth : Nat} {ledger : Ledger}
    (holds : Holds tree maxDepth ledger) (call : Call) (inner : 0 < call.depth)
    (reached : call.depth ≤ ledger.deepest) :
    ∃ (position : Nat) (parent : Entry) (path : CallPath),
      ledger.parent? call = some (position, parent) ∧
      (parent.running = true ↔ ∃ outer ∈ tree.openCalls, outer.depth + 1 = call.depth) ∧
      parent.running = !parent.exited ∧
      (Depths.paths ledger.depths)[position]? = some path ∧
      tree.branch.nextPath call.depth =
        path ++ [Depths.childrenBefore ledger.depths position ledger.length + 1] := by
  have tracks := holds.tracks
  rw [← tracks.reached] at reached
  obtain ⟨above, inside⟩ : ∃ above, call.depth = above + 1 := ⟨call.depth - 1, by omega⟩
  obtain ⟨position, ends⟩ := tracks.lasts above (by omega)
  obtain ⟨_, stands⟩ := Depths.lastBefore_some ends.last
  obtain ⟨parent, found, depth⟩ := Ledger.entry_of_depth stands
  have running := tracks.running position parent found
  have link := Depths.parent?_snoc_succ ledger.depths above
  rw [Ledger.length_depths, ends.last] at link
  refine ⟨position, parent, Depths.pathAt ledger.depths above position, ?_, ?_,
    ends.ended parent found, ?_, ?_⟩
  · rw [Ledger.parent?, inside, link]
    simp [found]
  · simp only [running, depth, ends.last, true_and, inside, Nat.add_right_cancel_iff,
      CallTree.branch_openCalls]
  · rw [Depths.paths_getElem?, stands]
    rfl
  · rw [tracks.nextPath_eq call.depth reached, inside, Depths.pathAt, ends.last]

/-- A call of depth zero has no parent. -/
theorem inner_of_parent {ledger : Ledger} {call : Call} {position : Nat} {parent : Entry}
    (found : ledger.parent? call = some (position, parent)) : 0 < call.depth := by
  by_contra outermost
  have root : call.depth = 0 := by omega
  have none := Depths.parent?_snoc_zero ledger.depths
  rw [Ledger.length_depths] at none
  rw [Ledger.parent?, root, none] at found
  cases found

end Holds

namespace CallTree

/--
A call is accepted if it lies neither too deep nor more than one below the last accepted call. It is
accepted without an open call one level above it exactly if an exit has ended its parent; its path
extends that of its parent in either case.
-/
theorem accepted_without_open_parent_iff (maxDepth : Nat) (operations : List Operation)
    (call : Call) :
    let tree := ofOperations maxDepth operations
    let ledger := Ledger.ofOperations maxDepth operations
    let accepted := ∃ next, tree.enter call = .ok next
    let sheltered := ∃ outer ∈ tree.openCalls, outer.depth + 1 = call.depth
    (accepted ↔ call.depth ≤ maxDepth ∧ call.depth ≤ ledger.deepest) ∧
      (accepted ∧ 0 < call.depth ∧ ¬sheltered ↔
        accepted ∧ ∃ position parent,
          ledger.parent? call = some (position, parent) ∧ parent.exited = true) ∧
      ∀ next, tree.enter call = .ok next → 0 < call.depth →
        ∃ position parent path, ledger.parent? call = some (position, parent) ∧
          (parent.running = true ↔ sheltered) ∧
          (tree.finish.1.map PlacedCall.path)[position]? = some path ∧
          next.current.map OpenCall.path =
            some (path ++ [Depths.childrenBefore ledger.depths position ledger.length + 1]) := by
  intro tree ledger accepted sheltered
  have holds : Holds tree maxDepth ledger := Holds.ofOperations maxDepth operations
  have accepts : accepted ↔ call.depth ≤ maxDepth ∧ call.depth ≤ ledger.deepest :=
    holds.accepts_iff call
  refine ⟨accepts, ?_, ?_⟩
  · apply and_congr_right
    intro admitted
    constructor
    · rintro ⟨inner, alone⟩
      obtain ⟨position, parent, _, found, running, ended, _⟩ :=
        holds.parent_of_reached call inner (accepts.mp admitted).2
      have still : parent.running ≠ true := fun runs => alone (running.mp runs)
      exact ⟨position, parent, found, by simpa [ended] using still⟩
    · rintro ⟨position, parent, found, exited⟩
      have inner := Holds.inner_of_parent found
      obtain ⟨_, _, _, same, running, ended, _⟩ :=
        holds.parent_of_reached call inner (accepts.mp admitted).2
      rw [found] at same
      cases same
      refine ⟨inner, fun covered => ?_⟩
      have runs := running.mpr covered
      simp [ended, exited] at runs
  · intro next admitted inner
    have reached := (accepts.mp ⟨next, admitted⟩).2
    obtain ⟨position, parent, path, found, running, _, above, extended⟩ :=
      holds.parent_of_reached call inner reached
    refine ⟨position, parent, path, found, running, ?_, ?_⟩
    · rw [holds.finish_paths, above]
    · obtain ⟨_, inside, rfl⟩ := (enter_eq_ok_iff tree next call).mp admitted
      rw [current_place tree call holds.wellFormed inside]
      exact congrArg some extended

/-- A call is accepted below one that has exited, so an open parent is not promised. -/
theorem accepted_below_exited_root :
    ¬∀ (maxDepth : Nat) (operations : List Operation) (call : Call) (next : CallTree),
      (ofOperations maxDepth operations).enter call = .ok next → 0 < call.depth →
        ∃ outer ∈ (ofOperations maxDepth operations).openCalls,
          outer.depth + 1 = call.depth := by
  intro promised
  let root := Call.plain .call 0 (.zero 20) (.zero 20)
  let child := Call.plain .call 1 (.zero 20) (.zero 20)
  let operations := [Operation.enter root, .exit 0 []]
  have admitted : (ofOperations 16 operations).enter child =
      .ok ((ofOperations 16 operations).place child) := by decide
  obtain ⟨outer, member, _⟩ := promised 16 operations child _ admitted Nat.zero_lt_one
  have bare : (ofOperations 16 operations).openCalls = [] := by decide
  rw [bare] at member
  cases member

end CallTree

end EvmTrace
