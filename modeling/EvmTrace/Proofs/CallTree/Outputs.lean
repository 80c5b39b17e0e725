import EvmTrace.Proofs.CallTree.Closing
import EvmTrace.Proofs.CallTree.Preorder
import EvmTrace.Proofs.CallTree.Skeleton

/-!
Where the data of an exit goes. An exit writes its output to the call that was entered last at its
depth and is not closed, whatever indices the calls have, and to no other call; without such a call
it changes nothing. Nothing that follows takes the output away until the calls are taken out.
-/

set_option autoImplicit false

namespace EvmTrace

/-- An exit changes nothing of a tree in which no call is open at its depth. -/
theorem CallTree.exit_of_not_mem (tree : CallTree) (depth : Nat) (output : Bytes)
    (absent : ∀ call ∈ tree.openCalls, call.depth ≠ depth) :
    tree.exit depth output = (.noOpenCall, tree) := by
  have nothing : (tree.openCalls.dropWhile fun call => call.depth ≠ depth) = [] := by
    apply List.dropWhile_eq_nil_iff.mpr
    intro call member
    simpa using absent call member
  unfold exit
  rw [nothing]

def CallTree.Operation.keepsCalls : Operation → Bool
  | .enter _ | .exit _ _ => true
  | .finish | .reset => false

/-- A call that has been entered and no longer runs, at a position among all calls. -/
structure Settled (tree : CallTree) (ledger : Ledger) (position : Nat) (placed : PlacedCall) :
    Prop where
  stands : tree.branch.calls[position]? = some placed
  ended : ∃ entry, ledger[position]? = some entry ∧ entry.running = false

namespace Holds

variable {tree : CallTree} {maxDepth : Nat} {ledger : Ledger}

/-- An exit writes to the entry that runs at its depth, and ends it. -/
theorem exit_of_runsAt (holds : Holds tree maxDepth ledger) (depth : Nat) (output : Bytes)
    (runs : ledger.runsAt depth = true) :
    ∃ (position : Nat) (entry : Entry) (placed : PlacedCall),
      ledger[position]? = some entry ∧ entry.running = true ∧ entry.call.depth = depth ∧
      tree.branch.calls[position]? = some placed ∧
      (tree.exit depth output).1 = .completed ∧
      (tree.exit depth output).2.branch.calls =
        tree.branch.calls.modify position (CallTree.withOutput output) := by
  have tracks := holds.tracks
  obtain ⟨call, member, rfl⟩ := (tracks.runsAt_iff depth).mp runs
  obtain ⟨front, placed, stands⟩ := tracks.consistent.standing call member
  obtain ⟨answer, branch⟩ := CallTree.branch_exit holds.wellFormed call.depth output
  rw [Branch.exit_of_mem tracks.consistent member] at answer branch
  have last := tracks.last_of_open stands
  obtain ⟨entry, found, _⟩ := Ledger.entry_of_depth (Depths.lastBefore_some last).2
  obtain ⟨running, here⟩ := (tracks.running_iff_of_open member stands _ entry found).mpr rfl
  refine ⟨_, entry, placed, found, running, here, stands.getElem?_calls, answer, ?_⟩
  rw [branch]
  exact stands.calls_exited output

/-- The call that an exit has written to no longer runs. -/
theorem settled_exit {depth : Nat} {output : Bytes} (runs : ledger.runsAt depth = true)
    {position : Nat} {entry : Entry} {placed : PlacedCall} (found : ledger[position]? = some entry)
    (here : entry.call.depth = depth) (stands : tree.branch.calls[position]? = some placed)
    (calls : (tree.exit depth output).2.branch.calls =
      tree.branch.calls.modify position (CallTree.withOutput output)) :
    Settled (tree.exit depth output).2 (ledger.exit depth output) position
      (CallTree.withOutput output placed) := by
  refine ⟨?_, (entry.answer depth output).exitFrom depth, ?_, ?_⟩
  · rw [calls, List.getElem?_modify_eq, stands]
    rfl
  · rw [Ledger.exit, if_pos runs, List.getElem?_map, found]
    rfl
  · simp [Entry.exitFrom, Entry.endFrom, here]

theorem exit_of_not_runsAt (holds : Holds tree maxDepth ledger) (depth : Nat) (output : Bytes)
    (idle : ledger.runsAt depth = false) : tree.exit depth output = (.noOpenCall, tree) := by
  apply tree.exit_of_not_mem
  intro call member here
  have runs := (holds.tracks.runsAt_iff depth).mpr ⟨call, member, here⟩
  rw [idle] at runs
  cases runs

/-- What does not depend on outputs is the same of the calls behind an exit. -/
theorem map_calls_exit {α : Type} (holds : Holds tree maxDepth ledger) (view : PlacedCall → α)
    (blind : ∀ output placed, view (CallTree.withOutput output placed) = view placed)
    (depth : Nat) (output : Bytes) :
    (tree.exit depth output).2.branch.calls.map view = tree.branch.calls.map view := by
  cases runs : ledger.runsAt depth with
  | true =>
      obtain ⟨position, _, _, _, _, _, _, _, calls⟩ := holds.exit_of_runsAt depth output runs
      rw [calls, map_modify_of_absorbs view (CallTree.withOutput output) (blind output)]
  | false => rw [holds.exit_of_not_runsAt depth output runs]

/-- The calls in the tree are those that would be taken out of it. -/
theorem finish_eq (holds : Holds tree maxDepth ledger) : tree.finish.1 = tree.branch.calls :=
  (CallTree.branch_finish holds.wellFormed).1

/-- Neither a call nor an exit changes a call that has been entered and no longer runs. -/
theorem settled_operate (holds : Holds tree maxDepth ledger) {position : Nat} {placed : PlacedCall}
    (settled : Settled tree ledger position placed) (operation : CallTree.Operation)
    (keeps : operation.keepsCalls = true) :
    Settled (tree.operate operation) (ledger.note maxDepth operation) position placed := by
  obtain ⟨stands, entry, found, ended⟩ := settled
  cases operation with
  | enter call =>
      rcases holds.enter_cases call with ⟨same, noted⟩ | ⟨reached, entered, noted⟩
      · rw [same, noted]
        exact ⟨stands, entry, found, ended⟩
      · have branch := CallTree.branch_place tree call holds.wellFormed reached
        have old := (List.getElem?_eq_some_iff.mp stands).1
        have old' := (List.getElem?_eq_some_iff.mp found).1
        rw [entered, noted]
        refine ⟨?_, entry.endFrom call.depth, ?_, ?_⟩
        · rw [branch, Branch.calls_place, List.getElem?_append_left old]
          exact stands
        · rw [Ledger.entry_enter_of_lt _ _ _ old', found]
          rfl
        · rw [Entry.endFrom, ended, Bool.false_and]
  | exit depth output =>
      by_cases runs : ledger.runsAt depth = true
      · obtain ⟨written, runner, _, found', running, _, _, _, calls⟩ :=
          holds.exit_of_runsAt depth output runs
        have other : written ≠ position := by
          rintro rfl
          rw [found] at found'
          cases found'
          rw [ended] at running
          cases running
        refine ⟨?_, (entry.answer depth output).exitFrom depth, ?_, ?_⟩
        · exact (congrArg (fun calls => calls[position]?) calls).trans
            ((List.getElem?_modify_ne _ _ other).trans stands)
        · rw [Ledger.note, Ledger.exit, if_pos runs, List.getElem?_map, found]
          rfl
        · simp only [Entry.exitFrom, Entry.endFrom, Ledger.running_answer, ended, Bool.false_and]
      · have idle : ledger.runsAt depth = false := by simpa using runs
        have same : tree.operate (.exit depth output) = tree :=
          congrArg Prod.snd (holds.exit_of_not_runsAt depth output idle)
        rw [same, Ledger.note, Ledger.exit, if_neg runs]
        exact ⟨stands, entry, found, ended⟩
  | finish => cases keeps
  | reset => cases keeps

/-- A call that no longer runs is as it is until the calls are taken out or dropped. -/
theorem settled_run (holds : Holds tree maxDepth ledger) {position : Nat} {placed : PlacedCall}
    (settled : Settled tree ledger position placed) (operations : List CallTree.Operation)
    (keep : operations.all CallTree.Operation.keepsCalls = true) :
    (tree.run operations).finish.1[position]? = some placed := by
  induction operations generalizing tree ledger with
  | nil =>
      rw [CallTree.run, List.foldl_nil, holds.finish_eq]
      exact settled.stands
  | cons operation rest ih =>
      obtain ⟨keeps, keep⟩ := Bool.and_eq_true_iff.mp (List.all_cons.symm.trans keep)
      exact ih (holds.operate operation) (holds.settled_operate settled operation keeps) keep

/-- A call in the tree is, up to its output, the call of its entry. -/
theorem call_of_entry (holds : Holds tree maxDepth ledger) {position : Nat} {placed : PlacedCall}
    {entry : Entry} (stands : tree.branch.calls[position]? = some placed)
    (found : ledger[position]? = some entry) :
    placed.call.withoutOutput = entry.call.withoutOutput := by
  have same := congrArg (fun calls => calls[position]?) holds.tracks.calls
  simp only [List.getElem?_map, stands, found, Option.map_some, Option.some.injEq] at same
  rw [same]
  rfl

end Holds

namespace CallTree

/--
What an exit does to a tree after any operations. It succeeds exactly if a call of its depth is
unclosed, and it never comes too late for that call. If it fails, it changes nothing. If it
succeeds, then the call of its depth that was entered last and is unclosed has the output from now
on, whatever else is entered and exits, until the calls are taken out or dropped; no other call is
changed, and neither are the buffers, the ordinals and the counts. The indices of the calls may be
any numbers.
-/
theorem exit_completes_latest_unclosed_call (maxDepth : Nat) (operations : List Operation)
    (depth : Nat) (output : Bytes) :
    let tree := ofOperations maxDepth operations
    let history := History.ofOperations maxDepth operations
    let answer := (tree.exit depth output).1
    let next := (tree.exit depth output).2
    answer ≠ .outdated ∧
      (answer = .completed ↔ history.Effective history.length depth) ∧
      (answer ≠ .completed → next = tree) ∧
      (answer = .completed → ∃ (first : Nat) (call : Call) (placed : PlacedCall),
        let position := history.callsBefore first
        history.Unclosed history.length first call ∧ call.depth = depth ∧
        (∀ moment other, history.Unclosed history.length moment other → other.depth = depth →
          moment ≤ first) ∧
        tree.finish.1[position]? = some placed ∧
        placed.call.withoutOutput = call.withoutOutput ∧
        next.skeleton = tree.skeleton ∧
        next.finish.1 = tree.finish.1.modify position (withOutput output) ∧
        ∀ more : List Operation, more.all Operation.keepsCalls = true →
          (next.run more).finish.1[position]? = some (withOutput output placed)) := by
  intro tree history answer next
  have holds : Holds tree maxDepth (Ledger.ofOperations maxDepth operations) :=
    .ofOperations maxDepth operations
  have reflects : Reflects (Ledger.ofOperations maxDepth operations) history :=
    .ofOperations maxDepth operations
  generalize Ledger.ofOperations maxDepth operations = ledger at holds reflects
  have effective := reflects.effective_iff depth
  by_cases runs : ledger.runsAt depth = true
  · obtain ⟨position, entry, placed, found, running, here, stands, completed, calls⟩ :=
      holds.exit_of_runsAt depth output runs
    have completed : answer = .completed := completed
    obtain ⟨first, rfl, _, unclosed⟩ := reflects.moment_of_entry found
    have unclosed := unclosed.mp running
    have after : Holds next maxDepth (ledger.exit depth output) :=
      holds.operate (.exit depth output)
    have settled := Holds.settled_exit runs found here stands calls
    refine ⟨by simp [completed], by simp [completed, effective, runs],
      fun failed => absurd completed failed, fun _ => ?_⟩
    refine ⟨first, entry.call, placed, unclosed, here, ?_, ?_, holds.call_of_entry stands found,
      skeleton_exit tree depth output, ?_, after.settled_run settled⟩
    · intro moment other unclosed' there
      exact Nat.le_of_eq (unclosed'.unique unclosed (there.trans here.symm))
    · rw [holds.finish_eq]
      exact stands
    · rw [after.finish_eq, holds.finish_eq]
      exact calls
  · have idle : ledger.runsAt depth = false := by simpa using runs
    have same : tree.exit depth output = (.noOpenCall, tree) :=
      holds.exit_of_not_runsAt depth output idle
    have failed : answer = .noOpenCall := congrArg Prod.fst same
    refine ⟨by simp [failed], by simp [failed, effective, idle], fun _ => congrArg Prod.snd same,
      fun completed => ?_⟩
    rw [failed] at completed
    cases completed

/--
All calls have the index 7. The exit at depth 1 skips an open call, and the one at depth 5 has no
effect. The last exit gives its output to the root, which keeps it whatever comes behind.
-/
theorem exit_completes_unclosed_call_among_equal_indices :
    let call := fun depth => { Call.plain .call depth (.zero 20) (.zero 20) with index := 7 }
    let operations : List Operation :=
      [.enter (call 0), .enter (call 1), .enter (call 2), .exit 1 [1], .exit 5 [2],
        .enter (call 1), .enter (call 2)]
    let more : List Operation := [.exit 0 [4], .enter (call 1), .exit 1 [5], .enter (call 0)]
    let exited := (ofOperations 16 operations).exit 0 [3]
    let history := History.ofOperations 16 operations
    exited.1 = .completed ∧ history.Effective history.length 0 ∧
      more.all Operation.keepsCalls = true ∧
      (exited.2.finish.1.map fun placed => placed.call.output) = [[3], [1], [], [], []] ∧
      ∃ (first : Nat) (root : Call) (placed : PlacedCall),
        history.Unclosed history.length first root ∧ root.depth = 0 ∧
        (exited.2.run more).finish.1[history.callsBefore first]? =
          some (withOutput [3] placed) := by
  intro call operations more exited history
  have completed : exited.1 = .completed := by decide
  have keep : more.all Operation.keepsCalls = true := by decide
  obtain ⟨_, effective, _, completes⟩ :=
    exit_completes_latest_unclosed_call 16 operations 0 [3]
  obtain ⟨first, root, placed, unclosed, depth, _, _, _, _, _, kept⟩ := completes completed
  exact ⟨completed, effective.mp completed, keep, by decide, first, root, placed, unclosed, depth,
    kept more keep⟩

end CallTree

end EvmTrace
