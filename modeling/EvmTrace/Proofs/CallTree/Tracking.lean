import EvmTrace.Proofs.CallTree.Ledger
import EvmTrace.Proofs.CallTree.View

/-!
A tree of calls agrees with the ledger of what was done with it. The relation between the branch of
a tree and a ledger holds of an empty tree and is kept by every operation, so it holds after all of
them, in whatever order they come.
-/

set_option autoImplicit false

namespace EvmTrace

open Depths

/-- A level of the branch ends with the call that was entered last at its depth. -/
structure EndsWith (branch : Branch) (ledger : Ledger) (depth position : Nat) : Prop where
  last : lastBefore ledger.depths depth ledger.length = some position
  count : (branch.upTo (depth + 1)).length = position + 1
  path : ((branch.levels.take (depth + 1)).map Level.ordinal).tail =
    pathAt ledger.depths depth position
  /-- The level below counts the children of that call. -/
  children : branch.nextOrdinal (depth + 1) =
    childrenBefore ledger.depths position ledger.length + 1
  /-- Nothing but an exit can have ended that call. -/
  ended : ∀ entry, ledger[position]? = some entry → entry.running = !entry.exited

/-- What the branch of a tree has to do with the ledger of its calls. -/
structure Tracks (branch : Branch) (ledger : Ledger) : Prop where
  consistent : branch.Consistent
  reached : branch.levels.length = ledger.deepest
  calls : branch.calls.map PlacedCall.call = ledger.map Entry.result
  paths : branch.calls.map PlacedCall.path = paths ledger.depths
  lasts : ∀ depth < branch.levels.length, ∃ position, EndsWith branch ledger depth position
  parented : ∀ position depth, ledger.depths[position]? = some (depth + 1) →
    (parent? ledger.depths position).isSome
  /-- A call runs if it is the last one of its depth and a call is open there. -/
  running : ∀ position entry, ledger[position]? = some entry →
    (entry.running = true ↔
      lastBefore ledger.depths entry.call.depth ledger.length = some position ∧
        ∃ call ∈ branch.openCalls, call.depth = entry.call.depth)

namespace Tracks

theorem empty (maxDepth : Nat) : Tracks (Branch.empty maxDepth) [] := by
  refine ⟨Branch.consistent_empty maxDepth, rfl, rfl, rfl, ?_, ?_, ?_⟩
  · intro depth inside
    exact absurd inside (Nat.not_lt_zero depth)
  · intro position depth stands
    cases stands
  · intro position entry stands
    cases stands

/-- The path of the next call is that of its parent, extended by one. -/
theorem nextPath_eq {branch : Branch} {ledger : Ledger} (tracks : Tracks branch ledger)
    (depth : Nat) (reached : depth ≤ branch.levels.length) :
    branch.nextPath depth = pathAt ledger.depths depth ledger.length := by
  cases depth with
  | zero => rfl
  | succ depth =>
      obtain ⟨parent, ends⟩ := tracks.lasts depth (by omega)
      rw [Branch.nextPath_succ branch depth (by omega), ends.path, ends.children, pathAt, ends.last]

theorem length_calls {branch : Branch} {ledger : Ledger} (tracks : Tracks branch ledger) :
    branch.calls.length = ledger.length := by
  rw [← List.length_map PlacedCall.call, tracks.calls, List.length_map]

theorem lasts_enter {branch : Branch} {ledger : Ledger} (tracks : Tracks branch ledger)
    (call : Call) (reached : call.depth ≤ branch.levels.length) (depth : Nat)
    (inside : depth < (branch.place call).levels.length) :
    ∃ position, EndsWith (branch.place call) (ledger.enter call) depth position := by
  have size := ledger.length_depths
  have length : (ledger.enter call).length = ledger.depths.length + 1 := by simp [Ledger.enter]
  have levels := Branch.length_levels_place branch call reached
  rw [levels] at inside
  by_cases last : depth = call.depth
  · refine ⟨ledger.depths.length, ?_, ?_, ?_, ?_, ?_⟩
    · rw [length, Ledger.depths_enter, lastBefore_snoc, if_pos last.symm]
    · rw [Branch.upTo_of_length_le _ _ (by omega), Branch.calls_place, List.length_append,
        tracks.length_calls, size, List.length_singleton]
    · rw [List.take_of_length_le (by omega), Ledger.depths_enter,
        pathAt_append _ _ _ _ (Nat.le_refl _), last, size,
        ← tracks.nextPath_eq call.depth reached, Branch.nextPath, Branch.place, List.map_append]
      rfl
    · rw [Branch.nextOrdinal_place branch call _ reached, if_neg (by omega), if_neg (by omega),
        length, childrenBefore_eq_zero _ _ _ (Nat.le_refl _)]
    · intro entry stands
      rw [Ledger.entry_enter_last, Option.some.injEq] at stands
      rw [← stands]
      rfl
  · have above : depth < call.depth := by omega
    obtain ⟨position, ends⟩ := tracks.lasts depth (by omega)
    have found := ends.last
    have children := ends.children
    rw [← size] at found children
    obtain ⟨before, stands⟩ := lastBefore_some found
    refine ⟨position, ?_, ?_, ?_, ?_, ?_⟩
    · rw [length, Ledger.depths_enter, lastBefore_snoc, if_neg (Ne.symm last), found]
    · rw [Branch.upTo_place branch call depth above reached, ends.count]
    · rw [Branch.take_levels_place branch call _ above reached, ends.path, Ledger.depths_enter,
        pathAt_append _ _ _ _ (Nat.le_of_lt before)]
    · rw [Branch.nextOrdinal_place branch call _ reached, length, Ledger.depths_enter,
        childrenBefore_succ, childrenBefore_append _ _ _ _ (Nat.le_refl _), children]
      obtain ⟨upper, parent⟩ : ∃ upper, call.depth = upper + 1 := ⟨call.depth - 1, by omega⟩
      rw [parent, parent?_snoc_succ]
      by_cases child : depth + 1 < call.depth
      · -- The parent lies at another depth, so it is another call.
        have other : lastBefore ledger.depths upper ledger.depths.length ≠ some position := by
          intro same
          have standing := (lastBefore_some same).2
          rw [stands] at standing
          cases standing
          omega
        rw [if_pos (by omega), if_neg other]
      · have same : upper = depth := by omega
        rw [if_neg (by omega), if_pos (by omega), same, found, if_pos rfl]
    · intro entry standing
      rw [Ledger.entry_enter_of_lt _ _ _ (by omega)] at standing
      obtain ⟨previous, found, rfl⟩ := Option.map_eq_some_iff.mp standing
      have here := Ledger.depth_of_entry found
      rw [stands, Option.some.injEq] at here
      simp [Entry.endFrom, ends.ended previous found, ← here, above]

theorem parented_enter {branch : Branch} {ledger : Ledger} (tracks : Tracks branch ledger)
    (call : Call) (reached : call.depth ≤ branch.levels.length) (position depth : Nat)
    (stands : (ledger.enter call).depths[position]? = some (depth + 1)) :
    (parent? (ledger.enter call).depths position).isSome := by
  rw [Ledger.depths_enter] at stands ⊢
  by_cases old : position < ledger.depths.length
  · rw [List.getElem?_append_left old] at stands
    rw [parent?_append _ _ _ old]
    exact tracks.parented position depth stands
  · have here : position = ledger.depths.length := by
      have inside := (List.getElem?_eq_some_iff.mp stands).1
      simp only [List.length_append, List.length_singleton] at inside
      omega
    rw [here, List.getElem?_concat_length, Option.some.injEq] at stands
    obtain ⟨parent, ends⟩ := tracks.lasts depth (by omega)
    rw [here, stands, parent?_snoc_succ, Ledger.length_depths, ends.last]
    rfl

theorem running_enter {branch : Branch} {ledger : Ledger} (tracks : Tracks branch ledger)
    (call : Call) (position : Nat) (entry : Entry)
    (stands : (ledger.enter call)[position]? = some entry) :
    entry.running = true ↔
      lastBefore (ledger.enter call).depths entry.call.depth (ledger.enter call).length =
          some position ∧
        ∃ outer ∈ (branch.place call).openCalls, outer.depth = entry.call.depth := by
  have size := ledger.length_depths
  have length : (ledger.enter call).length = ledger.depths.length + 1 := by simp [Ledger.enter]
  rw [length, Ledger.depths_enter, lastBefore_snoc,
    Branch.openCalls_place branch call tracks.consistent]
  by_cases old : position < ledger.length
  · rw [Ledger.entry_enter_of_lt _ _ _ old] at stands
    obtain ⟨before, found, rfl⟩ := Option.map_eq_some_iff.mp stands
    have running := tracks.running position before found
    have call_endFrom : (before.endFrom call.depth).call = before.call := rfl
    rw [call_endFrom, size]
    simp only [Entry.endFrom, Bool.and_eq_true, decide_eq_true_eq, running]
    by_cases same : call.depth = before.call.depth
    · rw [if_pos same]
      constructor
      · intro ended
        omega
      · intro found
        have impossible := Option.some.inj found.1
        omega
    · rw [if_neg same]
      constructor
      · rintro ⟨⟨last, outer, member, here⟩, above⟩
        refine ⟨last, outer, List.mem_cons_of_mem _ (List.mem_filter.mpr ⟨member, ?_⟩), here⟩
        simpa [here] using above
      · rintro ⟨last, outer, member, here⟩
        rcases List.mem_cons.mp member with rfl | member
        · exact absurd here same
        · obtain ⟨member, above⟩ := List.mem_filter.mp member
          have above : outer.depth < call.depth := by simpa using above
          exact ⟨⟨last, outer, member, here⟩, by omega⟩
  · have here : position = ledger.length := by
      have inside := (List.getElem?_eq_some_iff.mp stands).1
      omega
    subst here
    rw [← size, Ledger.entry_enter_last, Option.some.injEq] at stands
    rw [← stands, Entry.ofCall, if_pos rfl, size]
    simp [Branch.opened]

/-- An accepted call is entered into the ledger. -/
theorem enter {branch : Branch} {ledger : Ledger} (tracks : Tracks branch ledger)
    (call : Call) (reached : call.depth ≤ branch.levels.length) :
    Tracks (branch.place call) (ledger.enter call) := by
  refine ⟨tracks.consistent.place call reached, ?_, ?_, ?_, tracks.lasts_enter call reached,
    tracks.parented_enter call reached, tracks.running_enter call⟩
  · rw [Branch.length_levels_place branch call reached, Ledger.deepest_enter]
  · rw [Branch.calls_place, List.map_append, tracks.calls, Ledger.enter, List.map_append,
      List.map_map]
    rfl
  · rw [Branch.calls_place, List.map_append, tracks.paths, Ledger.depths_enter, paths_snoc,
      Ledger.length_depths, ← tracks.nextPath_eq call.depth reached]
    rfl

/-- A call that is open is the one that was entered last at its depth. -/
theorem last_of_open {branch : Branch} {ledger : Ledger} (tracks : Tracks branch ledger)
    {call : OpenCall} {front : List PlacedCall} {placed : PlacedCall}
    (stands : branch.Stands call front placed) :
    lastBefore ledger.depths call.depth ledger.length =
      some (branch.upTo call.depth ++ front).length := by
  obtain ⟨level, found, calls⟩ := Option.map_eq_some_iff.mp stands.last
  obtain ⟨position, ends⟩ := tracks.lasts call.depth (List.getElem?_eq_some_iff.mp found).1
  have length := ends.count
  rw [Branch.upTo_succ branch call.depth level found, calls] at length
  simp only [List.length_append, List.length_singleton] at length ⊢
  rw [ends.last]
  congr 1
  omega

/-- The entry of an open call is the one that runs at its depth. -/
theorem running_iff_of_open {branch : Branch} {ledger : Ledger} (tracks : Tracks branch ledger)
    {call : OpenCall} (member : call ∈ branch.openCalls) {front : List PlacedCall}
    {placed : PlacedCall} (stands : branch.Stands call front placed) (position : Nat)
    (entry : Entry) (found : ledger[position]? = some entry) :
    (entry.running = true ∧ entry.call.depth = call.depth) ↔
      (branch.upTo call.depth ++ front).length = position := by
  have last := tracks.last_of_open stands
  have running := tracks.running position entry found
  constructor
  · rintro ⟨runs, here⟩
    have same := (running.mp runs).1
    rw [here, last] at same
    exact Option.some.inj same
  · intro here
    rw [here] at last
    obtain ⟨other, found', depth⟩ := Ledger.entry_of_depth (lastBefore_some last).2
    rw [found] at found'
    cases found'
    exact ⟨running.mpr ⟨by rw [depth, last], call, member, depth.symm⟩, depth⟩

/-- A call runs at a depth exactly if a call is open there. -/
theorem runsAt_iff {branch : Branch} {ledger : Ledger} (tracks : Tracks branch ledger)
    (depth : Nat) :
    ledger.runsAt depth = true ↔ ∃ call ∈ branch.openCalls, call.depth = depth := by
  rw [Ledger.runsAt, List.any_eq_true]
  constructor
  · rintro ⟨entry, member, runs⟩
    simp only [Bool.and_eq_true, beq_iff_eq] at runs
    obtain ⟨position, found⟩ := List.mem_iff_getElem?.mp member
    obtain ⟨_, call, member, here⟩ := (tracks.running position entry found).mp runs.1
    exact ⟨call, member, here.trans runs.2⟩
  · rintro ⟨call, member, rfl⟩
    obtain ⟨front, placed, stands⟩ := tracks.consistent.standing call member
    have last := tracks.last_of_open stands
    obtain ⟨entry, found, _⟩ := Ledger.entry_of_depth (lastBefore_some last).2
    have runs := (tracks.running_iff_of_open member stands _ entry found).mpr rfl
    exact ⟨entry, List.mem_of_getElem? found, by simp [runs]⟩

theorem exited {branch : Branch} {ledger : Ledger} (tracks : Tracks branch ledger)
    {call : OpenCall} (member : call ∈ branch.openCalls) (output : Bytes) :
    Tracks (branch.exited call output) (ledger.exit call.depth output) := by
  obtain ⟨front, placed, stands⟩ := tracks.consistent.standing call member
  have runs := (tracks.runsAt_iff call.depth).mpr ⟨call, member, rfl⟩
  have entries : ledger.exit call.depth output =
      ledger.map fun entry => (entry.answer call.depth output).exitFrom call.depth := by
    rw [Ledger.exit, if_pos runs]
  have length := ledger.length_exit call.depth output
  have calls := stands.calls_exited output
  have levels : (branch.exited call output).levels.length = branch.levels.length :=
    List.length_modify _ _ _
  refine ⟨tracks.consistent.exited call output, ?_, ?_, ?_, ?_, ?_, ?_⟩
  · rw [levels, tracks.reached, Ledger.deepest_eq, Ledger.deepest_eq, Ledger.depths_exit]
  · rw [calls, entries]
    apply List.ext_getElem?
    intro position
    have same := congrArg (fun list => list[position]?) tracks.calls
    simp only [List.getElem?_map, List.getElem?_modify] at same ⊢
    cases found : ledger[position]? with
    | none =>
        rw [found] at same
        simp_all
    | some entry =>
        have chosen := tracks.running_iff_of_open member stands position entry found
        rw [found] at same
        obtain ⟨before, standing, result⟩ := Option.map_eq_some_iff.mp same
        have ended : ∀ other : Entry, (other.exitFrom call.depth).result = other.result :=
          fun _ => rfl
        simp only [standing, Option.map_some, ended, Ledger.result_answer,
          ← chosen, ← result]
        split <;> rfl
  · rw [calls, Ledger.depths_exit, ← tracks.paths]
    apply List.ext_getElem?
    intro position
    simp only [List.getElem?_map, List.getElem?_modify]
    cases branch.calls[position]? with
    | none => rfl
    | some before =>
        simp only [Option.map_some]
        split <;> rfl
  · intro depth inside
    rw [levels] at inside
    obtain ⟨position, ends⟩ := tracks.lasts depth inside
    have ordinals := Branch.map_levels_setOutput Level.ordinal branch call.depth call.slot output
      fun _ => rfl
    refine ⟨position, ?_, ?_, ?_, ?_, ?_⟩
    · rw [Ledger.depths_exit, length, ends.last]
    · exact (Branch.length_upTo_setOutput branch _ _ _ output).trans ends.count
    · rw [Ledger.depths_exit, ← ends.path, List.map_take, List.map_take, ← ordinals]
      rfl
    · rw [Ledger.depths_exit, length, ← ends.children]
      exact Branch.nextOrdinal_setOutput branch _ _ _ output
    · intro entry standing
      rw [entries, List.getElem?_map] at standing
      obtain ⟨before, found, rfl⟩ := Option.map_eq_some_iff.mp standing
      have ended := ends.ended before found
      simp only [Entry.exitFrom, Entry.endFrom, Ledger.running_answer, Ledger.exited_answer,
        Ledger.call_answer, ended]
      by_cases above : before.call.depth < call.depth
      · cases before.exited <;> simp [above]
      · cases before.exited <;> simp [above, Nat.le_of_not_lt above]
  · rw [Ledger.depths_exit]
    exact tracks.parented
  · intro position entry found
    rw [entries, List.getElem?_map] at found
    obtain ⟨before, standing, rfl⟩ := Option.map_eq_some_iff.mp found
    have running := tracks.running position before standing
    have same : ((before.answer call.depth output).exitFrom call.depth).call = before.call :=
      Ledger.call_answer call.depth output before
    rw [same, Ledger.depths_exit, length]
    simp only [Entry.exitFrom, Entry.endFrom, Ledger.running_answer, Ledger.call_answer,
      Bool.and_eq_true,
      decide_eq_true_eq, running]
    constructor
    · rintro ⟨⟨last, outer, member, here⟩, above⟩
      refine ⟨last, outer, List.mem_filter.mpr ⟨member, ?_⟩, here⟩
      simpa [here] using above
    · rintro ⟨last, outer, member, here⟩
      obtain ⟨member, above⟩ := List.mem_filter.mp member
      have above : outer.depth < call.depth := by simpa using above
      exact ⟨⟨last, outer, member, here⟩, by omega⟩

theorem exit {branch : Branch} {ledger : Ledger} (tracks : Tracks branch ledger) (depth : Nat)
    (output : Bytes) :
    Tracks (branch.exit depth output).2 (ledger.exit depth output) := by
  by_cases running : ∃ call ∈ branch.openCalls, call.depth = depth
  · obtain ⟨call, member, rfl⟩ := running
    rw [Branch.exit_of_mem tracks.consistent member]
    exact tracks.exited member output
  · have idle : ledger.runsAt depth = false := by
      rw [← Bool.not_eq_true, tracks.runsAt_iff]
      exact running
    rw [Branch.exit_of_not_mem branch depth output
      (fun call member here => running ⟨call, member, here⟩), Ledger.exit, idle]
    exact tracks

end Tracks

/-- A tree holds the calls of a ledger. -/
structure Holds (tree : CallTree) (maxDepth : Nat) (ledger : Ledger) : Prop where
  wellFormed : tree.WellFormed
  bound : tree.maxDepth = maxDepth
  tracks : Tracks tree.branch ledger

namespace Holds

theorem empty (maxDepth : Nat) : Holds (CallTree.empty maxDepth) maxDepth [] :=
  ⟨CallTree.wellFormed_empty maxDepth, rfl, Tracks.empty maxDepth⟩

theorem deepest_eq {tree : CallTree} {maxDepth : Nat} {ledger : Ledger}
    (holds : Holds tree maxDepth ledger) : tree.deepest = ledger.deepest := by
  rw [← CallTree.length_levels holds.wellFormed, holds.tracks.reached]

/-- The ledger answers a call as the tree does. -/
theorem enter_eq {tree : CallTree} {maxDepth : Nat} {ledger : Ledger}
    (holds : Holds tree maxDepth ledger) (call : Call) :
    tree.enter call = (ledger.admission maxDepth call).map fun _ => tree.place call := by
  unfold CallTree.enter Ledger.admission
  rw [holds.bound, holds.deepest_eq]
  split
  · rfl
  · split <;> rfl

/-- A call is entered in the tree and in the ledger, or it is refused and changes neither. -/
theorem enter_cases {tree : CallTree} {maxDepth : Nat} {ledger : Ledger}
    (holds : Holds tree maxDepth ledger) (call : Call) :
    tree.operate (.enter call) = tree ∧ ledger.note maxDepth (.enter call) = ledger ∨
      call.depth ≤ tree.deepest ∧ tree.operate (.enter call) = tree.place call ∧
        ledger.note maxDepth (.enter call) = ledger.enter call := by
  have answer := holds.enter_eq call
  cases verdict : ledger.admission maxDepth call with
  | error reason =>
      rw [verdict] at answer
      refine .inl ⟨?_, ?_⟩
      · simp only [CallTree.operate, answer, Except.map]
      · simp only [Ledger.note, verdict]
  | ok accepted =>
      have reached := ((Ledger.admission_eq_ok_iff _ _ _).mp verdict).2
      rw [← holds.deepest_eq] at reached
      rw [verdict] at answer
      refine .inr ⟨reached, ?_, ?_⟩
      · simp only [CallTree.operate, answer, Except.map]
      · simp only [Ledger.note, verdict]

theorem operate {tree : CallTree} {maxDepth : Nat} {ledger : Ledger}
    (holds : Holds tree maxDepth ledger) (operation : CallTree.Operation) :
    Holds (tree.operate operation) maxDepth (ledger.note maxDepth operation) := by
  obtain ⟨wellFormed, bound, tracks⟩ := holds
  cases operation with
  | enter call =>
      rcases enter_cases ⟨wellFormed, bound, tracks⟩ call with
        ⟨same, noted⟩ | ⟨reached, placed, noted⟩
      · rw [same, noted]
        exact ⟨wellFormed, bound, tracks⟩
      · have branch := CallTree.branch_place tree call wellFormed reached
        rw [placed, noted]
        refine ⟨wellFormed.place call reached, ?_, ?_⟩
        · rw [← CallTree.branch_maxDepth, branch]
          exact bound
        · rw [branch]
          rw [← CallTree.length_levels wellFormed] at reached
          exact tracks.enter call reached
  | exit depth output =>
      have branch : (tree.operate (.exit depth output)).branch =
          (tree.branch.exit depth output).2 := (CallTree.branch_exit wellFormed depth output).2
      refine ⟨wellFormed.exit depth output, ?_, ?_⟩
      · exact (CallTree.maxDepth_exit wellFormed depth output).trans bound
      · rw [branch]
        exact tracks.exit depth output
  | finish =>
      obtain ⟨_, branch, bare⟩ := CallTree.branch_finish wellFormed
      have branch : (tree.operate .finish).branch = Branch.empty maxDepth := bound ▸ branch
      refine ⟨bare, ?_, ?_⟩
      · exact (CallTree.maxDepth_finish wellFormed).trans bound
      · rw [branch]
        exact Tracks.empty maxDepth
  | reset =>
      exact ⟨wellFormed.reset, bound, bound ▸ Tracks.empty maxDepth⟩

/-- A tree that went through operations holds what the ledger of the operations says. -/
theorem ofOperations (maxDepth : Nat) (operations : List CallTree.Operation) :
    Holds (CallTree.ofOperations maxDepth operations) maxDepth
      (Ledger.ofOperations maxDepth operations) := by
  induction operations using List.reverseRecOn with
  | nil => exact empty maxDepth
  | append_singleton operations operation ih =>
      rw [CallTree.ofOperations_snoc, Ledger.ofOperations_snoc]
      exact ih.operate operation

end Holds

end EvmTrace
