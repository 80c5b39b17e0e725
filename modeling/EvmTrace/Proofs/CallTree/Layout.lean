import EvmTrace.Proofs.CallTree.Bounds
import EvmTrace.Proofs.CallTree.Skeleton

/-!
Where a tree keeps the calls that it has accepted. Those in front of the last call of depth zero are
complete, and that call waits alone in the uppermost buffer. Each buffer below holds what was
accepted behind the last call of the depth above, up to the last call of its own depth, so that the
last call of all ends the deepest buffer. An open call is always the last one of its buffer.
-/

set_option autoImplicit false

namespace EvmTrace

namespace Ledger

/-- The position of the call that was accepted last at a depth. -/
def last? (ledger : Ledger) (depth : Nat) : Option Nat :=
  Depths.lastBefore ledger.depths depth ledger.length

/-- The calls as a tree keeps them: with the outputs that they have now, and with their paths. -/
def placed (ledger : Ledger) : List PlacedCall :=
  List.zipWith PlacedCall.mk (ledger.map Entry.result) (Depths.paths ledger.depths)

end Ledger

namespace CallTree

/-- A tree that keeps nothing. -/
structure Bare (tree : CallTree) : Prop where
  depth : tree.depth = 0
  buffers : ∀ calls ∈ tree.buffers, calls = []
  ordinals : tree.ordinals = []
  complete : tree.complete = []
  openCalls : tree.openCalls = []

/--
How a tree divides the calls of a ledger. For each depth of the branch, `ends` tells the position of
the call that was accepted last there.
-/
structure Divides (tree : CallTree) (ledger : Ledger) (ends : Nat → Nat) : Prop where
  current : ledger.depths.getLast? = some tree.depth
  last : ∀ depth ≤ tree.depth, ledger.last? depth = some (ends depth)
  ordered : ∀ depth < tree.depth, ends depth < ends (depth + 1)
  final : ends tree.depth + 1 = ledger.length
  /-- What precedes the last call of depth zero is complete. -/
  complete : tree.complete = ledger.placed.take (ends 0)
  root : ∃ placed, ledger.placed[ends 0]? = some placed ∧ tree.buffer 0 = [placed]
  /-- A buffer begins behind the last call of the depth above. -/
  inner : ∀ depth < tree.depth,
    tree.buffer (depth + 1) = (ledger.placed.take (ends (depth + 1) + 1)).drop (ends depth + 1)
  below : ∀ depth, tree.depth < depth → tree.buffer depth = []
  counted : tree.ordinals.length = tree.depth + 1

/-- The position of the last call of a depth, as far as the levels of the branch tell it. -/
def lastAt (tree : CallTree) (depth : Nat) : Nat :=
  (tree.branch.upTo (depth + 1)).length - 1

/-- Open calls lie inside each other, innermost first, and each is the last one of its buffer. -/
structure OpenAtEnds (tree : CallTree) : Prop where
  ordered : tree.openCalls.Pairwise fun inner outer => outer.depth < inner.depth
  reached : ∀ call ∈ tree.openCalls, call.depth ≤ tree.depth
  last : ∀ call ∈ tree.openCalls, call.slot + 1 = (tree.buffer call.depth).length
  same : ∀ call ∈ tree.openCalls, ∃ placed, (tree.buffer call.depth)[call.slot]? = some placed ∧
    placed.call.index = call.index ∧ placed.path = call.path

theorem openAtEnds_of_consistent {tree : CallTree} (wellFormed : tree.WellFormed)
    (consistent : tree.branch.Consistent) : tree.OpenAtEnds := by
  have waiting : ∀ call ∈ tree.openCalls, ∃ front placed,
      tree.branch.Stands call front placed ∧ tree.buffer call.depth = front ++ [placed] := by
    intro call member
    obtain ⟨front, placed, stands⟩ := consistent.standing call member
    refine ⟨front, placed, stands, ?_⟩
    rw [branch_buffer wellFormed, stands.last, Option.getD_some]
  refine ⟨consistent.ordered, ?_, ?_, ?_⟩
  · intro call member
    obtain ⟨front, placed, stands, _⟩ := waiting call member
    obtain ⟨level, found, _⟩ := Option.map_eq_some_iff.mp stands.last
    have inside := (List.getElem?_eq_some_iff.mp found).1
    rw [branch_depth wellFormed]
    omega
  · intro call member
    obtain ⟨front, placed, stands, calls⟩ := waiting call member
    rw [calls, stands.slot, List.length_append, List.length_singleton]
  · intro call member
    obtain ⟨front, placed, stands, calls⟩ := waiting call member
    refine ⟨placed, ?_, stands.index, stands.path⟩
    rw [calls, stands.slot, List.getElem?_concat_length]

end CallTree

/-- A tree that holds the calls of a ledger, the last one of depth zero alone in its buffer. -/
structure Arranges (tree : CallTree) (maxDepth : Nat) (ledger : Ledger) : Prop extends
    Holds tree maxDepth ledger where
  entered : tree.entered = ledger.length
  root : ledger ≠ [] → tree.waiting 0 = 1

namespace Arranges

variable {tree : CallTree} {maxDepth : Nat} {ledger : Ledger}

theorem empty (maxDepth : Nat) : Arranges (CallTree.empty maxDepth) maxDepth [] :=
  ⟨Holds.empty maxDepth, rfl, fun occupied => absurd rfl occupied⟩

theorem waiting_place (arranges : Arranges tree maxDepth ledger) (call : Call)
    (reached : call.depth ≤ tree.deepest) : (tree.place call).waiting 0 = 1 := by
  obtain ⟨rest, _, placed⟩ := CallTree.place_eq tree call arranges.wellFormed reached
  have inside := arranges.wellFormed.inside
  by_cases root : call.depth = 0
  · simp [placed, CallTree.waiting, CallTree.buffer, root, Branch.elders]
  · -- The buffer of the root is above that of the call and stays as it was.
    have occupied : ledger ≠ [] := by
      rintro rfl
      rw [arranges.deepest_eq] at reached
      exact root (Nat.le_zero.mp reached)
    have same : (tree.place call).buffer 0 = tree.buffer 0 := by
      have front : 0 < (tree.buffers.take call.depth).length := by
        rw [List.length_take]
        omega
      rw [CallTree.buffer, placed, List.getElem?_append_left front,
        List.getElem?_take_of_lt (by omega), CallTree.buffer]
    rw [CallTree.waiting, same]
    exact arranges.root occupied

theorem operate (arranges : Arranges tree maxDepth ledger) (operation : CallTree.Operation) :
    Arranges (tree.operate operation) maxDepth (ledger.note maxDepth operation) := by
  have holds := arranges.toHolds.operate operation
  cases operation with
  | enter call =>
      rcases arranges.enter_cases call with ⟨same, noted⟩ | ⟨reached, placed, noted⟩
      · rw [same, noted]
        exact arranges
      · rw [placed, noted] at holds ⊢
        refine ⟨holds, ?_, fun _ => arranges.waiting_place call reached⟩
        obtain ⟨_, _, next⟩ := CallTree.place_eq tree call arranges.wellFormed reached
        rw [next, arranges.entered, Ledger.enter, List.length_append, List.length_map,
          List.length_singleton]
  | exit depth output =>
      have same := CallTree.skeleton_exit tree depth output
      have length := ledger.length_exit depth output
      refine ⟨holds, ?_, ?_⟩
      · exact (congrArg CallTree.entered same).trans (arranges.entered.trans length.symm)
      · intro occupied
        have before : ledger ≠ [] := by
          rw [← List.length_pos_iff] at occupied ⊢
          exact Nat.lt_of_lt_of_eq occupied length
        have waiting := congrArg (fun skeleton => skeleton.waiting 0) same
        simp only [CallTree.waiting_skeleton] at waiting
        exact waiting.trans (arranges.root before)
  | finish => exact ⟨holds, rfl, fun occupied => absurd rfl occupied⟩
  | reset => exact ⟨holds, rfl, fun occupied => absurd rfl occupied⟩

theorem ofOperations (maxDepth : Nat) (operations : List CallTree.Operation) :
    Arranges (CallTree.ofOperations maxDepth operations) maxDepth
      (Ledger.ofOperations maxDepth operations) := by
  induction operations using List.reverseRecOn with
  | nil => exact empty maxDepth
  | append_singleton operations operation ih =>
      rw [CallTree.ofOperations_snoc, Ledger.ofOperations_snoc]
      exact ih.operate operation

theorem calls_eq (arranges : Arranges tree maxDepth ledger) :
    tree.branch.calls = ledger.placed := by
  rw [Ledger.placed, ← arranges.tracks.calls, ← arranges.tracks.paths, List.zipWith_map,
    List.zipWith_self]
  exact (List.map_id _).symm

theorem bare (arranges : Arranges tree maxDepth []) : tree.Bare := by
  have untouched : tree.entered = 0 := arranges.entered
  have deepest : tree.deepest = 0 := if_pos untouched
  have none : tree.branch.levels = [] := by
    rw [← List.length_eq_zero_iff, CallTree.length_levels arranges.wellFormed, deepest]
  have calls : tree.branch.calls = [] := arranges.calls_eq
  refine ⟨arranges.wellFormed.untouched untouched, ?_, ?_, ?_, ?_⟩
  · have settled := arranges.wellFormed.settled
    rw [deepest, List.drop_zero] at settled
    exact settled
  · rw [← List.length_eq_zero_iff, arranges.wellFormed.counted, deepest]
  · exact (List.append_eq_nil_iff.mp calls).1
  · apply List.eq_nil_iff_forall_not_mem.mpr
    intro call member
    obtain ⟨_, _, stands⟩ := arranges.tracks.consistent.standing call member
    have missing := stands.last
    rw [none] at missing
    cases missing

section Occupied

variable (arranges : Arranges tree maxDepth ledger) (occupied : ledger ≠ [])

include arranges occupied

theorem length_levels : tree.branch.levels.length = tree.depth + 1 := by
  have entered : tree.entered ≠ 0 := by
    rw [arranges.entered]
    exact List.length_pos_iff.mpr occupied |>.ne'
  rw [CallTree.length_levels arranges.wellFormed, CallTree.deepest, if_neg entered]

theorem getLast?_depths : ledger.depths.getLast? = some tree.depth := by
  have reached := arranges.tracks.reached
  rw [arranges.length_levels occupied, Ledger.deepest_eq] at reached
  cases last : ledger.depths.getLast? with
  | none => simp [last] at reached
  | some depth => simpa [last, eq_comm] using reached

theorem exists_level {depth : Nat} (reached : depth ≤ tree.depth) :
    ∃ level, tree.branch.levels[depth]? = some level ∧ tree.buffer depth = level.calls := by
  have levels := arranges.length_levels occupied
  have found := List.getElem?_eq_getElem (show depth < tree.branch.levels.length by omega)
  refine ⟨_, found, ?_⟩
  rw [CallTree.branch_buffer arranges.wellFormed, found]
  rfl

/-- The level of a depth ends with the call that was accepted last there. -/
theorem length_upTo {depth : Nat} (reached : depth ≤ tree.depth) :
    ledger.last? depth = some (tree.lastAt depth) ∧
      (tree.branch.upTo (depth + 1)).length = tree.lastAt depth + 1 := by
  have levels := arranges.length_levels occupied
  obtain ⟨position, ends⟩ := arranges.tracks.lasts depth (by omega)
  have here : tree.lastAt depth = position := by
    rw [CallTree.lastAt, ends.count, Nat.add_sub_cancel]
  rw [here]
  exact ⟨ends.last, ends.count⟩

theorem length_complete : tree.branch.complete.length = tree.lastAt 0 := by
  obtain ⟨level, found, calls⟩ := arranges.exists_level occupied (Nat.zero_le _)
  obtain ⟨_, upTo⟩ := arranges.length_upTo occupied (Nat.zero_le _)
  have alone := arranges.root occupied
  rw [CallTree.waiting, calls] at alone
  rw [Branch.upTo_succ _ 0 level found, Branch.upTo_zero, List.length_append, alone] at upTo
  omega

theorem complete_eq : tree.complete = ledger.placed.take (tree.lastAt 0) := by
  have front := Branch.take_calls_upTo tree.branch 0
  rw [Branch.upTo_zero, arranges.length_complete occupied, arranges.calls_eq] at front
  exact front.symm

theorem exists_root :
    ∃ placed, ledger.placed[tree.lastAt 0]? = some placed ∧ tree.buffer 0 = [placed] := by
  obtain ⟨level, found, waiting⟩ := arranges.exists_level occupied (Nat.zero_le _)
  obtain ⟨placed, single⟩ := List.length_eq_one_iff.mp (arranges.root occupied)
  refine ⟨placed, ?_, single⟩
  rw [← arranges.calls_eq, Branch.calls_eq_upTo _ 0 level found, ← waiting, single,
    Branch.upTo_zero, ← arranges.length_complete occupied,
    List.getElem?_append_right (Nat.le_refl _), Nat.sub_self]
  rfl

theorem buffer_succ {depth : Nat} (above : depth < tree.depth) :
    tree.buffer (depth + 1) =
      (ledger.placed.take (tree.lastAt (depth + 1) + 1)).drop (tree.lastAt depth + 1) := by
  have reached : depth + 1 ≤ tree.depth := above
  obtain ⟨level, found, waiting⟩ := arranges.exists_level occupied reached
  rw [waiting, Branch.calls_of_level _ _ level found, arranges.calls_eq,
    (arranges.length_upTo occupied (Nat.le_of_lt above)).2,
    (arranges.length_upTo occupied reached).2]

/-- A level below another holds a call, since calls of two depths do not stand at one position. -/
theorem lastAt_lt {depth : Nat} (above : depth < tree.depth) :
    tree.lastAt depth < tree.lastAt (depth + 1) := by
  have reached : depth + 1 ≤ tree.depth := above
  obtain ⟨level, found, _⟩ := arranges.exists_level occupied reached
  obtain ⟨last, front⟩ := arranges.length_upTo occupied (Nat.le_of_lt above)
  obtain ⟨next, whole⟩ := arranges.length_upTo occupied reached
  rw [Branch.upTo_succ _ _ level found, List.length_append, front] at whole
  have other : tree.lastAt depth ≠ tree.lastAt (depth + 1) := by
    intro same
    have here := (Depths.lastBefore_some last).2
    rw [same, (Depths.lastBefore_some next).2, Option.some.injEq] at here
    omega
  omega

theorem lastAt_depth : tree.lastAt tree.depth + 1 = ledger.length := by
  have levels := arranges.length_levels occupied
  rw [← (arranges.length_upTo occupied (Nat.le_refl _)).2,
    Branch.upTo_of_length_le _ _ (Nat.le_of_eq levels), arranges.tracks.length_calls]

theorem buffer_of_depth_lt {depth : Nat} (beyond : tree.depth < depth) :
    tree.buffer depth = [] := by
  have levels := arranges.length_levels occupied
  have missing : tree.branch.levels[depth]? = none := List.getElem?_eq_none (by omega)
  rw [CallTree.branch_buffer arranges.wellFormed, missing]
  rfl

theorem divides : tree.Divides ledger tree.lastAt where
  current := arranges.getLast?_depths occupied
  last _ reached := (arranges.length_upTo occupied reached).1
  ordered _ above := arranges.lastAt_lt occupied above
  final := arranges.lastAt_depth occupied
  complete := arranges.complete_eq occupied
  root := arranges.exists_root occupied
  inner _ above := arranges.buffer_succ occupied above
  below _ beyond := arranges.buffer_of_depth_lt occupied beyond
  counted := by
    rw [← CallTree.map_ordinal_levels arranges.wellFormed, List.length_map,
      arranges.length_levels occupied]

end Occupied

end Arranges

namespace CallTree

/--
How a tree keeps the calls that it accepted since they were last taken out or dropped, after any
operations. Without such calls it keeps nothing; otherwise it divides them among the complete trees
and the buffers, and the last of them tells its depth. Open calls are the last of their buffers.
Therefore an operation never reads a buffer or an ordinal that is not there.
-/
theorem buffers_divide_accepted_calls (maxDepth : Nat) (operations : List Operation) :
    let tree := ofOperations maxDepth operations
    let ledger := Ledger.ofOperations maxDepth operations
    (∀ call, (tree.enter call).map (fun _ => ()) = ledger.admission maxDepth call) ∧
      tree.entered = ledger.length ∧
      (ledger = [] → tree.Bare) ∧
      (ledger ≠ [] → ∃ ends, tree.Divides ledger ends) ∧
      tree.OpenAtEnds ∧
      (empty maxDepth).run? operations = some tree := by
  intro tree ledger
  have arranges : Arranges tree maxDepth ledger := Arranges.ofOperations maxDepth operations
  have standing : tree.OpenAtEnds :=
    openAtEnds_of_consistent arranges.wellFormed arranges.tracks.consistent
  have checked : (empty maxDepth).run? operations = some tree := run?_empty maxDepth operations
  refine ⟨?_, arranges.entered, ?_, fun occupied => ⟨_, arranges.divides occupied⟩, standing,
    checked⟩
  · intro call
    rw [arranges.enter_eq call]
    cases ledger.admission maxDepth call <;> rfl
  · intro vacant
    rw [vacant] at arranges
    exact arranges.bare

/--
With depths written behind the calls, these are `A(0) B(1) C(2) D(1)`, a call that skips a level
between the first two, and an exit of `C`.
-/
theorem buffers_divide_four_calls :
    let call := fun depth => Call.plain .call depth (.zero 20) (.zero 20)
    let operations : List Operation :=
      [.enter (call 0), .enter (call 2), .enter (call 1), .enter (call 2), .exit 2 [1],
        .enter (call 1)]
    let tree := ofOperations 16 operations
    let ledger := Ledger.ofOperations 16 operations
    ledger ≠ [] ∧ tree.depth = 1 ∧
      ∃ ends, tree.Divides ledger ends ∧ ends 0 = 0 ∧ ends 1 = 3 ∧
        tree.buffer 1 = (ledger.placed.take 4).drop 1 := by
  intro call operations tree ledger
  have occupied : ledger ≠ [] := by decide
  obtain ⟨_, _, _, divided, _⟩ := buffers_divide_accepted_calls 16 operations
  obtain ⟨ends, divides⟩ := divided occupied
  have depth : tree.depth = 1 := by decide
  have first : ledger.last? 0 = some 0 := by decide
  have last : ledger.last? 1 = some 3 := by decide
  have root : ends 0 = 0 :=
    Option.some.inj ((divides.last 0 (Nat.zero_le _)).symm.trans first)
  have child : ends 1 = 3 :=
    Option.some.inj ((divides.last 1 (Nat.le_of_eq depth.symm)).symm.trans last)
  have below := divides.inner 0 (by rw [depth]; exact Nat.zero_lt_one)
  rw [root, child] at below
  exact ⟨occupied, depth, ends, divides, root, child, below⟩

end CallTree

end EvmTrace
