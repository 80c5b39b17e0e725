import EvmTrace.Proofs.CallTree.Branch
import Mathlib.Data.List.Induction

/-!
What the buffers of a tree of calls hold, and the branch that they stand for. Every operation on a
well-formed tree does to its branch what the operation of the same name on branches does, and leaves
the tree well-formed, so that whatever is proved of branches is true of trees.
-/

set_option autoImplicit false

namespace EvmTrace

namespace CallTree

/-- What every operation keeps of the buffers and counts of a tree. -/
structure WellFormed (tree : CallTree) : Prop where
  /-- There is a buffer for the deepest depth at which calls may wait. -/
  inside : tree.depth < tree.buffers.length
  /-- No call waits below the branch, and none at all before the first call. -/
  settled : ∀ calls ∈ tree.buffers.drop tree.deepest, calls = []
  /-- One ordinal is kept for each depth of the branch. -/
  counted : tree.ordinals.length = tree.deepest
  untouched : tree.entered = 0 → tree.depth = 0

/-- The branch that the buffers and ordinals of a tree stand for. -/
def branch (tree : CallTree) : Branch :=
  { maxDepth := tree.maxDepth
    complete := tree.complete
    levels := List.zipWith Level.mk tree.ordinals tree.buffers
    openCalls := tree.openCalls }

@[simp] theorem branch_maxDepth (tree : CallTree) : tree.branch.maxDepth = tree.maxDepth := rfl

@[simp] theorem branch_complete (tree : CallTree) : tree.branch.complete = tree.complete := rfl

@[simp] theorem branch_openCalls (tree : CallTree) : tree.branch.openCalls = tree.openCalls := rfl

theorem fold_eq (tree : CallTree) (front : List (List PlacedCall)) (above last : List PlacedCall)
    (rest : List (List PlacedCall)) (stand : tree.buffers = front ++ above :: last :: rest)
    (deepest : tree.depth = front.length + 1) :
    tree.fold =
      { tree with buffers := front ++ (above ++ last) :: [] :: rest, depth := front.length } := by
  have waiting : tree.buffer tree.depth = last := by
    simp [buffer, stand, deepest]
  unfold fold
  rw [waiting, stand, deepest]
  rw [Nat.add_sub_cancel, List.set_append_right _ _ (by omega)]
  simp [modify_append_cons]

/-- Folding gathers the calls of consecutive buffers in the uppermost of them, in their order. -/
theorem foldTimes_eq (front : List (List PlacedCall)) (middle : List (List PlacedCall)) :
    ∀ (tree : CallTree) (last : List PlacedCall) (rest : List (List PlacedCall)),
    tree.buffers = front ++ (middle ++ last :: rest) →
    tree.depth = front.length + middle.length →
    foldTimes middle.length tree =
      { tree with
        buffers := front ++ (middle.flatten ++ last) :: (List.replicate middle.length [] ++ rest)
        depth := front.length } := by
  induction middle using List.reverseRecOn with
  | nil =>
      intro tree last rest stand deepest
      cases tree
      simp only [List.nil_append, List.length_nil, Nat.add_zero] at stand deepest
      simp [foldTimes, stand, deepest]
  | append_singleton middle above ih =>
      intro tree last rest stand deepest
      have length : (middle ++ [above]).length = middle.length + 1 := by simp
      have folded := fold_eq tree (front ++ middle) above last rest (by simp [stand])
        (by rw [deepest, length, List.length_append]; omega)
      rw [length, foldTimes, folded,
        ih _ (above ++ last) ([] :: rest) (by simp) (by simp)]
      simp [List.replicate_succ']

/-- Folding to a depth moves what waits there or deeper into one buffer. -/
theorem foldTo_eq (tree : CallTree) (depth : Nat) (wellFormed : tree.WellFormed)
    (reached : depth ≤ tree.depth) :
    ∃ rest : List (List PlacedCall), (∀ calls ∈ rest, calls = []) ∧
      tree.foldTo depth =
        { tree with
          buffers := tree.buffers.take depth ++ (tree.buffers.drop depth).flatten :: rest
          depth } := by
  have inside := wellFormed.inside
  have settled : ∀ calls ∈ tree.buffers.drop (tree.depth + 1), calls = [] := by
    intro calls member
    apply wellFormed.settled calls
    rw [show tree.depth + 1 = tree.deepest + (tree.depth + 1 - tree.deepest) by
      rw [deepest]; split <;> omega, ← List.drop_drop] at member
    exact List.mem_of_mem_drop member
  let middle := (tree.buffers.take tree.depth).drop depth
  have length : middle.length = tree.depth - depth := by
    simp only [middle, List.length_drop, List.length_take]
    omega
  have upper : (tree.buffers.take depth).length = depth := by
    rw [List.length_take]
    omega
  have lower : tree.buffers.drop depth =
      middle ++ tree.buffers[tree.depth] :: tree.buffers.drop (tree.depth + 1) := by
    rw [← List.drop_eq_getElem_cons inside]
    simp only [middle]
    conv_lhs => rw [← List.take_append_drop tree.depth tree.buffers]
    rw [List.drop_append_of_le_length (by rw [List.length_take]; omega)]
  have gathered : (tree.buffers.drop depth).flatten =
      middle.flatten ++ tree.buffers[tree.depth] := by
    have nothing : (tree.buffers.drop (tree.depth + 1)).flatten = [] :=
      List.flatten_eq_nil_iff.mpr settled
    rw [lower, List.flatten_append, List.flatten_cons, nothing, List.append_nil]
  have folded := foldTimes_eq (tree.buffers.take depth) middle tree tree.buffers[tree.depth]
    (tree.buffers.drop (tree.depth + 1)) (by rw [← lower, List.take_append_drop])
    (by rw [upper, length]; omega)
  rw [length, upper] at folded
  refine ⟨_, ?_, by rw [foldTo, folded, gathered]⟩
  intro calls member
  rcases List.mem_append.mp member with member | member
  · exact List.eq_of_mem_replicate member
  · exact settled calls member

/-- The calls that wait at a depth or deeper. -/
def closed (tree : CallTree) (depth : Nat) : List PlacedCall :=
  (tree.buffers.drop depth).flatten

theorem flatMap_calls_zipWith (ordinals : List Nat) (buffers : List (List PlacedCall)) :
    (List.zipWith Level.mk ordinals buffers).flatMap Level.calls =
      (buffers.take ordinals.length).flatten := by
  induction ordinals generalizing buffers with
  | nil => rfl
  | cons ordinal ordinals ih =>
      cases buffers with
      | nil => rfl
      | cons calls buffers => simp [ih]

theorem WellFormed.counted_le {tree : CallTree} (wellFormed : tree.WellFormed) :
    tree.ordinals.length ≤ tree.buffers.length := by
  have inside := wellFormed.inside
  rw [wellFormed.counted, deepest]
  split <;> omega

theorem length_levels {tree : CallTree} (wellFormed : tree.WellFormed) :
    tree.branch.levels.length = tree.deepest := by
  have counted := wellFormed.counted
  have enough := wellFormed.counted_le
  simp only [branch, List.length_zipWith]
  omega

theorem map_ordinal_levels {tree : CallTree} (wellFormed : tree.WellFormed) :
    tree.branch.levels.map Level.ordinal = tree.ordinals := by
  have enough := wellFormed.counted_le
  apply List.ext_getElem
  · rw [List.length_map, length_levels wellFormed, wellFormed.counted]
  · intro depth _ _
    simp [branch]

theorem branch_nextOrdinal {tree : CallTree} (wellFormed : tree.WellFormed) (depth : Nat) :
    tree.branch.nextOrdinal depth = tree.ordinals[depth]?.getD 0 + 1 := by
  rw [← map_ordinal_levels wellFormed, List.getElem?_map, Branch.nextOrdinal]
  cases tree.branch.levels[depth]? <;> rfl

theorem branch_nextPath {tree : CallTree} (wellFormed : tree.WellFormed) (depth : Nat) :
    tree.branch.nextPath depth =
      (tree.ordinals.take depth ++ [tree.branch.nextOrdinal depth]).tail := by
  rw [Branch.nextPath, List.map_take, map_ordinal_levels wellFormed]

theorem branch_closed {tree : CallTree} (wellFormed : tree.WellFormed) (depth : Nat) :
    tree.branch.closed depth = tree.closed depth := by
  have settled : ∀ calls ∈ (tree.buffers.drop depth).drop (tree.ordinals.length - depth),
      calls = [] := by
    intro calls member
    apply wellFormed.settled calls
    rw [List.drop_drop, wellFormed.counted] at member
    rw [show depth + (tree.deepest - depth) = tree.deepest + (depth - tree.deepest) by omega,
      ← List.drop_drop] at member
    exact List.mem_of_mem_drop member
  have nothing := List.flatten_eq_nil_iff.mpr settled
  rw [Branch.closed, branch, List.drop_zipWith, flatMap_calls_zipWith, List.length_drop, closed]
  conv_rhs => rw [← List.take_append_drop (tree.ordinals.length - depth) (tree.buffers.drop depth)]
  rw [List.flatten_append, nothing, List.append_nil]

/-- The count of an ordinal that is not kept yet starts at one. -/
theorem countAt_eq (ordinals : List Nat) (depth : Nat) (enough : depth ≤ ordinals.length) :
    countAt ordinals depth = ordinals.take depth ++ [ordinals[depth]?.getD 0 + 1] := by
  have length : (ordinals.take depth).length = depth := by
    rw [List.length_take]
    omega
  have padded : (ordinals.take (depth + 1)).rightpad (depth + 1) 0 =
      ordinals.take depth ++ [ordinals[depth]?.getD 0] := by
    rcases Nat.lt_or_eq_of_le enough with inside | last
    · rw [List.take_succ_eq_append_getElem inside, List.getElem?_eq_getElem inside, List.rightpad,
        List.length_append, length]
      simp
    · rw [List.take_of_length_le (by omega), List.take_of_length_le (by omega),
        List.getElem?_eq_none (by omega), List.rightpad, ← last]
      simp
  rw [countAt, padded, modify_append_cons _ _ _ _ _ length]

/-- Moving an empty buffer to the complete trees changes nothing, so it does not matter that it is
not done. -/
theorem flushBefore_zero (tree : CallTree) (front : List PlacedCall)
    (rest : List (List PlacedCall)) (stand : tree.buffers = front :: rest) :
    tree.flushBefore 0 =
      { tree with buffers := [] :: rest, complete := tree.complete ++ front } := by
  have waiting : tree.buffer 0 = front := by simp [buffer, stand]
  rw [flushBefore, waiting]
  by_cases bare : front = []
  · cases tree
    simp only at stand
    simp [bare, stand]
  · simp [flush, bare, waiting, stand]

theorem rightpad_append_cons {α : Type} (entry padding : α) (front rest : List α) (size : Nat)
    (length : front.length = size) :
    (front ++ entry :: rest).rightpad (size + 1) padding = front ++ entry :: rest := by
  rw [List.rightpad, List.length_append, List.length_cons, length]
  simp

/-- What a tree holds once it is ready for a call at a depth. -/
theorem ready_eq (tree : CallTree) (depth : Nat) (wellFormed : tree.WellFormed)
    (reached : depth ≤ tree.deepest) :
    ∃ (buffers rest : List (List PlacedCall)) (deepest : Nat),
      (∀ calls ∈ rest, calls = []) ∧
      buffers.rightpad (depth + 1) [] =
        tree.buffers.take depth ++ tree.branch.elders depth :: rest ∧
      (tree.foldTo depth).flushBefore depth =
        { tree with buffers, depth := deepest, complete := tree.branch.completeBefore depth } := by
  have inside := wellFormed.inside
  have waiting := branch_closed wellFormed depth
  have length : (tree.buffers.take depth).length = depth := by
    have enough := wellFormed.counted_le
    rw [wellFormed.counted] at enough
    rw [List.length_take]
    omega
  by_cases above : depth ≤ tree.depth
  · obtain ⟨rest, bare, folded⟩ := foldTo_eq tree depth wellFormed above
    by_cases root : depth = 0
    · subst root
      rw [List.take_zero, List.nil_append, List.drop_zero] at folded
      have complete : tree.branch.completeBefore 0 = tree.complete ++ tree.buffers.flatten := by
        rw [Branch.completeBefore, if_pos rfl, waiting, closed, List.drop_zero, branch_complete]
      refine ⟨[] :: rest, rest, 0, bare, rightpad_append_cons [] [] [] rest 0 rfl, ?_⟩
      rw [folded, flushBefore_zero _ _ _ rfl, complete]
    · have elders : tree.branch.elders depth = (tree.buffers.drop depth).flatten := by
        rw [Branch.elders, if_neg root, waiting, closed]
      refine ⟨_, rest, depth, bare, rightpad_append_cons _ [] _ rest depth length, ?_⟩
      rw [flushBefore, if_neg (by simp [root]), folded, elders, Branch.completeBefore, if_neg root,
        branch_complete]
  · -- The call lies one below the last one, so that nothing is folded and its buffer is empty.
    have first : tree.entered ≠ 0 := by
      intro first
      rw [deepest, if_pos first] at reached
      omega
    have last : depth = tree.deepest := by
      rw [deepest, if_neg first] at reached ⊢
      omega
    have root : depth ≠ 0 := by omega
    have settled : ∀ calls ∈ tree.buffers.drop depth, calls = [] := last ▸ wellFormed.settled
    have bare : tree.branch.elders depth = [] := by
      rw [Branch.elders, if_neg root, waiting]
      exact List.flatten_eq_nil_iff.mpr settled
    have same : (tree.foldTo depth).flushBefore depth =
        { tree with complete := tree.branch.completeBefore depth } := by
      rw [foldTo, show tree.depth - depth = 0 by omega, foldTimes]
      rw [flushBefore, if_neg (by simp [root]), Branch.completeBefore, if_neg root, branch_complete]
    refine ⟨tree.buffers, (tree.buffers.drop depth).tail, tree.depth, ?_, ?_, same⟩
    · intro calls member
      exact settled calls (List.mem_of_mem_tail member)
    · rw [bare]
      rcases lower : tree.buffers.drop depth with _ | ⟨first, rest⟩
      · have all : tree.buffers.take depth = tree.buffers := by
          rw [← List.append_nil (tree.buffers.take depth), ← lower, List.take_append_drop]
        rw [all] at length ⊢
        simp [List.rightpad, length]
      · have empty : first = [] := settled first (by simp [lower])
        have split : tree.buffers = tree.buffers.take depth ++ [] :: rest := by
          rw [← empty, ← lower, List.take_append_drop]
        have padded := rightpad_append_cons [] [] (tree.buffers.take depth) rest depth length
        rw [List.tail_cons, ← padded, ← split]

/-- Entering a call changes the buffer of its depth and leaves none below with calls. -/
theorem place_eq (tree : CallTree) (call : Call) (wellFormed : tree.WellFormed)
    (reached : call.depth ≤ tree.deepest) :
    ∃ rest : List (List PlacedCall), (∀ calls ∈ rest, calls = []) ∧
      tree.place call =
        { maxDepth := tree.maxDepth
          buffers := tree.buffers.take call.depth ++
            (tree.branch.elders call.depth ++ [tree.branch.placed call]) :: rest
          ordinals := tree.ordinals.take call.depth ++ [tree.branch.nextOrdinal call.depth]
          depth := call.depth
          openCalls := (tree.branch.place call).openCalls
          complete := tree.branch.completeBefore call.depth
          entered := tree.entered + 1 } := by
  have enough := wellFormed.counted_le
  have counted := wellFormed.counted
  have length : (tree.buffers.take call.depth).length = call.depth := by
    rw [List.length_take]
    omega
  obtain ⟨buffers, rest, deepest, bare, padded, ready⟩ :=
    ready_eq tree call.depth wellFormed reached
  have ordinal := branch_nextOrdinal wellFormed call.depth
  have path := branch_nextPath wellFormed call.depth
  have slot : (tree.buffers.take call.depth ++ tree.branch.elders call.depth :: rest)[call.depth]? =
      some (tree.branch.elders call.depth) := by
    rw [List.getElem?_append_right (by omega), length, Nat.sub_self, List.getElem?_cons_zero]
  refine ⟨rest, bare, ?_⟩
  rw [place, ready]
  simp only [padded, countAt_eq tree.ordinals call.depth (by omega), ← ordinal, ← path, slot,
    Option.getD_some, modify_append_cons _ _ _ _ _ length]
  rfl

theorem branch_place (tree : CallTree) (call : Call) (wellFormed : tree.WellFormed)
    (reached : call.depth ≤ tree.deepest) :
    (tree.place call).branch = tree.branch.place call := by
  have enough := wellFormed.counted_le
  have counted := wellFormed.counted
  obtain ⟨rest, _, placed⟩ := place_eq tree call wellFormed reached
  have same : (tree.ordinals.take call.depth).length = (tree.buffers.take call.depth).length := by
    rw [List.length_take, List.length_take]
    omega
  apply Branch.ext
  · rw [placed]
    rfl
  · rw [placed]
    rfl
  · simp only [branch, placed, List.zipWith_append same, Branch.place, List.take_zipWith]
    rfl
  · rw [placed]
    rfl

/-- A call that has just been entered is the innermost open one. -/
theorem current_place (tree : CallTree) (call : Call) (wellFormed : tree.WellFormed)
    (reached : call.depth ≤ tree.deepest) :
    (tree.place call).current = some (tree.branch.opened call) := by
  rw [current, ← branch_openCalls, branch_place tree call wellFormed reached]
  rfl

theorem WellFormed.place {tree : CallTree} (wellFormed : tree.WellFormed) (call : Call)
    (reached : call.depth ≤ tree.deepest) : (tree.place call).WellFormed := by
  have enough := wellFormed.counted_le
  have counted := wellFormed.counted
  obtain ⟨rest, bare, placed⟩ := place_eq tree call wellFormed reached
  have length : (tree.buffers.take call.depth).length = call.depth := by
    rw [List.length_take]
    omega
  have deepest : (tree.place call).deepest = call.depth + 1 := by
    simp [CallTree.deepest, placed]
  refine ⟨?_, ?_, ?_, ?_⟩
  · simp only [placed, List.length_append, length, List.length_cons]
    omega
  · rw [deepest, placed]
    simp only [List.drop_append, length, List.drop_of_length_le
      (show (tree.buffers.take call.depth).length ≤ call.depth + 1 by omega)]
    simpa using bare
  · rw [deepest, placed, List.length_append, List.length_take, List.length_singleton]
    omega
  · simp [placed]

theorem enter_eq_ok_iff (tree next : CallTree) (call : Call) :
    tree.enter call = .ok next ↔
      call.depth ≤ tree.maxDepth ∧ call.depth ≤ tree.deepest ∧ tree.place call = next := by
  unfold enter
  split
  · simp only [reduceCtorEq, false_iff]
    omega
  · split
    · simp only [reduceCtorEq, false_iff]
      omega
    · rw [Except.ok.injEq]
      exact ⟨fun same => ⟨by omega, by omega, same⟩, fun entered => entered.2.2⟩

theorem branch_enter {tree : CallTree} (wellFormed : tree.WellFormed) (call : Call) :
    (tree.enter call).map branch = tree.branch.enter call := by
  unfold enter Branch.enter
  rw [length_levels wellFormed, branch_maxDepth]
  split
  · rfl
  · split
    · rfl
    · exact congrArg Except.ok (branch_place tree call wellFormed (by omega))

theorem WellFormed.enter {tree next : CallTree} (wellFormed : tree.WellFormed) {call : Call}
    (entered : tree.enter call = .ok next) : next.WellFormed := by
  obtain ⟨_, reached, rfl⟩ := (enter_eq_ok_iff tree next call).mp entered
  exact wellFormed.place call reached

theorem maxDepth_enter {tree next : CallTree} (wellFormed : tree.WellFormed) {call : Call}
    (entered : tree.enter call = .ok next) : next.maxDepth = tree.maxDepth := by
  obtain ⟨_, reached, rfl⟩ := (enter_eq_ok_iff tree next call).mp entered
  rw [← branch_maxDepth, branch_place tree call wellFormed reached]
  rfl

/-- The calls that wait at a depth are those of its level, and none where the branch has no level. -/
theorem branch_buffer {tree : CallTree} (wellFormed : tree.WellFormed) (depth : Nat) :
    tree.buffer depth = (tree.branch.levels[depth]?.map Level.calls).getD [] := by
  have enough := wellFormed.counted_le
  have counted := wellFormed.counted
  by_cases inside : depth < tree.ordinals.length
  · simp [branch, buffer, List.getElem?_zipWith, inside,
      List.getElem?_eq_getElem (show depth < tree.buffers.length by omega)]
  · have beyond : tree.branch.levels[depth]? = none := by
      apply List.getElem?_eq_none
      rw [length_levels wellFormed, ← counted]
      omega
    rw [beyond, buffer]
    cases present : tree.buffers[depth]? with
    | none => rfl
    | some calls =>
        obtain ⟨bound, found⟩ := List.getElem?_eq_some_iff.mp present
        apply wellFormed.settled
        rw [List.mem_drop_iff_getElem]
        refine ⟨depth - tree.deepest, by omega, ?_⟩
        rw [Option.getD_some, ← found]
        congr 1
        omega

theorem branch_depth {tree : CallTree} (wellFormed : tree.WellFormed) :
    tree.depth = tree.branch.levels.length - 1 := by
  have untouched := wellFormed.untouched
  rw [length_levels wellFormed, deepest]
  split
  · rename_i first
    exact untouched first
  · exact (Nat.add_sub_cancel ..).symm

theorem branch_callAt {tree : CallTree} (wellFormed : tree.WellFormed) (depth slot : Nat) :
    tree.branch.callAt depth slot = tree.callAt depth slot := by
  have waiting := branch_buffer wellFormed depth
  have inBuffer : tree.callAt depth slot = (tree.buffer depth)[slot]? := by
    rw [callAt, buffer]
    cases tree.buffers[depth]? <;> rfl
  rw [inBuffer, waiting, Branch.callAt]
  cases tree.branch.levels[depth]? <;> rfl

theorem branch_setOutput (tree : CallTree) (depth slot : Nat) (output : Bytes) :
    (tree.setOutput depth slot output).branch = tree.branch.setOutput depth slot output := by
  apply Branch.ext
  · rfl
  · rfl
  · apply List.ext_getElem?
    intro index
    simp only [branch, setOutput, Branch.setOutput, List.getElem?_zipWith, List.getElem?_modify]
    by_cases same : depth = index
    · cases tree.ordinals[index]? <;> cases tree.buffers[index]? <;> simp [same]
    · cases tree.ordinals[index]? <;> cases tree.buffers[index]? <;> simp [same]
  · rfl

theorem WellFormed.setOutput {tree : CallTree} (wellFormed : tree.WellFormed) (depth slot : Nat)
    (output : Bytes) : (tree.setOutput depth slot output).WellFormed := by
  refine ⟨?_, ?_, wellFormed.counted, wellFormed.untouched⟩
  · simpa [CallTree.setOutput] using wellFormed.inside
  · intro calls member
    obtain ⟨index, bound, found⟩ := List.mem_iff_getElem.mp member
    simp only [CallTree.setOutput, List.length_drop, List.length_modify] at bound
    change index < tree.buffers.length - tree.deepest at bound
    have bare : tree.buffers[tree.deepest + index] = [] := by
      apply wellFormed.settled
      exact List.mem_drop_iff_getElem.mpr ⟨index, by omega, rfl⟩
    rw [← found]
    simp only [CallTree.setOutput, List.getElem_drop, List.getElem_modify]
    split
    · exact (congrArg _ bare).trans (List.modify_nil ..)
    · exact bare

/-- The open calls are not among what the buffers and ordinals must satisfy. -/
theorem WellFormed.withOpenCalls {tree : CallTree} (wellFormed : tree.WellFormed)
    (openCalls : List OpenCall) : ({ tree with openCalls } : CallTree).WellFormed :=
  ⟨wellFormed.inside, wellFormed.settled, wellFormed.counted, wellFormed.untouched⟩

theorem branch_exit {tree : CallTree} (wellFormed : tree.WellFormed) (depth : Nat)
    (output : Bytes) :
    (tree.exit depth output).1 = (tree.branch.exit depth output).1 ∧
      (tree.exit depth output).2.branch = (tree.branch.exit depth output).2 := by
  unfold exit Branch.exit
  rw [branch_openCalls]
  cases tree.openCalls.dropWhile fun call => call.depth ≠ depth with
  | nil => exact ⟨rfl, rfl⟩
  | cons call outer =>
      have standing := branch_callAt (wellFormed.withOpenCalls outer) call.depth call.slot
      have found : tree.branch.callAt call.depth call.slot = tree.callAt call.depth call.slot :=
        standing
      simp only [found]
      cases tree.callAt call.depth call.slot with
      | none => exact ⟨rfl, rfl⟩
      | some placed =>
          dsimp only
          split
          · exact ⟨rfl, branch_setOutput _ _ _ _⟩
          · exact ⟨rfl, rfl⟩

theorem WellFormed.exit {tree : CallTree} (wellFormed : tree.WellFormed) (depth : Nat)
    (output : Bytes) : (tree.exit depth output).2.WellFormed := by
  unfold CallTree.exit
  split
  · exact wellFormed
  · rename_i call outer _
    have left := wellFormed.withOpenCalls outer
    dsimp only
    split
    · exact left
    · split
      · exact left.setOutput _ _ _
      · exact left

theorem maxDepth_exit {tree : CallTree} (wellFormed : tree.WellFormed) (depth : Nat)
    (output : Bytes) : (tree.exit depth output).2.maxDepth = tree.maxDepth := by
  rw [← branch_maxDepth, (branch_exit wellFormed depth output).2, Branch.maxDepth_exit]
  rfl

theorem wellFormed_empty (maxDepth : Nat) : (empty maxDepth).WellFormed := by
  refine ⟨Nat.zero_lt_one, ?_, rfl, fun _ => rfl⟩
  intro calls member
  exact List.mem_singleton.mp member

/-- A tree without ordinals and entered calls is empty however many buffers it keeps. -/
theorem wellFormed_of_bare (tree : CallTree) (inside : 0 < tree.buffers.length)
    (bare : ∀ calls ∈ tree.buffers, calls = []) (first : tree.entered = 0)
    (root : tree.depth = 0) (none : tree.ordinals = []) : tree.WellFormed := by
  have deepest : tree.deepest = 0 := by rw [CallTree.deepest, if_pos first]
  refine ⟨by omega, ?_, by rw [deepest, none, List.length_nil], fun _ => root⟩
  rw [deepest]
  exact bare

theorem branch_finish {tree : CallTree} (wellFormed : tree.WellFormed) :
    tree.finish.1 = tree.branch.calls ∧ tree.finish.2.branch = Branch.empty tree.maxDepth ∧
      tree.finish.2.WellFormed := by
  obtain ⟨rest, bare, folded⟩ := foldTo_eq tree 0 wellFormed (Nat.zero_le _)
  have waiting := branch_closed wellFormed 0
  rw [Branch.closed, List.drop_zero, closed] at waiting
  rw [List.take_zero, List.nil_append] at folded
  have whole : (tree.foldTo 0).flush =
      { tree with
        buffers := [] :: rest, depth := 0
        complete := tree.complete ++ (tree.buffers.drop 0).flatten } := by
    simp [folded, flush, buffer]
  refine ⟨?_, ?_, ?_⟩
  · rw [finish, whole, Branch.calls, waiting, branch_complete]
  · rw [finish, whole]
    rfl
  · rw [finish, whole]
    apply wellFormed_of_bare
    · exact Nat.zero_lt_succ _
    · intro calls member
      rcases List.mem_cons.mp member with rfl | member
      · rfl
      · exact bare calls member
    · rfl
    · rfl
    · rfl

theorem maxDepth_finish {tree : CallTree} (wellFormed : tree.WellFormed) :
    tree.finish.2.maxDepth = tree.maxDepth := by
  rw [← branch_maxDepth, (branch_finish wellFormed).2.1]
  rfl

theorem branch_reset (tree : CallTree) : tree.reset.branch = Branch.empty tree.maxDepth := rfl

theorem WellFormed.reset {tree : CallTree} (wellFormed : tree.WellFormed) :
    tree.reset.WellFormed := by
  have inside := wellFormed.inside
  apply wellFormed_of_bare
  · simp only [CallTree.reset, List.length_map]
    omega
  · intro calls member
    simp only [CallTree.reset, List.mem_map] at member
    obtain ⟨_, _, rfl⟩ := member
    rfl
  · rfl
  · rfl
  · rfl

end CallTree

end EvmTrace
