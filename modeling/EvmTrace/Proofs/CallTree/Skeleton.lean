import EvmTrace.Proofs.CallTree.Ledger

/-!
The skeleton of a tree of calls: all of it but the outputs of its calls and which of them are open.
An exit changes nothing of the skeleton, and every other operation does to the skeleton what it does
to the tree, so that trees that differ in their exits only have the same skeleton.
-/

set_option autoImplicit false

namespace EvmTrace

theorem map_modify {α β : Type} (f : α → β) (g : α → α) (h : β → β)
    (commutes : ∀ entry, f (g entry) = h (f entry)) (list : List α) (position : Nat) :
    (list.modify position g).map f = (list.map f).modify position h := by
  apply List.ext_getElem?
  intro index
  simp only [List.getElem?_map, List.getElem?_modify]
  cases list[index]? with
  | none => rfl
  | some entry =>
      by_cases here : position = index
      · simp [here, commutes]
      · simp [here]

theorem map_modify_of_absorbs {α β : Type} (f : α → β) (g : α → α)
    (absorbs : ∀ entry, f (g entry) = f entry) (list : List α) (position : Nat) :
    (list.modify position g).map f = list.map f := by
  rw [map_modify f g id absorbs, List.modify_id]

namespace CallTree

def erased (calls : List PlacedCall) : List PlacedCall :=
  calls.map (withOutput [])

/-- A tree without the outputs of its calls and with none of them open. -/
def skeleton (tree : CallTree) : CallTree :=
  { tree with
    buffers := tree.buffers.map erased, complete := erased tree.complete, openCalls := [] }

@[simp] theorem erased_nil : erased [] = [] := rfl

@[simp] theorem erased_append (front rest : List PlacedCall) :
    erased (front ++ rest) = erased front ++ erased rest :=
  List.map_append

theorem buffer_skeleton (tree : CallTree) (depth : Nat) :
    tree.skeleton.buffer depth = erased (tree.buffer depth) := by
  simp only [buffer, skeleton, List.getElem?_map]
  cases tree.buffers[depth]? <;> rfl

theorem waiting_skeleton (tree : CallTree) (depth : Nat) :
    tree.skeleton.waiting depth = tree.waiting depth := by
  rw [waiting, buffer_skeleton, erased, List.length_map, waiting]

/-- An exit changes nothing of a tree but the output of one call and which calls are open. -/
theorem skeleton_exit (tree : CallTree) (depth : Nat) (output : Bytes) :
    (tree.exit depth output).2.skeleton = tree.skeleton := by
  have written : ∀ (place slot : Nat),
      (tree.buffers.modify place fun calls => calls.modify slot (withOutput output)).map erased =
        tree.buffers.map erased := by
    intro place slot
    apply map_modify_of_absorbs
    intro calls
    exact map_modify_of_absorbs (withOutput []) (withOutput output) (fun _ => rfl) calls slot
  unfold exit
  split
  · rfl
  · dsimp only
    split
    · rfl
    · split
      · simp only [skeleton, setOutput, written]
      · rfl

theorem map_erased_modify_append (buffers : List (List PlacedCall)) (depth : Nat)
    (more : List PlacedCall) :
    (buffers.modify depth (· ++ more)).map erased =
      (buffers.map erased).modify depth (· ++ erased more) :=
  map_modify erased (· ++ more) (· ++ erased more) (fun calls => erased_append calls more)
    buffers depth

theorem skeleton_fold (tree : CallTree) : tree.fold.skeleton = tree.skeleton.fold := by
  simp only [fold, buffer_skeleton]
  simp only [skeleton, map_erased_modify_append, List.map_set, erased_nil]

theorem skeleton_foldTimes (count : Nat) (tree : CallTree) :
    (foldTimes count tree).skeleton = foldTimes count tree.skeleton := by
  induction count generalizing tree with
  | zero => rfl
  | succ count ih => rw [foldTimes, ih, skeleton_fold, foldTimes]

theorem skeleton_foldTo (tree : CallTree) (depth : Nat) :
    (tree.foldTo depth).skeleton = tree.skeleton.foldTo depth :=
  skeleton_foldTimes (tree.depth - depth) tree

theorem skeleton_flush (tree : CallTree) : tree.flush.skeleton = tree.skeleton.flush := by
  simp only [flush, buffer_skeleton]
  simp only [skeleton, erased_append, List.map_set, erased_nil]

theorem skeleton_flushBefore (tree : CallTree) (depth : Nat) :
    (tree.flushBefore depth).skeleton = tree.skeleton.flushBefore depth := by
  have bare : erased (tree.buffer 0) ≠ [] ↔ tree.buffer 0 ≠ [] := by
    simp only [erased, ne_eq, List.map_eq_nil_iff]
  unfold flushBefore
  simp only [buffer_skeleton, bare]
  split
  · exact skeleton_flush tree
  · rfl

/-- A call is placed by the skeleton of the tree alone. -/
theorem skeleton_place (tree : CallTree) (call : Call) :
    (tree.place call).skeleton =
      { tree.skeleton.place call.withoutOutput with openCalls := [] } := by
  have ready : (tree.skeleton.foldTo call.depth).flushBefore call.depth =
      ((tree.foldTo call.depth).flushBefore call.depth).skeleton := by
    rw [skeleton_flushBefore, skeleton_foldTo]
  have padded : ∀ buffers : List (List PlacedCall), ∀ size : Nat,
      (buffers.rightpad size []).map erased = (buffers.map erased).rightpad size [] := by
    intro buffers size
    simp [List.rightpad]
  simp only [place, Call.withoutOutput, ready]
  simp only [skeleton, map_erased_modify_append, padded]
  rfl

theorem finish_skeleton (tree : CallTree) :
    erased tree.finish.1 = tree.skeleton.finish.1 ∧
      tree.finish.2.skeleton = tree.skeleton.finish.2 := by
  have whole : (tree.skeleton.foldTo 0).flush = ((tree.foldTo 0).flush).skeleton := by
    rw [skeleton_flush, skeleton_foldTo]
  unfold finish
  rw [whole]
  exact ⟨rfl, rfl⟩

theorem skeleton_reset (tree : CallTree) : tree.reset.skeleton = tree.skeleton.reset := by
  simp only [reset, skeleton, List.map_map, erased_nil]
  rfl

section SameSkeleton

variable {left right : CallTree}

theorem deepest_same_skeleton (same : left.skeleton = right.skeleton) :
    left.deepest = right.deepest := by
  have skeletons : left.skeleton.deepest = right.skeleton.deepest := by rw [same]
  exact skeletons

/-- Trees with the same skeleton refuse the same calls for the same reasons. -/
theorem enter_same_skeleton (same : left.skeleton = right.skeleton) (call : Call) :
    (∃ reason, left.enter call = .error reason ∧ right.enter call = .error reason) ∨
      left.enter call = .ok (left.place call) ∧ right.enter call = .ok (right.place call) ∧
        (left.place call).skeleton = (right.place call).skeleton := by
  have deepest := deepest_same_skeleton same
  have bound : left.maxDepth = right.maxDepth := by
    have skeletons : left.skeleton.maxDepth = right.skeleton.maxDepth := by rw [same]
    exact skeletons
  unfold enter
  rw [deepest, bound]
  by_cases deep : right.maxDepth < call.depth
  · exact .inl ⟨_, if_pos deep, if_pos deep⟩
  · rw [if_neg deep, if_neg deep]
    by_cases skips : right.deepest < call.depth
    · exact .inl ⟨_, if_pos skips, if_pos skips⟩
    · refine .inr ⟨if_neg skips, if_neg skips, ?_⟩
      rw [skeleton_place, skeleton_place, same]

theorem finish_same_skeleton (same : left.skeleton = right.skeleton) :
    erased left.finish.1 = erased right.finish.1 ∧
      left.finish.2.skeleton = right.finish.2.skeleton := by
  rw [(finish_skeleton left).1, (finish_skeleton left).2, (finish_skeleton right).1,
    (finish_skeleton right).2, same]
  exact ⟨rfl, rfl⟩

theorem operate_same_skeleton (same : left.skeleton = right.skeleton) (operation : Operation) :
    (left.operate operation).skeleton = (right.operate operation).skeleton := by
  cases operation with
  | enter call =>
      simp only [operate]
      obtain ⟨reason, refused, refused'⟩ | ⟨entered, entered', next⟩ :=
        enter_same_skeleton same call
      · rw [refused, refused']
        exact same
      · rw [entered, entered']
        exact next
  | exit depth output =>
      change (left.exit depth output).2.skeleton = (right.exit depth output).2.skeleton
      rw [skeleton_exit, skeleton_exit, same]
  | finish => exact (finish_same_skeleton same).2
  | reset =>
      change left.reset.skeleton = right.reset.skeleton
      rw [skeleton_reset, skeleton_reset, same]

end SameSkeleton

def Operation.isExit : Operation → Bool
  | .exit _ _ => true
  | _ => false

def withoutExits (operations : List Operation) : List Operation :=
  operations.filter fun operation => !operation.isExit

/-- What a host sees of a call that it enters. -/
structure Sight where
  /-- Whether the call is accepted, and why not if it is not. -/
  answer : Except Refusal Unit
  /-- The deepest depth at which calls may wait behind it. -/
  depth : Nat
  /-- The number of calls that wait at each depth behind it. -/
  waiting : Nat → Nat

def sight (tree : CallTree) (call : Call) : Sight :=
  let next := tree.operate (.enter call)
  { answer := (tree.enter call).map fun _ => (), depth := next.depth, waiting := next.waiting }

def sights (tree : CallTree) : List Operation → List Sight
  | [] => []
  | .enter call :: rest => tree.sight call :: (tree.operate (.enter call)).sights rest
  | operation :: rest => (tree.operate operation).sights rest

theorem sight_same_skeleton {left right : CallTree} (same : left.skeleton = right.skeleton)
    (call : Call) : left.sight call = right.sight call := by
  have next := operate_same_skeleton same (.enter call)
  have depth : (left.operate (.enter call)).skeleton.depth =
      (right.operate (.enter call)).skeleton.depth := congrArg CallTree.depth next
  have waiting : (left.operate (.enter call)).waiting = (right.operate (.enter call)).waiting := by
    funext depth
    rw [← waiting_skeleton, next, waiting_skeleton]
  have answer : (left.enter call).map (fun _ => ()) = (right.enter call).map fun _ => () := by
    obtain ⟨reason, refused, refused'⟩ | ⟨entered, entered', _⟩ := enter_same_skeleton same call
    · rw [refused, refused']
    · rw [entered, entered']
      rfl
  change (left.operate (.enter call)).depth = (right.operate (.enter call)).depth at depth
  simp only [sight, depth, waiting, answer]

/-- Leaving out the exits of a run changes neither what is seen of its calls nor the skeleton. -/
theorem run_withoutExits {left right : CallTree} (same : left.skeleton = right.skeleton)
    (operations : List Operation) :
    left.sights operations = right.sights (withoutExits operations) ∧
      (left.run operations).skeleton = (right.run (withoutExits operations)).skeleton := by
  induction operations generalizing left right with
  | nil => exact ⟨rfl, same⟩
  | cons operation rest ih =>
      cases operation with
      | enter call =>
          obtain ⟨seen, last⟩ := ih (operate_same_skeleton same (.enter call))
          refine ⟨?_, last⟩
          rw [sights, sight_same_skeleton same call, seen]
          rfl
      | exit depth output => exact ih ((skeleton_exit left depth output).trans same)
      | finish => exact ih (operate_same_skeleton same .finish)
      | reset => exact ih (operate_same_skeleton same .reset)

/-- Runs that differ in their exits only are seen alike and end with the same skeleton. -/
theorem run_same_skeleton (tree : CallTree) {left right : List Operation}
    (same : withoutExits left = withoutExits right) :
    tree.sights left = tree.sights right ∧
      (tree.run left).skeleton = (tree.run right).skeleton := by
  obtain ⟨leftSights, leftLast⟩ := run_withoutExits rfl left
  obtain ⟨rightSights, rightLast⟩ := run_withoutExits rfl right
  rw [← same] at rightSights rightLast
  exact ⟨leftSights.trans rightSights.symm, leftLast.trans rightLast.symm⟩

end CallTree

end EvmTrace
