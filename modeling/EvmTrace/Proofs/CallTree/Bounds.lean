import EvmTrace.Proofs.CallTree.Tracking

/-!
The operations on a tree of calls with their reads checked. Each read of a buffer or of an ordinal
looks whether there is one, and without it there is no result; nor is there one if a depth would
have to fall below zero. A tree that is empty at first never comes to such an end, whatever is done
with it, so the operations can do without the checks.
-/

set_option autoImplicit false

namespace EvmTrace.CallTree

/-- Folds the deepest buffer into the one above it, if there are both. -/
def fold? (tree : CallTree) : Option CallTree := do
  guard (0 < tree.depth)
  let last ← tree.buffers[tree.depth]?
  let emptied := tree.buffers.set tree.depth []
  let above ← emptied[tree.depth - 1]?
  pure { tree with
    buffers := emptied.set (tree.depth - 1) (above ++ last)
    depth := tree.depth - 1 }

def foldTimes? : Nat → CallTree → Option CallTree
  | 0, tree => some tree
  | count + 1, tree => do foldTimes? count (← tree.fold?)

def foldTo? (tree : CallTree) (depth : Nat) : Option CallTree :=
  foldTimes? (tree.depth - depth) tree

def flush? (tree : CallTree) : Option CallTree := do
  let root ← tree.buffers[0]?
  pure { tree with buffers := tree.buffers.set 0 [], complete := tree.complete ++ root }

/-- Completes the tree in front of a call of depth zero, if there is one. -/
def flushBefore? (tree : CallTree) (depth : Nat) : Option CallTree :=
  if depth = 0 then do
    let root ← tree.buffers[0]?
    if root = [] then pure tree else tree.flush?
  else pure tree

/-- Counts one more call at a depth, if its count is kept. -/
def countAt? (ordinals : List Nat) (depth : Nat) : Option (List Nat) := do
  let kept := (ordinals.take (depth + 1)).rightpad (depth + 1) 0
  let count ← kept[depth]?
  pure (kept.set depth (count + 1))

/-- Enters a call whose depth is accepted. Its path is what stands behind the first ordinal. -/
def place? (tree : CallTree) (call : Call) : Option CallTree := do
  let folded ← tree.foldTo? call.depth
  let ready ← folded.flushBefore? call.depth
  let ordinals ← countAt? ready.ordinals call.depth
  let path ← ordinals.tail?
  let buffers := ready.buffers.rightpad (call.depth + 1) []
  let own ← buffers[call.depth]?
  pure { ready with
    buffers := buffers.set call.depth (own ++ [{ call, path }])
    ordinals
    depth := call.depth
    openCalls := { index := call.index, depth := call.depth, path, slot := own.length } ::
      ready.openCalls.dropWhile fun outer => call.depth ≤ outer.depth
    entered := ready.entered + 1 }

def finish? (tree : CallTree) : Option (List PlacedCall × CallTree) := do
  let folded ← tree.foldTo? 0
  let whole ← folded.flush?
  pure (whole.complete,
    { whole with depth := 0, ordinals := [], openCalls := [], entered := 0, complete := [] })

/-- The tree after an operation. An exit and a reset read nothing without looking for it. -/
def operate? (tree : CallTree) : Operation → Option CallTree
  | .enter call =>
    match tree.enter call with
    | .ok _ => tree.place? call
    | .error _ => some tree
  | .exit depth output => some (tree.exit depth output).2
  | .finish => tree.finish?.map Prod.snd
  | .reset => some tree.reset

def run? (tree : CallTree) (operations : List Operation) : Option CallTree :=
  operations.foldlM operate? tree

theorem fold?_eq (tree : CallTree) (deep : 0 < tree.depth)
    (inside : tree.depth < tree.buffers.length) : tree.fold? = some tree.fold := by
  have above : tree.depth - 1 < (tree.buffers.set tree.depth []).length := by
    rw [List.length_set]
    omega
  unfold fold? fold
  simp [guard, deep, List.getElem?_eq_getElem inside, List.getElem?_eq_getElem above,
    List.modify_eq_set, buffer]

@[simp] theorem length_buffers_fold (tree : CallTree) :
    tree.fold.buffers.length = tree.buffers.length := by
  simp [fold]

@[simp] theorem depth_fold (tree : CallTree) : tree.fold.depth = tree.depth - 1 := rfl

theorem length_buffers_foldTimes (count : Nat) (tree : CallTree) :
    (foldTimes count tree).buffers.length = tree.buffers.length := by
  induction count generalizing tree with
  | zero => rfl
  | succ count ih => rw [foldTimes, ih, length_buffers_fold]

theorem foldTimes?_eq (count : Nat) (tree : CallTree) (enough : count ≤ tree.depth)
    (inside : tree.depth < tree.buffers.length) :
    foldTimes? count tree = some (foldTimes count tree) := by
  induction count generalizing tree with
  | zero => rfl
  | succ count ih =>
      rw [foldTimes?, fold?_eq tree (by omega) inside, foldTimes]
      apply ih tree.fold
      · rw [depth_fold]
        omega
      · rw [depth_fold, length_buffers_fold]
        omega

theorem length_buffers_foldTo (tree : CallTree) (depth : Nat) :
    (tree.foldTo depth).buffers.length = tree.buffers.length :=
  length_buffers_foldTimes _ tree

theorem foldTo?_eq (tree : CallTree) (depth : Nat) (inside : tree.depth < tree.buffers.length) :
    tree.foldTo? depth = some (tree.foldTo depth) :=
  foldTimes?_eq _ tree (Nat.sub_le ..) inside

theorem flush?_eq (tree : CallTree) (inside : 0 < tree.buffers.length) :
    tree.flush? = some tree.flush := by
  simp [flush?, flush, buffer, List.getElem?_eq_getElem inside]

theorem flushBefore?_eq (tree : CallTree) (depth : Nat) (inside : 0 < tree.buffers.length) :
    tree.flushBefore? depth = some (tree.flushBefore depth) := by
  have waiting : tree.buffers[0]? = some (tree.buffer 0) := by
    simp [buffer, List.getElem?_eq_getElem inside]
  unfold flushBefore? flushBefore
  by_cases root : depth = 0
  · by_cases bare : tree.buffer 0 = []
    · simp [root, waiting, bare]
    · simp [root, waiting, bare, flush?_eq tree inside]
  · simp [root]

theorem length_counted (ordinals : List Nat) (depth : Nat) :
    ((ordinals.take (depth + 1)).rightpad (depth + 1) 0).length = depth + 1 := by
  rw [List.length_rightpad, List.length_take]
  omega

theorem countAt?_eq (ordinals : List Nat) (depth : Nat) :
    countAt? ordinals depth = some (countAt ordinals depth) := by
  have inside := Nat.lt_of_lt_of_eq (Nat.lt_succ_self depth) (length_counted ordinals depth).symm
  unfold countAt? countAt
  simp only [List.getElem?_eq_getElem inside, List.modify_eq_set, Option.getD_some,
    Option.bind_eq_bind, Option.bind_some, Option.pure_def]

theorem tail?_countAt (ordinals : List Nat) (depth : Nat) :
    (countAt ordinals depth).tail? = some (countAt ordinals depth).tail := by
  have length : (countAt ordinals depth).length = depth + 1 := by
    rw [countAt, List.length_modify, length_counted]
  cases counts : countAt ordinals depth with
  | nil => simp [counts] at length
  | cons first rest => rfl

theorem place?_eq (tree : CallTree) (call : Call) (inside : tree.depth < tree.buffers.length) :
    tree.place? call = some (tree.place call) := by
  have flushed := flushBefore?_eq (tree.foldTo call.depth) call.depth (by
    rw [length_buffers_foldTo]
    omega)
  unfold place? place
  generalize (tree.foldTo call.depth).flushBefore call.depth = ready at flushed
  have padded : call.depth < (ready.buffers.rightpad (call.depth + 1) []).length := by
    rw [List.length_rightpad]
    omega
  simp only [foldTo?_eq tree _ inside, flushed, countAt?_eq, tail?_countAt,
    List.getElem?_eq_getElem padded, List.modify_eq_set, Option.getD_some, Option.bind_eq_bind,
    Option.bind_some, Option.pure_def]

theorem finish?_eq (tree : CallTree) (inside : tree.depth < tree.buffers.length) :
    tree.finish? = some tree.finish := by
  have flushed := flush?_eq (tree.foldTo 0) (by
    rw [length_buffers_foldTo]
    omega)
  unfold finish? finish
  simp only [foldTo?_eq tree 0 inside, flushed, Option.bind_eq_bind, Option.bind_some,
    Option.pure_def]

theorem operate?_eq (tree : CallTree) (inside : tree.depth < tree.buffers.length)
    (operation : Operation) : tree.operate? operation = some (tree.operate operation) := by
  cases operation with
  | enter call =>
      rw [operate?, operate]
      cases entered : tree.enter call with
      | error reason => rfl
      | ok next =>
          obtain ⟨_, _, rfl⟩ := (enter_eq_ok_iff tree next call).mp entered
          exact place?_eq tree call inside
  | exit depth output => rfl
  | finish => rw [operate?, finish?_eq tree inside, operate, Option.map_some]
  | reset => rfl

/-- Whatever is done with a tree that is empty at first, no read ever fails. -/
theorem run?_empty (maxDepth : Nat) (operations : List Operation) :
    (empty maxDepth).run? operations = some (ofOperations maxDepth operations) := by
  induction operations using List.reverseRecOn with
  | nil => rfl
  | append_singleton operations operation ih =>
      have inside := (Holds.ofOperations maxDepth operations).wellFormed.inside
      rw [run?, List.foldlM_append, ← run?, ih, ofOperations_snoc, Option.bind_eq_bind,
        Option.bind_some, List.foldlM_cons, operate?_eq _ inside]
      rfl

end EvmTrace.CallTree
