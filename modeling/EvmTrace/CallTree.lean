import EvmTrace.Call

/-!
The tree of calls of a transaction, built from calls that come in the order of their entry and tell
their depth. One buffer is kept for each depth, and the buffers hold the parts of the tree that are
not complete. A call folds every deeper buffer into the one above it before it joins the buffer of
its own depth; a call of depth zero completes the tree in front of it.

With depths written behind the calls, `A(0) B(1) C(2)` leaves the buffers `[A]`, `[B]` and `[C]`.
Then `D(1)` folds `C` behind `B` and joins them, which leaves `[A]` and `[B, C, D]`, and the calls
of the buffers together are `A B C D`.
-/

set_option autoImplicit false

namespace EvmTrace

/-- A call that has been entered and has not exited. -/
structure OpenCall where
  index : Nat
  depth : Nat
  path : CallPath
  /-- The position of the call in the buffer of its depth. -/
  slot : Nat
deriving DecidableEq

/-- The calls of a transaction so far. -/
structure CallTree where
  /-- The greatest depth that is accepted. -/
  maxDepth : Nat
  /-- The calls that wait at each depth, in the order of their entry. -/
  buffers : List (List PlacedCall)
  /-- For each depth of the branch that is being entered, how many siblings have been entered. -/
  ordinals : List Nat
  /-- The deepest depth at which calls may wait. -/
  depth : Nat
  /-- The open calls, innermost first. -/
  openCalls : List OpenCall
  /-- The calls of complete trees. -/
  complete : List PlacedCall
  /-- The number of calls that were accepted since the tree was empty. -/
  entered : Nat
deriving DecidableEq

/-- Why a call is not accepted. -/
inductive Refusal where
  /-- The call lies deeper than the greatest accepted depth. -/
  | tooDeep (depth maxDepth : Nat)
  /-- The call lies deeper than one below the last one. -/
  | skipsLevel (depth deepest : Nat)
deriving DecidableEq

def Refusal.message : Refusal → String
  | .tooDeep depth maxDepth =>
    "call depth " ++ toString depth ++ " exceeds the configured maximum of " ++ toString maxDepth
  | .skipsLevel depth deepest =>
    "call depth " ++ toString depth ++ " skips a level (deepest accepted depth is " ++
      toString deepest ++ ")"

/-- What became of an exit. -/
inductive Exit where
  /-- The call that exited has its output. -/
  | completed
  /-- No call is open at the depth of the exit. -/
  | noOpenCall
  /-- The call that exited no longer stands in its buffer. -/
  | outdated
deriving DecidableEq

namespace CallTree

def empty (maxDepth : Nat) : CallTree :=
  { maxDepth, buffers := [[]], ordinals := [], depth := 0, openCalls := [], complete := []
    entered := 0 }

/-- The calls that wait at a depth. -/
def buffer (tree : CallTree) (depth : Nat) : List PlacedCall :=
  tree.buffers[depth]?.getD []

def waiting (tree : CallTree) (depth : Nat) : Nat :=
  (tree.buffer depth).length

/-- The innermost open call. -/
def current (tree : CallTree) : Option OpenCall :=
  tree.openCalls.head?

/-- Folds the deepest buffer into the one above it. -/
def fold (tree : CallTree) : CallTree :=
  { tree with
    buffers := (tree.buffers.set tree.depth []).modify (tree.depth - 1) fun calls =>
      calls ++ tree.buffer tree.depth
    depth := tree.depth - 1 }

def foldTimes : Nat → CallTree → CallTree
  | 0, tree => tree
  | count + 1, tree => foldTimes count tree.fold

/-- Folds every buffer below a depth into the one above it. -/
def foldTo (tree : CallTree) (depth : Nat) : CallTree :=
  foldTimes (tree.depth - depth) tree

/-- Moves the calls that wait at depth zero to those of complete trees. -/
def flush (tree : CallTree) : CallTree :=
  { tree with buffers := tree.buffers.set 0 [], complete := tree.complete ++ tree.buffer 0 }

/-- Completes the tree in front of a call of depth zero, if there is one. -/
def flushBefore (tree : CallTree) (depth : Nat) : CallTree :=
  if depth = 0 ∧ tree.buffer 0 ≠ [] then tree.flush else tree

/--
Counts one more call at a depth. The counts of deeper depths are about the children of the sibling
in front and are dropped.
-/
def countAt (ordinals : List Nat) (depth : Nat) : List Nat :=
  ((ordinals.take (depth + 1)).rightpad (depth + 1) 0).modify depth (· + 1)

/-- Enters a call whose depth is accepted. -/
def place (tree : CallTree) (call : Call) : CallTree :=
  let ready := (tree.foldTo call.depth).flushBefore call.depth
  let ordinals := countAt ready.ordinals call.depth
  let path := ordinals.tail
  let buffers := ready.buffers.rightpad (call.depth + 1) []
  let slot := (buffers[call.depth]?.getD []).length
  { ready with
    buffers := buffers.modify call.depth (· ++ [{ call, path }])
    ordinals
    depth := call.depth
    openCalls := { index := call.index, depth := call.depth, path, slot } ::
      ready.openCalls.dropWhile fun outer => call.depth ≤ outer.depth
    entered := ready.entered + 1 }

/-- The deepest depth that is accepted next. The first call of a tree has depth zero. -/
def deepest (tree : CallTree) : Nat :=
  if tree.entered = 0 then 0 else tree.depth + 1

/-- Enters a call. -/
def enter (tree : CallTree) (call : Call) : Except Refusal CallTree :=
  if tree.maxDepth < call.depth then .error (.tooDeep call.depth tree.maxDepth)
  else if tree.deepest < call.depth then .error (.skipsLevel call.depth tree.deepest)
  else .ok (tree.place call)

def callAt (tree : CallTree) (depth slot : Nat) : Option PlacedCall :=
  tree.buffers[depth]?.bind fun calls => calls[slot]?

def withOutput (output : Bytes) (placed : PlacedCall) : PlacedCall :=
  { placed with call := { placed.call with output } }

def setOutput (tree : CallTree) (depth slot : Nat) (output : Bytes) : CallTree :=
  { tree with
    buffers := tree.buffers.modify depth fun calls => calls.modify slot (withOutput output) }

/--
Exits the innermost open call of a depth. The calls inside it that are still open exit with it, and
without an output.
-/
def exit (tree : CallTree) (depth : Nat) (output : Bytes) : Exit × CallTree :=
  match tree.openCalls.dropWhile fun call => call.depth ≠ depth with
  | [] => (.noOpenCall, tree)
  | call :: outer =>
    let left := { tree with openCalls := outer }
    match tree.callAt call.depth call.slot with
    | none => (.outdated, left)
    | some placed =>
      if placed.call.index = call.index then
        (.completed, left.setOutput call.depth call.slot output)
      else (.outdated, left)

/-- Takes the calls out of the tree. The buffers stay and are empty. -/
def finish (tree : CallTree) : List PlacedCall × CallTree :=
  let whole := (tree.foldTo 0).flush
  (whole.complete,
    { whole with depth := 0, ordinals := [], openCalls := [], entered := 0, complete := [] })

def reset (tree : CallTree) : CallTree :=
  { tree with
    buffers := tree.buffers.map fun _ => []
    ordinals := [], openCalls := [], complete := [], depth := 0, entered := 0 }

end CallTree

end EvmTrace
