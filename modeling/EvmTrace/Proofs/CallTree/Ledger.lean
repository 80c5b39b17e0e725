import EvmTrace.CallTree
import EvmTrace.Proofs.CallTree.Depths

/-!
What a host does with a tree of calls, and a ledger of it that is kept without a tree: one entry for
each call that was accepted since the calls were last taken out or dropped, in the order of entry,
with the output that an exit gave it and whether it still runs.
-/

set_option autoImplicit false

namespace EvmTrace

namespace CallTree

/-- What a host does with a tree. -/
inductive Operation where
  | enter (call : Call)
  | exit (depth : Nat) (output : Bytes)
  | finish
  | reset
deriving DecidableEq

/-- The tree after an operation. A refused call leaves it as it is. -/
def operate (tree : CallTree) : Operation → CallTree
  | .enter call =>
    match tree.enter call with
    | .ok next => next
    | .error _ => tree
  | .exit depth output => (tree.exit depth output).2
  | .finish => tree.finish.2
  | .reset => tree.reset

def run (tree : CallTree) (operations : List Operation) : CallTree :=
  operations.foldl operate tree

def ofOperations (maxDepth : Nat) (operations : List Operation) : CallTree :=
  (empty maxDepth).run operations

theorem ofOperations_snoc (maxDepth : Nat) (operations : List Operation) (operation : Operation) :
    ofOperations maxDepth (operations ++ [operation]) =
      (ofOperations maxDepth operations).operate operation :=
  List.foldl_append

end CallTree

/-- A call without its output, the only part of it that is written after its entry. -/
def Call.withoutOutput (call : Call) : Call :=
  { call with output := [] }

/-- A call that was accepted, and what has become of it. -/
structure Entry where
  /-- The call as it was accepted. -/
  call : Call
  /-- The output that the call has now. -/
  output : Bytes
  /-- Whether the call has neither exited nor been followed by a call that is not inside it. -/
  running : Bool
  /-- Whether it was an exit that ended the call. -/
  exited : Bool
deriving DecidableEq

namespace Entry

def result (entry : Entry) : Call :=
  { entry.call with output := entry.output }

def ofCall (call : Call) : Entry :=
  { call, output := call.output, running := true, exited := false }

/-- Ends the entry if its call lies at the given depth or deeper. -/
def endFrom (depth : Nat) (entry : Entry) : Entry :=
  { entry with running := entry.running && entry.call.depth < depth }

/-- Ends the entry by an exit at the given depth if its call lies there or deeper. -/
def exitFrom (depth : Nat) (entry : Entry) : Entry :=
  { entry.endFrom depth with
    exited := entry.exited || entry.running && depth ≤ entry.call.depth }

/-- Gives an output to the entry if its call runs at the given depth. -/
def answer (depth : Nat) (output : Bytes) (entry : Entry) : Entry :=
  if entry.running ∧ entry.call.depth = depth then { entry with output } else entry

end Entry

/-- The calls that were accepted, in the order of their entry. -/
abbrev Ledger := List Entry

namespace Ledger

def calls (ledger : Ledger) : List Call :=
  ledger.map Entry.call

def depths (ledger : Ledger) : List Nat :=
  ledger.map fun entry => entry.call.depth

/-- The deepest depth that may follow: zero at first, and then one below the last call. -/
def deepest (ledger : Ledger) : Nat :=
  match ledger.getLast? with
  | none => 0
  | some last => last.call.depth + 1

/-- Whether a call is accepted, and why not if it is not. -/
def admission (maxDepth : Nat) (ledger : Ledger) (call : Call) : Except Refusal Unit :=
  if maxDepth < call.depth then .error (.tooDeep call.depth maxDepth)
  else if ledger.deepest < call.depth then .error (.skipsLevel call.depth ledger.deepest)
  else .ok ()

def runsAt (ledger : Ledger) (depth : Nat) : Bool :=
  ledger.any fun entry => entry.running && entry.call.depth == depth

/-- Enters a call, which ends all calls that it does not lie in. -/
def enter (ledger : Ledger) (call : Call) : Ledger :=
  ledger.map (Entry.endFrom call.depth) ++ [.ofCall call]

/-- Exits the call that runs at a depth, if one does, and with it all calls that run inside. -/
def exit (ledger : Ledger) (depth : Nat) (output : Bytes) : Ledger :=
  if ledger.runsAt depth then
    ledger.map fun entry => (entry.answer depth output).exitFrom depth
  else ledger

/-- Notes an operation on a tree with a greatest depth. -/
def note (maxDepth : Nat) (ledger : Ledger) : CallTree.Operation → Ledger
  | .enter call =>
    match ledger.admission maxDepth call with
    | .ok () => ledger.enter call
    | .error _ => ledger
  | .exit depth output => ledger.exit depth output
  | .finish => []
  | .reset => []

def ofOperations (maxDepth : Nat) (operations : List CallTree.Operation) : Ledger :=
  operations.foldl (note maxDepth) []

theorem ofOperations_snoc (maxDepth : Nat) (operations : List CallTree.Operation)
    (operation : CallTree.Operation) :
    ofOperations maxDepth (operations ++ [operation]) =
      (ofOperations maxDepth operations).note maxDepth operation :=
  List.foldl_append

@[simp] theorem depths_enter (ledger : Ledger) (call : Call) :
    (ledger.enter call).depths = ledger.depths ++ [call.depth] := by
  simp [depths, enter, Function.comp_def, Entry.endFrom, Entry.ofCall]

theorem entry_enter_of_lt (ledger : Ledger) (call : Call) (position : Nat)
    (old : position < ledger.length) :
    (ledger.enter call)[position]? = ledger[position]?.map (Entry.endFrom call.depth) := by
  rw [enter, List.getElem?_append_left (by simpa using old), List.getElem?_map]

theorem entry_enter_last (ledger : Ledger) (call : Call) :
    (ledger.enter call)[ledger.depths.length]? = some (.ofCall call) := by
  rw [enter, depths, List.length_map, ← List.length_map (Entry.endFrom call.depth),
    List.getElem?_concat_length]

theorem entry_of_depth {ledger : Ledger} {depth position : Nat}
    (stands : ledger.depths[position]? = some depth) :
    ∃ entry, ledger[position]? = some entry ∧ entry.call.depth = depth := by
  rw [depths, List.getElem?_map] at stands
  exact Option.map_eq_some_iff.mp stands

theorem depth_of_entry {ledger : Ledger} {position : Nat} {entry : Entry}
    (stands : ledger[position]? = some entry) :
    ledger.depths[position]? = some entry.call.depth := by
  rw [depths, List.getElem?_map, stands]
  rfl

theorem deepest_enter (ledger : Ledger) (call : Call) :
    (ledger.enter call).deepest = call.depth + 1 := by
  simp [deepest, enter, Entry.ofCall]

@[simp] theorem length_depths (ledger : Ledger) : ledger.depths.length = ledger.length :=
  List.length_map _

@[simp] theorem call_answer (depth : Nat) (output : Bytes) (entry : Entry) :
    (entry.answer depth output).call = entry.call := by
  unfold Entry.answer
  split <;> rfl

theorem result_answer (depth : Nat) (output : Bytes) (entry : Entry) :
    (entry.answer depth output).result =
      if entry.running ∧ entry.call.depth = depth then { entry.result with output }
      else entry.result := by
  unfold Entry.answer
  split <;> rfl

theorem running_answer (depth : Nat) (output : Bytes) (entry : Entry) :
    (entry.answer depth output).running = entry.running := by
  unfold Entry.answer
  split <;> rfl

theorem exited_answer (depth : Nat) (output : Bytes) (entry : Entry) :
    (entry.answer depth output).exited = entry.exited := by
  unfold Entry.answer
  split <;> rfl

@[simp] theorem depths_exit (ledger : Ledger) (depth : Nat) (output : Bytes) :
    (ledger.exit depth output).depths = ledger.depths := by
  unfold exit
  split
  · simp [depths, Function.comp_def, Entry.exitFrom, Entry.endFrom]
  · rfl

theorem length_exit (ledger : Ledger) (depth : Nat) (output : Bytes) :
    (ledger.exit depth output).length = ledger.length := by
  rw [← length_depths, depths_exit, length_depths]

theorem deepest_eq (ledger : Ledger) :
    ledger.deepest = ledger.depths.getLast?.elim 0 (· + 1) := by
  rw [deepest, depths, List.getLast?_map]
  cases ledger.getLast? <;> rfl

theorem admission_eq_ok_iff (maxDepth : Nat) (ledger : Ledger) (call : Call) :
    ledger.admission maxDepth call = .ok () ↔
      call.depth ≤ maxDepth ∧ call.depth ≤ ledger.deepest := by
  unfold admission
  split
  · simp only [reduceCtorEq, false_iff]
    omega
  · split
    · simp only [reduceCtorEq, false_iff]
      omega
    · simp only [true_iff]
      omega

end Ledger

end EvmTrace
