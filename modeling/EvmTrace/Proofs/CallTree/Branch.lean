import EvmTrace.CallTree
import Mathlib.Data.List.TakeWhile

/-!
The tree of calls seen as the branch that is being entered: one level for each depth of the branch,
with the calls that wait there and the ordinal of the last of them. Entering a call closes the
levels from its depth on. The buffers of a tree and their folding are related to this view in
`EvmTrace.Proofs.CallTree.View`.
-/

set_option autoImplicit false

namespace EvmTrace

/-- Only the entry behind a list of the given length is changed. -/
theorem modify_append_cons {α : Type} (f : α → α) (front rest : List α) (entry : α) (index : Nat)
    (stand : front.length = index) :
    (front ++ entry :: rest).modify index f = front ++ f entry :: rest := by
  subst stand
  exact List.modifyTailIdx_add (List.modifyHead f) 0 front (entry :: rest)

/-- The calls that wait at one depth of a branch. -/
structure Level where
  /-- The position, counted from one, of the last call of this depth among its siblings. -/
  ordinal : Nat
  calls : List PlacedCall
deriving DecidableEq

/-- The calls of a transaction so far, by the levels of the branch that is being entered. -/
@[ext] structure Branch where
  maxDepth : Nat
  complete : List PlacedCall
  levels : List Level
  openCalls : List OpenCall
deriving DecidableEq

namespace Branch

def empty (maxDepth : Nat) : Branch :=
  { maxDepth, complete := [], levels := [], openCalls := [] }

def calls (branch : Branch) : List PlacedCall :=
  branch.complete ++ branch.levels.flatMap Level.calls

/-- The ordinal of a call that is entered next at a depth. -/
def nextOrdinal (branch : Branch) (depth : Nat) : Nat :=
  (branch.levels[depth]?.elim 0 Level.ordinal) + 1

def nextPath (branch : Branch) (depth : Nat) : CallPath :=
  ((branch.levels.take depth).map Level.ordinal ++ [branch.nextOrdinal depth]).tail

/-- The calls that wait at a depth or deeper. -/
def closed (branch : Branch) (depth : Nat) : List PlacedCall :=
  (branch.levels.drop depth).flatMap Level.calls

/-- The calls in front of a call that is entered next, at its own level. -/
def elders (branch : Branch) (depth : Nat) : List PlacedCall :=
  if depth = 0 then [] else branch.closed depth

/-- The calls of complete trees once a call is entered next. -/
def completeBefore (branch : Branch) (depth : Nat) : List PlacedCall :=
  if depth = 0 then branch.complete ++ branch.closed depth else branch.complete

def placed (branch : Branch) (call : Call) : PlacedCall :=
  { call, path := branch.nextPath call.depth }

def opened (branch : Branch) (call : Call) : OpenCall :=
  { index := call.index, depth := call.depth, path := branch.nextPath call.depth
    slot := (branch.elders call.depth).length }

def place (branch : Branch) (call : Call) : Branch :=
  { branch with
    complete := branch.completeBefore call.depth
    levels := branch.levels.take call.depth ++
      [⟨branch.nextOrdinal call.depth, branch.elders call.depth ++ [branch.placed call]⟩]
    openCalls := branch.opened call ::
      branch.openCalls.dropWhile fun outer => call.depth ≤ outer.depth }

def enter (branch : Branch) (call : Call) : Except Refusal Branch :=
  if branch.maxDepth < call.depth then .error (.tooDeep call.depth branch.maxDepth)
  else if branch.levels.length < call.depth then
    .error (.skipsLevel call.depth branch.levels.length)
  else .ok (branch.place call)

def callAt (branch : Branch) (depth slot : Nat) : Option PlacedCall :=
  branch.levels[depth]?.bind fun level => level.calls[slot]?

def setOutput (branch : Branch) (depth slot : Nat) (output : Bytes) : Branch :=
  { branch with
    levels := branch.levels.modify depth fun level =>
      { level with calls := level.calls.modify slot (CallTree.withOutput output) } }

def exit (branch : Branch) (depth : Nat) (output : Bytes) : Exit × Branch :=
  match branch.openCalls.dropWhile fun call => call.depth ≠ depth with
  | [] => (.noOpenCall, branch)
  | call :: outer =>
    let left := { branch with openCalls := outer }
    match branch.callAt call.depth call.slot with
    | none => (.outdated, left)
    | some placed =>
      if placed.call.index = call.index then
        (.completed, left.setOutput call.depth call.slot output)
      else (.outdated, left)

theorem calls_empty (maxDepth : Nat) : (empty maxDepth).calls = [] := rfl

/-- A call stands behind all calls that were entered before it. -/
theorem calls_place (branch : Branch) (call : Call) :
    (branch.place call).calls = branch.calls ++ [branch.placed call] := by
  have split : branch.levels.flatMap Level.calls =
      (branch.levels.take call.depth).flatMap Level.calls ++ branch.closed call.depth := by
    rw [closed, ← List.flatMap_append, List.take_append_drop]
  by_cases root : call.depth = 0
  · simp [calls, place, elders, completeBefore, split, root]
  · simp [calls, place, elders, completeBefore, split, root]

/-- A call is the last one on its branch. -/
theorem length_levels_place (branch : Branch) (call : Call)
    (reached : call.depth ≤ branch.levels.length) :
    (branch.place call).levels.length = call.depth + 1 := by
  have kept : (branch.levels.take call.depth).length = call.depth := by
    rw [List.length_take]
    omega
  simp only [place, List.length_append, kept, List.length_cons, List.length_nil]

/-- The calls of complete trees and of the levels in front of a depth. -/
def upTo (branch : Branch) (depth : Nat) : List PlacedCall :=
  branch.complete ++ (branch.levels.take depth).flatMap Level.calls

theorem upTo_zero (branch : Branch) : branch.upTo 0 = branch.complete :=
  List.append_nil _

theorem calls_eq_upTo_append (branch : Branch) (depth : Nat) :
    branch.calls = branch.upTo depth ++ branch.closed depth := by
  rw [calls, upTo, closed, List.append_assoc, ← List.flatMap_append, List.take_append_drop]

theorem take_calls_upTo (branch : Branch) (depth : Nat) :
    branch.calls.take (branch.upTo depth).length = branch.upTo depth := by
  rw [calls_eq_upTo_append branch depth, List.take_left]

theorem upTo_of_length_le (branch : Branch) (depth : Nat) (beyond : branch.levels.length ≤ depth) :
    branch.upTo depth = branch.calls := by
  rw [upTo, List.take_of_length_le beyond, calls]

theorem upTo_succ (branch : Branch) (depth : Nat) (level : Level)
    (stands : branch.levels[depth]? = some level) :
    branch.upTo (depth + 1) = branch.upTo depth ++ level.calls := by
  obtain ⟨inside, found⟩ := List.getElem?_eq_some_iff.mp stands
  simp [upTo, List.take_succ_eq_append_getElem inside, found]

/-- The calls of a level stand together among all calls. -/
theorem calls_of_level (branch : Branch) (depth : Nat) (level : Level)
    (stands : branch.levels[depth]? = some level) :
    level.calls =
      (branch.calls.take (branch.upTo (depth + 1)).length).drop (branch.upTo depth).length := by
  rw [take_calls_upTo, upTo_succ branch depth level stands, List.drop_left]

theorem nextOrdinal_place (branch : Branch) (call : Call) (depth : Nat)
    (reached : call.depth ≤ branch.levels.length) :
    (branch.place call).nextOrdinal depth =
      if depth < call.depth then branch.nextOrdinal depth
      else if depth = call.depth then branch.nextOrdinal depth + 1
      else 1 := by
  have kept : (branch.levels.take call.depth).length = call.depth := by
    rw [List.length_take]
    omega
  by_cases above : depth < call.depth
  · rw [if_pos above, nextOrdinal, place, List.getElem?_append_left (by omega),
      List.getElem?_take_of_lt above]
    rfl
  · rw [if_neg above]
    by_cases here : depth = call.depth
    · rw [if_pos here, nextOrdinal, place, List.getElem?_append_right (by omega)]
      simp [kept, here]
    · rw [if_neg here, nextOrdinal, place, List.getElem?_eq_none]
      · rfl
      · rw [List.length_append, kept, List.length_singleton]
        omega

theorem take_levels_place (branch : Branch) (call : Call) (depth : Nat)
    (above : depth ≤ call.depth) (reached : call.depth ≤ branch.levels.length) :
    (branch.place call).levels.take depth = branch.levels.take depth := by
  rw [place, List.take_append_of_le_length (by rw [List.length_take]; omega),
    List.take_take, Nat.min_eq_left above]

/-- Entering a call changes what lies in front of a level only at its own depth and below. -/
theorem upTo_place (branch : Branch) (call : Call) (depth : Nat) (above : depth < call.depth)
    (reached : call.depth ≤ branch.levels.length) :
    (branch.place call).upTo (depth + 1) = branch.upTo (depth + 1) := by
  have root : call.depth ≠ 0 := by omega
  rw [upTo, take_levels_place branch call _ above reached, place,
    completeBefore, if_neg root, upTo]

theorem nextPath_succ (branch : Branch) (depth : Nat) (inside : depth < branch.levels.length) :
    branch.nextPath (depth + 1) =
      ((branch.levels.take (depth + 1)).map Level.ordinal).tail ++
        [branch.nextOrdinal (depth + 1)] := by
  have occupied : (branch.levels.take (depth + 1)).map Level.ordinal ≠ [] := by
    intro bare
    have length := congrArg List.length bare
    simp only [List.length_map, List.length_take, List.length_nil] at length
    omega
  rw [nextPath, List.tail_append_of_ne_nil occupied]

theorem path_place (branch : Branch) (call : Call) :
    ((branch.place call).levels.map Level.ordinal).tail = branch.nextPath call.depth := by
  rw [place, List.map_append, nextPath]
  rfl

theorem calls_eq_upTo (branch : Branch) (depth : Nat) (level : Level)
    (stands : branch.levels[depth]? = some level) :
    branch.calls = branch.upTo depth ++ (level.calls ++ branch.closed (depth + 1)) := by
  rw [calls_eq_upTo_append branch (depth + 1), upTo_succ branch depth level stands,
    List.append_assoc]

/-- The call at the end of a level is the open call of that depth, if there is one. -/
structure Stands (branch : Branch) (outer : OpenCall) (front : List PlacedCall)
    (placed : PlacedCall) : Prop where
  last : branch.levels[outer.depth]?.map Level.calls = some (front ++ [placed])
  slot : outer.slot = front.length
  index : placed.call.index = outer.index
  depth : placed.call.depth = outer.depth
  path : placed.path = outer.path

/-- What every operation keeps of the open calls. -/
structure Consistent (branch : Branch) : Prop where
  /-- Open calls lie inside each other, innermost first. -/
  ordered : branch.openCalls.Pairwise fun inner outer => outer.depth < inner.depth
  /-- Each of them is the last call of its level. -/
  standing : ∀ outer ∈ branch.openCalls, ∃ front placed, branch.Stands outer front placed

theorem dropWhile_eq_filter {openCalls : List OpenCall}
    (ordered : openCalls.Pairwise fun inner outer => outer.depth < inner.depth) (depth : Nat) :
    (openCalls.dropWhile fun outer => depth ≤ outer.depth) =
      openCalls.filter fun outer => outer.depth < depth := by
  induction openCalls with
  | nil => rfl
  | cons call outer ih =>
      obtain ⟨inside, ordered⟩ := List.pairwise_cons.mp ordered
      by_cases deep : depth ≤ call.depth
      · rw [List.dropWhile_cons_of_pos (by simpa using deep),
          List.filter_cons_of_neg (by simpa using deep), ih ordered]
      · rw [List.dropWhile_cons_of_neg (by simpa using deep), eq_comm]
        apply List.filter_eq_self.mpr
        intro other member
        simp only [decide_eq_true_eq]
        rcases List.mem_cons.mp member with rfl | member
        · omega
        · have below := inside other member
          omega

/-- The search for the call that exits ends at the open call of its depth. -/
theorem dropWhile_ne_eq {openCalls : List OpenCall}
    (ordered : openCalls.Pairwise fun inner outer => outer.depth < inner.depth) {call : OpenCall}
    (member : call ∈ openCalls) :
    (openCalls.dropWhile fun other => other.depth ≠ call.depth) =
      call :: openCalls.filter fun outer => outer.depth < call.depth := by
  induction openCalls with
  | nil => cases member
  | cons first outer ih =>
      obtain ⟨inside, ordered⟩ := List.pairwise_cons.mp ordered
      rcases List.mem_cons.mp member with rfl | member
      · rw [List.dropWhile_cons_of_neg (by simp), List.filter_cons_of_neg (by simp), eq_comm]
        congr 1
        apply List.filter_eq_self.mpr
        intro other member
        simpa using inside other member
      · have below := inside call member
        rw [List.dropWhile_cons_of_pos (by simp only [ne_eq, decide_eq_true_eq]; omega),
          List.filter_cons_of_neg (by simp only [decide_eq_true_eq]; omega), ih ordered member]

theorem Stands.callAt {branch : Branch} {outer : OpenCall} {front : List PlacedCall}
    {placed : PlacedCall} (stands : branch.Stands outer front placed) :
    branch.callAt outer.depth outer.slot = some placed := by
  obtain ⟨level, found, calls⟩ := Option.map_eq_some_iff.mp stands.last
  rw [Branch.callAt, found, Option.bind_some, calls, stands.slot, List.getElem?_concat_length]

/-- The branch once the open call of a depth exits. -/
def exited (branch : Branch) (call : OpenCall) (output : Bytes) : Branch :=
  { branch.setOutput call.depth call.slot output with
    openCalls := branch.openCalls.filter fun outer => outer.depth < call.depth }

/-- The call of an exit always stands where it was entered. -/
theorem exit_of_mem {branch : Branch} (consistent : branch.Consistent) {call : OpenCall}
    (member : call ∈ branch.openCalls) (output : Bytes) :
    branch.exit call.depth output = (.completed, branch.exited call output) := by
  obtain ⟨front, placed, stands⟩ := consistent.standing call member
  unfold exit
  rw [dropWhile_ne_eq consistent.ordered member]
  simp only [stands.callAt, stands.index, ↓reduceIte]
  rfl

theorem exit_of_not_mem (branch : Branch) (depth : Nat) (output : Bytes)
    (absent : ∀ call ∈ branch.openCalls, call.depth ≠ depth) :
    branch.exit depth output = (.noOpenCall, branch) := by
  have nothing : (branch.openCalls.dropWhile fun call => call.depth ≠ depth) = [] := by
    apply List.dropWhile_eq_nil_iff.mpr
    intro call member
    simpa using absent call member
  unfold exit
  rw [nothing]

theorem openCalls_place (branch : Branch) (call : Call) (consistent : branch.Consistent) :
    (branch.place call).openCalls =
      branch.opened call :: branch.openCalls.filter fun outer => outer.depth < call.depth := by
  rw [place, dropWhile_eq_filter consistent.ordered]

theorem consistent_empty (maxDepth : Nat) : (empty maxDepth).Consistent := by
  refine ⟨List.Pairwise.nil, ?_⟩
  intro outer member
  cases member

theorem Consistent.place {branch : Branch} (consistent : branch.Consistent) (call : Call)
    (reached : call.depth ≤ branch.levels.length) : (branch.place call).Consistent := by
  have kept : (branch.levels.take call.depth).length = call.depth := by
    rw [List.length_take]
    omega
  have opened := openCalls_place branch call consistent
  refine ⟨?_, ?_⟩
  · rw [opened]
    apply List.pairwise_cons.mpr
    refine ⟨?_, consistent.ordered.filter _⟩
    intro outer member
    simpa [Branch.opened] using (List.mem_filter.mp member).2
  · intro outer member
    rw [opened] at member
    rcases List.mem_cons.mp member with rfl | member
    · refine ⟨branch.elders call.depth, branch.placed call, ?_, rfl, rfl, rfl, rfl⟩
      simp [Branch.place, Branch.opened, kept]
    · obtain ⟨member, above⟩ := List.mem_filter.mp member
      have above : outer.depth < call.depth := by simpa using above
      obtain ⟨front, placed, stands⟩ := consistent.standing outer member
      refine ⟨front, placed, ?_, stands.slot, stands.index, stands.depth, stands.path⟩
      rw [Branch.place, List.getElem?_append_left (by omega), List.getElem?_take_of_lt above]
      exact stands.last

theorem Consistent.exited {branch : Branch} (consistent : branch.Consistent) (call : OpenCall)
    (output : Bytes) : (branch.exited call output).Consistent := by
  refine ⟨consistent.ordered.filter _, ?_⟩
  intro outer kept
  obtain ⟨kept, above⟩ := List.mem_filter.mp kept
  have above : outer.depth < call.depth := by simpa using above
  obtain ⟨front, placed, stands⟩ := consistent.standing outer kept
  refine ⟨front, placed, ?_, stands.slot, stands.index, stands.depth, stands.path⟩
  have other : (branch.exited call output).levels[outer.depth]? = branch.levels[outer.depth]? :=
    List.getElem?_modify_ne _ _ (by omega)
  rw [other]
  exact stands.last

theorem maxDepth_exit (branch : Branch) (depth : Nat) (output : Bytes) :
    (branch.exit depth output).2.maxDepth = branch.maxDepth := by
  unfold exit
  split
  · rfl
  · dsimp only
    split
    · rfl
    · split <;> rfl

/-- An output changes nothing about the levels but the output of a call. -/
theorem map_levels_setOutput {α : Type} (view : Level → α) (branch : Branch) (depth slot : Nat)
    (output : Bytes)
    (same : ∀ level : Level,
      view { level with calls := level.calls.modify slot (CallTree.withOutput output) } =
        view level) :
    (branch.setOutput depth slot output).levels.map view = branch.levels.map view := by
  apply List.ext_getElem?
  intro index
  simp only [setOutput, List.getElem?_map, List.getElem?_modify]
  cases branch.levels[index]? with
  | none => rfl
  | some level =>
      by_cases here : depth = index
      · simp [here, same]
      · simp [here]

theorem nextOrdinal_setOutput (branch : Branch) (depth slot below : Nat) (output : Bytes) :
    (branch.setOutput depth slot output).nextOrdinal below = branch.nextOrdinal below := by
  have ordinals := map_levels_setOutput Level.ordinal branch depth slot output fun _ => rfl
  have same := congrArg (fun list => list[below]?) ordinals
  simp only [List.getElem?_map] at same
  unfold nextOrdinal
  cases here : (branch.setOutput depth slot output).levels[below]? <;>
    cases there : branch.levels[below]? <;> simp_all

theorem length_upTo_setOutput (branch : Branch) (depth slot below : Nat) (output : Bytes) :
    ((branch.setOutput depth slot output).upTo below).length = (branch.upTo below).length := by
  have lengths := map_levels_setOutput (fun level => level.calls.length) branch depth slot output
    fun level => List.length_modify _ _ _
  simp only [upTo, List.length_append, List.length_flatMap, List.map_take, lengths]
  rfl

theorem Stands.calls {branch : Branch} {outer : OpenCall} {front : List PlacedCall}
    {placed : PlacedCall} (stands : branch.Stands outer front placed) :
    branch.calls =
      branch.upTo outer.depth ++ front ++ placed :: branch.closed (outer.depth + 1) := by
  obtain ⟨level, found, calls⟩ := Option.map_eq_some_iff.mp stands.last
  rw [calls_eq_upTo branch outer.depth level found, calls, List.append_assoc, List.append_assoc,
    List.singleton_append]

/-- The position of an open call among all calls. -/
theorem Stands.getElem?_calls {branch : Branch} {outer : OpenCall} {front : List PlacedCall}
    {placed : PlacedCall} (stands : branch.Stands outer front placed) :
    branch.calls[(branch.upTo outer.depth ++ front).length]? = some placed := by
  rw [stands.calls, List.getElem?_append_right (Nat.le_refl _), Nat.sub_self,
    List.getElem?_cons_zero]

/-- The output of an exit is written to the call that exits and to no other. -/
theorem Stands.calls_setOutput {branch : Branch} {outer : OpenCall} {front : List PlacedCall}
    {placed : PlacedCall} (stands : branch.Stands outer front placed) (output : Bytes) :
    (branch.setOutput outer.depth outer.slot output).calls =
      branch.upTo outer.depth ++ front ++
        CallTree.withOutput output placed :: branch.closed (outer.depth + 1) := by
  obtain ⟨level, found, calls⟩ := Option.map_eq_some_iff.mp stands.last
  obtain ⟨bound, same⟩ := List.getElem?_eq_some_iff.mp found
  have written : level.calls.modify outer.slot (CallTree.withOutput output) =
      front ++ [CallTree.withOutput output placed] := by
    rw [calls]
    exact modify_append_cons _ _ _ _ _ stands.slot.symm
  have levels : (branch.setOutput outer.depth outer.slot output).levels =
      branch.levels.take outer.depth ++
        ⟨level.ordinal, front ++ [CallTree.withOutput output placed]⟩ ::
          branch.levels.drop (outer.depth + 1) := by
    rw [setOutput, List.modify_eq_take_cons_drop bound, same, written]
  rw [Branch.calls, levels, List.flatMap_append, List.flatMap_cons, ← List.append_assoc]
  simp only [upTo, closed, List.append_assoc, List.singleton_append]
  rfl

/-- The position of the call that exits among all calls tells what an exit writes. -/
theorem Stands.calls_exited {branch : Branch} {outer : OpenCall} {front : List PlacedCall}
    {placed : PlacedCall} (stands : branch.Stands outer front placed) (output : Bytes) :
    (branch.exited outer output).calls =
      branch.calls.modify (branch.upTo outer.depth ++ front).length
        (CallTree.withOutput output) := by
  rw [stands.calls, modify_append_cons _ _ _ _ _ rfl]
  exact stands.calls_setOutput output

end Branch

end EvmTrace
