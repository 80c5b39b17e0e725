import EvmTrace.Proofs.CallTree.Tracking

/-!
When a call is closed, said of the history of a tree alone: a call is closed by the first later call
that lies at its depth or above it, or by the first later exit there that has an effect, and an exit
has an effect if a call of its own depth is not closed yet. The ledger of a tree, which is kept
along the way, says the same of each of its entries.
-/

set_option autoImplicit false

namespace EvmTrace

namespace CallTree

/--
What a tree took since its calls were last taken out or dropped: the calls that it accepted, and
all exits, whether or not they had an effect.
-/
abbrev History := List Operation

def Operation.call? : Operation → Option Call
  | .enter call => some call
  | _ => none

theorem Operation.eq_enter {operation : Operation} {call : Call}
    (enters : operation.call? = some call) : operation = .enter call := by
  cases operation <;> cases enters
  rfl

/-- The history behind one more operation on a tree. -/
def remember (tree : CallTree) (history : History) : Operation → History
  | .enter call =>
    match tree.enter call with
    | .ok _ => history ++ [.enter call]
    | .error _ => history
  | .exit depth output => history ++ [.exit depth output]
  | .finish => []
  | .reset => []

/-- The history behind operations on a tree that has a history already. -/
def rememberAll (tree : CallTree) (history : History) : List Operation → History
  | [] => history
  | operation :: rest => (tree.operate operation).rememberAll (tree.remember history operation) rest

theorem rememberAll_snoc (tree : CallTree) (history : History) (operations : List Operation)
    (operation : Operation) :
    tree.rememberAll history (operations ++ [operation]) =
      (tree.run operations).remember (tree.rememberAll history operations) operation := by
  induction operations generalizing tree history with
  | nil => rfl
  | cons first rest ih => exact ih (tree.operate first) (tree.remember history first)

namespace History

/-- The history of a tree that is empty at first. -/
def ofOperations (maxDepth : Nat) (operations : List Operation) : History :=
  (empty maxDepth).rememberAll [] operations

theorem ofOperations_snoc (maxDepth : Nat) (operations : List Operation) (operation : Operation) :
    ofOperations maxDepth (operations ++ [operation]) =
      (CallTree.ofOperations maxDepth operations).remember (ofOperations maxDepth operations)
        operation :=
  rememberAll_snoc (empty maxDepth) [] operations operation

def call? (history : History) (moment : Nat) : Option Call :=
  history[moment]?.bind Operation.call?

/-- The number of calls that were entered in front of a moment. -/
def callsBefore (history : History) (moment : Nat) : Nat :=
  ((history.take moment).filterMap Operation.call?).length

/--
Whether what happened at a moment closes the calls of a depth: a call does if it lies at that depth
or above it, and so does an exit, but only if there is a call of the exit's own depth that nothing
has closed since it was entered.
-/
def Closes (history : History) (depth moment : Nat) : Prop :=
  match history[moment]? with
  | some (.enter call) => call.depth ≤ depth
  | some (.exit level _) =>
    level ≤ depth ∧ ∃ first call, first < moment ∧ history.call? first = some call ∧
      call.depth = level ∧
      ∀ later, first < later → later < moment → ¬Closes history level later
  | _ => False
termination_by moment

/-- A call that was entered in front of a moment and that nothing has closed before that moment. -/
structure Unclosed (history : History) (now first : Nat) (call : Call) : Prop where
  before : first < now
  entered : history.call? first = some call
  since : ∀ later, first < later → later < now → ¬history.Closes call.depth later

/-- Whether an exit at a depth has an effect if it comes at a given moment. -/
def Effective (history : History) (now depth : Nat) : Prop :=
  ∃ first call, history.Unclosed now first call ∧ call.depth = depth

variable {history : History}

theorem closes_of_enter {moment : Nat} {call : Call} (depth : Nat)
    (found : history[moment]? = some (.enter call)) :
    history.Closes depth moment ↔ call.depth ≤ depth := by
  rw [Closes, found]

theorem closes_of_exit {moment level : Nat} {output : Bytes} (depth : Nat)
    (found : history[moment]? = some (.exit level output)) :
    history.Closes depth moment ↔ level ≤ depth ∧ history.Effective moment level := by
  rw [Closes, found]
  apply and_congr_right
  intro _
  constructor
  · rintro ⟨first, call, before, entered, rfl, since⟩
    exact ⟨first, call, ⟨before, entered, since⟩, rfl⟩
  · rintro ⟨first, call, ⟨before, entered, since⟩, rfl⟩
    exact ⟨first, call, before, entered, rfl, since⟩

/-- At most one call of a depth is not closed. -/
theorem Unclosed.unique {now first other : Nat} {call call' : Call}
    (unclosed : history.Unclosed now first call) (unclosed' : history.Unclosed now other call')
    (same : call.depth = call'.depth) : first = other := by
  -- The later of two calls of one depth closes the earlier one.
  have latest : ∀ {first other : Nat} {call call' : Call}, history.Unclosed now first call →
      history.Unclosed now other call' → call.depth = call'.depth → ¬first < other := by
    intro first other call call' unclosed unclosed' same earlier
    obtain ⟨operation, found, enters⟩ := Option.bind_eq_some_iff.mp unclosed'.entered
    rw [Operation.eq_enter enters] at found
    exact unclosed.since other earlier unclosed'.before
      ((closes_of_enter call.depth found).mpr (Nat.le_of_eq same.symm))
  have notBefore := latest unclosed unclosed' same
  have notBehind := latest unclosed' unclosed same.symm
  omega

theorem call?_append (more : History) {moment : Nat} (inside : moment < history.length) :
    call? (history ++ more) moment = history.call? moment := by
  rw [call?, List.getElem?_append_left inside, call?]

theorem lt_of_call? {moment : Nat} {call : Call} (entered : history.call? moment = some call) :
    moment < history.length := by
  obtain ⟨_, found, _⟩ := Option.bind_eq_some_iff.mp entered
  exact (List.getElem?_eq_some_iff.mp found).1

/-- A call was entered before the last operation or by it. -/
theorem call?_snoc {operation : Operation} {moment : Nat} {call : Call}
    (entered : call? (history ++ [operation]) moment = some call) :
    moment < history.length ∧ history.call? moment = some call ∨
      moment = history.length ∧ operation = .enter call := by
  have inside := lt_of_call? entered
  rw [List.length_append, List.length_singleton] at inside
  rcases Nat.lt_succ_iff_lt_or_eq.mp inside with old | rfl
  · rw [call?_append _ old] at entered
    exact .inl ⟨old, entered⟩
  · rw [call?, List.getElem?_concat_length] at entered
    exact .inr ⟨rfl, Operation.eq_enter entered⟩

theorem callsBefore_append (more : History) {moment : Nat} (inside : moment ≤ history.length) :
    callsBefore (history ++ more) moment = history.callsBefore moment := by
  rw [callsBefore, List.take_append_of_le_length inside, callsBefore]

theorem unclosed_of_closes_append (more : History) {now : Nat} (inside : now ≤ history.length)
    (same : ∀ later depth, later < now →
      (Closes (history ++ more) depth later ↔ history.Closes depth later))
    (first : Nat) (call : Call) :
    Unclosed (history ++ more) now first call ↔ history.Unclosed now first call := by
  constructor
  · rintro ⟨before, entered, since⟩
    rw [call?_append more (by omega)] at entered
    exact ⟨before, entered, fun later behind front closes =>
      since later behind front ((same later call.depth front).mpr closes)⟩
  · rintro ⟨before, entered, since⟩
    rw [← call?_append more (by omega)] at entered
    exact ⟨before, entered, fun later behind front closes =>
      since later behind front ((same later call.depth front).mp closes)⟩

/-- What happens later has no say in what closed a call before. -/
theorem closes_append (more : History) (depth moment : Nat) (inside : moment < history.length) :
    Closes (history ++ more) depth moment ↔ history.Closes depth moment := by
  induction moment using Nat.strongRecOn generalizing depth with
  | ind moment ih =>
    have unclosed := unclosed_of_closes_append more (Nat.le_of_lt inside)
      fun later depth front => ih later front depth (by omega)
    have effective : ∀ level, Effective (history ++ more) moment level ↔
        history.Effective moment level := by
      intro level
      simp only [Effective, unclosed]
    have here : (history ++ more)[moment]? = history[moment]? :=
      List.getElem?_append_left inside
    rw [List.getElem?_eq_getElem inside] at here
    have found := List.getElem?_eq_getElem inside
    generalize history[moment] = operation at here found
    cases operation with
    | enter call => rw [closes_of_enter depth here, closes_of_enter depth found]
    | exit level output => rw [closes_of_exit depth here, closes_of_exit depth found, effective]
    | finish => rw [Closes, Closes, here, found]
    | reset => rw [Closes, Closes, here, found]

theorem unclosed_append (more : History) {now : Nat} (inside : now ≤ history.length)
    (first : Nat) (call : Call) :
    Unclosed (history ++ more) now first call ↔ history.Unclosed now first call :=
  unclosed_of_closes_append more inside
    (fun later depth front => closes_append more depth later (by omega)) first call

theorem effective_append (more : History) {now : Nat} (inside : now ≤ history.length)
    (depth : Nat) : Effective (history ++ more) now depth ↔ history.Effective now depth := by
  simp only [Effective, unclosed_append more inside]

/-- A call stays unclosed unless the next operation closes it. -/
theorem unclosed_snoc_of_lt {first : Nat} (operation : Operation) (call : Call)
    (old : first < history.length) :
    Unclosed (history ++ [operation]) (history ++ [operation]).length first call ↔
      history.Unclosed history.length first call ∧
        ¬Closes (history ++ [operation]) call.depth history.length := by
  have length : (history ++ [operation]).length = history.length + 1 := by simp
  have kept : Unclosed (history ++ [operation]) history.length first call ↔ _ :=
    unclosed_append [operation] (Nat.le_refl _) first call
  rw [← kept, length]
  constructor
  · rintro ⟨_, entered, since⟩
    exact ⟨⟨old, entered, fun later behind front => since later behind (by omega)⟩,
      since history.length old (Nat.lt_succ_self _)⟩
  · rintro ⟨⟨_, entered, since⟩, last⟩
    refine ⟨by omega, entered, ?_⟩
    intro later behind front
    rcases Nat.lt_succ_iff_lt_or_eq.mp front with front | rfl
    · exact since later behind front
    · exact last

theorem unclosed_snoc_enter (call : Call) :
    Unclosed (history ++ [Operation.enter call]) (history ++ [Operation.enter call]).length
      history.length call := by
  refine ⟨by simp, ?_, ?_⟩
  · rw [call?, List.getElem?_concat_length]
    rfl
  · intro later behind front
    simp only [List.length_append, List.length_singleton] at front
    omega

end History

/-- A ledger has an entry for each call of a history, which runs as long as the call is unclosed. -/
structure Reflects (ledger : Ledger) (history : History) : Prop where
  length : ledger.length = history.callsBefore history.length
  entries : ∀ first call, history.call? first = some call →
    ∃ entry, ledger[history.callsBefore first]? = some entry ∧ entry.call = call ∧
      (entry.running = true ↔ history.Unclosed history.length first call)

namespace History

theorem callsBefore_snoc (history : History) (operation : Operation) :
    callsBefore (history ++ [operation]) (history.length + 1) =
      history.callsBefore history.length + operation.call?.toList.length := by
  have all : (history ++ [operation]).take (history.length + 1) = history ++ [operation] :=
    List.take_of_length_le (by simp)
  rw [callsBefore, all, List.filterMap_append, callsBefore, List.take_length, List.length_append]
  cases entered : operation.call? <;> simp [entered]

/-- Every call is counted, so each number below the count of all calls is that of a call. -/
theorem exists_call (history : History) (position : Nat)
    (inside : position < history.callsBefore history.length) :
    ∃ first call, history.call? first = some call ∧ history.callsBefore first = position := by
  induction history using List.reverseRecOn with
  | nil => exact absurd inside (Nat.not_lt_zero position)
  | append_singleton history operation ih =>
      rw [List.length_append, List.length_singleton, callsBefore_snoc] at inside
      by_cases old : position < callsBefore history history.length
      · obtain ⟨first, call, entered, here⟩ := ih old
        have earlier := lt_of_call? entered
        exact ⟨first, call, (call?_append _ earlier).trans entered,
          (callsBefore_append _ (Nat.le_of_lt earlier)).trans here⟩
      · cases entered : operation.call? with
        | none =>
            rw [entered] at inside
            exact absurd inside old
        | some call =>
            rw [entered] at inside
            change position < callsBefore history history.length + 1 at inside
            refine ⟨history.length, call, ?_, ?_⟩
            · rw [call?, List.getElem?_concat_length]
              exact entered
            · rw [callsBefore_append _ (Nat.le_refl _)]
              omega

end History

namespace Reflects

variable {ledger : Ledger} {history : History}

theorem empty : Reflects [] [] := by
  refine ⟨rfl, ?_⟩
  intro first call entered
  cases entered

/-- Every entry is that of a call of the history. -/
theorem moment_of_entry (reflects : Reflects ledger history) {position : Nat} {entry : Entry}
    (found : ledger[position]? = some entry) :
    ∃ first, history.callsBefore first = position ∧ history.call? first = some entry.call ∧
      (entry.running = true ↔ history.Unclosed history.length first entry.call) := by
  have inside := (List.getElem?_eq_some_iff.mp found).1
  rw [reflects.length] at inside
  obtain ⟨first, call, entered, rfl⟩ := history.exists_call position inside
  obtain ⟨entry', found', rfl, running⟩ := reflects.entries first call entered
  rw [found] at found'
  cases found'
  exact ⟨first, rfl, entered, running⟩

/-- An exit has an effect exactly if a call runs at its depth. -/
theorem effective_iff (reflects : Reflects ledger history) (depth : Nat) :
    history.Effective history.length depth ↔ ledger.runsAt depth = true := by
  rw [Ledger.runsAt, List.any_eq_true]
  constructor
  · rintro ⟨first, call, unclosed, rfl⟩
    obtain ⟨entry, found, rfl, running⟩ := reflects.entries first call unclosed.entered
    exact ⟨entry, List.mem_of_getElem? found, by simp [running.mpr unclosed]⟩
  · rintro ⟨entry, member, runs⟩
    simp only [Bool.and_eq_true, beq_iff_eq] at runs
    obtain ⟨position, found⟩ := List.mem_iff_getElem?.mp member
    obtain ⟨first, _, _, running⟩ := reflects.moment_of_entry found
    exact ⟨first, entry.call, running.mp runs.1, runs.2⟩

theorem enter (reflects : Reflects ledger history) (call : Call) :
    Reflects (ledger.enter call) (history ++ [.enter call]) := by
  have added : History.callsBefore (history ++ [.enter call]) (history.length + 1) =
      history.callsBefore history.length + 1 := history.callsBefore_snoc (.enter call)
  have found : (history ++ [Operation.enter call])[history.length]? = some (.enter call) :=
    List.getElem?_concat_length
  refine ⟨?_, ?_⟩
  · rw [List.length_append, List.length_singleton, added, ← reflects.length]
    simp [Ledger.enter]
  · intro first entered earlier
    rcases History.call?_snoc earlier with ⟨old, earlier⟩ | ⟨rfl, same⟩
    · obtain ⟨entry, stands, rfl, running⟩ := reflects.entries first entered earlier
      have front := (List.getElem?_eq_some_iff.mp stands).1
      refine ⟨entry.endFrom call.depth, ?_, rfl, ?_⟩
      · rw [History.callsBefore_append _ (Nat.le_of_lt old), Ledger.entry_enter_of_lt _ _ _ front,
          stands]
        rfl
      · rw [History.unclosed_snoc_of_lt _ _ old, History.closes_of_enter _ found, ← running]
        simp [Entry.endFrom]
    · cases same
      refine ⟨.ofCall call, ?_, rfl, ?_⟩
      · rw [History.callsBefore_append _ (Nat.le_refl _), ← reflects.length,
          ← Ledger.length_depths]
        exact Ledger.entry_enter_last ledger call
      · simp only [Entry.ofCall, true_iff]
        exact History.unclosed_snoc_enter call

theorem exit (reflects : Reflects ledger history) (depth : Nat) (output : Bytes) :
    Reflects (ledger.exit depth output) (history ++ [.exit depth output]) := by
  have added : History.callsBefore (history ++ [.exit depth output]) (history.length + 1) =
      history.callsBefore history.length := history.callsBefore_snoc (.exit depth output)
  have found : (history ++ [Operation.exit depth output])[history.length]? =
      some (.exit depth output) := List.getElem?_concat_length
  have length : (ledger.exit depth output).length = ledger.length := by
    rw [← Ledger.length_depths, Ledger.depths_exit, Ledger.length_depths]
  refine ⟨?_, ?_⟩
  · rw [List.length_append, List.length_singleton, added, ← reflects.length, length]
  · intro first entered earlier
    have kept : first < history.length ∧ history.call? first = some entered := by
      rcases History.call?_snoc earlier with kept | ⟨_, impossible⟩
      · exact kept
      · cases impossible
    obtain ⟨old, earlier⟩ := kept
    obtain ⟨entry, stands, rfl, running⟩ := reflects.entries first entered earlier
    rw [History.callsBefore_append _ (Nat.le_of_lt old)]
    have closes := History.closes_of_exit entry.call.depth found
    rw [History.effective_append _ (Nat.le_refl _), reflects.effective_iff] at closes
    have unclosed := History.unclosed_snoc_of_lt (.exit depth output) entry.call old
    rw [closes, ← running] at unclosed
    rw [unclosed, Ledger.exit]
    by_cases runs : ledger.runsAt depth = true
    · rw [if_pos runs, List.getElem?_map, stands]
      refine ⟨(entry.answer depth output).exitFrom depth, rfl, Ledger.call_answer _ _ _, ?_⟩
      simp [Entry.exitFrom, Entry.endFrom, Ledger.running_answer, runs]
    · rw [if_neg runs]
      exact ⟨entry, stands, rfl, by simp [runs]⟩

/-- The ledger of operations reflects their history. -/
theorem ofOperations (maxDepth : Nat) (operations : List Operation) :
    Reflects (Ledger.ofOperations maxDepth operations)
      (History.ofOperations maxDepth operations) := by
  induction operations using List.reverseRecOn with
  | nil => exact empty
  | append_singleton operations operation ih =>
      rw [Ledger.ofOperations_snoc, History.ofOperations_snoc]
      cases operation with
      | enter call =>
          have answer := (Holds.ofOperations maxDepth operations).enter_eq call
          unfold remember Ledger.note
          dsimp only
          rw [answer]
          cases (Ledger.ofOperations maxDepth operations).admission maxDepth call with
          | error reason => exact ih
          | ok accepted => exact ih.enter call
      | exit depth output => exact ih.exit depth output
      | finish => exact empty
      | reset => exact empty

end Reflects

end CallTree

end EvmTrace
