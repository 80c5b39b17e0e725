import EvmTrace.Proofs.CallTree.Skeleton
import EvmTrace.Proofs.Classification
import EvmTrace.Proofs.Session.History

/-!
What exits can change of a transaction. Sessions that are asked for the same but for exits number
their calls alike, refuse the same calls, and record the same steps, logs and payments and calls of
the same skeleton. Only the outputs of calls and the calls that token transfers are attributed to
depend on exits.
-/

set_option autoImplicit false

namespace EvmTrace

/-- The transfers of native currency. -/
def payments (transfers : List Transfer) : List Transfer :=
  transfers.filter fun transfer => transfer.kind = .native

/-- A trace without the outputs of its calls and without the transfers of tokens. -/
def Trace.skeleton (trace : Trace) : Trace :=
  { trace with calls := CallTree.erased trace.calls, transfers := payments trace.transfers }

theorem payments_tokenTransfer {movement : TokenMovement} (token : movement.kind ≠ .native)
    (call : Option OpenCall) (transfers : List Transfer) :
    payments (Session.tokenTransfer movement call :: transfers) = payments transfers :=
  List.filter_cons_of_neg (by simp [Session.tokenTransfer, token])

theorem payments_payment (call : Call) (path : CallPath) (transfers : List Transfer) :
    payments (Session.payment call path :: transfers) =
      Session.payment call path :: payments transfers :=
  List.filter_cons_of_pos (by simp [Session.payment])

namespace Session

/-- Two sessions differ at most in what exits decide. -/
structure SameSkeleton (left right : Session) : Prop where
  trees : left.tree.skeleton = right.tree.skeleton
  paid : payments left.transfers = payments right.transfers
  rest : left = { right with tree := left.tree, transfers := left.transfers }

namespace SameSkeleton

variable {left right : Session}

theorem refl (session : Session) : SameSkeleton session session :=
  ⟨rfl, rfl, rfl⟩

theorem of_parts {session : Session} {tree : CallTree} {transfers : List Transfer}
    (trees : tree.skeleton = session.tree.skeleton)
    (paid : payments transfers = payments session.transfers) :
    SameSkeleton { session with tree, transfers } session :=
  ⟨trees, paid, rfl⟩

theorem parts (same : SameSkeleton left right) :
    ∃ (tree : CallTree) (transfers : List Transfer), tree.skeleton = right.tree.skeleton ∧
      payments transfers = payments right.transfers ∧ left = { right with tree, transfers } :=
  ⟨left.tree, left.transfers, same.trees, same.paid, same.rest⟩

theorem state (same : SameSkeleton left right) : left.state = right.state := by
  rw [same.rest]

theorem reset (same : SameSkeleton left right) : SameSkeleton left.reset right.reset := by
  obtain ⟨tree, transfers, trees, _, rfl⟩ := same.parts
  exact ⟨CallTree.operate_same_skeleton trees .reset, rfl, rfl⟩

theorem start (same : SameSkeleton left right) :
    left.start.1 = right.start.1 ∧ SameSkeleton left.start.2 right.start.2 := by
  obtain ⟨tree, transfers, trees, paid, rfl⟩ := same.parts
  unfold Session.start
  split
  · exact ⟨rfl, of_parts trees paid⟩
  · exact ⟨rfl, CallTree.operate_same_skeleton trees .reset, rfl, rfl⟩

theorem step (same : SameSkeleton left right) (step : Step) :
    (left.step step).1 = (right.step step).1 ∧
      SameSkeleton (left.step step).2 (right.step step).2 := by
  obtain ⟨tree, transfers, trees, paid, rfl⟩ := same.parts
  have obstacle : obstacle { right with tree, transfers } .step = right.obstacle .step := rfl
  unfold Session.step
  rw [obstacle]
  cases right.obstacle .step with
  | some e => exact ⟨rfl, of_parts trees paid⟩
  | none => exact ⟨rfl, trees, paid, rfl⟩

theorem enter (same : SameSkeleton left right) (call : Call) :
    (left.enter call).1 = (right.enter call).1 ∧
      SameSkeleton (left.enter call).2 (right.enter call).2 := by
  obtain ⟨tree, transfers, trees, paid, rfl⟩ := same.parts
  have obstacle : obstacle { right with tree, transfers } .enter = right.obstacle .enter := rfl
  unfold Session.enter
  rw [obstacle]
  cases right.obstacle .enter with
  | some e => exact ⟨rfl, of_parts trees paid⟩
  | none =>
      dsimp only
      obtain ⟨reason, refused, refused'⟩ | ⟨entered, entered', next⟩ :=
        CallTree.enter_same_skeleton trees { call with index := right.nextIndex }
      · rw [refused, refused']
        exact ⟨rfl, trees, paid, rfl⟩
      · -- A payment has the path of the call that makes it, which the ordinals tell.
        have path : currentPath (tree.place { call with index := right.nextIndex }) =
            currentPath (right.tree.place { call with index := right.nextIndex }) :=
          congrArg (fun skeleton : CallTree => skeleton.ordinals.tail) next
        rw [entered, entered']
        refine ⟨rfl, next, ?_, rfl⟩
        dsimp only
        rw [path]
        split
        · rw [payments_payment, payments_payment, paid]
        · exact paid

/-- An exit leaves a session in the skeleton that it has. -/
theorem exit (same : SameSkeleton left right) (depth : Nat) (output : Bytes) :
    SameSkeleton (left.exit depth output).2 right := by
  unfold Session.exit
  split
  · exact same
  · obtain ⟨tree, transfers, trees, paid, rfl⟩ := same.parts
    exact of_parts ((CallTree.skeleton_exit tree depth output).trans trees) paid

theorem log (same : SameSkeleton left right) (log : Log) :
    (left.log log).1 = (right.log log).1 ∧ SameSkeleton (left.log log).2 (right.log log).2 := by
  obtain ⟨tree, transfers, trees, paid, rfl⟩ := same.parts
  have obstacle : obstacle { right with tree, transfers } .log = right.obstacle .log := rfl
  unfold Session.log
  rw [obstacle]
  cases right.obstacle .log with
  | some e => exact ⟨rfl, of_parts trees paid⟩
  | none =>
      refine ⟨rfl, trees, ?_, rfl⟩
      dsimp only
      cases moves : (TokenEvent.classify log.topics log.data log.address).movement with
      | none => exact paid
      | some movement =>
          have token := TokenEvent.kind_ne_native moves
          dsimp only
          rw [payments_tokenTransfer token, payments_tokenTransfer token, paid]

theorem close (same : SameSkeleton left right) (metadata : Metadata) :
    (left.close metadata).1.map (Option.map Trace.skeleton) =
        (right.close metadata).1.map (Option.map Trace.skeleton) ∧
      SameSkeleton (left.close metadata).2 (right.close metadata).2 := by
  obtain ⟨tree, transfers, trees, paid, rfl⟩ := same.parts
  have cleared := CallTree.operate_same_skeleton trees .reset
  obtain ⟨calls, finished⟩ := CallTree.finish_same_skeleton trees
  have reversed : payments transfers.reverse = payments right.transfers.reverse := by
    simp only [payments, List.filter_reverse] at paid ⊢
    rw [paid]
  unfold Session.close
  split
  · exact ⟨rfl, of_parts trees paid⟩
  · split
    · exact ⟨rfl, cleared, rfl, rfl⟩
    · dsimp only
      split
      · exact ⟨rfl, cleared, rfl, rfl⟩
      · refine ⟨?_, finished, rfl, rfl⟩
        simp only [Except.map, Option.map_some, Trace.skeleton, calls, reversed]

end SameSkeleton

end Session

variable {World : Type}

def Request.isExit : Request World → Bool
  | .exit _ _ => true
  | _ => false

def withoutExits (requests : List (Request World)) : List (Request World) :=
  requests.filter fun request => !request.isExit

/--
The part of an answer in which exits have no say: all of it, but of a trace the skeleton only, and
nothing of the answers to exits and of what a sink made of a trace.
-/
def Exchange.skeleton? (exchange : Exchange World) : Option Answer :=
  match exchange.request, exchange.answer with
  | .exit _ _, _ => none
  | .conclude _ _, _ => none
  | _, .trace result => some (.trace (result.map (Option.map Trace.skeleton)))
  | _, answer => some answer

/-- Sessions with the same skeleton serve every request but exits alike, whatever the worlds. -/
theorem Session.SameSkeleton.serve {left right : Session} (same : SameSkeleton left right)
    (leftWorld rightWorld : World) (request : Request World) (stays : request.isExit = false) :
    (Exchange.mk request (left.serve leftWorld request).answer).skeleton? =
        (Exchange.mk request (right.serve rightWorld request).answer).skeleton? ∧
      SameSkeleton (left.serve leftWorld request).session
        (right.serve rightWorld request).session := by
  cases request with
  | start =>
      obtain ⟨answer, after⟩ := same.start
      exact ⟨congrArg (fun answer => some (Answer.done answer)) answer, after⟩
  | step step =>
      obtain ⟨answer, after⟩ := same.step step
      exact ⟨congrArg (fun answer => some (Answer.done answer)) answer, after⟩
  | enter call =>
      obtain ⟨answer, after⟩ := same.enter call
      exact ⟨congrArg (fun answer => some (Answer.index answer)) answer, after⟩
  | exit depth output => cases stays
  | log log =>
      obtain ⟨answer, after⟩ := same.log log
      exact ⟨congrArg (fun answer => some (Answer.event answer)) answer, after⟩
  | close metadata =>
      obtain ⟨answer, after⟩ := same.close metadata
      exact ⟨congrArg (fun answer => some (Answer.trace answer)) answer, after⟩
  | conclude metadata sink =>
      refine ⟨rfl, ?_⟩
      rw [serve_conclude_session, serve_conclude_session, same.state]
      split
      · exact (same.close metadata).2.reset
      · exact same
  | abort => exact ⟨rfl, same.reset⟩
  | reset => exact ⟨rfl, same.reset⟩

namespace Host

/-- Leaving out the exits changes neither the skeletons of the answers nor that of the session. -/
theorem run_withoutExits {left right : Host World} (same : left.session.SameSkeleton right.session)
    (answers : left.past.filterMap Exchange.skeleton? = right.past.filterMap Exchange.skeleton?)
    (requests : List (Request World)) :
    (left.run requests).past.filterMap Exchange.skeleton? =
        (right.run (withoutExits requests)).past.filterMap Exchange.skeleton? ∧
      (left.run requests).session.SameSkeleton (right.run (withoutExits requests)).session := by
  induction requests generalizing left right with
  | nil => exact ⟨answers, same⟩
  | cons request rest ih =>
      cases exits : request.isExit with
      | true =>
          have skipped : withoutExits (request :: rest) = withoutExits rest :=
            List.filter_cons_of_neg (by simp [exits])
          rw [skipped]
          cases request with
          | exit depth output =>
              have unseen : (left.serve (.exit depth output)).past.filterMap Exchange.skeleton? =
                  right.past.filterMap Exchange.skeleton? := by
                rw [Host.serve, List.filterMap_append, answers]
                exact List.append_nil _
              exact ih (same.exit depth output) unseen
          | _ => cases exits
      | false =>
          have kept : withoutExits (request :: rest) = request :: withoutExits rest :=
            List.filter_cons_of_pos (by simp [exits])
          rw [kept]
          obtain ⟨answer, after⟩ := same.serve left.world right.world request exits
          have seen : (left.serve request).past.filterMap Exchange.skeleton? =
              (right.serve request).past.filterMap Exchange.skeleton? := by
            simp only [Host.serve, List.filterMap_append, answers, List.filterMap_cons, answer]
          exact ih after seen

/-- Runs that differ in their exits only get the same answers, and hold the same payments. -/
theorem run_same_skeleton (config : Config) (leftWorld rightWorld : World)
    {left right : List (Request World)} (same : withoutExits left = withoutExits right) :
    ((new config leftWorld).run left).past.filterMap Exchange.skeleton? =
        ((new config rightWorld).run right).past.filterMap Exchange.skeleton? ∧
      payments ((new config leftWorld).run left).session.transfers =
        payments ((new config rightWorld).run right).session.transfers := by
  have first : ∀ world : World,
      (new config world).session.SameSkeleton (new config leftWorld).session :=
    fun _ => Session.SameSkeleton.refl (Session.new config)
  -- Both runs are compared with the run without exits of one of the two hosts.
  obtain ⟨leftAnswers, leftLast⟩ := run_withoutExits (first leftWorld) rfl left
  obtain ⟨rightAnswers, rightLast⟩ := run_withoutExits (first rightWorld) rfl right
  rw [← same] at rightAnswers rightLast
  exact ⟨leftAnswers.trans rightAnswers.symm, leftLast.paid.trans rightLast.paid.symm⟩

end Host

/--
Two runs of a tree that differ in their exits only accept and refuse the same calls, show the same
depth and the same numbers of waiting calls behind each of them, and end with the same calls up to
their outputs. Two runs of a session that differ in their exits only give the same indices to their
calls and hold the same payments; all their other answers are the same as well, up to the outputs of
calls, the transfers of tokens and what sinks make of them.
-/
theorem skeleton_does_not_depend_on_exits (maxDepth : Nat)
    (left right : List CallTree.Operation) (config : Config) (leftWorld rightWorld : World)
    (leftRequests rightRequests : List (Request World))
    (operations : CallTree.withoutExits left = CallTree.withoutExits right)
    (requests : withoutExits leftRequests = withoutExits rightRequests) :
    let leftHost := (Host.new config leftWorld).run leftRequests
    let rightHost := (Host.new config rightWorld).run rightRequests
    ((CallTree.empty maxDepth).sights left = (CallTree.empty maxDepth).sights right ∧
      CallTree.erased (CallTree.ofOperations maxDepth left).finish.1 =
        CallTree.erased (CallTree.ofOperations maxDepth right).finish.1) ∧
    leftHost.past.filterMap Exchange.skeleton? = rightHost.past.filterMap Exchange.skeleton? ∧
      payments leftHost.session.transfers = payments rightHost.session.transfers := by
  intro leftHost rightHost
  obtain ⟨sights, skeleton⟩ := (CallTree.empty maxDepth).run_same_skeleton operations
  obtain ⟨answers, sessions⟩ := Host.run_same_skeleton config leftWorld rightWorld requests
  exact ⟨⟨sights, (CallTree.finish_same_skeleton skeleton).1⟩, answers, sessions⟩

/--
Early, missing, repeated and orphan exits: the three calls, one of which is refused, and the two
payments are the same in both runs, while the calls that are open at the end are not.
-/
theorem skeleton_does_not_depend_on_early_and_missing_exits :
    let root := { Call.plain .call 0 (.zero 20) (.zero 20) with value := 7 }
    let child := { Call.plain .call 1 (.zero 20) (.zero 20) with value := 8 }
    let skipping := Call.plain .call 3 (.zero 20) (.zero 20)
    let left : List CallTree.Operation :=
      [.exit 0 [1], .enter root, .exit 0 [2], .exit 0 [3], .enter child, .exit 9 [4],
        .enter skipping]
    let right : List CallTree.Operation :=
      [.enter root, .enter child, .exit 1 [5], .enter skipping, .exit 0 [6]]
    let requests := fun operations : List CallTree.Operation =>
      (.start : Request Unit) :: operations.filterMap fun
        | .enter call => some (.enter call)
        | .exit depth output => some (.exit depth output)
        | _ => none
    let leftHost := (Host.new {} ()).run (requests left)
    let rightHost := (Host.new {} ()).run (requests right)
    (CallTree.withoutExits left = CallTree.withoutExits right ∧
      withoutExits (requests left) = withoutExits (requests right)) ∧
    (CallTree.ofOperations 16 left).openCalls ≠ (CallTree.ofOperations 16 right).openCalls ∧
    CallTree.erased (CallTree.ofOperations 16 left).finish.1 =
      CallTree.erased (CallTree.ofOperations 16 right).finish.1 ∧
    (payments leftHost.session.transfers).map Transfer.value = [8, 7] ∧
    payments leftHost.session.transfers = payments rightHost.session.transfers := by
  intro root child skipping left right requests leftHost rightHost
  have operations : CallTree.withoutExits left = CallTree.withoutExits right := rfl
  have requested : withoutExits (requests left) = withoutExits (requests right) := rfl
  obtain ⟨⟨_, same⟩, _, paid⟩ :=
    skeleton_does_not_depend_on_exits 16 left right {} () () (requests left) (requests right)
      operations requested
  exact ⟨⟨operations, requested⟩, by decide +kernel, same, by decide +kernel, paid⟩

end EvmTrace
