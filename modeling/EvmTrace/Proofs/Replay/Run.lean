import EvmTrace.Proofs.Recording.Readable
import EvmTrace.Proofs.Replay.Tracing
import Mathlib.Data.List.Forall2

set_option autoImplicit false

namespace EvmTrace

namespace Outcome

def isWritten : Outcome → Bool
  | .written _ => true
  | _ => false

def isSkipped : Outcome → Bool
  | .skipped => true
  | _ => false

def isDiscarded : Outcome → Bool
  | .discarded _ => true
  | _ => false

def isFailed : Outcome → Bool
  | .failed _ => true
  | _ => false

/-- Whether a trace was taken in which a token moved. -/
def movesTokens : Outcome → Bool
  | .written summary => summary.movesTokens
  | _ => false

end Outcome

def Trace.movesTokens (trace : Trace) : Bool :=
  trace.transfers.any fun transfer => transfer.kind = .erc20 ∨ transfer.kind = .erc721

theorem Summary.movesTokens_ofTrace (trace : Trace) :
    (Summary.ofTrace trace).movesTokens = trace.movesTokens := by
  rw [Bool.eq_iff_iff]
  simp only [movesTokens, ofTrace, countTransfers, Trace.movesTokens, decide_eq_true_eq,
    List.any_eq_true, Nat.add_pos_iff_pos_or_pos, List.countP_pos_iff]
  constructor
  · rintro (⟨transfer, inside, kind⟩ | ⟨transfer, inside, kind⟩)
    · exact ⟨transfer, inside, .inl kind⟩
    · exact ⟨transfer, inside, .inr kind⟩
  · rintro ⟨transfer, inside, kind | kind⟩
    · exact .inl ⟨transfer, inside, kind⟩
    · exact .inr ⟨transfer, inside, kind⟩

namespace Replay

theorem Report.foldl_count (ends : List Outcome) (report : Report) :
    ends.foldl Report.count report =
      { written := report.written + ends.countP Outcome.isWritten
        skipped := report.skipped + ends.countP Outcome.isSkipped
        discarded := report.discarded + ends.countP Outcome.isDiscarded
        failed := report.failed + ends.countP Outcome.isFailed
        withTokens := report.withTokens + ends.countP Outcome.movesTokens } := by
  induction ends generalizing report with
  | nil => rfl
  | cons outcome rest ih =>
      rw [List.foldl_cons, ih, Report.mk.injEq]
      simp only [List.countP_cons, ← Nat.add_assoc, Nat.add_right_comm _ (List.countP _ rest)]
      cases outcome <;> exact ⟨rfl, rfl, rfl, rfl, rfl⟩

/-- Every transaction comes to one end. -/
theorem length_eq_countP (ends : List Outcome) :
    ends.length = ends.countP Outcome.isWritten + ends.countP Outcome.isSkipped +
      ends.countP Outcome.isDiscarded + ends.countP Outcome.isFailed := by
  induction ends with
  | nil => rfl
  | cons outcome rest ih =>
      have single : (if outcome.isWritten = true then 1 else 0) +
          (if outcome.isSkipped = true then 1 else 0) +
          (if outcome.isDiscarded = true then 1 else 0) +
          (if outcome.isFailed = true then 1 else 0) = 1 := by
        cases outcome <;> rfl
      simp only [List.length_cons, List.countP_cons, ih]
      omega

section Transactions

variable {m : Type → Type} [Monad m] [LawfulMonad m]

/-- What a sink makes of transactions, each traced with a new session. -/
def receiveAll (config : Config) (sink : Sink m) (transactions : List Transaction) :
    m (List Outcome) :=
  transactions.mapM fun transaction => sink.receive (Session.closing config transaction)

theorem receiveAll_cons (config : Config) (sink : Sink m) (transaction : Transaction)
    (rest : List Transaction) :
    receiveAll config sink (transaction :: rest) = (do
      let outcome ← sink.receive (Session.closing config transaction)
      let others ← receiveAll config sink rest
      pure (outcome :: others)) :=
  List.mapM_cons

/-- Each transaction is replayed as with a new session, and the run goes on to the last one. -/
theorem replayAll_eq_receiveAll (options : Options) (sink : Sink m) {session : Session}
    (sound : Session.Sound options.config session) (inactive : session.state ≠ .active)
    (result : Result) (transactions : List Transaction) :
    ∃ shown : List Outcome → String,
      replayAll options sink session result transactions =
        (fun ends => .ok { report := ends.foldl Report.count result.report, shown := shown ends }) <$>
          receiveAll options.config sink transactions := by
  induction transactions generalizing session result with
  | nil => exact ⟨fun _ => result.shown, by simp [replayAll, receiveAll]⟩
  | cons transaction rest ih =>
      obtain ⟨after, kept, idle, replayed⟩ := sound.replay inactive transaction sink
      have still : after.state ≠ .active := by
        rw [idle]
        exact Session.State.noConfusion
      choose shown later using fun outcome => ih kept still
        { report := result.report.count outcome
          shown := result.shown ++ shownOf options session transaction outcome }
      refine ⟨fun ends => ends.head?.elim "" fun outcome => shown outcome ends.tail, ?_⟩
      rw [replayAll, replayed, bind_map_left, receiveAll_cons, map_bind]
      refine bind_congr fun outcome => ?_
      dsimp only
      rw [later, map_bind]
      simp only [map_pure]
      exact map_eq_pure_bind _ _

/-- Each transaction that is replayed with a new session comes to its end. -/
theorem mapM_replay_new (config : Config) (sink : Sink m) (transactions : List Transaction) :
    (transactions.mapM fun transaction =>
        Prod.fst <$> (Session.new config).replay transaction sink) =
      List.map .ok <$> receiveAll config sink transactions := by
  induction transactions with
  | nil => simp [receiveAll]
  | cons transaction rest ih =>
      rw [List.mapM_cons, ih, Session.answer_replay_new, bind_map_left, receiveAll_cons,
        map_bind]
      refine bind_congr fun outcome => ?_
      rw [bind_map_left, map_bind]
      simp only [map_pure, List.map_cons]

end Transactions

section Run

variable {now : StateM FileTree String} {options : Options} {tree : FileTree}

theorem run_of_unread {reason : Recording.Error}
    (unread : ((Recording.load options.input : StateM FileTree _) tree).1 = .error reason) :
    run now options tree = (.error (.unreadable options.input reason), tree) := by
  rw [run, FileTree.bind_apply, Recording.load_apply] at *
  rw [unread]
  rfl

theorem run_of_read {transactions : List Transaction} {ends : List Outcome} {after : FileTree}
    (read : ((Recording.load options.input : StateM FileTree _) tree).1 = .ok transactions)
    (received : receiveAll options.config (sinkOf now options) transactions tree = (ends, after)) :
    ∃ result, result.report =
        { written := ends.countP Outcome.isWritten
          skipped := ends.countP Outcome.isSkipped
          discarded := ends.countP Outcome.isDiscarded
          failed := ends.countP Outcome.isFailed
          withTokens := ends.countP Outcome.movesTokens } ∧
      run now options tree = (.ok result, after) := by
  obtain ⟨shown, replayed⟩ := replayAll_eq_receiveAll options (sinkOf now options)
    (Session.sound_new options.config) Session.State.noConfusion ⟨{}, ""⟩ transactions
  rw [Recording.load_apply] at read
  rw [run, FileTree.bind_apply, Recording.load_apply, read]
  dsimp only
  rw [FileTree.bind_apply, replayed, FileTree.map_apply, received]
  refine ⟨_, ?_, rfl⟩
  rw [Report.foldl_count]
  simp only [Nat.zero_add]

/-- A sink that takes a trace answers whether a token moves in it. -/
theorem movesTokens_receive (config : Config) (sink : Sink (StateM FileTree))
    (transaction : Transaction) (tree : FileTree) :
    let outcome := (sink.receive (Session.closing config transaction) tree).1
    outcome.movesTokens =
      (outcome.isWritten && (Session.traced? config transaction).any Trace.movesTokens) := by
  intro outcome
  rcases Session.closing_cases config transaction with ⟨trace, _, closed⟩ | closed | closed
  · have traced := (Session.traced?_eq_some_iff config transaction trace).mpr closed
    simp only [outcome, closed, traced, Option.any_some, Sink.receive, Sink.deliver,
      FileTree.bind_apply]
    cases (sink.write trace tree).1 with
    | ok done =>
        exact (Summary.movesTokens_ofTrace trace).trans (Bool.true_and _).symm
    | error reason => rfl
  · simp only [outcome, closed]
    rfl
  · simp only [outcome, closed]
    rfl

theorem forall₂_receiveAll (config : Config) (sink : Sink (StateM FileTree))
    (transactions : List Transaction) (tree : FileTree) :
    List.Forall₂ (fun transaction outcome => outcome.movesTokens =
        (outcome.isWritten && (Session.traced? config transaction).any Trace.movesTokens))
      transactions (receiveAll config sink transactions tree).1 := by
  induction transactions generalizing tree with
  | nil => exact .nil
  | cons transaction rest ih =>
      rw [receiveAll_cons]
      exact .cons (movesTokens_receive config sink transaction tree) (ih _)

theorem countP_movesTokens {config : Config} {transactions : List Transaction}
    {ends : List Outcome}
    (ended : List.Forall₂ (fun transaction outcome => outcome.movesTokens =
        (outcome.isWritten && (Session.traced? config transaction).any Trace.movesTokens))
      transactions ends) :
    ends.countP Outcome.movesTokens = (transactions.zip ends).countP fun (transaction, outcome) =>
      outcome.isWritten && (Session.traced? config transaction).any Trace.movesTokens := by
  induction ended with
  | nil => rfl
  | cons moves _ ih => rw [List.countP_cons, List.zip_cons_cons, List.countP_cons, ih, moves]

end Run

/--
A run fails if its recording is not read, which is so if there is no such file, if the file holds no
text or no JSON, or if it holds anything else than transactions all of whose events are read; and it
fails only then, with every file and directory as it was. Otherwise each transaction comes to the end
that it has when it is replayed with a new session, each on what the ones before it have left, and
the report counts these ends, whether or not the sink took the traces.
-/
theorem run_fails_only_on_unread_recording (now : StateM FileTree String) (options : Options)
    (tree : FileTree) :
    let loaded := ((Recording.load options.input : StateM FileTree _) tree).1
    ((∃ transactions, loaded = .ok transactions) ↔ Recording.Readable tree options.input) ∧
      match loaded with
      | .error reason => run now options tree = (.error (.unreadable options.input reason), tree)
      | .ok transactions =>
        ∃ ends result after, run now options tree = (.ok result, after) ∧
          (transactions.mapM fun transaction =>
            Prod.fst <$> (Session.new options.config).replay transaction (sinkOf now options))
              tree = (ends.map .ok, after) ∧
          result.report =
            { written := ends.countP Outcome.isWritten
              skipped := ends.countP Outcome.isSkipped
              discarded := ends.countP Outcome.isDiscarded
              failed := ends.countP Outcome.isFailed
              withTokens := (transactions.zip ends).countP fun (transaction, outcome) =>
                outcome.isWritten &&
                  (Session.traced? options.config transaction).any Trace.movesTokens } ∧
          result.report.total = transactions.length ∧
          result.report.withTokens ≤ result.report.written := by
  intro loaded
  refine ⟨Recording.exists_load_iff options.input tree, ?_⟩
  cases read : loaded with
  | error reason => exact run_of_unread read
  | ok transactions =>
      have ended := forall₂_receiveAll options.config (sinkOf now options) transactions tree
      have alone := congrFun (mapM_replay_new options.config (sinkOf now options) transactions) tree
      obtain ⟨ends, after, received⟩ : ∃ ends after,
          receiveAll options.config (sinkOf now options) transactions tree = (ends, after) :=
        ⟨_, _, rfl⟩
      rw [FileTree.map_apply, received] at alone
      rw [received] at ended
      obtain ⟨result, report, ran⟩ := run_of_read read received
      refine ⟨ends, result, after, ran, alone, ?_, ?_, ?_⟩
      · rw [report, countP_movesTokens ended]
      · rw [report, ended.length_eq, length_eq_countP, Report.total]
      · rw [report]
        refine List.countP_mono_left fun outcome _ moves => ?_
        cases outcome with
        | written summary => rfl
        | _ => cases moves

end Replay

end EvmTrace
