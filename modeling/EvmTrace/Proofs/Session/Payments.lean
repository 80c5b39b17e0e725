import EvmTrace.Proofs.Session.Course
import EvmTrace.Proofs.Session.Exits

set_option autoImplicit false

namespace EvmTrace

/-- A kind of call moves its value unless it repeats that of another call or has none. -/
theorem CallKind.movesValue_iff (kind : CallKind) :
    kind.movesValue = true ↔ kind ≠ .delegateCall ∧ kind ≠ .staticCall := by
  cases kind <;> decide

/-- The transfer of native currency that a call makes, if it pays. -/
def PlacedCall.payment? (placed : PlacedCall) : Option Transfer :=
  let call := placed.call
  if call.value ≠ 0 ∧ call.kind ≠ .delegateCall ∧ call.kind ≠ .staticCall then
    some
      { sender := call.sender, recipient := call.recipient, token := none, value := call.value
        depth := call.depth, callIndex := call.index, path := placed.path, kind := .native }
  else none

namespace Config

/-- The transfers of native currency that calls make, if they are recorded at all. -/
def paymentsOf (config : Config) (calls : List PlacedCall) : List Transfer :=
  if config.nativeTransfers then calls.filterMap PlacedCall.payment? else []

/-- Only what a call pays decides what the calls pay. -/
theorem paymentsOf_congr (config : Config) {left right : List PlacedCall}
    (same : left.map PlacedCall.payment? = right.map PlacedCall.payment?) :
    config.paymentsOf left = config.paymentsOf right := by
  have kept : ∀ calls : List PlacedCall,
      calls.filterMap PlacedCall.payment? = (calls.map PlacedCall.payment?).filterMap id := by
    intro calls
    rw [List.filterMap_map]
    rfl
  rw [paymentsOf, paymentsOf, kept, kept, same]

theorem paymentsOf_snoc_of_pays {config : Config} {placed : PlacedCall}
    (paying : Session.pays config placed.call = true) (calls : List PlacedCall) :
    config.paymentsOf (calls ++ [placed]) =
      config.paymentsOf calls ++ [Session.payment placed.call placed.path] := by
  obtain ⟨recorded, valued, moves⟩ := (Session.pays_iff config placed.call).mp paying
  have paid : placed.payment? = some (Session.payment placed.call placed.path) :=
    if_pos ⟨valued, placed.call.kind.movesValue_iff.mp moves⟩
  rw [paymentsOf, paymentsOf, if_pos recorded, if_pos recorded, List.filterMap_append,
    List.filterMap_cons_some paid, List.filterMap_nil]

theorem paymentsOf_snoc_of_not_pays {config : Config} {placed : PlacedCall}
    (free : ¬Session.pays config placed.call = true) (calls : List PlacedCall) :
    config.paymentsOf (calls ++ [placed]) = config.paymentsOf calls := by
  unfold paymentsOf
  split
  · rename_i recorded
    have unpaid : placed.payment? = none := by
      apply if_neg
      rintro ⟨valued, moves⟩
      exact free ((Session.pays_iff config placed.call).mpr
        ⟨recorded, valued, placed.call.kind.movesValue_iff.mpr moves⟩)
    rw [List.filterMap_append, List.filterMap_cons_none unpaid, List.filterMap_nil, List.append_nil]
  · rfl

end Config

/-- The payments are those of the calls whatever an event does. -/
theorem Session.Midway.payments_advance {config : Config} {before after : Session}
    (midway : Midway config before) (advance : before.Advance after)
    (paid : payments before.transfers = (config.paymentsOf before.tree.branch.calls).reverse) :
    payments after.transfers = (config.paymentsOf after.tree.branch.calls).reverse := by
  cases advance with
  | idle steps taint => exact paid
  | exit depth output =>
      obtain ⟨ledger, holds⟩ := midway.holds
      have same := holds.map_calls_exit PlacedCall.payment? (fun _ _ => rfl) depth output
      rw [config.paymentsOf_congr same]
      exact paid
  | log emitted =>
      cases moves :
        (TokenEvent.classify emitted.topics emitted.data emitted.address).movement with
      | none =>
          rw [transfers_logged_of_none moves]
          exact paid
      | some movement =>
          rw [transfers_logged_of_some moves,
            payments_tokenTransfer (TokenEvent.kind_ne_native moves)]
          exact paid
  | enter call accepted =>
      have same : pays config (before.tree.branch.placed (before.indexed call)).call =
          pays config call := rfl
      rw [midway.calls_entered call accepted, entered, midway.configured]
      dsimp only
      by_cases paying : pays config call = true
      · rw [if_pos paying, payments_payment, paid,
          Config.paymentsOf_snoc_of_pays (same.trans paying), List.reverse_append]
        rfl
      · rw [if_neg paying, Config.paymentsOf_snoc_of_not_pays (same ▸ paying)]
        exact paid

theorem Session.payments_started (config : Config) :
    payments (started config).transfers =
      (config.paymentsOf (started config).tree.branch.calls).reverse := by
  unfold Config.paymentsOf
  split <;> rfl

theorem Session.Midway.payments_draft {config : Config} {session : Session}
    (midway : Midway config session)
    (paid : payments session.transfers = (config.paymentsOf session.tree.branch.calls).reverse)
    (metadata : Metadata) :
    payments (session.draft metadata).transfers =
      config.paymentsOf (session.draft metadata).calls := by
  rw [midway.draft_calls, ← List.reverse_reverse (config.paymentsOf _), ← paid]
  exact List.filter_reverse

namespace Host

/--
The transfers of native currency in a trace are, in the order of the calls, those of the calls that
have a value and are neither delegate calls nor static calls; they have the parties, the value, the
depth, the index and the path of their calls. There are none if they are not to be recorded.
-/
theorem payments_are_those_of_calls {World : Type} {config : Config} {world : World}
    {requests : List (Request World)} {metadata : Metadata} {trace : Trace}
    (closed : (((new config world).run requests).session.close metadata).1 = .ok (some trace)) :
    payments trace.transfers = config.paymentsOf trace.calls := by
  obtain ⟨session, midway, paid, rfl⟩ :=
    trace_of_close closed (Session.payments_started config)
      fun _ _ => Session.Midway.payments_advance
  exact midway.payments_draft paid metadata

/-- Of five calls with a value the delegate call and the static call do not pay. -/
theorem payments_of_five_calls :
    let called := fun (kind : CallKind) (depth : Nat) (value : Word) =>
      { Call.plain kind depth (.zero 20) (.zero 20) with value }
    let step : Step := { pc := 0, depth := 1, opcode := "CALL", gas := 9, cost := 1, output := "" }
    let requests : List (Request Unit) :=
      [.start, .enter (called .call 0 5), .step step, .enter (called .delegateCall 1 5),
        .enter (called .create 2 6), .enter (called .call 1 0), .exit 0 [],
        .enter (called .staticCall 1 7), .enter (called .selfDestruct 1 8)]
    let metadata : Metadata :=
      { block := 0, hash := .zero 32, sender := .zero 20, recipient := none, value := 5
        gasPrice := 0, gasUsed := 0 }
    let session := ((new {} ()).run requests).session
    ∃ trace, (session.close metadata).1 = .ok (some trace) ∧
      (trace.transfers.map fun transfer => (transfer.value, transfer.callIndex, transfer.path)) =
        [(5, 0, []), (6, 2, [1, 1]), (8, 5, [4])] ∧
      payments trace.transfers = ({} : Config).paymentsOf trace.calls := by
  intro called step requests metadata session
  have closed : (session.close metadata).1 = .ok (some (session.draft metadata)) :=
    Session.close_eq_trace_iff.mpr
      ⟨by decide +kernel, by decide +kernel, by decide +kernel, rfl⟩
  exact ⟨session.draft metadata, closed, by decide +kernel, payments_are_those_of_calls closed⟩

end Host

end EvmTrace
