import EvmTrace.Proofs.Session.Payments
import EvmTrace.Proofs.Session.TokenTransfers
import Mathlib.Algebra.Ring.Nat
import Mathlib.Data.List.Induction
import Mathlib.Data.String.Basic

/-!
What the numbers of a trace account for. Whatever a trace holds, each call is counted once under the
name of its kind, each transfer once under its own kind. The streams of a trace that a session closes
belong together, so there the transfers of tokens are as many as the logs that report them, and the
payments as many as the calls that pay.
-/

set_option autoImplicit false

namespace EvmTrace

theorem CallKind.name_injective : Function.Injective CallKind.name := by
  intro left right same
  cases left <;> cases right <;> first | rfl | exact absurd same (by decide)

namespace Summary

/-- What the entries of a name come to. -/
def numberOf (name : String) : List (String × Nat) → Nat
  | [] => 0
  | (other, count) :: rest => (if other = name then count else 0) + numberOf name rest

/-- The names stand in their order, each of them once. -/
def Ordered (counts : List (String × Nat)) : Prop :=
  (counts.map Prod.fst).Pairwise (· < ·)

variable {name other : String} {count : Nat} {counts : List (String × Nat)}

theorem numberOf_tally (name other : String) (counts : List (String × Nat)) :
    numberOf other (tally name counts) =
      numberOf other counts + if name = other then 1 else 0 := by
  induction counts with
  | nil => simp [tally, numberOf]
  | cons entry rest ih =>
      obtain ⟨key, number⟩ := entry
      unfold tally
      split
      · simp only [numberOf]
        omega
      · split
        · rename_i same
          subst same
          simp only [numberOf]
          split <;> omega
        · simp only [numberOf, ih]
          omega

theorem mem_names_tally : other ∈ (tally name counts).map Prod.fst ↔
    other = name ∨ other ∈ counts.map Prod.fst := by
  induction counts with
  | nil => simp [tally]
  | cons entry rest ih =>
      obtain ⟨key, number⟩ := entry
      unfold tally
      split
      · simp
      · split
        · rename_i same
          subst same
          simp
        · simp only [List.map_cons, List.mem_cons, ih]
          exact or_left_comm

theorem ordered_tally (ordered : Ordered counts) : Ordered (tally name counts) := by
  unfold Ordered at ordered ⊢
  induction counts with
  | nil => exact List.pairwise_singleton _ _
  | cons entry rest ih =>
      obtain ⟨key, number⟩ := entry
      rw [List.map_cons, List.pairwise_cons] at ordered
      obtain ⟨least, ordered⟩ := ordered
      unfold tally
      split
      · rename_i before
        simp only [List.map_cons, List.pairwise_cons, List.mem_cons]
        refine ⟨?_, least, ordered⟩
        rintro other (rfl | later)
        · exact before
        · exact before.trans (least other later)
      · rename_i not_before
        split
        · exact List.pairwise_cons.mpr ⟨least, ordered⟩
        · rename_i different
          refine List.pairwise_cons.mpr ⟨?_, ih ordered⟩
          intro other inside
          rcases mem_names_tally.mp inside with rfl | later
          · exact lt_of_le_of_ne (not_lt.mp not_before) (Ne.symm different)
          · exact least other later

theorem pos_tally (positive : ∀ entry ∈ counts, 0 < entry.2) :
    ∀ entry ∈ tally name counts, 0 < entry.2 := by
  induction counts with
  | nil => simp [tally]
  | cons entry rest ih =>
      obtain ⟨key, number⟩ := entry
      obtain ⟨here, later⟩ := List.forall_mem_cons.mp positive
      unfold tally
      split
      · exact List.forall_mem_cons.mpr ⟨Nat.one_pos, positive⟩
      · split
        · exact List.forall_mem_cons.mpr ⟨Nat.succ_pos number, later⟩
        · exact List.forall_mem_cons.mpr ⟨here, ih later⟩

theorem sum_tally (name : String) (counts : List (String × Nat)) :
    ((tally name counts).map Prod.snd).sum = (counts.map Prod.snd).sum + 1 := by
  induction counts with
  | nil => rfl
  | cons entry rest ih =>
      obtain ⟨key, number⟩ := entry
      unfold tally
      split
      · simp only [List.map_cons, List.sum_cons]
        omega
      · split
        · simp only [List.map_cons, List.sum_cons]
          omega
        · simp only [List.map_cons, List.sum_cons, ih]
          omega

theorem numberOf_eq_zero (absent : name ∉ counts.map Prod.fst) : numberOf name counts = 0 := by
  induction counts with
  | nil => rfl
  | cons entry rest ih =>
      obtain ⟨key, number⟩ := entry
      simp only [List.map_cons, List.mem_cons, not_or] at absent
      rw [numberOf, if_neg (Ne.symm absent.1), ih absent.2]

/-- A name that stands once has its number for an entry. -/
theorem mem_iff_numberOf (ordered : Ordered counts) (positive : ∀ entry ∈ counts, 0 < entry.2) :
    (name, count) ∈ counts ↔ 0 < count ∧ numberOf name counts = count := by
  unfold Ordered at ordered
  induction counts with
  | nil =>
      simp only [List.not_mem_nil, numberOf, false_iff]
      omega
  | cons entry rest ih =>
      obtain ⟨key, number⟩ := entry
      rw [List.map_cons, List.pairwise_cons] at ordered
      obtain ⟨here, later⟩ := List.forall_mem_cons.mp positive
      by_cases same : key = name
      · subst same
        have once : key ∉ rest.map Prod.fst := fun again => lt_irrefl _ (ordered.1 key again)
        have unlisted : (key, count) ∉ rest := fun again =>
          once (List.mem_map_of_mem again)
        simp only [List.mem_cons, Prod.mk.injEq, true_and, unlisted, or_false, numberOf, if_true,
          numberOf_eq_zero once]
        constructor
        · rintro rfl
          exact ⟨here, rfl⟩
        · rintro ⟨_, rfl⟩
          rfl
      · have different : (name, count) ≠ (key, number) := fun equal =>
          same (congrArg Prod.fst equal).symm
        rw [List.mem_cons, or_iff_right different, ih ordered.2 later, numberOf, if_neg same,
          Nat.zero_add]

theorem countKinds_snoc (calls : List PlacedCall) (placed : PlacedCall) :
    countKinds (calls ++ [placed]) = tally placed.call.kind.name (countKinds calls) :=
  List.foldl_append

theorem ordered_countKinds (calls : List PlacedCall) : Ordered (countKinds calls) := by
  induction calls using List.reverseRecOn with
  | nil => exact .nil
  | append_singleton calls placed ih =>
      rw [countKinds_snoc]
      exact ordered_tally ih

theorem pos_countKinds (calls : List PlacedCall) : ∀ entry ∈ countKinds calls, 0 < entry.2 := by
  induction calls using List.reverseRecOn with
  | nil => exact List.forall_mem_nil _
  | append_singleton calls placed ih =>
      rw [countKinds_snoc]
      exact pos_tally ih

theorem sum_countKinds (calls : List PlacedCall) :
    ((countKinds calls).map Prod.snd).sum = calls.length := by
  induction calls using List.reverseRecOn with
  | nil => rfl
  | append_singleton calls placed ih =>
      rw [countKinds_snoc, sum_tally, ih, List.length_append, List.length_singleton]

theorem numberOf_countKinds (name : String) (calls : List PlacedCall) :
    numberOf name (countKinds calls) =
      calls.countP fun placed => placed.call.kind.name = name := by
  induction calls using List.reverseRecOn with
  | nil => rfl
  | append_singleton calls placed ih =>
      rw [countKinds_snoc, numberOf_tally, ih, List.countP_append, List.countP_singleton]
      simp only [decide_eq_true_eq]

/-- The entries are those of the kinds that occur. -/
theorem mem_countKinds (calls : List PlacedCall) (name : String) (count : Nat) :
    (name, count) ∈ countKinds calls ↔
      ∃ placed ∈ calls, placed.call.kind.name = name ∧
        count = calls.countP fun other => other.call.kind = placed.call.kind := by
  rw [mem_iff_numberOf (ordered_countKinds calls) (pos_countKinds calls), numberOf_countKinds]
  have same : ∀ kind : CallKind, (calls.countP fun other => other.call.kind.name = kind.name) =
      calls.countP fun other => other.call.kind = kind := by
    intro kind
    simp only [CallKind.name_injective.eq_iff]
  constructor
  · rintro ⟨positive, rfl⟩
    obtain ⟨placed, inside, named⟩ := List.countP_pos_iff.mp positive
    have named : placed.call.kind.name = name := of_decide_eq_true named
    exact ⟨placed, inside, named, by rw [← same, named]⟩
  · rintro ⟨placed, inside, rfl, rfl⟩
    rw [same]
    exact ⟨List.countP_pos_iff.mpr ⟨placed, inside, decide_eq_true rfl⟩, rfl⟩

theorem greatestDepth_snoc (calls : List PlacedCall) (placed : PlacedCall) :
    greatestDepth (calls ++ [placed]) = max (greatestDepth calls) placed.call.depth :=
  List.foldl_append

theorem le_greatestDepth {calls : List PlacedCall} {placed : PlacedCall} (inside : placed ∈ calls) :
    placed.call.depth ≤ greatestDepth calls := by
  induction calls using List.reverseRecOn with
  | nil => cases inside
  | append_singleton calls last ih =>
      rw [greatestDepth_snoc]
      rcases List.mem_append.mp inside with earlier | final
      · exact (ih earlier).trans (le_max_left _ _)
      · rw [List.mem_singleton.mp final]
        exact le_max_right _ _

/-- The greatest depth is that of a call, unless there is none. -/
theorem greatestDepth_attained (calls : List PlacedCall) :
    calls = [] ∧ greatestDepth calls = 0 ∨
      ∃ placed ∈ calls, placed.call.depth = greatestDepth calls := by
  induction calls using List.reverseRecOn with
  | nil => exact .inl ⟨rfl, rfl⟩
  | append_singleton calls last ih =>
      refine .inr ?_
      rw [greatestDepth_snoc]
      rcases le_total (greatestDepth calls) last.call.depth with deeper | shallower
      · exact ⟨last, List.mem_append_right _ (List.mem_singleton_self last),
          (max_eq_right deeper).symm⟩
      · rw [max_eq_left shallower]
        rcases ih with ⟨rfl, zero⟩ | ⟨placed, inside, depth⟩
        · rw [zero, Nat.le_zero] at shallower
          exact ⟨last, List.mem_singleton_self last, shallower.trans zero.symm⟩
        · exact ⟨placed, List.mem_append_left _ inside, depth⟩

theorem length_payments (transfers : List Transfer) :
    (payments transfers).length = countTransfers transfers .native :=
  List.countP_eq_length_filter.symm

theorem length_tokenTransfers (transfers : List Transfer) :
    (tokenTransfers transfers).length =
      countTransfers transfers .erc20 + countTransfers transfers .erc721 := by
  rw [tokenTransfers, ← List.countP_eq_length_filter, countTransfers, countTransfers]
  induction transfers with
  | nil => rfl
  | cons transfer rest ih =>
      rw [List.countP_cons, List.countP_cons, List.countP_cons, ih]
      cases transfer.kind with
      | native => simp
      | erc20 => simp [Nat.add_right_comm]
      | erc721 => simp [Nat.add_assoc]

/-- Each transfer is one of native currency or one of a token. -/
theorem length_transfers (transfers : List Transfer) :
    (payments transfers).length + (tokenTransfers transfers).length = transfers.length := by
  rw [payments, tokenTransfers, ← List.countP_eq_length_filter, ← List.countP_eq_length_filter,
    List.length_eq_countP_add_countP fun transfer : Transfer => transfer.kind = .native]
  simp only [decide_eq_true_eq]

/--
The numbers of a trace account for its entries. The calls are listed by the names of the kinds that
occur, in the order of the names, and all calls are listed; the kinds of transfers come to all
transfers.
-/
structure Accounts (summary : Summary) (trace : Trace) : Prop where
  ordered : Ordered summary.callsByKind
  listed : ∀ name count, (name, count) ∈ summary.callsByKind ↔
    ∃ placed ∈ trace.calls, placed.call.kind.name = name ∧
      count = trace.calls.countP fun other => other.call.kind = placed.call.kind
  total : (summary.callsByKind.map Prod.snd).sum = summary.calls
  calls : summary.calls = trace.calls.length
  transfers : summary.native + summary.erc20 + summary.erc721 = trace.transfers.length
  deepest : ∀ placed ∈ trace.calls, placed.call.depth ≤ summary.maxDepth
  attained : trace.calls = [] ∧ summary.maxDepth = 0 ∨
    ∃ placed ∈ trace.calls, placed.call.depth = summary.maxDepth
  recognised : summary.recognised ≤ summary.logs

theorem accounts_ofTrace (trace : Trace) : (ofTrace trace).Accounts trace where
  ordered := ordered_countKinds trace.calls
  listed := mem_countKinds trace.calls
  total := sum_countKinds trace.calls
  calls := rfl
  transfers := by
    rw [← length_transfers, length_payments, length_tokenTransfers, ← Nat.add_assoc]
    rfl
  deepest := fun _ => le_greatestDepth
  attained := greatestDepth_attained trace.calls
  recognised := List.countP_le_length

end Summary

/-- The kind of the transfers of tokens of a standard. -/
def TokenStandard.transferKind : TokenStandard → TransferKind
  | erc20 => .erc20
  | erc721 => .erc721

theorem TokenStandard.transferKind_ne_native (standard : TokenStandard) :
    standard.transferKind ≠ .native := by
  cases standard <;> decide

theorem Transfer.Reports.kind_iff {transfer : Transfer} {log : TaggedLog}
    (reports : transfer.Reports log) (standard : TokenStandard) :
    transfer.kind = standard.transferKind ↔ log.standard = some standard := by
  rcases reports.value with ⟨moved, told, _⟩ | ⟨moved, told, _⟩ <;> cases standard <;>
    simp [moved, told, TokenStandard.transferKind]

/-- As many tokens of one standard move as logs of that standard report it. -/
theorem Summary.countTransfers_of_reports {transfers : List Transfer} {logs : List TaggedLog}
    (reports : List.Forall₂ Transfer.Reports (tokenTransfers transfers) (transferLogs logs))
    (standard : TokenStandard) :
    countTransfers transfers standard.transferKind =
      logs.countP fun log => log.standard = some standard ∧ log.function = some .transfer := by
  have paired : List.Forall₂ Transfer.Reports
      ((tokenTransfers transfers).filter fun transfer => transfer.kind = standard.transferKind)
      ((transferLogs logs).filter fun log => log.standard = some standard) :=
    List.rel_filter (fun _ _ told => by simpa using told.kind_iff standard) reports
  rw [← countTransfers_tokenTransfers standard.transferKind_ne_native, countTransfers,
    List.countP_eq_length_filter, paired.length_eq, ← List.countP_eq_length_filter, transferLogs,
    List.countP_filter]
  simp only [Bool.decide_and]

/-- The payments are as many as the calls that pay, or none if they are not recorded. -/
theorem Config.length_paymentsOf (config : Config) (calls : List PlacedCall) :
    (config.paymentsOf calls).length =
      if config.nativeTransfers then
        calls.countP fun placed => placed.call.value ≠ 0 ∧ placed.call.kind.movesValue
      else 0 := by
  unfold paymentsOf
  split
  · rw [List.length_filterMap_eq_countP]
    apply List.countP_congr
    intro placed _
    have paid : placed.payment?.isSome = true ↔
        placed.call.value ≠ 0 ∧ placed.call.kind.movesValue = true := by
      rw [placed.call.kind.movesValue_iff, PlacedCall.payment?]
      split
      · rename_i pays
        exact iff_of_true rfl pays
      · rename_i free
        exact iff_of_false Bool.false_ne_true free
    rw [paid, decide_eq_true_iff]
  · rfl

/-- A token moves if a log of a trace reports it. -/
theorem Summary.movesTokens_iff_of_reports {trace : Trace}
    (reports : List.Forall₂ Transfer.Reports (tokenTransfers trace.transfers)
      (transferLogs trace.logs)) :
    (ofTrace trace).movesTokens = true ↔ ∃ log ∈ trace.logs, log.function = some .transfer := by
  have moved : (ofTrace trace).movesTokens = true ↔
      0 < (tokenTransfers trace.transfers).length := by
    rw [length_tokenTransfers]
    exact decide_eq_true_iff
  rw [moved, reports.length_eq, transferLogs, List.length_filter_pos_iff]
  simp only [decide_eq_true_eq]

namespace Host

/--
The summary of a trace accounts for every entry of it. If the trace is what a session closes after
any requests, the transfers of each token standard are as many as the logs that are tagged as
transfers of that standard, a token moves if any log is tagged as a transfer, and the transfers of
native currency are as many as the calls that have a value and are of a kind that moves it, or none
if they are not to be recorded.
-/
theorem summary_accounts_for_every_entry (trace : Trace) :
    let summary := Summary.ofTrace trace
    summary.Accounts trace ∧
      ∀ {World : Type} (config : Config) (world : World) (requests : List (Request World))
        (metadata : Metadata),
        (((new config world).run requests).session.close metadata).1 = .ok (some trace) →
          (summary.erc20 = trace.logs.countP fun log =>
            log.standard = some .erc20 ∧ log.function = some .transfer) ∧
          (summary.erc721 = trace.logs.countP fun log =>
            log.standard = some .erc721 ∧ log.function = some .transfer) ∧
          (summary.movesTokens = true ↔ ∃ log ∈ trace.logs, log.function = some .transfer) ∧
          summary.native =
            if config.nativeTransfers then
              trace.calls.countP fun placed =>
                placed.call.value ≠ 0 ∧ placed.call.kind.movesValue
            else 0 := by
  intro summary
  refine ⟨Summary.accounts_ofTrace trace, ?_⟩
  intro World config world requests metadata closed
  have paid : payments trace.transfers = config.paymentsOf trace.calls := by
    obtain ⟨session, midway, paid, rfl⟩ :=
      trace_of_close closed (Session.payments_started config)
        fun _ _ => Session.Midway.payments_advance
    exact midway.payments_draft paid metadata
  have reports : List.Forall₂ Transfer.Reports (tokenTransfers trace.transfers)
      (transferLogs trace.logs) := by
    obtain ⟨session, _, reports, rfl⟩ :=
      trace_of_close closed (Session.reports_started config)
        fun _ _ _ => Session.reports_advance
    exact Session.reports_draft reports metadata
  refine ⟨?_, ?_, Summary.movesTokens_iff_of_reports reports, ?_⟩
  · exact Summary.countTransfers_of_reports reports .erc20
  · exact Summary.countTransfers_of_reports reports .erc721
  · calc summary.native
      _ = (payments trace.transfers).length := (Summary.length_payments trace.transfers).symm
      _ = (config.paymentsOf trace.calls).length := by rw [paid]
      _ = _ := config.length_paymentsOf trace.calls

/--
A call and the creation inside its delegate call pay. Three logs have the first topic of a transfer,
and the second one of them has too little data.
-/
theorem summary_of_three_calls_and_three_logs :
    let called := fun (kind : CallKind) (depth : Nat) =>
      { Call.plain kind depth (.zero 20) (.zero 20) with value := 7 }
    let step : Step := { pc := 0, depth := 1, opcode := "LOG3", gas := 9, cost := 1, output := "" }
    let emitted := fun (topics : List Hash) (data : Bytes) => ({
      address := .zero 20, topics := transferTopic :: .zero 32 :: .zero 32 :: topics, data } : Log)
    let requests : List (Request Unit) :=
      [.start, .enter (called .call 0), .step step, .enter (called .delegateCall 1),
        .log (emitted [] (List.replicate 31 0 ++ [9, 1])), .log (emitted [] [1, 2]),
        .enter (called .create 2), .log (emitted [.zero 32] [])]
    let metadata : Metadata :=
      { block := 0, hash := .zero 32, sender := .zero 20, recipient := none, value := 7
        gasPrice := 0, gasUsed := 0 }
    let session := ((new {} ()).run requests).session
    ∃ trace, (session.close metadata).1 = .ok (some trace) ∧
      Summary.ofTrace trace =
        { steps := 1, calls := 3, maxDepth := 2
          callsByKind := [("CALL", 1), ("CREATE", 1), ("DELEGATECALL", 1)]
          logs := 3, recognised := 2, native := 2, erc20 := 1, erc721 := 1 } ∧
      (Summary.ofTrace trace).Accounts trace ∧
      (Summary.ofTrace trace).erc20 = trace.logs.countP fun log =>
        log.standard = some .erc20 ∧ log.function = some .transfer := by
  intro called step emitted requests metadata session
  have closed : (session.close metadata).1 = .ok (some (session.draft metadata)) :=
    Session.close_eq_trace_iff.mpr
      ⟨by decide +kernel, by decide +kernel, by decide +kernel, rfl⟩
  obtain ⟨accounts, produced⟩ := summary_accounts_for_every_entry (session.draft metadata)
  exact ⟨session.draft metadata, closed, by decide +kernel, accounts,
    (produced {} () requests metadata closed).1⟩

end Host

end EvmTrace
