import EvmTrace.Proofs.Session.Course
import EvmTrace.Proofs.Session.Exits

set_option autoImplicit false

namespace EvmTrace

namespace Transfer

/-- A transfer names one of the calls, and has its depth and its path. -/
def ResolvesIn (transfer : Transfer) (calls : List PlacedCall) : Prop :=
  ∃ placed, calls[transfer.callIndex]? = some placed ∧
    placed.call.depth = transfer.depth ∧ placed.path = transfer.path

/-- A transfer has the index, the depth and the path of the first call of a transaction. -/
structure Outermost (transfer : Transfer) : Prop where
  callIndex : transfer.callIndex = 0
  depth : transfer.depth = 0
  path : transfer.path = []

/-- What is true of a transfer while the calls are entered. -/
inductive AttributedIn (transfer : Transfer) (calls : List PlacedCall) : Prop where
  | resolved (resolves : transfer.ResolvesIn calls)
  | early (bare : calls = []) (token : transfer.kind ≠ .native) (outermost : transfer.Outermost)

variable {transfer : Transfer} {calls : List PlacedCall}

theorem ResolvesIn.append (resolves : transfer.ResolvesIn calls) (more : List PlacedCall) :
    transfer.ResolvesIn (calls ++ more) := by
  obtain ⟨placed, stands, depth, path⟩ := resolves
  refine ⟨placed, ?_, depth, path⟩
  rw [List.getElem?_append_left (List.getElem?_eq_some_iff.mp stands).1]
  exact stands

/-- Only the depths and the paths of the calls decide what a transfer resolves to. -/
theorem ResolvesIn.congr {after : List PlacedCall} (resolves : transfer.ResolvesIn calls)
    (same : (after.map fun placed => (placed.call.depth, placed.path)) =
      calls.map fun placed => (placed.call.depth, placed.path)) :
    transfer.ResolvesIn after := by
  obtain ⟨placed, stands, depth, path⟩ := resolves
  have here := congrArg (fun list => list[transfer.callIndex]?) same
  simp only [List.getElem?_map, stands, Option.map_some] at here
  obtain ⟨other, stands, equal⟩ := Option.map_eq_some_iff.mp here
  obtain ⟨depth', path'⟩ := Prod.mk.inj equal
  exact ⟨other, stands, depth'.trans depth, path'.trans path⟩

end Transfer

/-- The first call of a tree lies at depth zero and has the empty path. -/
theorem Holds.first_call {tree : CallTree} {maxDepth : Nat} {ledger : Ledger} {placed : PlacedCall}
    (holds : Holds tree maxDepth ledger) (stands : tree.branch.calls[0]? = some placed) :
    placed.call.depth = 0 ∧ placed.path = [] := by
  have tracks := holds.tracks
  have depths : tree.branch.calls.map (fun placed => placed.call.depth) = ledger.depths := by
    have same := congrArg (List.map Call.depth) tracks.calls
    rw [List.map_map, List.map_map] at same
    exact same
  have depth := congrArg (fun list => list[0]?) depths
  have path := congrArg (fun list => list[0]?) tracks.paths
  simp only [List.getElem?_map, stands, Option.map_some] at depth path
  rw [Depths.paths_getElem?, ← depth, Option.map_some, Option.some.injEq] at path
  cases lies : placed.call.depth with
  | zero =>
      rw [lies] at path
      exact ⟨rfl, path⟩
  | succ above =>
      -- A deeper call has a parent in front of it.
      rw [lies] at depth
      obtain ⟨parent, found⟩ := Option.isSome_iff_exists.mp (tracks.parented 0 above depth.symm)
      exact absurd (Depths.parent?_lt found) (Nat.not_lt_zero parent)

namespace Session.Midway

variable {config : Config} {session before after : Session}

theorem length_calls (midway : Midway config session) :
    session.tree.branch.calls.length = session.nextIndex := by
  have lengths := congrArg List.length midway.numbered
  rwa [List.length_map, List.length_range] at lengths

/-- The index of a call is its position. -/
theorem index_eq (midway : Midway config session) {position : Nat} {placed : PlacedCall}
    (stands : session.tree.branch.calls[position]? = some placed) :
    placed.call.index = position := by
  have inside := (List.getElem?_eq_some_iff.mp stands).1
  rw [midway.length_calls] at inside
  have here := congrArg (fun list => list[position]?) midway.numbered
  simp only [List.getElem?_map, stands, Option.map_some, List.getElem?_range inside] at here
  exact Option.some.inj here

/-- The position of an open call among all calls is its index. -/
theorem call_of_open (midway : Midway config session) {call : OpenCall}
    (member : call ∈ session.tree.openCalls) :
    ∃ placed, session.tree.branch.calls[call.index]? = some placed ∧
      placed.call.depth = call.depth ∧ placed.path = call.path := by
  obtain ⟨ledger, holds⟩ := midway.holds
  obtain ⟨front, placed, stands⟩ := holds.tracks.consistent.standing call member
  have here := stands.getElem?_calls
  have position := midway.index_eq here
  rw [stands.index] at position
  exact ⟨placed, position ▸ here, stands.depth, stands.path⟩

/-- A transfer that looks like the first call resolves as soon as there is a call. -/
theorem resolves_outermost (midway : Midway config session) {transfer : Transfer}
    (outermost : transfer.Outermost) (entered : session.tree.branch.calls ≠ []) :
    transfer.ResolvesIn session.tree.branch.calls := by
  obtain ⟨ledger, holds⟩ := midway.holds
  obtain ⟨placed, rest, calls⟩ := List.exists_cons_of_ne_nil entered
  have stands : session.tree.branch.calls[0]? = some placed := by rw [calls]; rfl
  obtain ⟨depth, path⟩ := holds.first_call stands
  refine ⟨placed, ?_, depth.trans outermost.depth.symm, path.trans outermost.path.symm⟩
  rw [outermost.callIndex]
  exact stands

/-- The movement of a token is attributed to the innermost open call, or to the first call. -/
theorem attributed_tokenTransfer (midway : Midway config session) {movement : TokenMovement}
    (token : movement.kind ≠ .native) :
    (tokenTransfer movement session.tree.current).AttributedIn session.tree.branch.calls := by
  cases inside : session.tree.current with
  | some call =>
      obtain ⟨placed, stands, depth, path⟩ :=
        midway.call_of_open (List.mem_of_head? inside)
      exact .resolved ⟨placed, stands, depth, path⟩
  | none =>
      have outermost : (tokenTransfer movement none).Outermost := ⟨rfl, rfl, rfl⟩
      by_cases bare : session.tree.branch.calls = []
      · exact .early bare token outermost
      · exact .resolved (midway.resolves_outermost outermost bare)

/-- The transfers are attributed to calls whatever an event does. -/
theorem attributed_advance (midway : Midway config before) (advance : before.Advance after)
    (attributed : ∀ transfer ∈ before.transfers,
      transfer.AttributedIn before.tree.branch.calls) :
    ∀ transfer ∈ after.transfers, transfer.AttributedIn after.tree.branch.calls := by
  have next := midway.advance advance
  cases advance with
  | idle steps taint => exact attributed
  | exit depth output =>
      obtain ⟨ledger, holds⟩ := midway.holds
      have same := holds.map_calls_exit (fun placed => (placed.call.depth, placed.path))
        (fun _ _ => rfl) depth output
      intro transfer member
      rcases attributed transfer member with resolves | ⟨bare, token, outermost⟩
      · exact .resolved (resolves.congr same)
      · rw [bare] at same
        exact .early (List.map_eq_nil_iff.mp same) token outermost
  | log emitted =>
      cases moves :
        (TokenEvent.classify emitted.topics emitted.data emitted.address).movement with
      | none =>
          rw [transfers_logged_of_none moves]
          exact attributed
      | some movement =>
          rw [transfers_logged_of_some moves]
          have token := TokenEvent.kind_ne_native moves
          exact List.forall_mem_cons.mpr ⟨midway.attributed_tokenTransfer token, attributed⟩
  | enter call accepted =>
      have calls := midway.calls_entered call accepted
      have entered : (before.entered call).tree.branch.calls ≠ [] := by
        rw [calls]
        exact List.append_ne_nil_of_right_ne_nil _ (List.cons_ne_nil _ _)
      have kept : ∀ transfer ∈ before.transfers,
          transfer.AttributedIn (before.entered call).tree.branch.calls := by
        intro transfer member
        rcases attributed transfer member with resolves | ⟨_, _, outermost⟩
        · rw [calls]
          exact .resolved (resolves.append _)
        · exact .resolved (next.resolves_outermost outermost entered)
      have payer : (before.entered call).tree.branch.calls[before.nextIndex]? =
          some (before.tree.branch.placed (before.indexed call)) := by
        rw [calls, ← midway.length_calls]
        exact List.getElem?_concat_length
      unfold Session.entered
      dsimp only
      split
      · exact List.forall_mem_cons.mpr ⟨.resolved ⟨_, payer, rfl, rfl⟩, kept⟩
      · exact kept

end Session.Midway

namespace Host

/--
The index of a call in a trace is its position. If there are calls, then every transfer has the
index, the depth and the path of one of them, even if it happened before the first call or after the
last exit. If there are none, then every transfer moves a token and has index zero, depth zero and
the empty path.
-/
theorem transfers_resolve_into_calls {World : Type} {config : Config} {world : World}
    {requests : List (Request World)} {metadata : Metadata} {trace : Trace}
    (closed : (((new config world).run requests).session.close metadata).1 = .ok (some trace)) :
    (∀ (position : Nat) (placed : PlacedCall), trace.calls[position]? = some placed →
        placed.call.index = position) ∧
      (trace.calls ≠ [] → ∀ transfer ∈ trace.transfers,
        transfer.callIndex < trace.calls.length ∧ transfer.ResolvesIn trace.calls) ∧
      (trace.calls = [] → ∀ transfer ∈ trace.transfers,
        transfer.kind ≠ .native ∧ transfer.callIndex = 0 ∧ transfer.depth = 0 ∧
          transfer.path = []) := by
  have none_yet : ∀ transfer ∈ (Session.started config).transfers,
      transfer.AttributedIn (Session.started config).tree.branch.calls := by
    intro transfer member
    cases member
  obtain ⟨session, midway, attributed, rfl⟩ :=
    trace_of_close closed none_yet fun _ _ => Session.Midway.attributed_advance
  rw [midway.draft_calls]
  have attributed : ∀ transfer ∈ (session.draft metadata).transfers,
      transfer.AttributedIn session.tree.branch.calls :=
    fun transfer member => attributed transfer (List.mem_reverse.mp member)
  refine ⟨fun _ _ => midway.index_eq, ?_, ?_⟩
  · intro entered transfer member
    rcases attributed transfer member with ⟨placed, stands, same⟩ | ⟨bare, _, _⟩
    · exact ⟨(List.getElem?_eq_some_iff.mp stands).1, placed, stands, same⟩
    · exact absurd bare entered
  · intro bare transfer member
    rcases attributed transfer member with ⟨placed, stands, _⟩ | ⟨_, token, outermost⟩
    · rw [bare] at stands
      cases stands
    · exact ⟨token, outermost.callIndex, outermost.depth, outermost.path⟩

/-- A token moves in front of the first call, inside of the second one and behind all exits. -/
theorem transfers_around_two_calls_resolve :
    let root := { Call.plain .call 0 (.zero 20) (.zero 20) with value := 7 }
    let inner := { Call.plain .call 1 (.zero 20) (.zero 20) with value := 8 }
    let step : Step := { pc := 0, depth := 1, opcode := "LOG3", gas := 9, cost := 1, output := "" }
    let moved : Log :=
      { address := .zero 20, topics := [transferTopic, .zero 32, .zero 32]
        data := List.replicate 32 1 }
    let requests : List (Request Unit) :=
      [.start, .step step, .log moved, .enter root, .enter inner, .log moved, .exit 0 [1],
        .log moved]
    let metadata : Metadata :=
      { block := 0, hash := .zero 32, sender := .zero 20, recipient := none, value := 0
        gasPrice := 0, gasUsed := 0 }
    let session := ((new {} ()).run requests).session
    ∃ trace, (session.close metadata).1 = .ok (some trace) ∧
      (trace.transfers.map fun transfer =>
        (transfer.kind, transfer.callIndex, transfer.depth, transfer.path)) =
          [(.erc20, 0, 0, []), (.native, 0, 0, []), (.native, 1, 1, [1]), (.erc20, 1, 1, [1]),
            (.erc20, 0, 0, [])] ∧
      ∀ transfer ∈ trace.transfers, transfer.ResolvesIn trace.calls := by
  intro root inner step moved requests metadata session
  have closed : (session.close metadata).1 = .ok (some (session.draft metadata)) :=
    Session.close_eq_trace_iff.mpr
      ⟨by decide +kernel, by decide +kernel, by decide +kernel, rfl⟩
  have entered : (session.draft metadata).calls ≠ [] := by decide +kernel
  have resolve := (transfers_resolve_into_calls closed).2.1 entered
  exact ⟨session.draft metadata, closed, by decide +kernel,
    fun transfer member => (resolve transfer member).2⟩

end Host

end EvmTrace
