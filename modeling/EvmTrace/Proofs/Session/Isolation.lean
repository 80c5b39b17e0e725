import EvmTrace.Proofs.Session.History

/-!
No transaction leaks into the next. A session that is not active holds nothing of the transactions
behind it but the length of its list of buffers and the index of its next call, and a start drops
the index and leaves the buffers empty. From the start on a used session and a new one are alike, so
that a host cannot tell them apart.
-/

set_option autoImplicit false

namespace EvmTrace

variable {World : Type}

namespace Session

/-- What a session answers about itself at any time. -/
structure Observation where
  state : State
  tainted : Bool
  /-- The innermost open call. -/
  current : Option OpenCall
  /-- The deepest depth at which calls may wait. -/
  depth : Nat
  /-- The number of calls that wait at each depth. -/
  waiting : Nat → Nat

def observe (session : Session) : Observation :=
  { state := session.state, tainted := session.taint.isSome, current := session.tree.current
    depth := session.tree.depth, waiting := session.tree.waiting }

/-- A session holds nothing of a transaction. -/
structure Bare (session : Session) : Prop where
  untainted : session.taint = none
  branch : session.tree.branch = Branch.empty session.tree.maxDepth
  steps : session.steps = []
  logs : session.logs = []
  transfers : session.transfers = []

namespace Bare

theorem cleared (session : Session) (state : State) : Bare { session.clear with state } :=
  ⟨rfl, CallTree.branch_reset session.tree, rfl, rfl, rfl⟩

theorem close {session : Session} (wellFormed : session.tree.WellFormed)
    (active : session.state = .active) (metadata : Metadata) :
    Bare (session.close metadata).2 := by
  cases tainted : session.taint.isSome with
  | true =>
      rw [close_of_tainted active tainted]
      exact cleared session .closed
  | false =>
      by_cases bare : session.steps = []
      · rw [close_of_no_step active tainted bare]
        exact cleared session .closed
      · rw [close_of_step active tainted bare]
        refine ⟨Option.not_isSome_iff_eq_none.mp (by simp [tainted]), ?_, rfl, rfl, rfl⟩
        rw [CallTree.maxDepth_finish wellFormed]
        exact (CallTree.branch_finish wellFormed).2.1

variable {session : Session}

theorem openCalls (bare : Bare session) : session.tree.openCalls = [] := by
  rw [← CallTree.branch_openCalls, bare.branch]
  rfl

theorem depth (bare : Bare session) (wellFormed : session.tree.WellFormed) :
    session.tree.depth = 0 := by
  rw [CallTree.branch_depth wellFormed, bare.branch]
  rfl

theorem waiting (bare : Bare session) (wellFormed : session.tree.WellFormed) (depth : Nat) :
    session.tree.waiting depth = 0 := by
  rw [CallTree.waiting, CallTree.branch_buffer wellFormed, bare.branch]
  rfl

end Bare

namespace Alike

variable {left right : Session}

theorem observe (alike : Alike left right) : left.observe = right.observe := by
  have waiting : left.tree.waiting = right.tree.waiting := funext alike.trees.waiting
  have state : left.state = right.state := by rw [alike.rest]
  have taint : left.taint = right.taint := by rw [alike.rest]
  rw [Session.observe, Session.observe, state, taint, alike.trees.current, alike.trees.depth,
    waiting]

/-- Alike sessions serve a request in the same way. -/
theorem serve (alike : Alike left right) (world : World) (request : Request World) :
    (left.serve world request).answer = (right.serve world request).answer ∧
      (left.serve world request).world = (right.serve world request).world ∧
      Alike (left.serve world request).session (right.serve world request).session := by
  cases request with
  | start =>
      obtain ⟨same, after⟩ := alike.start
      exact ⟨congrArg Answer.done same, rfl, after⟩
  | step step =>
      obtain ⟨same, after⟩ := alike.step step
      exact ⟨congrArg Answer.done same, rfl, after⟩
  | enter call =>
      obtain ⟨same, after⟩ := alike.enter call
      exact ⟨congrArg Answer.index same, rfl, after⟩
  | exit depth output =>
      obtain ⟨same, after⟩ := alike.exit depth output
      exact ⟨congrArg Answer.done same, rfl, after⟩
  | log log =>
      obtain ⟨same, after⟩ := alike.log log
      exact ⟨congrArg Answer.event same, rfl, after⟩
  | close metadata =>
      obtain ⟨same, after⟩ := alike.close metadata
      exact ⟨congrArg Answer.trace same, rfl, after⟩
  | conclude metadata sink =>
      obtain ⟨same, after⟩ := alike.close metadata
      simp only [serve_conclude, same, true_and]
      split
      · exact after
      · exact after.reset
  | abort => exact ⟨rfl, rfl, alike.reset⟩
  | reset => exact ⟨rfl, rfl, alike.reset⟩

end Alike

end Session

namespace Host

/-- A session that is not active is bare. -/
theorem bare_run (config : Config) (world : World) (requests : List (Request World))
    (inactive : ((new config world).run requests).session.state ≠ .active) :
    ((new config world).run requests).session.Bare := by
  induction requests using List.reverseRecOn with
  | nil => exact ⟨rfl, rfl, rfl, rfl, rfl⟩
  | append_singleton requests request ih =>
      have sound := (Kept.run config world requests).sound
      rw [run_snoc] at inactive ⊢
      generalize (new config world).run requests = host at ih sound inactive ⊢
      -- An event changes neither the state nor, while the session is not active, anything else.
      have event : ∀ event : Event, (host.session.take event).2.state ≠ .active →
          (host.session.take event).2.Bare := by
        intro event inactive
        rw [Session.take_state] at inactive
        obtain ⟨e, same⟩ := Session.take_of_hindered (fun free => inactive free.1) event
        rw [same]
        exact ih inactive
      cases request with
      | start =>
          change host.session.start.2.state ≠ .active at inactive
          rw [Session.start] at inactive
          split at inactive
          · rename_i active
            exact absurd active inactive
          · exact absurd rfl inactive
      | step step => exact event (.step step) inactive
      | enter call => exact event (.enter call) inactive
      | exit depth output => exact event (.exit depth output) inactive
      | log log => exact event (.log log) inactive
      | close metadata =>
          change (host.session.close metadata).2.Bare
          by_cases active : host.session.state = .active
          · exact .close sound.wellFormed active metadata
          · rw [Session.close_of_inactive active]
            exact ih active
      | conclude metadata sink =>
          change (host.session.serve host.world (.conclude metadata sink)).session.Bare
          rw [Session.serve_conclude_session]
          split
          · exact .cleared _ .idle
          · rename_i inactive
            exact ih inactive
      | abort => exact .cleared _ .idle
      | reset => exact .cleared _ .idle

/-- Two hosts differ at most in the buffers of their sessions. -/
structure Alike (left right : Host World) : Prop where
  session : left.session.Alike right.session
  world : left.world = right.world
  past : left.past = right.past

namespace Alike

variable {left right : Host World}

theorem serve (alike : Alike left right) (request : Request World) :
    Alike (left.serve request) (right.serve request) := by
  obtain ⟨answer, world, session⟩ := alike.session.serve left.world request
  rw [alike.world] at answer world session
  refine ⟨?_, ?_, ?_⟩
  · rw [Host.serve, alike.world]
    exact session
  · rw [Host.serve, alike.world]
    exact world
  · simp only [Host.serve, alike.world, alike.past, answer]

theorem run (alike : Alike left right) (requests : List (Request World)) :
    Alike (left.run requests) (right.run requests) := by
  induction requests generalizing left right with
  | nil => exact alike
  | cons request rest ih => exact ih (alike.serve request)

end Alike

/--
After any requests, a session that is not active is untainted and empty, and a transaction that is
started with it takes the same course as with a new session. Whatever is requested from the start
on, every answer, what the sinks make of the traces, and what the session shows of itself behind the
last request, are the same; and this holds after each of the requests, since their number is
arbitrary.
-/
theorem session_behind_transactions_is_new {Past : Type} (config : Config) (former : Past)
    (past : List (Request Past)) (world : World) (requests : List (Request World))
    (inactive : ((new config former).run past).session.state ≠ .active) :
    let session := ((new config former).run past).session
    let reused := ({ session, world, past := [] } : Host World).run (.start :: requests)
    let fresh := (new config world).run (.start :: requests)
    (session.taint = none ∧ session.tree.openCalls = [] ∧ session.tree.depth = 0 ∧
      (∀ depth, session.tree.waiting depth = 0) ∧
      session.steps = [] ∧ session.logs = [] ∧ session.transfers = []) ∧
    reused.past = fresh.past ∧ reused.world = fresh.world ∧
      reused.session.observe = fresh.session.observe := by
  intro session reused fresh
  have sound : Session.Sound config session := (Kept.run config former past).sound
  have bare : session.Bare := bare_run config former past inactive
  have started : Alike (({ session, world, past := [] } : Host World).serve .start)
      ((new config world).serve .start) := by
    have first : session.start = (.ok (), { session.clear with state := .active }) :=
      Session.start_of_inactive inactive
    simp only [Host.serve, Session.serve, first]
    exact ⟨sound.alike_started, rfl, rfl⟩
  have alike : Alike reused fresh := started.run requests
  exact ⟨⟨bare.untainted, bare.openCalls, bare.depth sound.wellFormed,
    bare.waiting sound.wellFormed, bare.steps, bare.logs, bare.transfers⟩,
    alike.past, alike.world, alike.session.observe⟩

/--
Behind a discarded, a failed, an aborted, a skipped and a deep transaction: three buffers and the
next index are left, and nothing can be told from them.
-/
theorem session_behind_five_transactions_is_new :
    let root := Call.plain .call 0 (.zero 20) (.zero 20)
    let child := Call.plain .call 1 (.zero 20) (.zero 20)
    let grandchild := Call.plain .call 2 (.zero 20) (.zero 20)
    let step : Step :=
      { pc := 0, depth := 1, opcode := "STOP", gas := 9, cost := 0, output := "" }
    let metadata : Metadata :=
      { block := 0, hash := .zero 32, sender := .zero 20, recipient := none, value := 0
        gasPrice := 0, gasUsed := 0 }
    let sink : Sink (StateM Unit) := .failing (.badPath "")
    let past : List (Request Unit) :=
      [.start, .enter root, .enter grandchild, .conclude metadata sink,
        .start, .step step, .conclude metadata sink,
        .start, .enter root, .abort,
        .start, .enter root, .conclude metadata sink,
        .start, .step step, .enter root, .enter child, .enter grandchild, .close metadata]
    let requests : List (Request Unit) := [.step step, .enter root, .enter grandchild]
    let session := ((new {} ()).run past).session
    let reused := ({ session, world := (), past := [] } : Host Unit).run (.start :: requests)
    let fresh := (new {} ()).run (.start :: requests)
    session.state ≠ .active ∧ session.tree.buffers.length = 3 ∧ session.nextIndex = 3 ∧
      (∀ depth, session.tree.waiting depth = 0) ∧ reused.past = fresh.past ∧
      reused.session.observe = fresh.session.observe := by
  intro root child grandchild step metadata sink past requests session reused fresh
  have inactive : session.state ≠ .active := by decide +kernel
  obtain ⟨⟨_, _, _, empty, _⟩, answers, _, seen⟩ :=
    session_behind_transactions_is_new {} () past () requests inactive
  exact ⟨inactive, by decide +kernel, by decide +kernel, empty, answers, seen⟩

end Host

end EvmTrace
