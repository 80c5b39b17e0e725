import EvmTrace.Proofs.CallTree.View
import EvmTrace.Replay

/-!
A session that has been used keeps the buffers of its tree, so it does not equal a new session even
after a reset. Sessions are alike if they differ in nothing but the buffers of trees that stand for
the same branch; alike sessions give equal answers and stay alike.
-/

set_option autoImplicit false

namespace EvmTrace

namespace CallTree

/-- Two trees stand for the same branch. -/
structure Alike (left right : CallTree) : Prop where
  leftFormed : left.WellFormed
  rightFormed : right.WellFormed
  branch : left.branch = right.branch

namespace Alike

variable {left right : CallTree}

theorem current (alike : Alike left right) : left.current = right.current := by
  rw [CallTree.current, CallTree.current, ← branch_openCalls left, ← branch_openCalls right,
    alike.branch]

theorem depth (alike : Alike left right) : left.depth = right.depth := by
  rw [branch_depth alike.leftFormed, branch_depth alike.rightFormed, alike.branch]

theorem waiting (alike : Alike left right) (depth : Nat) :
    left.waiting depth = right.waiting depth := by
  rw [CallTree.waiting, CallTree.waiting, branch_buffer alike.leftFormed,
    branch_buffer alike.rightFormed, alike.branch]

theorem enter (alike : Alike left right) (call : Call) :
    (∃ reason, left.enter call = .error reason ∧ right.enter call = .error reason) ∨
      ∃ leftNext rightNext, left.enter call = .ok leftNext ∧ right.enter call = .ok rightNext ∧
        Alike leftNext rightNext := by
  have same := (branch_enter alike.leftFormed call).trans
    (alike.branch ▸ (branch_enter alike.rightFormed call).symm)
  cases entered : left.enter call with
  | error reason =>
      cases entered' : right.enter call with
      | error reason' =>
          rw [entered, entered'] at same
          cases same
          exact .inl ⟨reason, rfl, rfl⟩
      | ok next =>
          rw [entered, entered'] at same
          cases same
  | ok leftNext =>
      cases entered' : right.enter call with
      | error reason =>
          rw [entered, entered'] at same
          cases same
      | ok rightNext =>
          rw [entered, entered'] at same
          exact .inr ⟨leftNext, rightNext, rfl, rfl, alike.leftFormed.enter entered,
            alike.rightFormed.enter entered', Except.ok.inj same⟩

theorem exit (alike : Alike left right) (depth : Nat) (output : Bytes) :
    Alike (left.exit depth output).2 (right.exit depth output).2 := by
  refine ⟨alike.leftFormed.exit depth output, alike.rightFormed.exit depth output, ?_⟩
  rw [(branch_exit alike.leftFormed depth output).2, (branch_exit alike.rightFormed depth output).2,
    alike.branch]

theorem maxDepth (alike : Alike left right) : left.maxDepth = right.maxDepth := by
  rw [← branch_maxDepth left, ← branch_maxDepth right, alike.branch]

theorem finish (alike : Alike left right) :
    left.finish.1 = right.finish.1 ∧ Alike left.finish.2 right.finish.2 := by
  obtain ⟨leftCalls, leftBare, leftFormed⟩ := branch_finish alike.leftFormed
  obtain ⟨rightCalls, rightBare, rightFormed⟩ := branch_finish alike.rightFormed
  refine ⟨?_, leftFormed, rightFormed, ?_⟩
  · rw [leftCalls, rightCalls, alike.branch]
  · rw [leftBare, rightBare, alike.maxDepth]

theorem reset (alike : Alike left right) : Alike left.reset right.reset := by
  refine ⟨alike.leftFormed.reset, alike.rightFormed.reset, ?_⟩
  rw [branch_reset, branch_reset, alike.maxDepth]

end Alike

end CallTree

namespace Session

/-- Two sessions differ at most in the buffers of their trees. -/
structure Alike (left right : Session) : Prop where
  trees : left.tree.Alike right.tree
  rest : left = { right with tree := left.tree }

namespace Alike

variable {left right : Session}

theorem of_tree {session : Session} {tree : CallTree} (trees : tree.Alike session.tree) :
    Alike { session with tree } session :=
  ⟨trees, rfl⟩

theorem tree_of (alike : Alike left right) :
    ∃ tree : CallTree, tree.Alike right.tree ∧ left = { right with tree } :=
  ⟨left.tree, alike.trees, alike.rest⟩

theorem reset (alike : Alike left right) : Alike left.reset right.reset := by
  obtain ⟨tree, trees, rfl⟩ := alike.tree_of
  exact ⟨trees.reset, rfl⟩

theorem start (alike : Alike left right) :
    left.start.1 = right.start.1 ∧ Alike left.start.2 right.start.2 := by
  obtain ⟨tree, trees, rfl⟩ := alike.tree_of
  unfold Session.start
  split
  · exact ⟨rfl, of_tree trees⟩
  · exact ⟨rfl, trees.reset, rfl⟩

theorem step (alike : Alike left right) (step : Step) :
    (left.step step).1 = (right.step step).1 ∧ Alike (left.step step).2 (right.step step).2 := by
  obtain ⟨tree, trees, rfl⟩ := alike.tree_of
  have obstacle : obstacle { right with tree } .step = right.obstacle .step := rfl
  unfold Session.step
  rw [obstacle]
  cases right.obstacle .step with
  | some e => exact ⟨rfl, of_tree trees⟩
  | none => exact ⟨rfl, trees, rfl⟩

theorem enter (alike : Alike left right) (call : Call) :
    (left.enter call).1 = (right.enter call).1 ∧
      Alike (left.enter call).2 (right.enter call).2 := by
  obtain ⟨tree, trees, rfl⟩ := alike.tree_of
  have obstacle : obstacle { right with tree } .enter = right.obstacle .enter := rfl
  unfold Session.enter
  rw [obstacle]
  cases right.obstacle .enter with
  | some e => exact ⟨rfl, of_tree trees⟩
  | none =>
      dsimp only
      obtain ⟨reason, refused, refused'⟩ | ⟨next, next', entered, entered', trees⟩ :=
        trees.enter { call with index := right.nextIndex }
      · rw [refused, refused']
        exact ⟨rfl, trees, rfl⟩
      · have path : currentPath next = currentPath next' := by
          rw [currentPath, currentPath, trees.current]
        rw [entered, entered']
        simp only [path]
        exact ⟨trivial, trees, rfl⟩

theorem exit (alike : Alike left right) (depth : Nat) (output : Bytes) :
    (left.exit depth output).1 = (right.exit depth output).1 ∧
      Alike (left.exit depth output).2 (right.exit depth output).2 := by
  obtain ⟨tree, trees, rfl⟩ := alike.tree_of
  have obstacle : obstacle { right with tree } .exit = right.obstacle .exit := rfl
  unfold Session.exit
  rw [obstacle]
  cases right.obstacle .exit with
  | some e => exact ⟨rfl, of_tree trees⟩
  | none => exact ⟨rfl, trees.exit depth output, rfl⟩

theorem log (alike : Alike left right) (log : Log) :
    (left.log log).1 = (right.log log).1 ∧ Alike (left.log log).2 (right.log log).2 := by
  obtain ⟨tree, trees, rfl⟩ := alike.tree_of
  have obstacle : obstacle { right with tree } .log = right.obstacle .log := rfl
  unfold Session.log
  rw [obstacle]
  cases right.obstacle .log with
  | some e => exact ⟨rfl, of_tree trees⟩
  | none =>
      simp only [trees.current]
      exact ⟨trivial, trees, rfl⟩

theorem close (alike : Alike left right) (metadata : Metadata) :
    (left.close metadata).1 = (right.close metadata).1 ∧
      Alike (left.close metadata).2 (right.close metadata).2 := by
  obtain ⟨tree, trees, rfl⟩ := alike.tree_of
  unfold Session.close
  split
  · exact ⟨rfl, of_tree trees⟩
  · split
    · exact ⟨rfl, trees.reset, rfl⟩
    · dsimp only
      split
      · exact ⟨rfl, trees.reset, rfl⟩
      · rw [trees.finish.1]
        exact ⟨rfl, trees.finish.2, rfl⟩

/-- Alike sessions take an event in the same way. -/
theorem take (alike : Alike left right) (event : Event) :
    (left.take event).1 = (right.take event).1 ∧
      Alike (left.take event).2 (right.take event).2 := by
  cases event with
  | step step => exact alike.step step
  | enter call =>
      obtain ⟨same, after⟩ := alike.enter call
      exact ⟨congrArg (Except.map fun _ => ()) same, after⟩
  | exit depth output => exact alike.exit depth output
  | log log =>
      obtain ⟨same, after⟩ := alike.log log
      exact ⟨congrArg (Except.map fun _ => ()) same, after⟩

end Alike

end Session

end EvmTrace
