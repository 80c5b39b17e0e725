import EvmTrace.Proofs.CallTree.Tracking
import Mathlib.Data.List.Chain
import Mathlib.Data.List.Lex

/-!
How the path of a call follows from the path of the call in front of it. Nothing but that path and
the depth of the new call is needed: the ordinals above the new call stay, and its own is counted one
further. The paths of a tree are a chain of such steps, whatever exits come in between.
-/

set_option autoImplicit false

namespace EvmTrace

namespace CallPath

/-- The path of a call that is entered at a depth behind a call with the given path. -/
def next (path : CallPath) : Nat → CallPath
  | 0 => []
  | depth + 1 => path.take depth ++ [path[depth]?.getD 0 + 1]

/-- A path that the next call can have: it lies at most one deeper. -/
def Follows (path after : CallPath) : Prop :=
  ∃ depth ≤ path.length + 1, after = path.next depth

variable {path after above : CallPath} {depth : Nat}

theorem length_next (reached : depth ≤ path.length + 1) : (path.next depth).length = depth := by
  cases depth with
  | zero => rfl
  | succ depth =>
      rw [next, List.length_append, List.length_take, List.length_singleton]
      omega

/-- Inside a tree paths grow: a deeper call extends the path, any other raises an ordinal of it. -/
theorem Follows.lt (follows : path.Follows after) (inner : after ≠ []) : path < after := by
  obtain ⟨depth, reached, rfl⟩ := follows
  cases depth with
  | zero => exact absurd rfl inner
  | succ depth =>
      rw [next]
      rcases Nat.lt_or_eq_of_le (Nat.le_of_succ_le_succ reached) with inside | last
      · have split : path = path.take depth ++ path[depth] :: path.drop (depth + 1) := by
          rw [← List.drop_eq_getElem_cons inside, List.take_append_drop]
        rw [List.getElem?_eq_getElem inside, Option.getD_some]
        conv_lhs => rw [split]
        exact List.Lex.append_left _ (.rel (Nat.lt_succ_self _)) _
      · have whole : path.take depth = path := List.take_of_length_le (Nat.le_of_eq last.symm)
        rw [whole]
        conv_lhs => rw [← List.append_nil path]
        exact List.Lex.append_left _ .nil _

theorem Follows.positive (follows : path.Follows after) (positive : ∀ ordinal ∈ path, 1 ≤ ordinal) :
    ∀ ordinal ∈ after, 1 ≤ ordinal := by
  obtain ⟨depth, _, rfl⟩ := follows
  intro ordinal inside
  cases depth with
  | zero => cases inside
  | succ depth =>
      rcases List.mem_append.mp inside with kept | last
      · exact positive ordinal (List.mem_of_mem_take kept)
      · rw [List.mem_singleton.mp last]
        exact Nat.le_add_left 1 _

/-- What lies around the next call lies around the one in front of it, or is that call. -/
theorem Follows.prefix_cases (follows : path.Follows after) (around : above <+: after) :
    above = after ∨ above <+: path := by
  obtain ⟨depth, _, rfl⟩ := follows
  cases depth with
  | zero => exact .inl (List.prefix_nil.mp around)
  | succ depth =>
      rcases List.prefix_concat_iff.mp around with same | shorter
      · exact .inl same
      · exact .inr (shorter.trans (List.take_prefix depth path))

/-- The elder sibling of the next call lies around the call in front of it, or is that call. -/
theorem Follows.elder {ordinal : Nat} (follows : path.Follows (above ++ [ordinal]))
    (later : 1 < ordinal) : above ++ [ordinal - 1] <+: path := by
  obtain ⟨depth, _, same⟩ := follows
  cases depth with
  | zero => simp [next] at same
  | succ depth =>
      obtain ⟨rfl, last⟩ := List.append_inj' same rfl
      have raised : ordinal = path[depth]?.getD 0 + 1 := List.head_eq_of_cons_eq last
      have inside : depth < path.length := by
        by_contra beyond
        rw [List.getElem?_eq_none (Nat.le_of_not_lt beyond), Option.getD_none] at raised
        omega
      rw [List.getElem?_eq_getElem inside, Option.getD_some] at raised
      rw [raised, Nat.add_sub_cancel, ← List.take_succ_eq_append_getElem inside]
      exact List.take_prefix _ _

/-- The paths of calls in the order of their entry, those of a whole number of trees. -/
structure Numbered (paths : List CallPath) : Prop where
  begins : ∀ first ∈ paths.head?, first = []
  chain : paths.IsChain Follows

namespace Numbered

variable {paths : List CallPath}

theorem nil : Numbered [] := by
  refine ⟨fun first absent => ?_, List.isChain_nil⟩
  cases absent

theorem snoc (numbered : Numbered paths) (root : paths = [] → after = [])
    (follows : ∀ path ∈ paths.getLast?, path.Follows after) : Numbered (paths ++ [after]) := by
  refine ⟨?_, List.isChain_append.mpr ⟨numbered.chain, List.isChain_singleton _, ?_⟩⟩
  · cases paths with
    | nil =>
        intro first here
        cases here
        exact root rfl
    | cons first rest => exact numbered.begins
  · intro path last other there
    cases there
    exact follows path last

theorem left_of_append {rest : List CallPath} (numbered : Numbered (paths ++ rest)) :
    Numbered paths := by
  refine ⟨?_, numbered.chain.left_of_append⟩
  cases paths with
  | nil =>
      intro first absent
      cases absent
  | cons first others => exact numbered.begins

theorem positive (numbered : Numbered paths) : ∀ path ∈ paths, ∀ ordinal ∈ path, 1 ≤ ordinal := by
  refine numbered.chain.induction (fun path => ∀ ordinal ∈ path, 1 ≤ ordinal) paths
    (fun path after follows positive => follows.positive positive) ?_
  intro occupied ordinal inside
  rw [numbered.begins _ (List.head?_eq_some_head occupied)] at inside
  cases inside

/-- All calls around the last call stand in the list. -/
theorem mem_of_prefix (numbered : Numbered paths) (last : paths.getLast? = some path)
    (around : above <+: path) : above ∈ paths := by
  -- Calls are taken off the end: what lies around the last one lies around the one in front of it.
  induction paths using List.reverseRecOn generalizing path with
  | nil => cases last
  | append_singleton front after ih =>
      rw [List.getLast?_concat, Option.some.injEq] at last
      subst last
      cases previous : front.getLast? with
      | none =>
          rw [List.getLast?_eq_none_iff.mp previous, List.nil_append] at numbered ⊢
          rw [numbered.begins after rfl] at around ⊢
          rw [List.prefix_nil.mp around]
          exact List.mem_singleton_self _
      | some path =>
          have follows : path.Follows after :=
            (List.isChain_append.mp numbered.chain).2.2 path previous after rfl
          rcases follows.prefix_cases around with rfl | outer
          · exact List.mem_concat_self
          · exact List.mem_append_left _ (ih numbered.left_of_append previous outer)

/-- In front of a call stand the call around it and its elder sibling. -/
theorem gapless {back : List CallPath} {ordinal : Nat}
    (numbered : Numbered (paths ++ (above ++ [ordinal]) :: back)) :
    above ∈ paths ∧ (1 < ordinal → above ++ [ordinal - 1] ∈ paths) := by
  obtain ⟨_, _, link⟩ := List.isChain_append.mp numbered.chain
  have front := numbered.left_of_append
  cases previous : paths.getLast? with
  | none =>
      rw [List.getLast?_eq_none_iff.mp previous] at numbered
      have first := numbered.begins (above ++ [ordinal]) rfl
      simp at first
  | some path =>
      have follows : path.Follows (above ++ [ordinal]) := link path previous _ rfl
      refine ⟨?_, fun later => front.mem_of_prefix previous (follows.elder later)⟩
      rcases follows.prefix_cases (List.prefix_append above [ordinal]) with same | outer
      · simp at same
      · exact front.mem_of_prefix previous outer

end Numbered

end CallPath

/-- The path of the next call follows from that of the last one on the branch. -/
theorem Branch.nextPath_eq_next (branch : Branch) (depth : Nat)
    (reached : depth ≤ branch.levels.length) :
    branch.nextPath depth = CallPath.next (branch.levels.map Level.ordinal).tail depth := by
  cases depth with
  | zero => rfl
  | succ depth =>
      rw [nextPath, nextOrdinal, CallPath.next]
      cases levels : branch.levels with
      | nil =>
          rw [levels] at reached
          cases reached
      | cons root inner =>
          simp only [List.take_succ_cons, List.map_cons, List.cons_append, List.tail_cons,
            List.getElem?_cons_succ, List.map_take, List.getElem?_map]
          cases inner[depth]? <;> rfl

/-- The branch holds the path of the call that was entered last. -/
theorem Tracks.path_eq_pathAt {branch : Branch} {ledger : Ledger} (tracks : Tracks branch ledger)
    {front : List Nat} {depth : Nat} (split : ledger.depths = front ++ [depth]) :
    branch.levels.length = depth + 1 ∧
      (branch.levels.map Level.ordinal).tail = Depths.pathAt front depth front.length := by
  have reached := tracks.reached
  rw [Ledger.deepest_eq, split, List.getLast?_concat, Option.elim_some] at reached
  obtain ⟨position, ends⟩ := tracks.lasts depth (by omega)
  have length : ledger.length = front.length + 1 := by
    rw [← Ledger.length_depths, split, List.length_append, List.length_singleton]
  have found := ends.last
  rw [split, length, Depths.lastBefore_snoc, if_pos rfl, Option.some.injEq] at found
  have path := ends.path
  rw [List.take_of_length_le (Nat.le_of_eq reached), ← found, split,
    Depths.pathAt_append _ _ _ _ (Nat.le_refl _)] at path
  exact ⟨reached, path⟩

/-- An accepted call goes on with the chain of the paths. -/
theorem Tracks.numbered_snoc {branch : Branch} {ledger : Ledger} (tracks : Tracks branch ledger)
    (numbered : CallPath.Numbered (Depths.paths ledger.depths)) (depth : Nat)
    (reached : depth ≤ branch.levels.length) :
    CallPath.Numbered (Depths.paths (ledger.depths ++ [depth])) ∧
      (Depths.pathAt ledger.depths depth ledger.depths.length).length = depth := by
  have path := tracks.nextPath_eq depth reached
  rw [Branch.nextPath_eq_next branch depth reached, ← Ledger.length_depths] at path
  rw [Depths.paths_snoc, ← path]
  rcases List.eq_nil_or_concat' ledger.depths with bare | ⟨front, last, split⟩
  · have root : depth = 0 := by
      have none := tracks.reached
      rw [Ledger.deepest_eq, bare, List.getLast?_nil, Option.elim_none] at none
      omega
    rw [root, bare]
    refine ⟨CallPath.Numbered.nil.snoc (fun _ => rfl) fun path absent => ?_, rfl⟩
    cases absent
  · obtain ⟨levels, tail⟩ := tracks.path_eq_pathAt split
    have length : (branch.levels.map Level.ordinal).tail.length = last := by
      rw [List.length_tail, List.length_map, levels, Nat.add_sub_cancel]
    refine ⟨numbered.snoc ?_ ?_, CallPath.length_next (by omega)⟩
    · rw [split, Depths.paths_snoc]
      intro bare
      exact absurd bare (by simp)
    · rw [split, Depths.paths_snoc, List.getLast?_concat, ← tail]
      intro path here
      cases here
      exact ⟨depth, by omega, rfl⟩

/-- The paths of the calls of a ledger are a chain, and each is as long as its call is deep. -/
theorem Ledger.numbered (maxDepth : Nat) (operations : List CallTree.Operation) :
    CallPath.Numbered (Depths.paths (ofOperations maxDepth operations).depths) ∧
      (Depths.paths (ofOperations maxDepth operations).depths).map List.length =
        (ofOperations maxDepth operations).depths := by
  induction operations using List.reverseRecOn with
  | nil => exact ⟨.nil, rfl⟩
  | append_singleton operations operation ih =>
      obtain ⟨numbered, lengths⟩ := ih
      have holds := Holds.ofOperations maxDepth operations
      rw [Ledger.ofOperations_snoc]
      cases operation with
      | enter call =>
          rcases holds.enter_cases call with ⟨_, noted⟩ | ⟨reached, _, noted⟩
          · rw [noted]
            exact ⟨numbered, lengths⟩
          · rw [← CallTree.length_levels holds.wellFormed] at reached
            obtain ⟨longer, length⟩ := holds.tracks.numbered_snoc numbered call.depth reached
            rw [noted, Ledger.depths_enter]
            refine ⟨longer, ?_⟩
            rw [Depths.paths_snoc, List.map_append, lengths, List.map_singleton, length]
      | exit depth output =>
          rw [Ledger.note, Ledger.depths_exit]
          exact ⟨numbered, lengths⟩
      | finish => exact ⟨.nil, rfl⟩
      | reset => exact ⟨.nil, rfl⟩

end EvmTrace
