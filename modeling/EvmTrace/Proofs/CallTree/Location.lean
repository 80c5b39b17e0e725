import EvmTrace.Proofs.CallTree.Numbering
import EvmTrace.Proofs.CallTree.Preorder
import Mathlib.Algebra.Order.BigOperators.Group.List
import Mathlib.Algebra.Order.Group.Nat
import Mathlib.Data.List.Nodup
import Mathlib.Data.List.SplitBy
import Mathlib.Data.Nat.Find

/-!
Paths locate calls. The calls that are taken out of a tree are cut in front of each call of depth
zero; within each piece a path tells one call from all others, and the paths are those of an ordered
tree: with a path come the paths of the call around it and of its elder siblings, and they come in
front of it.
-/

set_option autoImplicit false

namespace EvmTrace

/-- Ordinals that count from one are found again from those that count from zero. -/
theorem CallPath.map_succ_zeroBased {path : CallPath} (positive : ∀ ordinal ∈ path, 1 ≤ ordinal) :
    path.zeroBased.map (· + 1) = path := by
  rw [zeroBased, List.map_map]
  conv_rhs => rw [← List.map_id path]
  apply List.map_congr_left
  intro ordinal inside
  exact Nat.sub_add_cancel (positive ordinal inside)

namespace CallTree

/-- The calls of one tree in the order of their entry, with paths that locate them. -/
structure Located (tree : List PlacedCall) : Prop where
  rooted : ∃ root inner, tree = root :: inner ∧ root.call.depth = 0 ∧
    ∀ placed ∈ inner, placed.call.depth ≠ 0
  depth : ∀ placed ∈ tree, placed.path.length = placed.call.depth
  positive : ∀ placed ∈ tree, ∀ ordinal ∈ placed.path, 1 ≤ ordinal
  /-- Paths grow in lexicographic order. -/
  increasing : (tree.map PlacedCall.path).Pairwise (· < ·)
  /-- In front of a call stand the call around it and its elder sibling. -/
  gapless : ∀ front placed back, tree = front ++ placed :: back →
    ∀ above ordinal, placed.path = above ++ [ordinal] →
      above ∈ front.map PlacedCall.path ∧
        (1 < ordinal → above ++ [ordinal - 1] ∈ front.map PlacedCall.path)

namespace Located

variable {tree : List PlacedCall}

theorem nodup (located : Located tree) : (tree.map PlacedCall.path).Nodup := by
  refine located.increasing.imp ?_
  intro path after smaller same
  rw [same] at smaller
  exact List.lt_irrefl _ smaller

/-- A path is told from all others by its ordinals that count from zero as well. -/
theorem nodup_zeroBased (located : Located tree) :
    (tree.map fun placed => placed.path.zeroBased).Nodup := by
  have again : (tree.map fun placed => placed.path.zeroBased).map (List.map (· + 1)) =
      tree.map PlacedCall.path := by
    rw [List.map_map]
    apply List.map_congr_left
    intro placed inside
    exact CallPath.map_succ_zeroBased (located.positive placed inside)
  apply List.Nodup.of_map (List.map (· + 1))
  rw [again]
  exact located.nodup

theorem elder_mem (located : Located tree) {above : CallPath} {ordinal : Nat}
    (inside : above ++ [ordinal] ∈ tree.map PlacedCall.path) (later : 1 < ordinal) :
    above ++ [ordinal - 1] ∈ tree.map PlacedCall.path := by
  obtain ⟨placed, member, path⟩ := List.mem_map.mp inside
  obtain ⟨front, back, split⟩ := List.append_of_mem member
  have elder := (located.gapless front placed back split above ordinal path).2 later
  rw [split, List.map_append]
  exact List.mem_append_left _ elder

/-- The ordinals of the calls in a call run from one to their number. -/
theorem children (located : Located tree) (above : CallPath) :
    ∃ count, ∀ ordinal, above ++ [ordinal] ∈ tree.map PlacedCall.path ↔
      1 ≤ ordinal ∧ ordinal ≤ count := by
  let stands (ordinal : Nat) : Prop := above ++ [ordinal] ∈ tree.map PlacedCall.path
  -- No ordinal in the tree is greater than the sum of all of them.
  let bound := (tree.map fun placed => placed.path.sum).sum
  have bounded : ∀ ordinal, stands ordinal → ordinal ≤ bound := by
    intro ordinal inside
    obtain ⟨placed, member, path⟩ := List.mem_map.mp inside
    calc ordinal ≤ placed.path.sum := List.le_sum_of_mem (by rw [path]; exact List.mem_concat_self)
      _ ≤ bound := List.le_sum_of_mem (List.mem_map.mpr ⟨placed, member, rfl⟩)
  have downwards : ∀ ordinal more, 1 ≤ ordinal → stands (ordinal + more) → stands ordinal := by
    intro ordinal more first inside
    induction more with
    | zero => exact inside
    | succ more ih => exact ih (located.elder_mem inside (by omega))
  refine ⟨Nat.findGreatest stands bound, fun ordinal => ⟨fun inside => ⟨?_, ?_⟩, ?_⟩⟩
  · obtain ⟨placed, member, path⟩ := List.mem_map.mp inside
    exact located.positive placed member ordinal (by rw [path]; exact List.mem_concat_self)
  · exact Nat.le_findGreatest (bounded ordinal inside) inside
  · rintro ⟨first, below⟩
    have last : stands (Nat.findGreatest stands bound) :=
      Nat.findGreatest_of_ne_zero rfl (by omega)
    apply downwards ordinal (Nat.findGreatest stands bound - ordinal) first
    rw [Nat.add_sub_cancel' below]
    exact last

end Located

/-- The calls cut in front of each call of depth zero. -/
def trees (calls : List PlacedCall) : List (List PlacedCall) :=
  calls.splitBy fun _ after => after.call.depth ≠ 0

theorem rooted_of_mem_trees {calls tree : List PlacedCall}
    (begins : ∀ first ∈ calls.head?, first.call.depth = 0) (member : tree ∈ trees calls) :
    ∃ root inner, tree = root :: inner ∧ root.call.depth = 0 ∧
      ∀ placed ∈ inner, placed.call.depth ≠ 0 := by
  have heads : ∀ piece ∈ trees calls, ∀ first ∈ piece.head?, first.call.depth = 0 := by
    refine (List.isChain_getLast_head_splitBy _ calls).induction
      (fun piece => ∀ first ∈ piece.head?, first.call.depth = 0) (trees calls) ?_ ?_
    · rintro piece after ⟨_, occupied, cut⟩ _ first here
      rw [List.head_of_mem_head? here] at cut
      simpa using cut
    · intro occupied first here
      have filled : calls ≠ [] := List.splitBy_ne_nil.mp occupied
      have same : ((trees calls).head occupied).head _ = calls.head filled :=
        List.head_head_splitBy _ filled
      rw [List.head_of_mem_head? here] at same
      apply begins
      rw [List.head?_eq_some_head filled, same]
      rfl
  have inner := List.isChain_of_mem_splitBy member
  cases tree with
  | nil => exact absurd rfl (List.ne_nil_of_mem_splitBy member)
  | cons root rest =>
      refine ⟨root, rest, rfl, heads _ member root rfl, ?_⟩
      obtain ⟨next, later⟩ := List.isChain_cons.mp inner
      refine later.induction (fun placed => placed.call.depth ≠ 0) rest ?_ ?_
      · intro placed after uncut _
        simpa using uncut
      · intro occupied
        simpa using next _ (List.head_mem_head? occupied)

/-- A piece of calls whose paths are a chain is located by them. -/
theorem located_of_mem_trees {calls tree : List PlacedCall}
    (numbered : CallPath.Numbered (calls.map PlacedCall.path))
    (depth : ∀ placed ∈ calls, placed.path.length = placed.call.depth)
    (member : tree ∈ trees calls) : Located tree := by
  have part : tree <:+: calls := by
    rw [← List.flatten_splitBy (fun _ after => after.call.depth ≠ 0) calls]
    exact List.infix_of_mem_flatten member
  have within : ∀ placed ∈ tree, placed ∈ calls := fun placed inside => part.subset inside
  have begins : ∀ first ∈ calls.head?, first.call.depth = 0 := by
    intro first here
    rw [← depth first (List.mem_of_mem_head? here), numbered.begins first.path]
    · rfl
    · rw [List.head?_map, here]
      rfl
  obtain ⟨root, inner, shape, outermost, deeper⟩ := rooted_of_mem_trees begins member
  have own : CallPath.Numbered (tree.map PlacedCall.path) := by
    refine ⟨?_, numbered.chain.infix (part.map PlacedCall.path)⟩
    rw [shape]
    intro first here
    cases here
    rw [← List.length_eq_zero_iff, depth root (within root (by rw [shape]; exact List.mem_cons_self)),
      outermost]
  refine ⟨⟨root, inner, shape, outermost, deeper⟩, fun placed inside => depth placed (within _ inside),
    fun placed inside => own.positive _ (List.mem_map_of_mem inside), ?_, ?_⟩
  · refine (own.chain.imp_of_mem_tail_imp ?_).pairwise
    intro path after _ later follows
    apply follows.lt
    rw [shape] at later
    obtain ⟨placed, inside, rfl⟩ := List.mem_map.mp later
    have below := deeper placed inside
    rw [← depth placed (within placed (by rw [shape]; exact List.mem_cons_of_mem _ inside))] at below
    exact fun bare => below (by rw [bare]; rfl)
  · intro front placed back split above ordinal path
    rw [split, List.map_append, List.map_cons, path] at own
    exact own.gapless

/--
The calls that are taken out of a tree, cut in front of each call of depth zero, are located by their
paths. In each piece a path is as long as its call is deep, its ordinals count from one, so that
counting from zero loses nothing, and the paths grow in lexicographic order; in front of a call stand
the call around it and its elder sibling. So each path tells one call of the piece, counted from
one or from zero, and the ordinals below any path run from one without a gap.
-/
theorem paths_locate_calls (maxDepth : Nat) (operations : List Operation) :
    let calls := (ofOperations maxDepth operations).finish.1
    (trees calls).flatten = calls ∧
      ∀ tree ∈ trees calls, Located tree ∧
        (∀ placed ∈ tree, placed.path.zeroBased.map (· + 1) = placed.path) ∧
        (tree.map PlacedCall.path).Nodup ∧
        (tree.map fun placed => placed.path.zeroBased).Nodup ∧
        ∀ above, ∃ count, ∀ ordinal, above ++ [ordinal] ∈ tree.map PlacedCall.path ↔
          1 ≤ ordinal ∧ ordinal ≤ count := by
  intro calls
  have holds := Holds.ofOperations maxDepth operations
  obtain ⟨numbered, lengths⟩ := Ledger.numbered maxDepth operations
  rw [← holds.finish_paths] at numbered lengths
  have depths : calls.map (fun placed => placed.call.depth) =
      (Ledger.ofOperations maxDepth operations).depths := by
    have results := congrArg (List.map Call.depth) holds.finish_calls
    rw [List.map_map, List.map_map] at results
    exact results
  rw [← depths, List.map_map] at lengths
  have depth := List.map_inj_left.mp lengths
  refine ⟨List.flatten_splitBy _ calls, fun tree member => ?_⟩
  have located := located_of_mem_trees numbered depth member
  exact ⟨located, fun placed inside => CallPath.map_succ_zeroBased (located.positive placed inside),
    located.nodup, located.nodup_zeroBased, located.children⟩

/-- Two trees, with an early exit and a refused call inside the first one. -/
theorem paths_of_two_trees_locate_calls :
    let call (depth : Nat) := Call.plain .call depth (.zero 20) (.zero 20)
    let operations := [.enter (call 0), .enter (call 1), .enter (call 2), .exit 1 [],
      .enter (call 4), .enter (call 3), .enter (call 1), .enter (call 2), .enter (call 0),
      .enter (call 1)]
    let calls := (ofOperations 16 operations).finish.1
    (trees calls).map (List.map PlacedCall.path) =
        [[[], [1], [1, 1], [1, 1, 1], [2], [2, 1]], [[], [1]]] ∧
      ∀ tree ∈ trees calls, Located tree := by
  intro call operations calls
  exact ⟨by decide, fun tree member => ((paths_locate_calls 16 operations).2 tree member).1⟩

end CallTree

end EvmTrace
