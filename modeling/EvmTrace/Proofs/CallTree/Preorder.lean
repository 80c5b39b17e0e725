import EvmTrace.Proofs.CallTree.Tracking

set_option autoImplicit false

namespace EvmTrace

namespace Depths

theorem paths_getElem? (depths : List Nat) (position : Nat) :
    (paths depths)[position]? =
      depths[position]?.map fun depth => pathAt depths depth position := by
  rw [paths, List.getElem?_mapIdx]

/-- A path is read off one parent link and the path at its end. -/
theorem paths_of_parent {depths : List Nat} {position depth parent : Nat}
    (stands : depths[position]? = some (depth + 1))
    (found : lastBefore depths depth position = some parent) :
    parent? depths position = some parent ∧
      ∃ path, (paths depths)[parent]? = some path ∧
        (paths depths)[position]? = some (path ++ [childrenBefore depths parent position + 1]) := by
  have above := (lastBefore_some found).2
  refine ⟨?_, pathAt depths depth parent, ?_, ?_⟩
  · rw [parent?, stands]
    exact found
  · rw [paths_getElem?, above]
    rfl
  · rw [paths_getElem?, stands, Option.map_some, pathAt, found]

end Depths

namespace Holds

/-- The calls that are taken out are those of the ledger, whatever exits have written to them. -/
theorem finish_calls {tree : CallTree} {maxDepth : Nat} {ledger : Ledger}
    (holds : Holds tree maxDepth ledger) :
    tree.finish.1.map PlacedCall.call = ledger.map Entry.result := by
  rw [(CallTree.branch_finish holds.wellFormed).1, holds.tracks.calls]

theorem finish_paths {tree : CallTree} {maxDepth : Nat} {ledger : Ledger}
    (holds : Holds tree maxDepth ledger) :
    tree.finish.1.map PlacedCall.path = Depths.paths ledger.depths := by
  rw [(CallTree.branch_finish holds.wellFormed).1, holds.tracks.paths]

/-- Nothing is left in a tree whose calls have been taken out. -/
theorem finish_finish {tree : CallTree} {maxDepth : Nat} {ledger : Ledger}
    (holds : Holds tree maxDepth ledger) : tree.finish.2.finish.1 = [] := by
  obtain ⟨_, branch, wellFormed⟩ := CallTree.branch_finish holds.wellFormed
  rw [(CallTree.branch_finish wellFormed).1, branch, Branch.calls_empty]

end Holds

namespace CallTree

/--
After any operations, the tree judges the next call as the ledger does, and what is taken out of it
are the accepted calls with nothing but their outputs changed. The path of a call of depth zero is
empty, and that of any other extends the path of its parent by one more than the number of children
that the parent had before.
-/
theorem finish_lists_accepted_calls (maxDepth : Nat) (operations : List Operation) :
    let tree := ofOperations maxDepth operations
    let ledger := Ledger.ofOperations maxDepth operations
    let paths := tree.finish.1.map PlacedCall.path
    (∀ call, (tree.enter call).map (fun _ => ()) = ledger.admission maxDepth call) ∧
      (tree.finish.1.map fun placed => placed.call.withoutOutput) =
        ledger.calls.map Call.withoutOutput ∧
      (∀ position : Nat, ledger.depths[position]? = some 0 → paths[position]? = some []) ∧
      (∀ position depth : Nat, ledger.depths[position]? = some (depth + 1) →
        ∃ parent path, Depths.parent? ledger.depths position = some parent ∧
          paths[parent]? = some path ∧
          paths[position]? =
            some (path ++ [Depths.childrenBefore ledger.depths parent position + 1])) ∧
      tree.finish.2.finish.1 = [] := by
  intro tree ledger paths
  have holds := Holds.ofOperations maxDepth operations
  have numbered : paths = Depths.paths ledger.depths := holds.finish_paths
  refine ⟨?_, ?_, ?_, ?_, holds.finish_finish⟩
  · intro call
    rw [holds.enter_eq call]
    cases ledger.admission maxDepth call <;> rfl
  · have outputs := congrArg (List.map Call.withoutOutput) holds.finish_calls
    rw [List.map_map, List.map_map] at outputs
    rw [Ledger.calls, List.map_map]
    exact outputs
  · intro position root
    rw [numbered, Depths.paths_getElem?, root]
    rfl
  · intro position depth stands
    have parented := holds.tracks.parented position depth stands
    rw [Depths.parent?, stands, Option.isSome_iff_exists] at parented
    obtain ⟨parent, found⟩ := parented
    obtain ⟨link, path, above, here⟩ := Depths.paths_of_parent stands found
    rw [numbered]
    exact ⟨parent, path, link, above, here⟩

end CallTree

end EvmTrace
