import EvmTrace.CommandLine
import EvmTrace.Proofs.Csv.Lines
import EvmTrace.Proofs.Store.DocumentFile

set_option autoImplicit false

namespace EvmTrace.CommandLine

/-- The answer about the document of a trace in a file if the given number of steps is counted. -/
def approval (path : String) (trace : Trace) (steps : Nat) : Reply :=
  success <| "Validating trace: " ++ path ++ "\n" ++
    unlines
      ["✓ Valid trace JSON",
       "  Version: " ++ Document.currentVersion,
       "  Block: " ++ toString trace.metadata.block.toNat,
       "  Transaction: " ++ Hex.text trace.metadata.hash.bytes,
       "  Gas Used: " ++ toString trace.metadata.gasUsed.toNat,
       "  Opcode Steps: " ++ toString steps,
       "  Calls: " ++ toString trace.calls.length,
       "  Events: " ++ toString trace.logs.length,
       "  Transfers: " ++ toString trace.transfers.length]

variable {now : StateM FileTree String} {directory : String} {trace : Trace}
variable {tree after : FileTree}

theorem validate_of_readDocument {path : String} {document : Document}
    (good : document.badTables = [])
    (read : (Store.readDocument path : StateM FileTree _) tree = (.ok document, tree)) :
    (validate path : StateM FileTree _) tree =
      (success ("Validating trace: " ++ path ++ "\n" ++ documentText document), tree) := by
  rw [validate, FileTree.bind_apply, read]
  simp only [good, FileTree.pure_apply]

theorem success_documentText_ofTrace (time path : String) (trace : Trace) :
    success ("Validating trace: " ++ path ++ "\n" ++ documentText (Document.ofTrace time trace)) =
      approval path trace (Csv.stepLines trace.steps) := by
  simp only [documentText, approval, Document.ofTrace, Csv.rows_steps, Csv.rows_calls,
    Csv.rows_logs, Csv.rows_transfers]

theorem validate_of_written
    (written : (Sink.documents now directory).write trace tree = (.ok (), after)) :
    (validate (Store.documentPath directory trace) : StateM FileTree _) after =
      (approval (Store.documentPath directory trace) trace (Csv.stepLines trace.steps), after) := by
  simp only [Sink.documents, FileTree.bind_apply] at written
  have found := Store.contents_of_writeDocument written
  have read := Store.readDocument_of_contents found
  rw [validate_of_readDocument (Document.badTables_ofTrace _ trace) read,
    success_documentText_ofTrace]

/--
The document that was written for a trace is good, and its calls, logs and transfers are counted as
they are. Its steps are counted as they are exactly if no opcode and no output holds a line feed.
-/
theorem validation_counts_lines_of_steps (now : StateM FileTree String) (directory : String)
    (trace : Trace) (tree after : FileTree)
    (written : (Sink.documents now directory).write trace tree = (.ok (), after)) :
    let path := Store.documentPath directory trace
    (validate path : StateM FileTree _) after =
        (approval path trace (Csv.stepLines trace.steps), after) ∧
      (Csv.stepLines trace.steps = trace.steps.length ↔
        ∀ step ∈ trace.steps, '\n' ∉ step.opcode.toList ∧ '\n' ∉ step.output.toList) :=
  ⟨validate_of_written written, Csv.stepLines_eq_length_iff trace.steps⟩

/-- The document of three steps is counted as one of five, as two of their texts are broken. -/
theorem validation_counts_five_lines_of_three_steps :
    let texts := [("LOG0", "a\nb"), ("PUSH1", "\r,\""), ("x\r\ny", "")]
    let trace : Trace :=
      { metadata :=
          { block := 1, hash := .zero 32, sender := .zero 20, recipient := none, value := 0
            gasPrice := 0, gasUsed := 21000 }
        steps := texts.map fun (opcode, output) => ⟨0, 1, opcode, 3, 3, output⟩
        calls := [], logs := [], transfers := [] }
    let sink : Sink (StateM FileTree) := .documents (pure "") "out"
    ∃ after, sink.write trace FileTree.empty = (.ok (), after) ∧
      (validate (Store.documentPath "out" trace) : StateM FileTree _) after =
        (approval (Store.documentPath "out" trace) trace 5, after) ∧
      trace.steps.length = 3 := by
  intro texts trace sink
  let wrote := sink.write trace FileTree.empty
  have accepted : wrote.1 = .ok () := by decide +kernel
  have written : sink.write trace FileTree.empty = (.ok (), wrote.2) := Prod.ext accepted rfl
  have counted : Csv.stepLines trace.steps = 5 := by decide +kernel
  have validated :=
    (validation_counts_lines_of_steps (pure "") "out" trace .empty wrote.2 written).1
  rw [counted] at validated
  exact ⟨wrote.2, written, validated, rfl⟩

/-- A step whose output has two lines is counted twice. -/
theorem step_of_two_lines_is_counted_twice :
    ¬∀ (now : StateM FileTree String) (directory : String) (trace : Trace) (tree after : FileTree),
      (Sink.documents now directory).write trace tree = (.ok (), after) →
        (validate (Store.documentPath directory trace) : StateM FileTree _) after =
          (approval (Store.documentPath directory trace) trace trace.steps.length, after) := by
  intro promised
  let trace : Trace :=
    { metadata :=
        { block := 1, hash := .zero 32, sender := .zero 20, recipient := none, value := 0
          gasPrice := 0, gasUsed := 21000 }
      steps := [⟨0, 1, "LOG0", 3, 3, "a\nb"⟩], calls := [], logs := [], transfers := [] }
  let sink : Sink (StateM FileTree) := .documents (pure "") "out"
  let wrote := sink.write trace FileTree.empty
  have accepted : wrote.1 = .ok () := by decide +kernel
  have written : sink.write trace FileTree.empty = (.ok (), wrote.2) := Prod.ext accepted rfl
  have shown := validate_of_written written
  rw [promised (pure "") "out" trace _ _ written] at shown
  have apart : approval (Store.documentPath "out" trace) trace trace.steps.length ≠
      approval (Store.documentPath "out" trace) trace (Csv.stepLines trace.steps) := by
    decide +kernel
  exact apart (congrArg Prod.fst shown)

end EvmTrace.CommandLine
