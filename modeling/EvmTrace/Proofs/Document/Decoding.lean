import EvmTrace.Document
import EvmTrace.Proofs.Csv.Entries

set_option autoImplicit false

namespace EvmTrace.Document

open Csv (uint64? fixed? word? optional?)

def metadata? (document : Document) : Option Metadata := do
  some { block := ← uint64? document.block, hash := ← fixed? 32 document.hash
         sender := ← fixed? 20 document.sender
         recipient := ← optional? (fixed? 20) document.recipient
         value := ← word? document.value, gasPrice := ← word? document.gasPrice
         gasUsed := ← uint64? document.gasUsed }

def trace? (document : Document) : Option Trace := do
  some { metadata := ← document.metadata?
         steps := ← Csv.entries? Csv.stepColumns Csv.step? document.steps
         calls := ← Csv.entries? Csv.callColumns Csv.call? document.calls
         logs := ← Csv.entries? Csv.logColumns Csv.log? document.logs
         transfers := ← Csv.entries? Csv.transferColumns Csv.transfer? document.transfers }

/-- A document without the time at which it was made. -/
def undated (document : Document) : Document :=
  { document with generatedAt := "" }

variable (now later : String) (trace other : Trace)

theorem metadata?_ofTrace : (ofTrace now trace).metadata? = some trace.metadata := by
  have recipient : optional? (fixed? 20) (ofTrace now trace).recipient =
      some trace.metadata.recipient :=
    Csv.optional?_getD Csv.fixed?_fixed Csv.fixed_ne_empty trace.metadata.recipient
  have hash : fixed? 32 (ofTrace now trace).hash = some trace.metadata.hash :=
    Csv.fixed?_fixed trace.metadata.hash
  have sender : fixed? 20 (ofTrace now trace).sender = some trace.metadata.sender :=
    Csv.fixed?_fixed trace.metadata.sender
  rw [metadata?, hash, sender, recipient]
  simp only [ofTrace, Csv.uint64?_toString, Csv.word?_decimal, Option.bind_eq_bind,
    Option.bind_some]

theorem trace?_ofTrace : (ofTrace now trace).trace? = some trace := by
  rw [trace?, metadata?_ofTrace]
  simp only [ofTrace, Csv.entries?_steps, Csv.entries?_calls, Csv.entries?_logs,
    Csv.entries?_transfers, Option.bind_eq_bind, Option.bind_some]

theorem trace?_undated (document : Document) : document.undated.trace? = document.trace? := rfl

/--
A document tells the trace that it was made of: the trace is decoded from it without the time, and
two documents agree in all but the time exactly if they were made of one trace.
-/
theorem trace_is_decoded_from_document :
    (ofTrace now trace).undated.trace? = some trace ∧
      ((ofTrace now trace).undated = (ofTrace later other).undated ↔ trace = other) := by
  refine ⟨?_, ?_, ?_⟩
  · rw [trace?_undated, trace?_ofTrace]
  · intro same
    have decoded := congrArg trace? same
    rw [trace?_undated, trace?_undated, trace?_ofTrace, trace?_ofTrace] at decoded
    exact Option.some.inj decoded
  · rintro rfl
    rfl

end EvmTrace.Document
