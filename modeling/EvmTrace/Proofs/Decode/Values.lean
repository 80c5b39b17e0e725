import EvmTrace.Proofs.Bytes.Hex
import EvmTrace.Proofs.Json.Reordered
import EvmTrace.Proofs.Word.Hex
import EvmTrace.Trace.Codec

set_option autoImplicit false

namespace EvmTrace

namespace Decode

open Json (Reordered ReorderedItems)

/-- Whatever the order of the members in it, what was written is read as the given value. -/
def Reads {ε α : Type} (decode : Json → Except ε α) (written : Json) (value : α) : Prop :=
  ∀ json, written.Reordered json → decode json = .ok value

variable {α : Type}

theorem reads_of_string {decode : Decoder α} {text : String} {value : α}
    (read : decode (.string text) = .ok value) : Reads decode (.string text) value := by
  intro json same
  cases same
  exact read

theorem reads_of_int {decode : Decoder α} {n : Int} {value : α}
    (read : decode (.int n) = .ok value) : Reads decode (.int n) value := by
  intro json same
  cases same
  exact read

theorem reads_count (n : Nat) : Reads count (.ofNat n) n := by
  apply reads_of_int
  have positive : ¬(n : Int) < 0 := by omega
  rw [count, if_neg positive, Int.toNat_natCast]

theorem reads_uint64 (n : UInt64) : Reads uint64 (.ofUInt64 n) n := by
  apply reads_of_int
  have positive : ¬(n.toNat : Int) < 0 := by omega
  have bound : n.toNat < UInt64.size := n.toNat_lt
  rw [uint64, if_neg positive, Int.toNat_natCast, if_pos bound, UInt64.ofNat_toNat]

theorem reads_text (text : String) : Reads Decode.text (.string text) text :=
  reads_of_string rfl

theorem reads_bytes (bytes : Bytes) : Reads Decode.bytes (.ofBytes bytes) bytes := by
  apply reads_of_string
  rw [Decode.bytes, Hex.read_text]

theorem reads_fixed {size : Nat} (b : FixedBytes size) : Reads (fixedBytes size) (.ofFixed b) b := by
  apply reads_of_string
  rw [fixedBytes, Hex.readFixed_text]
  rfl

theorem reads_word (w : Word) : Reads word (.ofWord w) w := by
  apply reads_of_string
  rw [word, Word.read?_hex]

/-- A variant is read from its name, whatever it may stand beside. -/
theorem reads_variant (payload : Payload) {variants : List (String × α)} {name : String} {value : α}
    (found : named variants name = .ok value) :
    Reads (variant payload variants) (.string name) value :=
  reads_of_string found

theorem reads_items {decode : Decoder α} {write : α → Json} {values : List α}
    (each : ∀ value ∈ values, Reads decode (write value) value) {others : List Json}
    (same : ReorderedItems (values.map write) others) : items decode others = .ok values := by
  induction values generalizing others with
  | nil =>
      cases same
      rfl
  | cons value rest ih =>
      cases same with
      | cons first later =>
          have read := each value List.mem_cons_self _ first
          have readLater := ih (fun other inside => each other (List.mem_cons_of_mem value inside))
            later
          rw [items, read]
          simp only [readLater]

theorem reads_list {decode : Decoder α} {write : α → Json} {values : List α}
    (each : ∀ value ∈ values, Reads decode (write value) value) :
    Reads (list decode) (.array (values.map write)) values := by
  intro json same
  cases same with
  | array others => exact reads_items each others

theorem reads_path (path : CallPath) : Reads (list count) (.ofPath path) path :=
  reads_list fun n _ => reads_count n

/-- Null stands for an absent value, so that no value that is there may be written as null. -/
theorem reads_optional {decode : Decoder α} {write : α → Json}
    (each : ∀ value, Reads decode (write value) value)
    (shown : ∀ value, write value ≠ .null) (value : Option α) :
    Reads (optional decode) (.ofOption write value) value := by
  intro json same
  cases value with
  | none =>
      cases same
      rfl
  | some value =>
      have read := each value json same
      have present : json ≠ .null := by
        intro absent
        rw [absent] at same
        change (write value).Reordered .null at same
        generalize written : write value = json at same
        cases same
        exact shown value written
      rw [optional, read]
      · rfl
      · exact present

end Decode

open Decode

theorem Json.ofFixed_ne_null {size : Nat} (b : FixedBytes size) : Json.ofFixed b ≠ .null :=
  Json.noConfusion

theorem CallKind.reads (payload : Payload) (kind : CallKind) :
    Reads (CallKind.decode payload) kind.toJson kind :=
  reads_variant payload (by cases kind <;> rfl)

theorem TokenStandard.reads (standard : TokenStandard) :
    Reads TokenStandard.decode standard.toJson standard :=
  reads_variant .null (by cases standard <;> rfl)

theorem TokenFunction.reads (function : TokenFunction) :
    Reads TokenFunction.decode function.toJson function :=
  reads_variant .null (by cases function <;> rfl)

theorem TransferKind.reads (kind : TransferKind) :
    Reads TransferKind.decode kind.toJson kind :=
  reads_variant .null (by cases kind <;> rfl)

end EvmTrace
