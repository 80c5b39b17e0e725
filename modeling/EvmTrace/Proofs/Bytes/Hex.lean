import EvmTrace.Bytes.Hex
import EvmTrace.Text

set_option autoImplicit false

namespace EvmTrace.Hex

theorem forall_mem_text {p : Char → Prop} (marker : p 'x')
    (digit : ∀ d : Fin 16, p (Nat.digitChar d)) (bytes : Bytes) :
    ∀ c ∈ (text bytes).toList, p c := by
  intro c inside
  simp only [text, body, digits, String.toList_ofList, List.mem_cons, List.mem_flatMap,
    List.not_mem_nil, or_false] at inside
  rcases inside with rfl | rfl | ⟨byte, _, rfl | rfl⟩
  · exact digit 0
  · exact marker
  · exact digit ⟨byte.toNat / 16, by have := byte.toNat_lt; omega⟩
  · exact digit ⟨byte.toNat % 16, by omega⟩

def digitByte (digit : Nat) : UInt8 :=
  UInt8.ofNat (Nat.digitChar digit).toNat

theorem encode_digitChar (digit : Nat) (small : digit < 16) :
    String.utf8EncodeChar (Nat.digitChar digit) = [digitByte digit] := by
  have all : ∀ d : Fin 16, String.utf8EncodeChar (Nat.digitChar d) = [digitByte d] := by decide
  exact all ⟨digit, small⟩

theorem digitValue?_digitByte (digit : Nat) (small : digit < 16) :
    digitValue? (digitByte digit) = some (UInt8.ofNat digit) := by
  have all : ∀ d : Fin 16, digitValue? (digitByte d) = some (UInt8.ofNat d) := by decide
  exact all ⟨digit, small⟩

theorem halves_of_byte (byte : UInt8) :
    UInt8.ofNat (byte.toNat / 16) * 16 + UInt8.ofNat (byte.toNat % 16) = byte := by
  have bound := byte.toNat_lt
  apply UInt8.toNat_inj.mp
  rw [UInt8.toNat_add, UInt8.toNat_mul, UInt8.toNat_ofNat', UInt8.toNat_ofNat']
  have base : (16 : UInt8).toNat = 16 := rfl
  rw [base]
  omega

/-- The bytes of the two digits of each byte. -/
def bodyBytes (bytes : Bytes) : Bytes :=
  bytes.flatMap fun byte => [digitByte (byte.toNat / 16), digitByte (byte.toNat % 16)]

theorem length_bodyBytes (bytes : Bytes) : (bodyBytes bytes).length = 2 * bytes.length := by
  induction bytes with
  | nil => rfl
  | cons byte rest ih =>
      change (bodyBytes rest).length + 2 = 2 * (rest.length + 1)
      omega

theorem encode_body (bytes : Bytes) :
    (body bytes).flatMap String.utf8EncodeChar = bodyBytes bytes := by
  induction bytes with
  | nil => rfl
  | cons byte rest ih =>
      have high := encode_digitChar (byte.toNat / 16) (by have := byte.toNat_lt; omega)
      have low := encode_digitChar (byte.toNat % 16) (by omega)
      have first : (digits byte).flatMap String.utf8EncodeChar =
          [digitByte (byte.toNat / 16), digitByte (byte.toNat % 16)] := by
        simp [digits, high, low]
      rw [body, List.flatMap_cons, List.flatMap_append, first, bodyBytes, List.flatMap_cons]
      exact congrArg _ ih

theorem unmarked_encode_text (bytes : Bytes) :
    unmarked (Text.encode (text bytes)) = bodyBytes bytes := by
  have marker : Text.encode (text bytes) = 48 :: 120 :: bodyBytes bytes := by
    rw [Text.encode, text, String.toList_ofList, ← encode_body]
    rfl
  rw [marker, unmarked]

theorem bytesOf_bodyBytes (position : Nat) (bytes : Bytes) :
    bytesOf position (bodyBytes bytes) = .ok bytes := by
  induction bytes generalizing position with
  | nil => rfl
  | cons byte rest ih =>
      have high := digitValue?_digitByte (byte.toNat / 16) (by have := byte.toNat_lt; omega)
      have low := digitValue?_digitByte (byte.toNat % 16) (by omega)
      change bytesOf position
        (digitByte (byte.toNat / 16) :: digitByte (byte.toNat % 16) :: bodyBytes rest) = _
      simp only [bytesOf, high, low, ih, halves_of_byte]

theorem read_text (bytes : Bytes) : read (Text.encode (text bytes)) = .ok bytes := by
  have even : ¬(bodyBytes bytes).length % 2 = 1 := by
    rw [length_bodyBytes]
    omega
  simp only [read, unmarked_encode_text, even, ↓reduceIte, bytesOf_bodyBytes]

/-- Different byte strings have different texts. -/
theorem text_inj {left right : Bytes} (same : text left = text right) : left = right := by
  have read_left := read_text left
  rw [same, read_text right] at read_left
  exact (Except.ok.inj read_left).symm

theorem readFixed_text {size : Nat} (b : FixedBytes size) :
    readFixed size (Text.encode (text b.bytes)) = .ok b := by
  have length : (bodyBytes b.bytes).length = 2 * size := by
    rw [length_bodyBytes, b.length_bytes]
  have even : ¬2 * size % 2 = 1 := by omega
  simp only [readFixed, unmarked_encode_text, length, even, ne_eq, not_true_eq_false, ↓reduceIte,
    bytesOf_bodyBytes, FixedBytes.ofBytes?_bytes]

end EvmTrace.Hex
