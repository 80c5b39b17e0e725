import EvmTrace.Proofs.Classification

set_option autoImplicit false

namespace EvmTrace

namespace Word

/-- The last bytes of a number, most significant byte first. -/
def bytesOf : Nat → Nat → Bytes
  | 0, _ => []
  | size + 1, n => bytesOf size (n / 256) ++ [UInt8.ofNat n]

theorem length_bytesOf (size n : Nat) : (bytesOf size n).length = size := by
  induction size generalizing n with
  | zero => rfl
  | succ size ih => rw [bytesOf, List.length_append, ih, List.length_singleton]

theorem natOfBytes_bytesOf (size n : Nat) : natOfBytes (bytesOf size n) = n % 256 ^ size := by
  induction size generalizing n with
  | zero => exact (Nat.mod_one n).symm
  | succ size ih =>
      have split : n % (256 * 256 ^ size) = n % 256 + 256 * (n / 256 % 256 ^ size) := Nat.mod_mul
      have digit : (UInt8.ofNat n).toNat = n % 256 := UInt8.toNat_ofNat'
      rw [bytesOf, natOfBytes_snoc, ih, digit, Nat.pow_succ, Nat.mul_comm (256 ^ size), split,
        Nat.add_comm, Nat.mul_comm 256]

theorem bytesOf_natOfBytes (bytes : Bytes) :
    bytesOf bytes.length (natOfBytes bytes) = bytes := by
  induction bytes using List.reverseRecOn with
  | nil => rfl
  | append_singleton bytes last ih =>
      have bound := last.toNat_lt
      have upper : (natOfBytes bytes * 256 + last.toNat) / 256 = natOfBytes bytes := by omega
      have lower : UInt8.ofNat (natOfBytes bytes * 256 + last.toNat) = last := by
        apply UInt8.toNat_inj.mp
        have digit : (UInt8.ofNat (natOfBytes bytes * 256 + last.toNat)).toNat =
          (natOfBytes bytes * 256 + last.toNat) % 256 := UInt8.toNat_ofNat'
        omega
      rw [natOfBytes_snoc, List.length_append, List.length_singleton, bytesOf, upper, ih, lower]

/-- The topic that holds a word. -/
def topic (w : Word) : Hash :=
  ⟨bytesOf 32 w.toNat, length_bytesOf 32 w.toNat⟩

theorem ofBytes_topic (w : Word) : ofBytes w.topic.bytes = w := by
  apply BitVec.eq_of_toNat_eq
  rw [toNat_ofBytes _ (Nat.le_of_eq w.topic.length_bytes), topic, natOfBytes_bytesOf]
  exact Nat.mod_eq_of_lt w.isLt

/-- The topic of the word that 32 bytes denote holds these bytes. -/
theorem bytes_topic_ofBytes {bytes : Bytes} (length : bytes.length = 32) :
    (ofBytes bytes).topic.bytes = bytes := by
  have number := toNat_ofBytes bytes (Nat.le_of_eq length)
  calc (ofBytes bytes).topic.bytes = bytesOf 32 (ofBytes bytes).toNat := rfl
    _ = bytesOf bytes.length (natOfBytes bytes) := by rw [number, length]
    _ = bytes := bytesOf_natOfBytes bytes

theorem topic_ofHash (topic : Hash) : (ofHash topic).topic = topic :=
  FixedBytes.ext (bytes_topic_ofBytes topic.length_bytes)

end Word

namespace Address

/-- A topic that names an account, with any bytes above the account's. -/
def topic (account : Address) (upper : FixedBytes 12) : Hash :=
  ⟨upper.bytes ++ account.bytes, by
    rw [List.length_append, upper.length_bytes, account.length_bytes]⟩

theorem address_topic (account : Address) (upper : FixedBytes 12) :
    Hash.address (topic account upper) = account := by
  apply FixedBytes.ext
  change (upper.bytes ++ account.bytes).drop 12 = account.bytes
  exact List.drop_left' upper.length_bytes

/-- Every topic names an account. -/
theorem exists_topic (topic : Hash) : ∃ upper, Address.topic topic.address upper = topic := by
  refine ⟨⟨topic.bytes.take 12, ?_⟩, FixedBytes.ext (List.take_append_drop 12 topic.bytes)⟩
  rw [List.length_take, topic.length_bytes]
  rfl

end Address

end EvmTrace
