set_option autoImplicit false

namespace EvmTrace

abbrev Bytes := List UInt8

/-- A byte string of exactly `size` bytes. -/
structure FixedBytes (size : Nat) where
  /-- The bytes, first one first. -/
  bytes : Bytes
  /-- There are exactly `size` of them. -/
  length_bytes : bytes.length = size
deriving DecidableEq

namespace FixedBytes

variable {size : Nat}

/-- The given bytes, if there are exactly `size` of them. -/
def ofBytes? (size : Nat) (bytes : Bytes) : Option (FixedBytes size) :=
  if exact : bytes.length = size then some ⟨bytes, exact⟩ else none

def zero (size : Nat) : FixedBytes size :=
  ⟨List.replicate size 0, List.length_replicate⟩

/-- The trailing `keep` bytes of a longer byte string. -/
def trailing (keep : Nat) (b : FixedBytes size) (fits : keep ≤ size) : FixedBytes keep :=
  ⟨b.bytes.drop (size - keep), by simp [b.length_bytes, Nat.sub_sub_self fits]⟩

/-- Two fixed byte strings are equal when their bytes are. -/
theorem ext {left right : FixedBytes size} (same : left.bytes = right.bytes) : left = right := by
  cases left
  cases right
  simp_all

@[simp]
theorem ofBytes?_bytes (b : FixedBytes size) : ofBytes? size b.bytes = some b := by
  simp [ofBytes?, b.length_bytes]

end FixedBytes

/-- The 20-byte name of an account. -/
abbrev Address := FixedBytes 20

/-- A 32-byte digest or log topic. -/
abbrev Hash := FixedBytes 32

/-- The account named by the low 20 bytes of a topic. -/
def Hash.address (topic : Hash) : Address :=
  topic.trailing 20 (by decide)

end EvmTrace
