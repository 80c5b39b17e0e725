import EvmTrace.TokenEvent
import Mathlib.Algebra.Group.Nat.Defs
import Mathlib.Data.List.Induction

set_option autoImplicit false

namespace EvmTrace

namespace Word

theorem natOfBytes_snoc (bytes : Bytes) (last : UInt8) :
    natOfBytes (bytes ++ [last]) = natOfBytes bytes * 256 + last.toNat :=
  List.foldl_append

theorem natOfBytes_lt (bytes : Bytes) : natOfBytes bytes < 256 ^ bytes.length := by
  induction bytes using List.reverseRecOn with
  | nil => exact Nat.one_pos
  | append_singleton bytes last ih =>
      have digit := last.toNat_lt
      rw [natOfBytes_snoc, List.length_append, List.length_singleton, Nat.pow_succ]
      omega

/-- A word holds the number of as many bytes as it has room for. -/
theorem toNat_ofBytes (bytes : Bytes) (fits : bytes.length ≤ 32) :
    (ofBytes bytes).toNat = natOfBytes bytes := by
  have bound : natOfBytes bytes < 2 ^ 256 :=
    calc natOfBytes bytes < 256 ^ bytes.length := natOfBytes_lt bytes
      _ ≤ 256 ^ 32 := Nat.pow_le_pow_right (by decide) fits
      _ = 2 ^ 256 := by decide
  rw [ofBytes, BitVec.toNat_ofNat, Nat.mod_eq_of_lt bound]

end Word

namespace TokenEvent

variable {event : TokenEvent} {movement : TokenMovement}

/-- An event that moves a token is a transfer of the standard that the movement has. -/
theorem transfer_of_movement (moves : event.movement = some movement) :
    event.function = some .transfer ∧
      (movement.kind = .erc20 ∧ event.standard = some .erc20 ∨
        movement.kind = .erc721 ∧ event.standard = some .erc721) := by
  cases event with
  | erc20Transfer token sender recipient value =>
      cases moves
      exact ⟨rfl, .inl ⟨rfl, rfl⟩⟩
  | erc721Transfer token sender recipient identity =>
      cases moves
      exact ⟨rfl, .inr ⟨rfl, rfl⟩⟩
  | erc20Approval => cases moves
  | erc721Approval => cases moves
  | erc721ApprovalForAll => cases moves
  | unknown => cases moves

/-- A token that moves is no native currency. -/
theorem kind_ne_native (moves : event.movement = some movement) : movement.kind ≠ .native := by
  rcases (transfer_of_movement moves).2 with ⟨kind, _⟩ | ⟨kind, _⟩ <;> simp [kind]

theorem function_of_no_movement (still : event.movement = none) :
    event.function ≠ some .transfer := by
  cases event with
  | erc20Transfer token sender recipient value => cases still
  | erc721Transfer token sender recipient identity => cases still
  | erc20Approval => decide
  | erc721Approval => decide
  | erc721ApprovalForAll => decide
  | unknown => decide

theorem movement_ofThree {contract : Address} {signature sender recipient : Hash} {data : Bytes}
    (moves : (ofThree contract signature sender recipient data).movement = some movement) :
    signature = transferTopic ∧ 32 ≤ data.length ∧
      movement =
        { token := contract, sender := sender.address, recipient := recipient.address
          value := Word.ofBytes (data.take 32), kind := .erc20 } := by
  unfold ofThree leadingWord at moves
  split at moves
  · rename_i named
    by_cases enough : 32 ≤ data.length
    · rw [if_pos enough] at moves
      cases moves
      exact ⟨named, enough, rfl⟩
    · rw [if_neg enough] at moves
      cases moves
  · split at moves <;> cases moves

theorem movement_ofFour {contract : Address} {signature sender recipient last : Hash}
    (moves : (ofFour contract signature sender recipient last).movement = some movement) :
    signature = transferTopic ∧
      movement =
        { token := contract, sender := sender.address, recipient := recipient.address
          value := Word.ofHash last, kind := .erc721 } := by
  unfold ofFour at moves
  split at moves
  · rename_i named
    cases moves
    exact ⟨named, rfl⟩
  · split at moves
    · cases moves
    · split at moves <;> cases moves

/-- The two shapes of a log that moves a token. -/
theorem movement_classify {topics : List Hash} {data : Bytes} {contract : Address}
    (moves : (classify topics data contract).movement = some movement) :
    ∃ sender recipient : Hash,
      (topics = [transferTopic, sender, recipient] ∧ 32 ≤ data.length ∧
        movement =
          { token := contract, sender := sender.address, recipient := recipient.address
            value := Word.ofBytes (data.take 32), kind := .erc20 }) ∨
      ∃ last : Hash, topics = [transferTopic, sender, recipient, last] ∧
        movement =
          { token := contract, sender := sender.address, recipient := recipient.address
            value := Word.ofHash last, kind := .erc721 } := by
  unfold classify at moves
  split at moves
  · rename_i signature sender recipient
    obtain ⟨rfl, enough, told⟩ := movement_ofThree moves
    exact ⟨sender, recipient, .inl ⟨rfl, enough, told⟩⟩
  · rename_i signature sender recipient last
    obtain ⟨rfl, told⟩ := movement_ofFour moves
    exact ⟨sender, recipient, .inr ⟨last, rfl, told⟩⟩
  · cases moves

end TokenEvent

end EvmTrace
