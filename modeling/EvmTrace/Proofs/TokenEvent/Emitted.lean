import EvmTrace.Bytes.Hex
import EvmTrace.Proofs.Word.Topic
import Mathlib.Data.List.Nodup

/-!
The logs in which contracts emit token events, and no others, are recognised. The digests of the
three signatures differ, so no log is taken for another event; the movement of a token is read back
from the bytes that it was written to.
-/

set_option autoImplicit false

namespace EvmTrace

theorem text_transferTopic : Hex.text transferTopic.bytes =
    "0xddf252ad1be2c89b69c2b068fc378daa952ba7f163c4a11628f55a4df523b3ef" := by
  decide +kernel

theorem text_approvalTopic : Hex.text approvalTopic.bytes =
    "0x8c5be1e5ebec7d5bd14f71427d1e84f3dd0314c0f7b2291e5b200ac8c7c3b925" := by
  decide +kernel

theorem text_approvalForAllTopic : Hex.text approvalForAllTopic.bytes =
    "0x17307eab39ab6107e8899845ad3d59bd9653f200f220920489ca2b5937696c31" := by
  decide +kernel

/-- No two of the signatures have the same digest. -/
theorem topics_distinct : [transferTopic, approvalTopic, approvalForAllTopic].Nodup := by
  apply List.Nodup.of_map fun topic => Hex.text topic.bytes
  rw [List.map_cons, List.map_cons, List.map_singleton, text_transferTopic, text_approvalTopic,
    text_approvalForAllTopic]
  decide

theorem approvalTopic_ne_transferTopic : approvalTopic ≠ transferTopic := by
  have apart := topics_distinct
  simp only [List.nodup_cons, List.mem_cons, not_or] at apart
  exact Ne.symm apart.1.1

theorem approvalForAllTopic_ne :
    approvalForAllTopic ≠ transferTopic ∧ approvalForAllTopic ≠ approvalTopic := by
  have apart := topics_distinct
  simp only [List.nodup_cons, List.mem_cons, not_or] at apart
  exact ⟨Ne.symm apart.1.2.1, Ne.symm apart.2.1.1⟩

namespace TokenEvent

/-- The topics and the data of the logs in which a contract emits a token event. -/
inductive Emitted (contract : Address) : TokenEvent → List Hash → Bytes → Prop where
  | erc20Transfer (sender recipient : Address) (value : Word) (first second : FixedBytes 12)
      (tail : Bytes) :
      Emitted contract (.erc20Transfer contract sender recipient value)
        [transferTopic, Address.topic sender first, Address.topic recipient second]
        (value.topic.bytes ++ tail)
  | erc721Transfer (sender recipient : Address) (identity : Word) (first second : FixedBytes 12)
      (data : Bytes) :
      Emitted contract (.erc721Transfer contract sender recipient identity)
        [transferTopic, Address.topic sender first, Address.topic recipient second, identity.topic]
        data
  | erc20Approval (owner spender : Hash) (data : Bytes) :
      Emitted contract .erc20Approval [approvalTopic, owner, spender] data
  | erc721Approval (owner spender identity : Hash) (data : Bytes) :
      Emitted contract .erc721Approval [approvalTopic, owner, spender, identity] data
  | erc721ApprovalForAll (owner operator approved : Hash) (data : Bytes) :
      Emitted contract .erc721ApprovalForAll [approvalForAllTopic, owner, operator, approved] data

/-- The topics and the data in which no token event is emitted. -/
def Unrecognised : List Hash → Bytes → Prop
  | [signature, _, _], data =>
    signature ≠ approvalTopic ∧ (signature = transferTopic → data.length < 32)
  | [signature, _, _, _], _ =>
    signature ≠ transferTopic ∧ signature ≠ approvalTopic ∧ signature ≠ approvalForAllTopic
  | _, _ => True

variable {contract : Address} {event : TokenEvent} {topics : List Hash} {data : Bytes}

theorem leadingWord_topic (value : Word) (tail : Bytes) :
    leadingWord (value.topic.bytes ++ tail) = some value := by
  have length := value.topic.length_bytes
  have front : (value.topic.bytes ++ tail).take 32 = value.topic.bytes := List.take_left' length
  rw [leadingWord, if_pos (by rw [List.length_append]; omega), front, Word.ofBytes_topic]

/-- An event that is emitted is recognised. -/
theorem Emitted.classify_eq (emitted : Emitted contract event topics data) :
    classify topics data contract = event := by
  cases emitted with
  | erc20Transfer sender recipient value first second tail =>
      rw [classify, ofThree, if_pos rfl, leadingWord_topic, Address.address_topic,
        Address.address_topic]
  | erc721Transfer sender recipient identity first second data =>
      rw [classify, ofFour, if_pos rfl, Address.address_topic, Address.address_topic, Word.ofHash,
        Word.ofBytes_topic]
  | erc20Approval owner spender data =>
      rw [classify, ofThree, if_neg approvalTopic_ne_transferTopic, if_pos rfl]
  | erc721Approval owner spender identity data =>
      rw [classify, ofFour, if_neg approvalTopic_ne_transferTopic, if_pos rfl]
  | erc721ApprovalForAll owner operator approved data =>
      rw [classify, ofFour, if_neg approvalForAllTopic_ne.1, if_neg approvalForAllTopic_ne.2,
        if_pos rfl]

theorem Emitted.not_unrecognised (emitted : Emitted contract event topics data) :
    ¬Unrecognised topics data := by
  intro other
  cases emitted with
  | erc20Transfer sender recipient value first second tail =>
      have short := other.2 rfl
      rw [List.length_append, value.topic.length_bytes] at short
      omega
  | erc721Transfer sender recipient identity first second data => exact other.1 rfl
  | erc20Approval owner spender data => exact other.1 rfl
  | erc721Approval owner spender identity data => exact other.2.1 rfl
  | erc721ApprovalForAll owner operator approved data => exact other.2.2 rfl

/-- What is recognised in a log with three topics is emitted in it, or nothing is. -/
theorem ofThree_cases (contract : Address) (signature sender recipient : Hash) (data : Bytes) :
    Emitted contract (ofThree contract signature sender recipient data)
        [signature, sender, recipient] data ∨
      ofThree contract signature sender recipient data = .unknown ∧
        Unrecognised [signature, sender, recipient] data := by
  unfold ofThree
  by_cases transfer : signature = transferTopic
  · rw [if_pos transfer, leadingWord]
    by_cases enough : 32 ≤ data.length
    · rw [if_pos enough]
      have length : (data.take 32).length = 32 := by
        rw [List.length_take]
        omega
      obtain ⟨first, senderTopic⟩ := Address.exists_topic sender
      obtain ⟨second, recipientTopic⟩ := Address.exists_topic recipient
      have emitted := @Emitted.erc20Transfer contract sender.address
        recipient.address (Word.ofBytes (data.take 32)) first second (data.drop 32)
      rw [senderTopic, recipientTopic, Word.bytes_topic_ofBytes length,
        List.take_append_drop] at emitted
      rw [transfer]
      exact .inl emitted
    · rw [if_neg enough]
      refine .inr ⟨rfl, ?_, fun _ => Nat.lt_of_not_le enough⟩
      rw [transfer]
      exact approvalTopic_ne_transferTopic.symm
  · rw [if_neg transfer]
    by_cases approval : signature = approvalTopic
    · rw [if_pos approval, approval]
      exact .inl (.erc20Approval sender recipient data)
    · rw [if_neg approval]
      exact .inr ⟨rfl, approval, fun same => absurd same transfer⟩

/-- What is recognised in a log with four topics is emitted in it, or nothing is. -/
theorem ofFour_cases (contract : Address) (signature sender recipient last : Hash) (data : Bytes) :
    Emitted contract (ofFour contract signature sender recipient last)
        [signature, sender, recipient, last] data ∨
      ofFour contract signature sender recipient last = .unknown ∧
        Unrecognised [signature, sender, recipient, last] data := by
  unfold ofFour
  by_cases transfer : signature = transferTopic
  · rw [if_pos transfer]
    obtain ⟨first, senderTopic⟩ := Address.exists_topic sender
    obtain ⟨second, recipientTopic⟩ := Address.exists_topic recipient
    have emitted := @Emitted.erc721Transfer contract sender.address
      recipient.address (Word.ofHash last) first second data
    rw [senderTopic, recipientTopic, Word.topic_ofHash] at emitted
    rw [transfer]
    exact .inl emitted
  · rw [if_neg transfer]
    by_cases approval : signature = approvalTopic
    · rw [if_pos approval, approval]
      exact .inl (.erc721Approval sender recipient last data)
    · rw [if_neg approval]
      by_cases all : signature = approvalForAllTopic
      · rw [if_pos all, all]
        exact .inl (.erc721ApprovalForAll sender recipient last data)
      · rw [if_neg all]
        exact .inr ⟨rfl, transfer, approval, all⟩

/-- What is recognised in a log is emitted in it, or nothing is. -/
theorem classify_cases (topics : List Hash) (data : Bytes) (contract : Address) :
    Emitted contract (classify topics data contract) topics data ∨
      classify topics data contract = .unknown ∧ Unrecognised topics data := by
  unfold classify
  split
  · exact ofThree_cases contract _ _ _ data
  · exact ofFour_cases contract _ _ _ _ data
  · rename_i notThree notFour
    refine .inr ⟨rfl, ?_⟩
    unfold Unrecognised
    split
    · exact absurd rfl (notThree _ _ _)
    · exact absurd rfl (notFour _ _ _ _)
    · trivial

/--
The token event that is recognised in a log is the one that its contract emits in logs of that form:
a transfer of the token standard that the number of topics tells, with the accounts of the middle
topics and the word that stands first in the data or in the last topic, an approval, or an approval
for all; what stands above the accounts and behind the word is not read. Nothing is recognised in any
other log, which has another number of topics, another signature, or three topics of a transfer and
less than a word of data. The signatures are told apart by their digests, all of which differ.
-/
theorem recognised_events_are_those_emitted :
    (∀ topics data contract event, classify topics data contract = event ↔
        Emitted contract event topics data ∨ event = .unknown ∧ Unrecognised topics data) ∧
      (∀ topics data contract, Unrecognised topics data ↔
        ∀ event, ¬Emitted contract event topics data) ∧
      transferTopic = Keccak.digest (Text.encode "Transfer(address,address,uint256)") ∧
      approvalTopic = Keccak.digest (Text.encode "Approval(address,address,uint256)") ∧
      approvalForAllTopic = Keccak.digest (Text.encode "ApprovalForAll(address,address,bool)") ∧
      [transferTopic, approvalTopic, approvalForAllTopic].map (fun topic => Hex.text topic.bytes) =
        ["0xddf252ad1be2c89b69c2b068fc378daa952ba7f163c4a11628f55a4df523b3ef",
         "0x8c5be1e5ebec7d5bd14f71427d1e84f3dd0314c0f7b2291e5b200ac8c7c3b925",
         "0x17307eab39ab6107e8899845ad3d59bd9653f200f220920489ca2b5937696c31"] ∧
      [transferTopic, approvalTopic, approvalForAllTopic].Nodup := by
  refine ⟨fun topics data contract event => ⟨?_, ?_⟩, fun topics data contract => ⟨?_, ?_⟩,
    rfl, rfl, rfl, ?_, topics_distinct⟩
  · rintro rfl
    exact classify_cases topics data contract
  · rintro (emitted | ⟨rfl, other⟩)
    · exact emitted.classify_eq
    · rcases classify_cases topics data contract with emitted | ⟨unknown, _⟩
      · exact absurd other emitted.not_unrecognised
      · exact unknown
  · intro other event emitted
    exact emitted.not_unrecognised other
  · intro none
    rcases classify_cases topics data contract with emitted | ⟨_, other⟩
    · exact absurd emitted (none _)
    · exact other
  · rw [List.map_cons, List.map_cons, List.map_singleton, text_transferTopic, text_approvalTopic,
      text_approvalForAllTopic]

end TokenEvent

end EvmTrace
