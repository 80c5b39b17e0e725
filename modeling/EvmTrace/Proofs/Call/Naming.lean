import EvmTrace.Proofs.Text.Lowercase
import EvmTrace.Recording
import Mathlib.Tactic.SplitIfs

/-!
Which texts name a kind of call. A text is compared with the names in the lower case of all of
Unicode, and yet what is accepted are the names in any case of the letters A to Z and nothing else:
the names hold no k, the only letter that a character outside ASCII can be taken for.
-/

set_option autoImplicit false

namespace EvmTrace.CallKind

/-- Whether a text is a name of a kind, in any case of the letters A to Z. -/
def Named (kind : CallKind) (text : String) : Prop :=
  text.toLower = kind.name.toLower ∨ kind = selfDestruct ∧ text.toLower = "suicide"

theorem toLower_name (kind : CallKind) :
    kind.name.toLower =
      match kind with
      | call => "call"
      | callCode => "callcode"
      | delegateCall => "delegatecall"
      | staticCall => "staticcall"
      | create => "create"
      | create2 => "create2"
      | selfDestruct => "selfdestruct" := by
  cases kind <;> decide +kernel

theorem ofLowercase?_eq_some_iff (word : String) (kind : CallKind) :
    ofLowercase? word = some kind ↔
      word = kind.name.toLower ∨ kind = selfDestruct ∧ word = "suicide" := by
  rw [toLower_name]
  constructor
  · intro found
    unfold ofLowercase? at found
    split_ifs at found <;> cases found <;> simp_all
  · rintro (rfl | ⟨rfl, rfl⟩)
    · cases kind <;> rfl
    · rfl

theorem plain_name (kind : CallKind) :
    ∀ c ∈ kind.name.toLower.toList, c.toNat < 0x80 ∧ c ≠ 'k' := by
  rw [toLower_name]
  cases kind <;> simp

theorem plain_second_name : ∀ c ∈ "suicide".toList, c.toNat < 0x80 ∧ c ≠ 'k' := by
  simp

/-- The lower case of Unicode and that of ASCII lead to the same names. -/
theorem ofLowercase?_lowercase_eq_some_iff (text : String) (kind : CallKind) :
    ofLowercase? (Text.lowercase text) = some kind ↔ kind.Named text := by
  rw [ofLowercase?_eq_some_iff, Text.lowercase_eq_iff text _ (plain_name kind),
    Text.lowercase_eq_iff text _ plain_second_name, Named]

theorem ofLowercase?_lowercase_eq_none_iff (text : String) :
    ofLowercase? (Text.lowercase text) = none ↔ ∀ kind : CallKind, ¬kind.Named text := by
  simp only [← ofLowercase?_lowercase_eq_some_iff, Option.eq_none_iff_forall_ne_some, ne_eq]

theorem Named.ascii {kind : CallKind} {text : String} (named : kind.Named text) :
    ∀ c ∈ text.toList, c.toNat < 0x80 := by
  rcases named with same | ⟨_, same⟩
  · exact Text.ascii_of_toLower same fun c member => (plain_name kind c member).1
  · exact Text.ascii_of_toLower same fun c member => (plain_second_name c member).1

theorem parse_eq_ok_iff (text : String) (kind : CallKind) :
    parse text = .ok kind ↔ kind.Named text := by
  rw [← ofLowercase?_lowercase_eq_some_iff, parse]
  cases ofLowercase? (Text.lowercase text) <;> simp

theorem parse_eq_error_iff (text detail : String) :
    parse text = .error detail ↔
      (∀ kind : CallKind, ¬kind.Named text) ∧ detail = unknownName (Text.lowercase text) := by
  rw [← ofLowercase?_lowercase_eq_none_iff, parse]
  cases ofLowercase? (Text.lowercase text) <;> simp [eq_comm]

theorem formatMessage_unknownName (lowercase : String) :
    Recording.formatMessage (unknownName lowercase) =
      "Invalid event recording: Unknown call type: " ++ lowercase := by
  have front : "Invalid event recording: " ++ "Unknown call type: " =
      "Invalid event recording: Unknown call type: " := by decide +kernel
  calc Recording.formatMessage (unknownName lowercase)
      = "Invalid event recording: " ++ ("Unknown call type: " ++ lowercase) := rfl
    _ = "Invalid event recording: " ++ "Unknown call type: " ++ lowercase :=
      (String.append_assoc ..).symm
    _ = "Invalid event recording: Unknown call type: " ++ lowercase :=
      congrArg (· ++ lowercase) front

/--
A text is accepted as a kind exactly if it is a name of the kind in any case of the letters A to Z,
so that no text with a character outside ASCII is accepted, whatever its lower case is. Every other
text is refused with its lower case, in the words for a recording that has not the right form.
-/
theorem parse_accepts_names_in_any_case (text : String) :
    (∀ kind, parse text = .ok kind ↔
      text.toLower = kind.name.toLower ∨ kind = selfDestruct ∧ text.toLower = "suicide") ∧
    ((∃ c ∈ text.toList, 0x80 ≤ c.toNat) → ∀ kind, parse text ≠ .ok kind) ∧
    ((∀ kind, parse text ≠ .ok kind) ↔
      ∃ detail, parse text = .error detail ∧
        Recording.formatMessage detail =
          "Invalid event recording: Unknown call type: " ++ Text.lowercase text) := by
  refine ⟨parse_eq_ok_iff text, ?_, ?_⟩
  · rintro ⟨c, member, other⟩ kind accepted
    have ascii := ((parse_eq_ok_iff text kind).mp accepted).ascii c member
    omega
  · constructor
    · intro refused
      have unnamed : ∀ kind : CallKind, ¬kind.Named text := fun kind named =>
        refused kind ((parse_eq_ok_iff text kind).mpr named)
      exact ⟨_, (parse_eq_error_iff text _).mpr ⟨unnamed, rfl⟩, formatMessage_unknownName _⟩
    · rintro ⟨detail, refused, _⟩ kind accepted
      rw [refused] at accepted
      cases accepted

/-- A capital I with dot has the letter i in its lower case, and a dot behind it. -/
theorem second_name_with_dotted_capital_is_refused :
    (∃ c ∈ "SUİCIDE".toList, 0x80 ≤ c.toNat) ∧
      (∀ kind, parse "SUİCIDE" ≠ .ok kind) ∧
      ∃ detail, parse "SUİCIDE" = .error detail ∧
        Recording.formatMessage detail =
          "Invalid event recording: Unknown call type: sui\u0307cide" := by
  have dotted : ∃ c ∈ "SUİCIDE".toList, 0x80 ≤ c.toNat := ⟨'İ', by simp, by decide⟩
  obtain ⟨_, foreign, refusal⟩ := parse_accepts_names_in_any_case "SUİCIDE"
  have refused := foreign dotted
  refine ⟨dotted, refused, ?_⟩
  obtain ⟨detail, error, message⟩ := refusal.mp refused
  have lower : Text.lowercase "SUİCIDE" = "sui\u0307cide" := by decide +kernel
  rw [lower] at message
  exact ⟨detail, error, message⟩

end EvmTrace.CallKind
