import EvmTrace.Text.Lowercase

/-!
What the lower case of a text tells about the text. Within ASCII only the letters A to Z change. Of
all other characters, the Kelvin sign alone has its whole lower case in ASCII, and that is the
letter k. So a word of ASCII without a k is the lower case of such texts only as differ from it in
the case of the letters A to Z.
-/

set_option autoImplicit false

namespace EvmTrace.Text

/-- All runs but that of the letters A to Z begin behind ASCII. -/
theorem first_of_later_run : ∀ run ∈ caseRuns.tail, 0x80 ≤ run.first := by
  decide +kernel

/-- A run that begins behind ASCII leads behind ASCII, except that of the Kelvin sign. -/
theorem target_of_later_run : ∀ run ∈ caseRuns.tail,
    (run.first = 0x212A ∧ run.last = 0x212A) ∨ 0x80 ≤ run.target := by
  decide +kernel

/-- No run leads to a code that stands for no character. -/
theorem target_isValidChar : ∀ run ∈ caseRuns,
    run.target + (run.last - run.first) < 0xD800 ∨
      0xDFFF < run.target ∧ run.target + (run.last - run.first) < 0x110000 := by
  decide +kernel

theorem caseRuns_eq : caseRuns = ⟨0x41, 0x5A, 1, 0x61⟩ :: caseRuns.tail := rfl

theorem toNat_ofNat_of_isValidChar {code : Nat} (valid : code.isValidChar) :
    (Char.ofNat code).toNat = code := by
  unfold Char.ofNat
  rw [dif_pos valid]
  rfl

theorem toNat_toLower (c : Char) :
    c.toLower.toNat =
      if 0x41 ≤ c.toNat ∧ c.toNat ≤ 0x5A then c.toNat + 32 else c.toNat := by
  unfold Char.toLower
  split
  case isTrue letter =>
    have upper : 0x41 ≤ c.toNat ∧ c.toNat ≤ 0x5A := letter
    have small : c.toNat + 32 < 2 ^ 32 := by omega
    rw [if_pos upper]
    exact (UInt32.toNat_add c.val 32).trans (Nat.mod_eq_of_lt small)
  case isFalse other => exact (if_neg other).symm

/-- The letters A to Z stay in ASCII, and no other character changes. -/
theorem toNat_toLower_lt_iff (c : Char) : c.toLower.toNat < 0x80 ↔ c.toNat < 0x80 := by
  rw [toNat_toLower]
  split <;> omega

theorem lowerChar_of_ascii (c : Char) (ascii : c.toNat < 0x80) : lowerChar c = [c.toLower] := by
  have undotted : c ≠ '\u0130' := by
    rintro rfl
    revert ascii
    decide
  have later : (caseRuns.tail.find? fun run =>
      run.first ≤ c.toNat && c.toNat ≤ run.last && (c.toNat - run.first) % run.step = 0) =
      none := by
    apply List.find?_eq_none.mpr
    intro run member
    have behind := first_of_later_run run member
    simp only [Bool.and_eq_true, decide_eq_true_eq]
    omega
  rw [lowerChar, if_neg undotted, caseRuns_eq, List.find?_cons, later]
  by_cases upper : 0x41 ≤ c.toNat ∧ c.toNat ≤ 0x5A
  · have valid : (0x61 + (c.toNat - 0x41)).isValidChar := .inl (by omega)
    have lower : Char.ofNat (0x61 + (c.toNat - 0x41)) = c.toLower := by
      apply Char.toNat_inj.mp
      rw [toNat_ofNat_of_isValidChar valid, toNat_toLower, if_pos upper]
      omega
    simp [upper, Nat.mod_one, lower]
  · have same : c.toLower = c := Char.toNat_inj.mp (by rw [toNat_toLower, if_neg upper])
    have outside : (decide (0x41 ≤ c.toNat) && decide (c.toNat ≤ 0x5A)) = false := by
      simpa using upper
    simp [outside, same]

/-- The Kelvin sign alone can be taken for a letter of ASCII. -/
theorem lowerChar_of_not_ascii (c : Char) (other : 0x80 ≤ c.toNat) :
    c = '\u212A' ∨ ∃ d ∈ lowerChar c, 0x80 ≤ d.toNat := by
  by_cases dotted : c = '\u0130'
  · refine .inr ⟨'\u0307', ?_, by decide⟩
    rw [lowerChar, if_pos dotted]
    exact List.mem_cons_of_mem _ List.mem_cons_self
  rw [lowerChar, if_neg dotted]
  split
  · exact .inr ⟨c, List.mem_singleton_self c, other⟩
  · rename_i run found
    have covered := List.find?_some found
    simp only [Bool.and_eq_true, decide_eq_true_eq] at covered
    have member := List.mem_of_find?_eq_some found
    have valid := target_isValidChar run member
    rw [caseRuns_eq] at member
    rcases List.mem_cons.mp member with rfl | member
    · have inside : c.toNat ≤ 0x5A := covered.1.2
      omega
    rcases target_of_later_run run member with kelvin | behind
    · left
      have code : c.toNat = '\u212A'.toNat := by
        change c.toNat = 0x212A
        omega
      exact Char.toNat_inj.mp code
    · right
      refine ⟨_, List.mem_singleton_self _, ?_⟩
      have valid : (run.target + (c.toNat - run.first)).isValidChar := by
        unfold Nat.isValidChar
        omega
      rw [toNat_ofNat_of_isValidChar valid]
      omega

theorem lowerSigma_not_ascii (before after : List Char) :
    0x80 ≤ (lowerSigma before after).toNat := by
  unfold lowerSigma
  split <;> decide

theorem lowercaseAfter_of_ascii (before text : List Char) (ascii : ∀ c ∈ text, c.toNat < 0x80) :
    lowercaseAfter before text = text.map Char.toLower := by
  induction text generalizing before with
  | nil => rfl
  | cons c after ih =>
      obtain ⟨first, rest⟩ := List.forall_mem_cons.mp ascii
      have sigmaless : c ≠ 'Σ' := by
        rintro rfl
        revert first
        decide
      rw [lowercaseAfter, if_neg sigmaless, lowerChar_of_ascii c first, ih _ rest, List.map_cons]
      rfl

/-- A text whose lower case is in ASCII and has no k is itself in ASCII. -/
theorem ascii_of_lowercaseAfter (before text : List Char)
    (plain : ∀ c ∈ lowercaseAfter before text, c.toNat < 0x80 ∧ c ≠ 'k') :
    ∀ c ∈ text, c.toNat < 0x80 := by
  induction text generalizing before with
  | nil => exact fun c member => absurd member List.not_mem_nil
  | cons c after ih =>
      rw [lowercaseAfter] at plain
      obtain ⟨here, behind⟩ := List.forall_mem_append.mp plain
      refine List.forall_mem_cons.mpr ⟨?_, ih _ behind⟩
      apply Nat.lt_of_not_le
      intro other
      by_cases sigma : c = 'Σ'
      · rw [if_pos sigma] at here
        have ascii := (here _ (List.mem_singleton_self _)).1
        have beyond := lowerSigma_not_ascii before after
        omega
      · rw [if_neg sigma] at here
        rcases lowerChar_of_not_ascii c other with rfl | ⟨d, member, beyond⟩
        · have letter : 'k' ∈ lowerChar '\u212A' := by decide +kernel
          exact (here _ letter).2 rfl
        · have ascii := (here d member).1
          omega

theorem toList_toLower (text : String) : text.toLower.toList = text.toList.map Char.toLower :=
  String.toList_map

theorem lowercase_of_ascii (text : String) (ascii : ∀ c ∈ text.toList, c.toNat < 0x80) :
    lowercase text = text.toLower := by
  apply String.toList_injective
  rw [lowercase, lowercaseAfter_of_ascii [] text.toList ascii, String.toList_ofList,
    toList_toLower]

/-- A text that agrees with a word up to the case of the letters A to Z is in ASCII as the word. -/
theorem ascii_of_toLower {text word : String} (same : text.toLower = word)
    (plain : ∀ c ∈ word.toList, c.toNat < 0x80) : ∀ c ∈ text.toList, c.toNat < 0x80 := by
  intro c member
  apply (toNat_toLower_lt_iff c).mp
  apply plain
  rw [← same, toList_toLower]
  exact List.mem_map_of_mem member

/-- For words of ASCII without a k it makes no difference which characters have a lower case. -/
theorem lowercase_eq_iff (text word : String)
    (plain : ∀ c ∈ word.toList, c.toNat < 0x80 ∧ c ≠ 'k') :
    lowercase text = word ↔ text.toLower = word := by
  constructor
  · intro same
    have chars : (lowercase text).toList = lowercaseAfter [] text.toList := String.toList_ofList
    have ascii : ∀ c ∈ text.toList, c.toNat < 0x80 := by
      apply ascii_of_lowercaseAfter []
      rw [← chars, same]
      exact plain
    rw [← lowercase_of_ascii text ascii, same]
  · intro same
    have ascii := ascii_of_toLower same fun c member => (plain c member).1
    rw [lowercase_of_ascii text ascii, same]

end EvmTrace.Text
