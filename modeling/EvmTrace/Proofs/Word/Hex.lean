import EvmTrace.Word

set_option autoImplicit false

namespace EvmTrace.Word

theorem accumulate_append (base total : Nat) (front back : List Char) :
    accumulate base total (front ++ back) =
      (accumulate base total front).bind fun reached => accumulate base reached back := by
  induction front generalizing total with
  | nil => rfl
  | cons c rest ih =>
      by_cases skipped : c = '_'
      · subst skipped
        exact ih total
      · rw [List.cons_append, accumulate, accumulate]
        · cases digitValue? c with
          | none => rfl
          | some digit =>
              by_cases small : digit < base
              · simp only [small, ↓reduceIte]
                exact ih (total * base + digit)
              · simp only [small, ↓reduceIte, Option.bind_none]
        · exact skipped
        · exact skipped

theorem accumulate_digitChar (total digit : Nat) (small : digit < 16) :
    accumulate 16 total [Nat.digitChar digit] = some (total * 16 + digit) := by
  have named : ∀ d : Fin 16, Nat.digitChar d ≠ '_' := by decide
  have value : ∀ d : Fin 16, digitValue? (Nat.digitChar d) = some d.val := by decide
  rw [accumulate]
  · simp only [value ⟨digit, small⟩, small, ↓reduceIte, accumulate]
  · exact named ⟨digit, small⟩

theorem accumulate_toDigits (n : Nat) : accumulate 16 0 (Nat.toDigits 16 n) = some n := by
  induction n using Nat.strongRecOn with
  | ind n ih =>
      rw [Nat.toDigits_eq_if (by decide)]
      by_cases single : n < 16
      · rw [if_pos single, accumulate_digitChar 0 n single, Nat.zero_mul, Nat.zero_add]
      · have shorter : n / 16 < n := by omega
        have whole : n / 16 * 16 + n % 16 = n := by omega
        rw [if_neg single, accumulate_append, ih (n / 16) shorter, Option.bind_some,
          accumulate_digitChar (n / 16) (n % 16) (Nat.mod_lt n (by decide)), whole]

theorem read?_hex (w : Word) : read? w.hex = some w := by
  have digits : splitBase w.hex.toList = (16, Nat.toDigits 16 w.toNat) := by
    rw [hex, String.toList_ofList, splitBase]
  have bound : w.toNat < size := w.isLt
  rw [read?, digits]
  simp only [accumulate_toDigits, bound, ↓reduceIte, BitVec.ofNat_toNat, BitVec.setWidth_eq]

end EvmTrace.Word
