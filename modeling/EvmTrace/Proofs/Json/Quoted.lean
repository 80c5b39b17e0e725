import EvmTrace.Json.Printer
import EvmTrace.Json.Token

/-!
What is read of a text in quotes. Each character is one piece of the token, a character that stands
for itself or the unit of an escape, and the pieces make up the text again.
-/

set_option autoImplicit false

namespace EvmTrace.Json

theorem toNat_lt_of_control (c : Char) (control : c < ' ') : c.toNat < 32 :=
  control

theorem hexDigit?_digitChar (digit : Nat) (small : digit < 16) :
    Token.hexDigit? (Nat.digitChar digit) = some digit := by
  have all : ∀ d : Fin 16, Token.hexDigit? (Nat.digitChar d) = some d.val := by decide
  exact all ⟨digit, small⟩

namespace Token

/-- Whether a character is written as a unit of four digits. -/
def Piece.IsUnit (c : Char) : Prop :=
  c < ' ' ∧ c ∉ ['\x08', '\x0c', '\n', '\r', '\t']

instance (c : Char) : Decidable (Piece.IsUnit c) :=
  inferInstanceAs (Decidable (_ ∧ _))

/-- The piece that a character of a written text is read as. -/
def Piece.ofChar (c : Char) : Piece :=
  if Piece.IsUnit c then .unit c.toNat else .char c

theorem assemble_char (c : Char) (rest : List Piece) :
    assemble (.char c :: rest) = (assemble rest).map (c :: ·) := rfl

/-- A unit that is no part of a surrogate pair is a character of its own. -/
theorem assemble_unit (value : Nat) (rest : List Piece) (plain : value < 0xD800) :
    assemble (.unit value :: rest) = (assemble rest).map (Char.ofNat value :: ·) := by
  have low : ¬(0xD800 ≤ value ∧ value < 0xE000) := by omega
  have high : ¬(0xD800 ≤ value ∧ value < 0xDC00) := by omega
  have trailing : ¬(0xDC00 ≤ value ∧ value < 0xE000) := by omega
  cases rest with
  | nil => simp [assemble, low]
  | cons piece rest =>
      cases piece with
      | char c => simp [assemble, low]
      | unit next => simp [assemble, high, trailing]
      | stray => simp [assemble]

theorem assemble_ofChar (text : List Char) : assemble (text.map Piece.ofChar) = some text := by
  induction text with
  | nil => rfl
  | cons c rest ih =>
      rw [List.map_cons, Piece.ofChar]
      split
      · rename_i unit
        have control := toNat_lt_of_control c unit.1
        have small : c.toNat < 0xD800 := by omega
        rw [assemble_unit _ _ small, ih, Option.map_some, Char.ofNat_toNat]
      · rw [assemble_char, ih, Option.map_some]

theorem run?_unit (tokens : List Token) (pieces : List Piece) (value : Nat)
    (small : value < 256) :
    run? ⟨tokens, .escape pieces⟩
      (['u', '0', '0', Nat.digitChar (value / 16), Nat.digitChar (value % 16)].map some) =
        some ⟨tokens, .quoted (.unit value :: pieces)⟩ := by
  have high := hexDigit?_digitChar (value / 16) (by omega)
  have low := hexDigit?_digitChar (value % 16) (by omega)
  have zero : hexDigit? '0' = some 0 := by decide
  have whole : value / 16 * 16 + value % 16 = value := by omega
  simp [run?, step?, zero, high, low, whole]

theorem run?_escape (tokens : List Token) (pieces : List Piece) (c : Char) :
    run? ⟨tokens, .quoted pieces⟩ ((escape c).map some) =
      some ⟨tokens, .quoted (Piece.ofChar c :: pieces)⟩ := by
  unfold escape
  split
  case h_8 =>
    split
    · rename_i control
      have below := toNat_lt_of_control c control
      have small : c.toNat < 256 := by omega
      have unit : Piece.ofChar c = .unit c.toNat := by
        rw [Piece.ofChar, if_pos]
        exact ⟨control, by simp_all⟩
      have digits := run?_unit tokens pieces c.toNat small
      rw [unit, ← digits]
      rfl
    · rename_i printed
      have plain : Piece.ofChar c = .char c := if_neg fun unit => printed unit.1
      simp [run?, step?, readQuoted?, printed, plain]
  all_goals rfl

theorem run?_escapes (tokens : List Token) (pieces : List Piece) (text : List Char) :
    run? ⟨tokens, .quoted pieces⟩ ((text.flatMap escape).map some) =
      some ⟨tokens, .quoted ((text.map Piece.ofChar).reverse ++ pieces)⟩ := by
  induction text generalizing pieces with
  | nil => rfl
  | cons c rest ih =>
      rw [List.flatMap_cons, List.map_append, run?_append, run?_escape, Option.bind_some, ih]
      simp

/-- A text in quotes is one token, which holds the text. -/
theorem run?_quote (tokens : List Token) (text : String) :
    run? ⟨tokens, .between⟩ ((quote text).map some) =
      some ⟨.quoted (some text) :: tokens, .between⟩ := by
  have opened : run? ⟨tokens, .between⟩ [some '"'] = some ⟨tokens, .quoted []⟩ := rfl
  have body := run?_escapes tokens [] text.toList
  have closed : run? ⟨tokens, .quoted ((text.toList.map Piece.ofChar).reverse ++ [])⟩ [some '"'] =
      some ⟨.quoted (some text) :: tokens, .between⟩ := by
    simp [run?, step?, readQuoted?, assemble_ofChar]
  have written : (quote text).map some =
      [some '"'] ++ ((text.toList.flatMap escape).map some ++ [some '"']) := by
    simp [quote]
  rw [written, run?_append, opened, Option.bind_some, run?_append, body, Option.bind_some, closed]

end Token

end EvmTrace.Json
