import EvmTrace.Json

/-!
Numbers as JSON text writes them, and the values they stand for. A number whose magnitude is beyond
the binary floating-point numbers of 64 bits stands for no value.
-/

set_option autoImplicit false

namespace EvmTrace.Json

structure Numeral where
  /-- Whether a minus sign comes first. -/
  negative : Bool
  /-- The digits before the point. -/
  whole : List Char
  /-- The digits after the point, if there is one. -/
  fraction : Option (List Char)
  /-- The power of ten that follows, if one is written. -/
  exponent : Option Int

namespace Numeral

/-- The number that decimal digits denote after the digits of `total`. -/
def natAfter (total : Nat) (digits : List Char) : Nat :=
  digits.foldl (fun n digit => n * 10 + (digit.toNat - '0'.toNat)) total

/-- The digits after a point, and what follows them. -/
def readFraction? : List Char → Option (Option (List Char) × List Char)
  | '.' :: rest =>
    let digits := rest.takeWhile Char.isDigit
    if digits.isEmpty then none else some (some digits, rest.dropWhile Char.isDigit)
  | rest => some (none, rest)

/-- The value of one or more digits that end the text. -/
def readDigits? (text : List Char) : Option Nat :=
  if text.isEmpty then none else if text.all Char.isDigit then some (natAfter 0 text) else none

/-- The power of ten that ends the text, if the text is not at its end. -/
def readExponent? : List Char → Option (Option Int)
  | [] => some none
  | mark :: rest =>
    if mark = 'e' ∨ mark = 'E' then
      match rest with
      | '+' :: digits => (readDigits? digits).map fun n => some (n : Int)
      | '-' :: digits => (readDigits? digits).map fun n => some (-(n : Int))
      | digits => (readDigits? digits).map fun n => some (n : Int)
    else none

/-- Whether digits may stand before the point: at least one, and no zero before another. -/
def isWhole : List Char → Bool
  | [] => false
  | ['0'] => true
  | first :: _ => first ≠ '0'

def readUnsigned? (negative : Bool) (text : List Char) : Option Numeral :=
  let whole := text.takeWhile Char.isDigit
  if isWhole whole then
    match readFraction? (text.dropWhile Char.isDigit) with
    | none => none
    | some (fraction, rest) =>
      match readExponent? rest with
      | none => none
      | some exponent => some ⟨negative, whole, fraction, exponent⟩
  else none

def read? : List Char → Option Numeral
  | '-' :: rest => readUnsigned? true rest
  | text => readUnsigned? false text

/--
The number of 64 bits that the longest run of leading digits denotes, and how many digits are left.
-/
def leading (total : Nat) : List Char → Nat × Nat
  | [] => (total, 0)
  | digit :: rest =>
    let next := total * 10 + (digit.toNat - '0'.toNat)
    if next < UInt64.size then leading next rest else (total, rest.length + 1)

/-- The nearest number with 53 significant bits; a tie goes to the even one. -/
def nearest (n : Nat) : Nat :=
  let unit := Nat.pow 2 (n.log2 + 1 - 53)
  let quotient := n / unit
  let excess := 2 * (n % unit)
  if unit < excess ∨ (unit = excess ∧ quotient % 2 = 1) then (quotient + 1) * unit
  else quotient * unit

/--
Whether the product of the nearest floating-point numbers of a significand and of a power of ten
rounds to infinity.
-/
def overflows (significand : Nat) (exponent : Int) : Bool :=
  significand ≠ 0 && (308 < exponent ||
    (0 ≤ exponent && Nat.pow 2 1024 - Nat.pow 2 970 ≤
      nearest significand * nearest (Nat.pow 10 exponent.toNat)))

/-- Whether the magnitude is beyond the floating-point numbers, judged by its leading digits. -/
def isInfinite (n : Numeral) : Bool :=
  let (whole, wholeLeft) := leading 0 n.whole
  let fraction := n.fraction.getD []
  let (significand, fractionLeft) := leading whole fraction
  overflows significand
    (wholeLeft - (fraction.length - fractionLeft : Nat) + n.exponent.getD 0)

def decimal (n : Numeral) : Json :=
  let fraction := n.fraction.getD []
  .real n.negative (natAfter (natAfter 0 n.whole) fraction)
    (n.exponent.getD 0 - fraction.length)

/--
The value of a number. It is an integer if it is written without point and power and lies in the
range of 64-bit machine integers, except for a negative zero.
-/
def value? (n : Numeral) : Option Json :=
  let magnitude := natAfter 0 n.whole
  if n.fraction.isSome ∨ n.exponent.isSome then if n.isInfinite then none else some n.decimal
  else if n.negative then
    if 0 < magnitude ∧ 2 * magnitude ≤ UInt64.size then some (.int (-(magnitude : Int)))
    else if n.isInfinite then none else some n.decimal
  else
    if magnitude < UInt64.size then some (.int magnitude)
    else if n.isInfinite then none else some n.decimal

end Numeral

end EvmTrace.Json
