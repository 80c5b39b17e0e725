set_option autoImplicit false

namespace EvmTrace

/--
A JSON value. Numbers written as integers in the range of 64-bit machine integers are kept apart
from all others, which are kept as decimals.
-/
inductive Json where
  | null
  | bool (value : Bool)
  /-- An integer from -2^63 to 2^64 - 1. -/
  | int (value : Int)
  /-- Any other number: the significand times ten to the exponent. -/
  | real (negative : Bool) (significand : Nat) (exponent : Int)
  | string (value : String)
  | array (items : List Json)
  /-- The members in the order in which they are visited. -/
  | object (members : List (String × Json))
deriving Inhabited

namespace Json

/-- The value of the first member with the given name. -/
def lookup (name : String) : List (String × Json) → Option Json
  | [] => none
  | (key, value) :: rest => if key = name then some value else lookup name rest

def ofNat (n : Nat) : Json :=
  .int n

def ofOption {α : Type} (f : α → Json) : Option α → Json
  | none => .null
  | some a => f a

end Json

end EvmTrace
