import EvmTrace.Json.Numeral
import EvmTrace.Text

/-!
JSON text as a list of tokens. The text is read symbol by symbol, by an automaton whose runs on two
pieces of text compose. A quoted text may hold bytes and escapes that make up no text; the token
then says so, and only a reader that wants the text has to refuse it.
-/

set_option autoImplicit false

namespace EvmTrace.Json

/-- The smallest unit of JSON text. -/
inductive Token where
  | openArray
  | closeArray
  | openObject
  | closeObject
  | colon
  | comma
  | null
  | bool (value : Bool)
  | number (numeral : Numeral)
  /-- A quoted text, or none if its contents make up no text. -/
  | quoted (text : Option String)

namespace Token

/-- What a quoted text is made of. -/
inductive Piece where
  | char (c : Char)
  /-- A 16-bit unit, written as four digits. -/
  | unit (value : Nat)
  /-- A byte that is no part of an encoded character. -/
  | stray

/--
The characters that pieces stand for: two units of a surrogate pair are one character, and a unit of
a pair that stands alone is none.
-/
def assemble : List Piece → Option (List Char)
  | [] => some []
  | .char c :: rest => (assemble rest).map (c :: ·)
  | .stray :: _ => none
  | [.unit value] =>
    if 0xD800 ≤ value ∧ value < 0xE000 then none else some [Char.ofNat value]
  | .unit value :: .unit next :: rest =>
    if 0xD800 ≤ value ∧ value < 0xDC00 then
      if 0xDC00 ≤ next ∧ next < 0xE000 then
        (assemble rest).map
          (Char.ofNat (0x10000 + (value - 0xD800) * 0x400 + (next - 0xDC00)) :: ·)
      else none
    else if 0xDC00 ≤ value ∧ value < 0xE000 then none
    else (assemble (.unit next :: rest)).map (Char.ofNat value :: ·)
  | .unit value :: piece :: rest =>
    if 0xD800 ≤ value ∧ value < 0xE000 then none
    else (assemble (piece :: rest)).map (Char.ofNat value :: ·)

/-- The character that a one-letter escape stands for. -/
def escaped? : Char → Option Char
  | '"' => some '"'
  | '\\' => some '\\'
  | '/' => some '/'
  | 'b' => some '\x08'
  | 'f' => some '\x0c'
  | 'n' => some '\n'
  | 'r' => some '\r'
  | 't' => some '\t'
  | _ => none

def hexDigit? (c : Char) : Option Nat :=
  if '0' ≤ c ∧ c ≤ '9' then some (c.toNat - '0'.toNat)
  else if 'a' ≤ c ∧ c ≤ 'f' then some (c.toNat - 'a'.toNat + 10)
  else if 'A' ≤ c ∧ c ≤ 'F' then some (c.toNat - 'A'.toNat + 10)
  else none

/-- Where in a token the text read so far ends; what is read of it stands last symbol first. -/
inductive Mode where
  | between
  | word (letters : List Char)
  | number (lexeme : List Char)
  | quoted (pieces : List Piece)
  /-- After a backslash. -/
  | escape (pieces : List Piece)
  /-- Inside the four digits of a 16-bit unit. -/
  | unit (pieces : List Piece) (missing : Nat) (value : Nat)

/-- The tokens read so far, last one first, and the token that has begun. -/
structure State where
  tokens : List Token
  mode : Mode

def ofWord? (letters : List Char) : Option Token :=
  if letters = ['n', 'u', 'l', 'l'] then some .null
  else if letters = ['t', 'r', 'u', 'e'] then some (.bool true)
  else if letters = ['f', 'a', 'l', 's', 'e'] then some (.bool false)
  else none

/-- Reads a character that begins a token or stands between two. -/
def begin? (tokens : List Token) (c : Char) : Option State :=
  match c with
  | ' ' | '\t' | '\n' | '\r' => some ⟨tokens, .between⟩
  | '[' => some ⟨.openArray :: tokens, .between⟩
  | ']' => some ⟨.closeArray :: tokens, .between⟩
  | '\x7b' => some ⟨.openObject :: tokens, .between⟩
  | '\x7d' => some ⟨.closeObject :: tokens, .between⟩
  | ':' => some ⟨.colon :: tokens, .between⟩
  | ',' => some ⟨.comma :: tokens, .between⟩
  | '"' => some ⟨tokens, .quoted []⟩
  | '-' => some ⟨tokens, .number ['-']⟩
  | _ =>
    if c.isDigit then some ⟨tokens, .number [c]⟩
    else if c.isLower then some ⟨tokens, .word [c]⟩
    else none

def readQuoted? (tokens : List Token) (pieces : List Piece) : Text.Symbol → Option State
  | none => some ⟨tokens, .quoted (.stray :: pieces)⟩
  | some '"' => some ⟨.quoted ((assemble pieces.reverse).map String.ofList) :: tokens, .between⟩
  | some '\\' => some ⟨tokens, .escape pieces⟩
  | some c => if c < ' ' then none else some ⟨tokens, .quoted (.char c :: pieces)⟩

/-- Whether a character may stand in a number after its first one. -/
def continuesNumber (c : Char) : Bool :=
  c.isDigit || c = '+' || c = '-' || c = '.' || c = 'e' || c = 'E'

def step? (state : State) (symbol : Text.Symbol) : Option State :=
  match state.mode, symbol with
  | .quoted pieces, symbol => readQuoted? state.tokens pieces symbol
  | _, none => none
  | .between, some c => begin? state.tokens c
  | .word letters, some c =>
    if c.isLower then some ⟨state.tokens, .word (c :: letters)⟩
    else
      match ofWord? letters.reverse with
      | none => none
      | some token => begin? (token :: state.tokens) c
  | .number lexeme, some c =>
    if continuesNumber c then some ⟨state.tokens, .number (c :: lexeme)⟩
    else
      match Numeral.read? lexeme.reverse with
      | none => none
      | some numeral => begin? (.number numeral :: state.tokens) c
  | .escape pieces, some c =>
    if c = 'u' then some ⟨state.tokens, .unit pieces 4 0⟩
    else (escaped? c).map fun e => ⟨state.tokens, .quoted (.char e :: pieces)⟩
  | .unit pieces missing value, some c =>
    match hexDigit? c with
    | none => none
    | some digit =>
      let total := value * 16 + digit
      if missing ≤ 1 then some ⟨state.tokens, .quoted (.unit total :: pieces)⟩
      else some ⟨state.tokens, .unit pieces (missing - 1) total⟩

def run? : State → List Text.Symbol → Option State
  | state, [] => some state
  | state, symbol :: rest =>
    match step? state symbol with
    | none => none
    | some next => run? next rest

/-- The tokens of the text that led to a state, if it ends there. -/
def finish? (state : State) : Option (List Token) :=
  match state.mode with
  | .between => some state.tokens.reverse
  | .word letters => (ofWord? letters.reverse).map fun token => (token :: state.tokens).reverse
  | .number lexeme =>
    (Numeral.read? lexeme.reverse).map fun numeral => (.number numeral :: state.tokens).reverse
  | _ => none

def scan? (text : List Text.Symbol) : Option (List Token) :=
  (run? ⟨[], .between⟩ text).bind finish?

/-- Reading two pieces of text is reading the second after the first. -/
theorem run?_append (state : State) (front back : List Text.Symbol) :
    run? state (front ++ back) = (run? state front).bind (run? · back) := by
  induction front generalizing state with
  | nil => rfl
  | cons symbol rest ih =>
      simp only [List.cons_append, run?]
      cases step? state symbol with
      | none => rfl
      | some next => exact ih next

end Token

end EvmTrace.Json
