import EvmTrace.Json.Token

/-!
The structure of JSON text before its numbers and texts are judged. Tokens are read by a stack
machine, which holds the arrays and objects that are still open; nothing limits their number.
-/

set_option autoImplicit false

namespace EvmTrace.Json

/-- A JSON value whose numbers may be too large and whose texts may be none. -/
inductive Draft where
  | null
  | bool (value : Bool)
  | number (numeral : Numeral)
  | quoted (text : Option String)
  | array (items : List Draft)
  | object (members : List (Option String × Draft))
deriving Inhabited

namespace Draft

/-- An array or object that is still open, with what is read of it, last part first. -/
inductive Level where
  | items (done : List Draft)
  | members (done : List (Option String × Draft))
  /-- An object in which the value of `key` comes next. -/
  | member (key : Option String) (done : List (Option String × Draft))

/-- What the next token may be. -/
inductive Expected where
  | value
  /-- A value, or the end of an array that has just begun. -/
  | valueOrEnd
  | key
  /-- A key, or the end of an object that has just begun. -/
  | keyOrEnd
  | colon
  /-- A comma, or the end of the innermost array or object. -/
  | commaOrEnd
  /-- Nothing: the value is complete. -/
  | nothing (value : Draft)

/-- The open arrays and objects, innermost first, and what comes next. -/
structure State where
  levels : List Level
  expected : Expected

/-- Puts a complete value where it belongs. -/
def supply? (value : Draft) : List Level → Option State
  | [] => some ⟨[], .nothing value⟩
  | .items done :: outer => some ⟨.items (value :: done) :: outer, .commaOrEnd⟩
  | .member key done :: outer => some ⟨.members ((key, value) :: done) :: outer, .commaOrEnd⟩
  | .members _ :: _ => none

/-- Reads the first token of a value. -/
def beginValue? (levels : List Level) : Token → Option State
  | .null => supply? .null levels
  | .bool value => supply? (.bool value) levels
  | .number numeral => supply? (.number numeral) levels
  | .quoted text => supply? (.quoted text) levels
  | .openArray => some ⟨.items [] :: levels, .valueOrEnd⟩
  | .openObject => some ⟨.members [] :: levels, .keyOrEnd⟩
  | _ => none

def readKey? : List Level → Token → Option State
  | .members done :: outer, .quoted text => some ⟨.member text done :: outer, .colon⟩
  | _, _ => none

def close? : List Level → Token → Option State
  | .items done :: outer, .closeArray => supply? (.array done.reverse) outer
  | .members done :: outer, .closeObject => supply? (.object done.reverse) outer
  | _, _ => none

/-- Reads one token. -/
def step? (state : State) (token : Token) : Option State :=
  match state.expected with
  | .nothing _ => none
  | .value => beginValue? state.levels token
  | .valueOrEnd =>
    match token with
    | .closeArray => close? state.levels token
    | _ => beginValue? state.levels token
  | .key => readKey? state.levels token
  | .keyOrEnd =>
    match token with
    | .closeObject => close? state.levels token
    | _ => readKey? state.levels token
  | .colon =>
    match token with
    | .colon => some ⟨state.levels, .value⟩
    | _ => none
  | .commaOrEnd =>
    match token, state.levels with
    | .comma, .items _ :: _ => some ⟨state.levels, .value⟩
    | .comma, .members _ :: _ => some ⟨state.levels, .key⟩
    | _, _ => close? state.levels token

def run? : State → List Token → Option State
  | state, [] => some state
  | state, token :: rest =>
    match step? state token with
    | none => none
    | some next => run? next rest

def ofTokens? (tokens : List Token) : Option Draft :=
  match run? ⟨[], .value⟩ tokens with
  | some ⟨_, .nothing value⟩ => some value
  | _ => none

def read? (text : List Text.Symbol) : Option Draft :=
  (Token.scan? text).bind ofTokens?

/-- Reading two lists of tokens is reading the second after the first. -/
theorem run?_append (state : State) (front back : List Token) :
    run? state (front ++ back) = (run? state front).bind (run? · back) := by
  induction front generalizing state with
  | nil => rfl
  | cons token rest ih =>
      simp only [List.cons_append, run?]
      cases step? state token with
      | none => rfl
      | some next => exact ih next

end Draft

end EvmTrace.Json
