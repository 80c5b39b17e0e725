import EvmTrace.Text.CaseTable

/-!
Lower case of a text. Each character is replaced by its own lower-case form, except the capital
sigma, whose form depends on whether it ends a word.
-/

set_option autoImplicit false

namespace EvmTrace.Text

/-- The lower-case form of a character whose form does not depend on its neighbours. -/
def lowerChar (c : Char) : List Char :=
  if c = '\u0130' then ['i', '\u0307']
  else
    match caseRuns.find? fun run =>
      run.first ≤ c.toNat && c.toNat ≤ run.last && (c.toNat - run.first) % run.step = 0 with
    | none => [c]
    | some run => [Char.ofNat (run.target + (c.toNat - run.first))]

/-- Whether the first character that is not passed over is a letter with case. -/
def startsWithLetter (text : List Char) : Bool :=
  match text.dropWhile isIgnorable with
  | [] => false
  | c :: _ => isCased c

/-- The lower-case form of a capital sigma, given the text before it, nearest first, and after. -/
def lowerSigma (before after : List Char) : Char :=
  if startsWithLetter before && !startsWithLetter after then 'ς' else 'σ'

/-- The lower case of a text that follows the characters `before`, nearest first. -/
def lowercaseAfter (before : List Char) : List Char → List Char
  | [] => []
  | c :: after =>
    (if c = 'Σ' then [lowerSigma before after] else lowerChar c) ++ lowercaseAfter (c :: before) after

/-- The lower case of a text. -/
def lowercase (text : String) : String :=
  String.ofList (lowercaseAfter [] text.toList)

end EvmTrace.Text
