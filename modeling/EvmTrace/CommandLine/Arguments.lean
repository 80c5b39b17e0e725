import EvmTrace.Replay
import EvmTrace.Text

/-!
The arguments of the program. Options have a long name after two hyphens and may have a letter after
one; letters may be written together. The value of an option follows after an equals sign, directly
after its letter, or as the next argument, unless that begins with a hyphen. No option comes twice.
-/

set_option autoImplicit false

namespace EvmTrace.CommandLine

/-- What the program is asked to do. -/
inductive Command where
  | replay (options : Replay.Options)
  /-- Checks a document. -/
  | validate (path : String)
  /-- Shows the form of documents, in full or not. -/
  | schema (full : Bool)
  /-- Shows the versions of the program and of the form of documents. -/
  | versions
  /-- Shows the version of the program alone. -/
  | programVersion
deriving DecidableEq

structure Flag where
  name : String
  letter : Option Char
  /-- Whether the option has a value. -/
  valued : Bool

/-- An option with its value, which is empty if the option has none. -/
structure Setting where
  name : String
  value : String

def verbose : Flag := ⟨"verbose", some 'v', false⟩

def replayFlags : List Flag :=
  [⟨"input", some 'i', true⟩, ⟨"out-dir", some 'o', true⟩, ⟨"format", some 'f', true⟩,
   ⟨"max-depth", none, true⟩, ⟨"no-native", none, false⟩, ⟨"tree", none, false⟩,
   ⟨"summary", none, false⟩, verbose]

def validateFlags : List Flag :=
  [⟨"file", some 'f', true⟩, verbose]

def schemaFlags : List Flag :=
  [⟨"show", none, false⟩, verbose]

/-- Whether an argument cannot be the value of the option before it. -/
def looksLikeOption (argument : String) : Bool :=
  argument ≠ "-" && argument.toList.head? = some '-'

/-- The name and the value around the first equals sign, if there is one. -/
def splitAtEquals (text : List Char) : List Char × Option (List Char) :=
  match text.dropWhile (· ≠ '=') with
  | [] => (text, none)
  | _ :: value => (text.takeWhile (· ≠ '='), some value)

/-- What follows in an argument after the letter of an option with a value. -/
def attachedValue : List Char → Option String
  | [] => none
  | '=' :: value => some (String.ofList value)
  | value => some (String.ofList value)

/-- What an argument says: its settings, and an option whose value is still to come. -/
structure Reading where
  settings : List Setting
  pending : Option String

/-- Reads an argument that begins with two hyphens, without these. -/
def readLong? (flags : List Flag) (text : List Char) : Option Reading :=
  let (name, value) := splitAtEquals text
  match flags.find? fun flag => flag.name.toList = name, value with
  | none, _ => none
  | some flag, some value =>
    if flag.valued then some ⟨[⟨flag.name, String.ofList value⟩], none⟩ else none
  | some flag, none =>
    if flag.valued then some ⟨[], some flag.name⟩ else some ⟨[⟨flag.name, ""⟩], none⟩

/-- Reads the letters after one hyphen. -/
def readLetters? (flags : List Flag) : List Char → Option Reading
  | [] => some ⟨[], none⟩
  | letter :: rest =>
    match flags.find? fun flag => flag.letter = some letter with
    | none => none
    | some flag =>
      if flag.valued then
        match attachedValue rest with
        | none => some ⟨[], some flag.name⟩
        | some value => some ⟨[⟨flag.name, value⟩], none⟩
      else
        (readLetters? flags rest).map fun reading =>
          ⟨⟨flag.name, ""⟩ :: reading.settings, reading.pending⟩

def readArgument? (flags : List Flag) (argument : String) : Option Reading :=
  match argument.toList with
  | '-' :: '-' :: text => readLong? flags text
  | '-' :: letter :: letters => readLetters? flags (letter :: letters)
  | _ => none

/-- Reads the arguments of a command, the first of which may be the value of a pending option. -/
def readSettings? (flags : List Flag) (pending : Option String) :
    List String → Option (List Setting)
  | [] => if pending.isSome then none else some []
  | argument :: rest =>
    match pending with
    | some name =>
      if looksLikeOption argument then none
      else (readSettings? flags none rest).map (⟨name, argument⟩ :: ·)
    | none =>
      if argument = "--" then if rest.isEmpty then some [] else none
      else
        match readArgument? flags argument with
        | none => none
        | some reading =>
          (readSettings? flags reading.pending rest).map (reading.settings ++ ·)

def areDistinct (settings : List Setting) : Bool :=
  (settings.map Setting.name).Nodup

/-- The settings that the arguments of a command make, each option at most once. -/
def settings? (flags : List Flag) (arguments : List String) : Option (List Setting) :=
  match readSettings? flags none arguments with
  | none => none
  | some settings => if areDistinct settings then some settings else none

def valueOf (settings : List Setting) (name : String) : Option String :=
  (settings.find? fun setting => setting.name = name).map Setting.value

def isSet (settings : List Setting) (name : String) : Bool :=
  (valueOf settings name).isSome

/-- A path, which must not be empty. -/
def readPath? (text : String) : Option String :=
  if text.isEmpty then none else some text

def readFormat? (text : String) : Option Replay.Format :=
  if text = "json" then some .documents
  else if text = "csv" then some .tables
  else none

/-- A number of 64 bits in decimal digits, after a plus sign or without one. -/
def readNumber? (text : String) : Option Nat :=
  let digits :=
    match text.toList with
    | '+' :: rest => rest
    | all => all
  if digits.isEmpty then none
  else if digits.all Char.isDigit then
    let n := digits.foldl (fun n digit => n * 10 + (digit.toNat - '0'.toNat)) 0
    if n < UInt64.size then some n else none
  else none

def optional? {α : Type} (read : String → Option α) (default : α) : Option String → Option α
  | none => some default
  | some text => read text

/-- The options of a replay; the environment may name the directory. -/
def replayOptions? (directory : Option String) (settings : List Setting) :
    Option Replay.Options := do
  let input ← (valueOf settings "input").bind readPath?
  let fallback := (directory.getD "traces")
  let directory ← readPath? ((valueOf settings "out-dir").getD fallback)
  let format ← optional? readFormat? .documents (valueOf settings "format")
  let maxDepth ← optional? readNumber? ({} : Config).maxDepth (valueOf settings "max-depth")
  pure
    { input, directory, format
      config := { maxDepth, nativeTransfers := !isSet settings "no-native" }
      showTree := isSet settings "tree", showSummary := isSet settings "summary" }

def readCommand? (directory : Option String) (command : String) (arguments : List String) :
    Option Command :=
  if command = "replay" then
    ((settings? replayFlags arguments).bind (replayOptions? directory)).map .replay
  else if command = "validate" then
    (settings? validateFlags arguments).bind fun settings =>
      ((valueOf settings "file").bind readPath?).map .validate
  else if command = "schema" then
    (settings? schemaFlags arguments).map fun settings => .schema (isSet settings "show")
  else if command = "version" then
    (settings? [verbose] arguments).map fun _ => .versions
  else none

/-- What the letters after one hyphen ask for in front of a command. -/
inductive Lead where
  /-- Nothing but messages, and whether they have been asked for. -/
  | goOn (verbose : Bool)
  | programVersion
  | rejected

def readLead (verbose : Bool) : List Char → Lead
  | [] => .goOn verbose
  | 'V' :: _ => .programVersion
  | 'v' :: rest => if verbose then .rejected else readLead true rest
  | _ => .rejected

/-- Reads all arguments; `verbose` tells whether messages have been asked for. -/
def readAll? (directory : Option String) (verbose : Bool) : List String → Option Command
  | [] => none
  | argument :: rest =>
    if argument = "--version" then some .programVersion
    else if argument = "--verbose" then
      if verbose then none else readAll? directory true rest
    else
      match argument.toList with
      | '-' :: letter :: letters =>
        match readLead verbose (letter :: letters) with
        | .goOn verbose => readAll? directory verbose rest
        | .programVersion => some .programVersion
        | .rejected => none
      | _ => readCommand? directory argument rest

/--
The command that the arguments ask for, if they make sense; the environment may name the directory
for traces.
-/
def read? (directory : Option String) (arguments : List String) : Option Command :=
  readAll? directory false arguments

end EvmTrace.CommandLine
