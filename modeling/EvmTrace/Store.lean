import EvmTrace.Disk
import EvmTrace.Disk.Path
import EvmTrace.Document.Text

set_option autoImplicit false

namespace EvmTrace

/-- Why a trace is not kept, or a kept trace is not read. -/
inductive Store.Error where
  | disk (reason : Disk.Error)
  /-- The content of a file is no document. -/
  | notDocument
  | badPath (reason : String)
deriving DecidableEq

def Store.Error.message : Store.Error → String
  | .disk reason => "Failed to write file: " ++ reason.message
  | .notDocument => "Failed to serialize JSON"
  | .badPath reason => "Invalid output path: " ++ reason

namespace Store

variable {m : Type → Type} [Monad m] [Disk m]

def pathExists (path : String) : m Bool := do
  if ← Disk.isFile path then pure true else Disk.isDirectory path

/--
Makes the first of the given directories, each of which lies in the next. Those around it are made
only if they are missing, and a directory that exists is as good as one that is made.
-/
def makeDirectories : List String → m (Except Disk.Error Unit)
  | [] => pure (.ok ())
  | path :: outer => do
    match ← Disk.makeDirectory path with
    | .ok () => pure (.ok ())
    | .error .notFound =>
      match ← makeDirectories outer with
      | .error e => pure (.error e)
      | .ok () =>
        match ← Disk.makeDirectory path with
        | .ok () => pure (.ok ())
        | .error e => do
          if ← Disk.isDirectory path then pure (.ok ()) else pure (.error e)
    | .error e => do
      if ← Disk.isDirectory path then pure (.ok ()) else pure (.error e)

/-- Makes a directory and the directories around it. -/
def makePath (path : String) : m (Except Error Unit) := do
  match ← makeDirectories (Path.ancestors path) with
  | .ok () => pure (.ok ())
  | .error e =>
    pure (.error (.badPath ("Cannot create directory " ++ path ++ ": " ++ e.message)))

/-- Makes the directories around a path, if the innermost one does not exist. -/
def makeParent (path : String) : m (Except Error Unit) := do
  match Path.parent? path with
  | none => pure (.ok ())
  | some parent => do
    if parent.isEmpty then pure (.ok ())
    else if ← pathExists parent then pure (.ok ())
    else makePath parent

def writeText (path text : String) : m (Except Error Unit) := do
  match ← Disk.store path (Text.encode text) with
  | .ok () => pure (.ok ())
  | .error e => pure (.error (.disk e))

/-- Writes a document to a file, in directories that are made if they are missing. -/
def writeDocument (document : Document) (path : String) : m (Except Error Unit) := do
  if path.isEmpty then pure (.error (.badPath "Path is empty"))
  else if ← Disk.isDirectory path then pure (.error (.badPath ("Path is a directory: " ++ path)))
  else
    match ← makeParent path with
    | .error e => pure (.error e)
    | .ok () => writeText path document.print

def readDocument (path : String) : m (Except Error Document) := do
  match ← Disk.contents path with
  | .error .isDirectory => pure (.error .notDocument)
  | .error e => pure (.error (.disk e))
  | .ok content =>
    match Document.ofBytes? content with
    | none => pure (.error .notDocument)
    | some document => pure (.ok document)

def documentPath (directory : String) (trace : Trace) : String :=
  Path.join directory (Hex.text trace.metadata.hash.bytes ++ ".json")

def tablesPath (directory : String) (trace : Trace) : String :=
  Path.join directory (Hex.text trace.metadata.hash.bytes)

/-- The tables of a trace with the names of their files. -/
def tables (trace : Trace) : List (String × String) :=
  [("optrace.csv", Csv.steps trace.steps), ("functrace.csv", Csv.calls trace.calls),
   ("eventtrace.csv", Csv.logs trace.logs), ("transfertrace.csv", Csv.transfers trace.transfers)]

/-- Writes files into a directory, one after the other, until one fails. -/
def writeFiles (directory : String) : List (String × String) → m (Except Error Unit)
  | [] => pure (.ok ())
  | (name, text) :: rest => do
    match ← writeText (Path.join directory name) text with
    | .error e => pure (.error e)
    | .ok () => writeFiles directory rest

/-- Writes the tables of a trace into a directory, which is made if it is missing. -/
def writeTables (path : String) (trace : Trace) : m (Except Error Unit) := do
  if ← Disk.isFile path then pure (.error (.badPath ("Path is a file: " ++ path)))
  else
    match ← makePath path with
    | .error e => pure (.error e)
    | .ok () => writeFiles path (tables trace)

end Store

end EvmTrace
