import EvmTrace.Clock
import EvmTrace.CommandLine
import Std.Time.DateTime.Timestamp

set_option autoImplicit false

namespace EvmTrace.Machine

/-- The number of a failure, which some operations report as a negative number of 32 bits. -/
def magnitude (code : UInt32) : Nat :=
  if 2 * code.toNat < UInt32.size then code.toNat else UInt32.size - code.toNat

/-- A failure with the number that the operating system gives it. -/
def numbered (code : UInt32) (details : String) : Disk.Error :=
  match magnitude code with
  | 2 => .notFound
  | 17 => .alreadyExists
  | 20 => .notDirectory
  | 21 => .isDirectory
  | 36 => .nameTooLong
  | n => .other (details ++ " (os error " ++ toString n ++ ")")

def failureOf : IO.Error → Disk.Error
  | .noFileOrDirectory _ code details => numbered code details
  | .alreadyExists _ code details => numbered code details
  | .inappropriateType _ code details => numbered code details
  | .permissionDenied _ code details => numbered code details
  | .resourceExhausted _ code details => numbered code details
  | .invalidArgument _ code details => numbered code details
  | other => .other (toString other)

def attempt {α : Type} (action : IO α) : IO (Except Disk.Error α) := do
  match ← action.toBaseIO with
  | .ok value => pure (.ok value)
  | .error e => pure (.error (failureOf e))

/-- Whether something can be opened under a path. -/
def opens (path : String) : IO Bool := do
  match ← attempt (IO.FS.Handle.mk path .read) with
  | .ok _ => pure true
  | .error _ => pure false

/-- Whether a path leads to a directory, which the path with a dot behind it then does too. -/
def isDirectory (path : String) : IO Bool :=
  if path.isEmpty then pure false else opens (path ++ "/.")

instance : Disk IO where
  isFile path := do
    if ← isDirectory path then pure false else opens path
  isDirectory path := isDirectory path
  contents path := attempt do
    let handle ← IO.FS.Handle.mk path .read
    let content ← handle.readBinToEnd
    pure content.data.toList
  makeDirectory path := attempt (IO.FS.createDir path)
  store path content := attempt (IO.FS.writeBinFile path ⟨content.toArray⟩)

def now : IO String := do
  let moment ← Std.Time.Timestamp.now
  pure (Clock.text moment.toNanosecondsSinceUnixEpoch.val.toNat)

end EvmTrace.Machine

def main (arguments : List String) : IO UInt32 := do
  let directory ← IO.getEnv EvmTrace.CommandLine.directoryVariable
  let reply ← EvmTrace.CommandLine.run EvmTrace.Machine.now directory arguments
  IO.print reply.shown
  match reply.error with
  | none => pure ()
  | some error => IO.eprintln ("Error: " ++ error)
  pure reply.exitCode.toUInt32
