import EvmTrace.Bytes

/-!
What the library asks of a file system. Files and directories are named by paths, which are texts;
operations fail as those of the operating system do.
-/

set_option autoImplicit false

namespace EvmTrace

inductive Disk.Error where
  | notFound
  | alreadyExists
  | notDirectory
  | isDirectory
  | nameTooLong
  /-- A path contains a zero byte. -/
  | zeroByte
  /-- A file was read as text, and its bytes are no text. -/
  | notText
  /-- Any other failure, in words. -/
  | other (text : String)
deriving DecidableEq

def Disk.Error.message : Disk.Error → String
  | .notFound => "No such file or directory (os error 2)"
  | .alreadyExists => "File exists (os error 17)"
  | .notDirectory => "Not a directory (os error 20)"
  | .isDirectory => "Is a directory (os error 21)"
  | .nameTooLong => "File name too long (os error 36)"
  | .zeroByte => "file name contained an unexpected NUL byte"
  | .notText => "stream did not contain valid UTF-8"
  | .other text => text

/-- A file system that computations of type `m` work on. -/
class Disk (m : Type → Type) where
  /-- Whether a path leads to a file. -/
  isFile : String → m Bool
  /-- Whether a path leads to a directory. -/
  isDirectory : String → m Bool
  /-- The content of a file. -/
  contents : String → m (Except Disk.Error Bytes)
  /-- Makes a directory in one that exists. -/
  makeDirectory : String → m (Except Disk.Error Unit)
  /-- Makes a file with the given content, in place of a file that exists. -/
  store : String → Bytes → m (Except Disk.Error Unit)

end EvmTrace
