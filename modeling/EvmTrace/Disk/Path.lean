import EvmTrace.Text

/-!
Paths as texts: names of directories and files between slashes. Empty parts and the part `.` name
nothing of their own, except that a path may begin with them.
-/

set_option autoImplicit false

namespace EvmTrace.Path

def join (directory name : String) : String :=
  if directory.isEmpty ∨ directory.toList.getLast? = some '/' then directory ++ name
  else directory ++ "/" ++ name

/-- Whether a part of a path names nothing of its own. -/
def isBlank (part : String) : Bool :=
  part = "" || part = "."

/-- The lists of parts, last part first, that remain when a path is shortened name by name. -/
def shortened : List String → List (List String)
  | [] => []
  | part :: outer =>
    if isBlank part && !outer.isEmpty then shortened outer else (part :: outer) :: shortened outer

/-- The path with the given parts, last part first. -/
def ofParts : List String → String
  | [""] => "/"
  | parts => "/".intercalate parts.reverse

/-- A path and the paths of the directories around it, innermost first. -/
def ancestors (path : String) : List String :=
  if path.isEmpty then [] else (shortened (Text.split '/' path).reverse).map ofParts

/-- The path of the directory around a path; it is empty for a name without slash. -/
def parent? (path : String) : Option String :=
  match ancestors path with
  | [] => none
  | [only] => if only = "/" then none else some ""
  | _ :: outer :: _ => some outer

def withoutTrailingSlashes (path : String) : String :=
  String.ofList (path.toList.reverse.dropWhile (· = '/')).reverse

def beginsWithSlash (path : String) : Bool :=
  path.toList.head? = some '/'

def endsWithSlash (path : String) : Bool :=
  path.toList.getLast? = some '/'

end EvmTrace.Path
