import EvmTrace.Disk
import EvmTrace.Disk.Path

/-!
A file system in memory. Operations fail where a file stands for a directory or a directory for a
file, where something is missing, and where a name or a path is longer than the limits of common
file systems allow.
-/

set_option autoImplicit false

namespace EvmTrace

/-- The names that lead from the outermost directory to a place below it. -/
abbrev Place := List String

inductive Node where
  | file (content : Bytes)
  | directory
deriving DecidableEq

/-- Files and directories with their places; the outermost directory is not listed. -/
structure FileTree where
  /-- The directory that paths start from unless they begin with a slash. -/
  working : Place
  nodes : List (Place × Node)
deriving DecidableEq

namespace FileTree

def empty : FileTree := ⟨[], []⟩

def listed (place : Place) : List (Place × Node) → Option Node
  | [] => none
  | (other, node) :: rest => if other = place then some node else listed place rest

def get? (tree : FileTree) (place : Place) : Option Node :=
  if place = [] then some .directory else listed place tree.nodes

def putIn (place : Place) (node : Node) : List (Place × Node) → List (Place × Node)
  | [] => [(place, node)]
  | (other, old) :: rest =>
    if other = place then (place, node) :: rest else (other, old) :: putIn place node rest

def put (tree : FileTree) (place : Place) (node : Node) : FileTree :=
  { tree with nodes := putIn place node tree.nodes }

theorem listed_putIn_same (place : Place) (node : Node) (nodes : List (Place × Node)) :
    listed place (putIn place node nodes) = some node := by
  induction nodes with
  | nil => simp [putIn, listed]
  | cons entry rest ih =>
      by_cases here : entry.1 = place
      · simp [putIn, listed, here]
      · simp [putIn, listed, here, ih]

theorem listed_putIn_other (place other : Place) (node : Node) (nodes : List (Place × Node))
    (apart : other ≠ place) : listed other (putIn place node nodes) = listed other nodes := by
  induction nodes with
  | nil => simp [putIn, listed, Ne.symm apart]
  | cons entry rest ih =>
      by_cases here : entry.1 = place
      · have elsewhere : ¬ place = other := Ne.symm apart
        simp [putIn, listed, here, elsewhere]
      · simp [putIn, listed, here, ih]

/-- What was put at a place stands there. -/
theorem get?_put_same (tree : FileTree) (place : Place) (node : Node) (below : place ≠ []) :
    (tree.put place node).get? place = some node := by
  simp only [get?, put, below, ↓reduceIte]
  exact listed_putIn_same place node tree.nodes

/-- Other places keep what stands there. -/
theorem get?_put_other (tree : FileTree) (place other : Place) (node : Node)
    (apart : other ≠ place) : (tree.put place node).get? other = tree.get? other := by
  by_cases top : other = []
  · simp only [get?, top, ↓reduceIte]
  · simp only [get?, put, top, ↓reduceIte]
    exact listed_putIn_other place other node tree.nodes apart

/-- The greatest number of bytes in a name. -/
def nameLimit : Nat := 255

/-- The greatest number of bytes in a path. -/
def pathLimit : Nat := 4095

/-- What stands at a place, unless its names are too long to be looked up. -/
def look (tree : FileTree) (place : Place) : Except Disk.Error (Option Node) :=
  if place.any fun name => nameLimit < name.utf8ByteSize then .error .nameTooLong
  else .ok (tree.get? place)

/-- The place that parts of a path lead to from another place; its last name is not looked up. -/
def follow (tree : FileTree) (place : Place) : List String → Except Disk.Error Place
  | [] => .ok place
  | part :: rest =>
    match tree.look place with
    | .error e => .error e
    | .ok none => .error .notFound
    | .ok (some (.file _)) => .error .notDirectory
    | .ok (some .directory) =>
      if Path.isBlank part then follow tree place rest
      else if part = ".." then follow tree place.dropLast rest
      else follow tree (place ++ [part]) rest

def badPath? (path : String) : Option Disk.Error :=
  if path.toList.contains '\x00' then some .zeroByte
  else if path.isEmpty then some .notFound
  else if pathLimit < path.utf8ByteSize then some .nameTooLong
  else none

def start (tree : FileTree) (path : String) : Place :=
  if Path.beginsWithSlash path then [] else tree.working

/-- The place that a path leads to; its last name is not looked up. -/
def locate (tree : FileTree) (path : String) : Except Disk.Error Place :=
  match badPath? path with
  | some e => .error e
  | none => tree.follow (tree.start path) (Text.split '/' path)

/-- The place for something new; slashes at the end of its path do not ask what stands there. -/
def locateNew (tree : FileTree) (path : String) : Except Disk.Error Place :=
  match badPath? path with
  | some e => .error e
  | none =>
    tree.follow (tree.start path) (Text.split '/' (Path.withoutTrailingSlashes path))

def find (tree : FileTree) (path : String) : Except Disk.Error (Option Node) :=
  match tree.locate path with
  | .error e => .error e
  | .ok place => tree.look place

def isFile (tree : FileTree) (path : String) : Bool :=
  match tree.find path with
  | .ok (some (.file _)) => true
  | _ => false

def isDirectory (tree : FileTree) (path : String) : Bool :=
  match tree.find path with
  | .ok (some .directory) => true
  | _ => false

def contents (tree : FileTree) (path : String) : Except Disk.Error Bytes :=
  match tree.find path with
  | .error e => .error e
  | .ok none => .error .notFound
  | .ok (some .directory) => .error .isDirectory
  | .ok (some (.file content)) => .ok content

def makeDirectory (tree : FileTree) (path : String) : Except Disk.Error Unit × FileTree :=
  match tree.locateNew path with
  | .error e => (.error e, tree)
  | .ok place =>
    match tree.look place with
    | .error e => (.error e, tree)
    | .ok (some _) => (.error .alreadyExists, tree)
    | .ok none => (.ok (), tree.put place .directory)

/-- Makes a file or replaces its content. -/
def store (tree : FileTree) (path : String) (content : Bytes) :
    Except Disk.Error Unit × FileTree :=
  match tree.locateNew path with
  | .error e => (.error e, tree)
  | .ok place =>
    if Path.endsWithSlash path then (.error .isDirectory, tree)
    else
      match tree.look place with
      | .error e => (.error e, tree)
      | .ok (some .directory) => (.error .isDirectory, tree)
      | .ok _ => (.ok (), tree.put place (.file content))

instance instDisk : Disk (StateM FileTree) where
  isFile path := fun tree => (tree.isFile path, tree)
  isDirectory path := fun tree => (tree.isDirectory path, tree)
  contents path := fun tree => (tree.contents path, tree)
  makeDirectory path := fun tree => tree.makeDirectory path
  store path content := fun tree => tree.store path content

end FileTree

end EvmTrace
