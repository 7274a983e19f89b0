import RuleLowering.Fault

/-!
# Files at hand

The files that a run can see, by their paths. A path is walked name by name, and each name but the
last one has to be that of a folder. A file makes the folders on its way exist; a folder holds no
text itself.
-/
namespace RuleLowering.CommandLine

/-- Texts by path, and folders that exist without one of these in them. -/
structure Disk where
  files : List (String × String) := []
  folders : List (List String) := []
  deriving DecidableEq, Repr

/-- The place of a file or folder: the names on the way to it. The root has a name of its own, and
the working folder has no names. -/
abbrev Place := List String

namespace Disk

def next (here : Place) (name : String) : Place :=
  if name = "" ∨ name = "." then here
  else if name = ".." then (if here = ["/"] then here else here.dropLast)
  else here ++ [name]

def start (path : String) : Place := if path.toList.head? = some '/' then ["/"] else []

/-- The names along a path. A path that ends with a slash ends with an empty name. -/
def names (path : String) : List String := (path.toList.splitOn '/').map String.ofList

def placeOf (path : String) : Place := (names path).foldl next (start path)

inductive Entry where
  | text (content : String)
  | folder
  | nothing
  /-- A file stands where the path needs a folder. -/
  | blocked
  /-- The path, or a name to be looked up in a folder, is too long. -/
  | tooLong
  /-- The path can be none, since it has the character U+0000 in it. -/
  | broken
  deriving DecidableEq, Repr

def file? (d : Disk) (place : Place) : Option String :=
  (d.files.find? (placeOf ·.1 == place)).map (·.2)

def isFolder (d : Disk) (place : Place) : Bool :=
  place == [] || place == ["/"] || d.folders.contains place
    || d.files.any fun f => place.isPrefixOf (placeOf f.1) && place != placeOf f.1

def entryAt (d : Disk) (place : Place) : Entry :=
  match d.file? place with
  | some content => .text content
  | none => if d.isFolder place then .folder else .nothing

def nameLimit : Nat := 255

def pathLimit : Nat := 4095

/-- Walks along some names from a place; fails where a name is to be looked up in what is no folder,
or is too long to be looked up. -/
def walk (d : Disk) (here : Place) : List String → Except Entry Place
  | [] => .ok here
  | name :: rest =>
    match d.entryAt here with
    | .folder =>
      if nameLimit < name.utf8ByteSize then .error .tooLong else walk d (next here name) rest
    | .text _ => .error .blocked
    | other => .error other

def locate (d : Disk) (path : String) : Except Entry Place :=
  if path = "" then .error .nothing
  else if '\x00' ∈ path.toList then .error .broken
  else if pathLimit < path.utf8ByteSize then .error .tooLong
  else d.walk (start path) (names path)

def entry (d : Disk) (path : String) : Entry :=
  match d.locate path with
  | .ok place => d.entryAt place
  | .error e => e

/-- Why a path cannot be opened where a file is needed. -/
def Entry.fault (path : String) : Entry → Fault
  | text _ | nothing => .noFile path
  | folder => .isDirectory path
  | blocked => .notDirectory path
  | tooLong => .longName path
  | broken => .brokenPath

def read (d : Disk) (path : String) : Except Fault String :=
  match d.entry path with
  | .text content => .ok content
  | other => .error (other.fault path)

def put (d : Disk) (place : Place) (content : String) : Disk :=
  if (d.file? place).isSome then
    { d with files := d.files.map fun f => if placeOf f.1 = place then (f.1, content) else f }
  else { d with files := d.files ++ [("/".intercalate place, content)] }

/-- The path ends with a slash behind a name that could be given in a folder that exists. -/
def isNewFolder (d : Disk) (path : String) : Bool :=
  (names path).getLast? = some "" &&
    match (names path).reverse.dropWhile (· = "") with
    | [] => false
    | _ :: above => match d.walk (start path) above.reverse with
      | .ok here => d.isFolder here
      | .error _ => false

/-- The place that a path names for a file to be written, in a folder that exists. -/
def target (d : Disk) (path : String) : Except Fault Place :=
  match d.locate path with
  | .error .nothing => .error (if d.isNewFolder path then .isDirectory path else .noFile path)
  | .error e => .error (e.fault path)
  | .ok place => match d.entryAt place with
    | .text _ | .nothing => .ok place
    | other => .error (other.fault path)

/-- The disk after a file has been opened for writing, which leaves it empty. -/
def opened (d : Disk) (path : String) : Disk :=
  match d.target path with
  | .ok place => d.put place ""
  | .error _ => d

/-- Writes a file. A text with halves of surrogate pairs cannot be stored. -/
def write (d : Disk) (path : String) (text : Text) : Except Fault Disk := do
  let place ← d.target path
  match text with
  | .plain content => return d.put place content
  | .broken .. => .error .unstorable

/-- The files of `after` that are new or have another content. -/
def changed (before after : Disk) : List (String × String) :=
  after.files.filter fun f => before.file? (placeOf f.1) ≠ some f.2

end Disk

end RuleLowering.CommandLine
