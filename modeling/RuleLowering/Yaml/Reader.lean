import RuleLowering.Yaml.Construction

/-!
# Reading YAML text

A text holds at most one document; without one it holds null. Some characters may not occur in a text.
A text that is at hand as a whole is searched for them first. A file is searched chunk by chunk as it
is read, so a fault in front of the chunk with such a character in it counts.
-/
namespace RuleLowering.Yaml

/-- Reads characters that may all occur. -/
def readChars (document : Nat) (s : List Char) : Except Fault Data := do
  match ← Graph.ofChars? s with
  | (none, _) => return .null
  | (some root, g) => g.value document root

def read (document : Nat) (text : Text) : Except Fault Data :=
  match text with
  | .plain s => if s.toList.all isAllowed then readChars document s.toList else .error .yaml
  | .broken .. => .error .yaml

/-- The number of characters in a chunk of a file. The first two are read at once. -/
def chunkSize : Nat := 4096

def readBefore (index : Nat) : Nat :=
  if index < 2 * chunkSize then 0 else index - index % chunkSize

def readFile (document : Nat) (content : String) : Except Fault Data :=
  let s := content.toList
  match s.findIdx? fun c => !isAllowed c with
  | none => readChars document s
  | some index => do
    let _ ← Graph.ofChars? (s.take (readBefore index))
    .error .yaml

end RuleLowering.Yaml
