import RuleLowering.Data.Items
import RuleLowering.Json.Writer

/-!
# Tokens of source text

Atoms, texts and terms as they stand in printed source. An atom that begins with a lower case
letter and goes on with letters, digits, underscores and at signs is bare; any other one stands
in single quotes, with a backslash before backslashes and single quotes.
-/
namespace RuleLowering.Source

def isLower (c : Char) : Bool := 'a' ≤ c && c ≤ 'z'

def isAtomChar (c : Char) : Bool :=
  'a' ≤ c && c ≤ 'z' || 'A' ≤ c && c ≤ 'Z' || '0' ≤ c && c ≤ '9' || c == '_' || c == '@'

/-- The characters of a name with a line feed at its end left out. -/
def chopLine (s : List Char) : List Char :=
  if s.getLast? = some '\n' then s.dropLast else s

/-- Whether a name is printed without quotes. A line feed at its end is not looked at. -/
def isBare (s : List Char) : Bool :=
  match chopLine s with
  | [] => false
  | c :: rest => isLower c && rest.all isAtomChar

def quoteChar (c : Char) : List Char :=
  if c = '\x5c' ∨ c = '\x27' then ['\x5c', c] else [c]

def atomChars (s : List Char) : List Char :=
  if isBare s then s else '\x27' :: s.flatMap quoteChar ++ ['\x27']

def atomText : Text → Text
  | .plain s => String.ofList (atomChars s.toList)
  | name => "'" ++ name.replace quoteChar ++ "'"

/-- The text of an atom. Only a text can be the name of one. -/
def atom (name : Data) : Except Fault Text :=
  match name with
  | .str t => .ok (atomText t)
  | _ => .error (.notText name.kindPath)

/-- The text of a string, or of other data in its place. -/
def string (d : Data) : Except Fault String :=
  Json.write .asRead d

mutual
def term : Data → String
  | .null => "undefined"
  | .bool b => if b then "true" else "false"
  | .int n => toString n
  | .float x => Data.numberLayout.write x
  | .str t => Text.escaped t
  | .list _ items => "[" ++ Data.joinWith ", " (termItems items) ++ "]"
  | .group .pair _ items => "[" ++ Data.joinWith ", " (termItems items) ++ "]"
  | .group .set place items => Text.escaped (Data.group .set place items).display
  | .map _ entries => "#\x7b" ++ Data.joinWith ", " (termEntries entries) ++ "\x7d"
  | .special place x => Text.escaped (Data.special place x).display

def termItems : List Data → List String
  | [] => []
  | x :: xs => term x :: termItems xs

def termEntries : List (Data × Data) → List String
  | [] => []
  | (k, v) :: es => (term k ++ " => " ++ term v) :: termEntries es
end

/-- The text of the value of an attribute, if it has an end and all numbers in it can be written. -/
def termText (d : Data) : Except Fault String :=
  if d.isCyclic then .error .endless
  else if d.isWritable then .ok (term d) else .error .numberTooLong

end RuleLowering.Source
