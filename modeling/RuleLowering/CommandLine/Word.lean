import RuleLowering.CommandLine.Misuse
import RuleLowering.Text.Digit

/-!
# Arguments by their form

An argument in front of the separator is a switch if it starts with a hyphen and names one, by its
letter or by a long name that may be cut short as long as it stays unique. Of the others, those that
look like a negative number or hold a space are positional.
-/
namespace RuleLowering.CommandLine

inductive Word where
  | positional (raw : String)
  /-- The two hyphens that end the switches. -/
  | separator
  /-- A switch by its letter, with what stands behind the letter or behind the equality sign there. -/
  | short (s : Switch) (raw : String) (rest : Option String)
  /-- A switch by a long name, with what stands behind the equality sign. -/
  | long (s : Switch) (raw : String) (rest : Option String)
  | unknown (raw : String)
  deriving DecidableEq, Repr

namespace Word

def raw : Word → String
  | positional raw | short _ raw _ | long _ raw _ | unknown raw => raw
  | separator => "--"

def isPositional : Word → Bool
  | positional _ | separator => true
  | _ => false

/-- What stands in front of the first equality sign, and what stands behind it. -/
def splitValue (s : List Char) : String × Option String :=
  match s.dropWhile (· ≠ '=') with
  | [] => (String.ofList s, none)
  | _ :: value => (String.ofList (s.takeWhile (· ≠ '=')), some (String.ofList value))

/-- Tells whether a text is made of digits, or of digits with a point in front of the last of
them. One line feed may follow. -/
def isNumber (s : List Char) : Bool :=
  let s := if s.getLast? = some '\n' then s.dropLast else s
  match s.dropWhile Text.isDecimalDigit with
  | [] => !s.isEmpty
  | '.' :: fraction => !fraction.isEmpty && fraction.all Text.isDecimalDigit
  | _ => false

def ofUnnamed (raw : String) : Word :=
  if isNumber (raw.toList.drop 1) || raw.contains ' ' then positional raw else unknown raw

def ofLong? (raw : String) : Except Misuse Word :=
  let (stem, value) := splitValue raw.toList
  match Switch.table.lookup stem with
  | some s => .ok (long s raw value)
  | none =>
    match Switch.table.filter fun e => e.1.startsWith stem with
    | [] => .ok (ofUnnamed raw)
    | [(_, s)] => .ok (long s raw value)
    | several => .error (.ambiguous raw (several.map (·.1)))

/-- What stands behind the letter of a switch, without an equality sign right behind it. -/
def behindLetter? : List Char → Option String
  | [] => none
  | '=' :: rest => some (String.ofList rest)
  | rest => some (String.ofList rest)

def ofArgument? (raw : String) : Except Misuse Word :=
  match raw.toList with
  | '-' :: '-' :: _ => ofLong? raw
  | '-' :: c :: rest =>
    match Switch.ofLetter? c with
    | some s => .ok (short s raw (behindLetter? rest))
    | none => .ok (ofUnnamed raw)
  | _ => .ok (positional raw)

/-- Tells what the arguments are. Behind the separator all of them are positional. -/
def ofArguments? : List String → Except Misuse (List Word)
  | [] => .ok []
  | "--" :: rest => .ok (separator :: rest.map positional)
  | raw :: rest => do return (← ofArgument? raw) :: (← ofArguments? rest)

end Word

end RuleLowering.CommandLine
