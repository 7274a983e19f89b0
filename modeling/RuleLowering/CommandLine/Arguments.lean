import RuleLowering.CommandLine.Word

/-!
# Command line arguments

The grammar of the command line: one positional argument, the input, and switches in any order. A
long switch takes a value behind an equality sign or in the next argument; behind the letter of a
short switch come its value or, if it takes none, the letters of more switches. Two hyphens as a
value stand for none. Switches are taken in order, so the first of two faults counts, and a missing
input is noticed before arguments that nobody asked for.
-/
namespace RuleLowering.CommandLine

inductive OutputFormat where
  | yaml
  | json
  | source
  deriving DecidableEq, Repr

structure Request where
  input : String := ""
  output : Option String := none
  jsonInput : Bool := false
  format : OutputFormat := .yaml
  config : Option String := none
  verbose : Bool := false
  deriving DecidableEq, Repr

structure Progress where
  request : Request := {}
  input : Option String := none
  /-- Arguments that nobody asked for. -/
  extras : List String := []

inductive Halt where
  | help
  | misuse (m : Misuse)
  deriving DecidableEq, Repr

structure Cluster where
  /-- The switches that take no value. -/
  flags : List Switch := []
  /-- The switch that takes a value, with the value if the argument holds it. -/
  last : Option (Switch × Option String) := none
  deriving DecidableEq, Repr

namespace Cluster

def cons (s : Switch) (c : Cluster) : Cluster := { c with flags := s :: c.flags }

def ofSwitch? (s : Switch) (rest : Option String) : Except Misuse Cluster :=
  match s.takesValue, rest with
  | true, rest => .ok { last := some (s, rest) }
  | false, none => .ok { flags := [s] }
  | false, some value => .error (.ignoredValue s value)

/-- A switch with the characters behind its letter. If it takes no value, they are the letters of
more switches, each of which is looked up before any switch is taken. -/
def ofLetters? (s : Switch) : List Char → Except Misuse Cluster
  | [] => ofSwitch? s none
  | c :: rest =>
    let behind := some (String.ofList (c :: rest))
    if s.takesValue then ofSwitch? s behind
    else match Switch.ofLetter? c with
      | some t => (ofLetters? t rest).map (cons s)
      | none => ofSwitch? s behind

def ofWord? : Word → Except Misuse Cluster
  | .short s _ (some "") => ofSwitch? s (some "")
  | .short s _ rest => ofLetters? s (rest.getD "").toList
  | .long s _ rest => ofSwitch? s rest
  | .unknown _ | .positional _ | .separator => .ok {}

/-- The switch of a cluster that takes its value from the next argument. -/
def wanting? (c : Cluster) : Option Switch :=
  match c.last with
  | some (s, none) => some s
  | _ => none

end Cluster

namespace Progress

def applyFlag (p : Progress) (s : Switch) : Except Halt Progress :=
  match s with
  | .help => .error .help
  | _ => .ok { p with request := { p.request with verbose := true } }

def setValue (p : Progress) (s : Switch) (value : Option String) : Progress :=
  let r := p.request
  { p with request := match s with
    | .output => { r with output := value }
    | .config => { r with config := value }
    | .inputFormat => { r with jsonInput := value = some "json" }
    | .format =>
      { r with format := if value = some "json" then .json
                         else if value = some "source" then .source else .yaml }
    | .help | .verbose => r }

def applyValue (p : Progress) (s : Switch) (value : String) : Except Halt Progress :=
  let choices := s.choices?.getD [value]
  if value = "--" then .ok (p.setValue s none)
  else if choices.contains value then .ok (p.setValue s (some value))
  else .error (.misuse (.badChoice s value choices))

def applyCluster (p : Progress) (c : Cluster) (value : String) : Except Halt Progress := do
  let p ← c.flags.foldlM applyFlag p
  match c.last with
  | some (s, own) => p.applyValue s (own.getD value)
  | none => return p

/-- The input among arguments that stand together, and the number of arguments it takes with the
separator next to it. -/
def inputAmong? : List Word → Option (String × Nat)
  | .separator :: .positional s :: _ => some (s, 2)
  | .positional s :: .separator :: _ => some (s, 2)
  | .positional s :: _ => some (s, 1)
  | _ => none

def takePositionals (p : Progress) (words : List Word) : Progress :=
  match p.input, inputAmong? words with
  | none, some (s, taken) =>
    { p with input := some s, extras := p.extras ++ (words.drop taken).map Word.raw }
  | _, _ => { p with extras := p.extras ++ words.map Word.raw }

/-- Sets an argument aside that is an attempt at a switch. -/
def passOver (p : Progress) (w : Word) : Progress :=
  match w with
  | .unknown raw => { p with extras := p.extras ++ [raw] }
  | _ => p

/-- Reads the arguments in order; positional ones wait in `front` until a switch or the end comes. -/
def read (p : Progress) (front : List Word) : List Word → Except Halt Progress
  | [] => .ok (p.takePositionals front)
  | w :: rest =>
    if w.isPositional then read p (front ++ [w]) rest
    else do
      let c ← (Cluster.ofWord? w).mapError .misuse
      let p := (p.takePositionals front).passOver w
      match c.wanting? with
      | none => read (← p.applyCluster c "") [] rest
      | some s =>
        match rest with
        | .positional value :: rest => read (← p.applyCluster c value) [] rest
        | _ => .error (.misuse (.noValue s))

end Progress

def parse (arguments : List String) : Except Halt Request := do
  let words ← (Word.ofArguments? arguments).mapError .misuse
  let p ← Progress.read {} [] words
  match p.input with
  | none => .error (.misuse .noInput)
  | some input =>
    if p.extras.isEmpty then return { p.request with input }
    else .error (.misuse (.unrecognized p.extras))

end RuleLowering.CommandLine
