import RuleLowering.Data.Display
import RuleLowering.Data.Order
import RuleLowering.Sorting
import RuleLowering.Yaml.Node
import RuleLowering.Yaml.Page

/-!
# YAML text of plain data

Collections stand in block form, keys in order, empty collections in brackets. A container that
is met twice is written once, with an anchor, and referred to afterwards; anchors are numbered
in the order in which second meetings occur. What stands inside itself is met a second time there.
-/
namespace RuleLowering.Yaml

/-- The text of a floating number; one with an exponent has a point. -/
def floatText (x : Binary64) : String :=
  match x.view with
  | .nan => ".nan"
  | .infinity negative => if negative then "-.inf" else ".inf"
  | .finite .. =>
    let s := (Data.numberLayout.write x).toList
    if s.contains 'e' && !s.contains '.' then
      String.ofList (s.takeWhile (· ≠ 'e') ++ ['.', '0'] ++ s.dropWhile (· ≠ 'e'))
    else String.ofList s

def sixtyFour : List Char :=
  "ABCDEFGHIJKLMNOPQRSTUVWXYZabcdefghijklmnopqrstuvwxyz0123456789+/".toList

/-- Four letters for three bytes; missing bytes are shown by equality signs. -/
def sixtyFourGroup (bytes : List UInt8) : List Char :=
  let padded : List UInt8 := bytes ++ List.replicate (3 - bytes.length) 0
  let n := padded.foldl (fun n b => n * 256 + b.toNat) 0
  let letters := [n / 262144 % 64, n / 4096 % 64, n / 64 % 64, n % 64].map (sixtyFour.getD · '=')
  letters.take (bytes.length + 1) ++ List.replicate (3 - bytes.length) '='

/-- A list in pieces of the given length; the last one may be shorter. -/
def pieces {α : Type} (length : Nat) (s : List α) : List (List α) :=
  (List.range ((s.length + length - 1) / length)).map fun i => (s.drop (i * length)).take length

/-- Bytes in letters, in lines of seventy-six. -/
def bytesText (content : List UInt8) : String :=
  String.ofList ((pieces 57 content).flatMap fun line =>
    (pieces 3 line).flatMap sixtyFourGroup ++ ['\n'])

def specialNode (place : Place) : Special → Node
  | .day d => .scalar place .timestamp d.text
  | .moment m => .scalar place .timestamp m.text
  | .bytes content => .scalar .fresh .binary (bytesText content)

/-- Entries in the order of their keys, or as they are if the keys have no order. -/
def arrangeNodes (entries : List (Data × Node × Node)) : List (Node × Node) :=
  match sorted (fun a b => Data.less? a.1 b.1) entries with
  | .ok arranged => arranged.map (·.2)
  | .error _ => entries.map (·.2)

mutual
/-- The node of a value inside containers of the places around it. -/
def nodeOf (around : List Place) : Data → Node
  | .null => .scalar .fresh .null "null"
  | .bool b => .scalar .fresh .bool (if b then "true" else "false")
  | .int n => .scalar .fresh .int (toString n)
  | .float x => .scalar .fresh .float (floatText x)
  | .str t => .scalar .fresh .str t
  | .special place x => specialNode place x
  | .list place items =>
    .seq place .seq (if place.isAmong around then [] else nodesOf (place :: around) items)
  | .group .pair place items =>
    .seq place .seq (if place.isAmong around then [] else nodesOf (place :: around) items)
  | .group .set place items => .map place .set (arrangeNodes (memberNodes (place :: around) items))
  | .map place entries =>
    .map place .map (if place.isAmong around then []
      else arrangeNodes (entryNodes (place :: around) entries))

def nodesOf (around : List Place) : List Data → List Node
  | [] => []
  | x :: xs => nodeOf around x :: nodesOf around xs

/-- The members of a set, as keys with null. -/
def memberNodes (around : List Place) : List Data → List (Data × Node × Node)
  | [] => []
  | x :: xs => (x, nodeOf around x, .scalar .fresh .null "null") :: memberNodes around xs

def entryNodes (around : List Place) : List (Data × Data) → List (Data × Node × Node)
  | [] => []
  | (k, v) :: es => (k, nodeOf around k, nodeOf around v) :: entryNodes around es
end

/-- Places met so far, and those met again, the latest first. -/
structure Meetings where
  met : List Place := []
  again : List Place := []

/-- Takes note of a place; says whether it is met for the first time. -/
def Meetings.note (m : Meetings) (place : Place) : Bool × Meetings :=
  if place = .fresh then (true, m)
  else if m.met.contains place then
    (false, if m.again.contains place then m else { m with again := place :: m.again })
  else (true, { m with met := place :: m.met })

mutual
def meet (m : Meetings) : Node → Meetings
  | .scalar place _ _ => (m.note place).2
  | .seq place _ items =>
    let (first, m) := m.note place
    if first then meetAll m items else m
  | .map place _ entries =>
    let (first, m) := m.note place
    if first then meetEntries m entries else m

def meetAll (m : Meetings) : List Node → Meetings
  | [] => m
  | x :: xs => meetAll (meet m x) xs

def meetEntries (m : Meetings) : List (Node × Node) → Meetings
  | [] => m
  | (k, v) :: es => meetEntries (meet (meet m k) v) es
end

def anchorName (number : Nat) : String := "id" ++ paddedTo 3 number

/-- What stays fixed while a document is written: the places that get anchors, in order. -/
abbrev Anchors := List Place

def Anchors.name? (anchors : Anchors) (place : Place) : Option String :=
  (anchors.findIdx? (· == place)).map fun i => anchorName (i + 1)

/-- A page, with the places that have been written on it. -/
structure Sheet where
  page : Page := {}
  written : List Place := []

namespace Sheet

def map (s : Sheet) (f : Page → Page) : Sheet := { s with page := f s.page }

/-- Writes a reference to a place that is on the sheet already; otherwise its anchor, if it gets one,
and what `rest` writes. -/
def anchored (s : Sheet) (anchors : Anchors) (place : Place) (rest : Sheet → Sheet) : Sheet :=
  match anchors.name? place with
  | none => rest s
  | some name =>
    if s.written.contains place then s.map (·.indicator ("*" ++ name) true)
    else rest { page := s.page.indicator ("&" ++ name) true, written := place :: s.written }

end Sheet

def Page.scalar (p : Page) (tag : Tag) (text : Text) (indent : Nat) (inKey : Bool) : Page :=
  let s := text.chars
  let p := if tag = .binary then p.indicator tag.short true else p
  match Style.choose tag text inKey with
  | .plain => p.plain indent (!inKey) s
  | .single => p.single indent (!inKey) s
  | .double => p.double indent (!inKey) text.glyphs
  | .block => p.block indent s

/-- A key that stands on one line with its value: a short scalar without line breaks, or something
empty. -/
def isSimpleKey (anchors : Anchors) (written : List Place) (key : Node) : Bool :=
  let anchor := ((anchors.name? key.place).map String.length).getD 0
  let length := anchor + key.tag.short.length
  match key with
  | .scalar place tag text =>
    if anchors.contains place && written.contains place then anchor < 128
    else
      let f := Style.facts text.chars
      length + text.length < 128 && !f.empty && !f.multiline && tag != .binary
  | .seq _ _ items => items.isEmpty && length < 128
  | .map _ _ entries => entries.isEmpty && length < 128

inductive Position where
  | item
  /-- Behind a key, on its line or under it. -/
  | value
  /-- A key on one line with its value. -/
  | key
  deriving DecidableEq, Repr

/-- The indentation of a collection within one that has the given indentation, if any. -/
def deeper : Option Nat → Nat
  | none => 0
  | some n => n + 2

mutual
/-- Writes a node in a collection of the given indentation. -/
def writeNode (anchors : Anchors) (indent : Option Nat) (position : Position) :
    Node → Sheet → Sheet
  | .scalar place tag text, s =>
    s.anchored anchors place (·.map (·.scalar tag text ((indent.map (· + 2)).getD 2) (position = .key)))
  | .seq place _ items, s =>
    s.anchored anchors place fun s =>
      if items.isEmpty then
        s.map fun p => (p.indicator "[" true true).indicator "]" false
      else
        let level := if position = .value && !s.page.lineOpen then indent.getD 0 else deeper indent
        writeItems anchors level items s
  | .map place tag entries, s =>
    s.anchored anchors place fun s =>
      let s := if tag = .set then s.map (·.indicator tag.short true) else s
      if entries.isEmpty then
        s.map fun p => (p.indicator "\x7b" true true).indicator "\x7d" false
      else writeEntries anchors (deeper indent) entries s
termination_by structural node => node

def writeItems (anchors : Anchors) (indent : Nat) : List Node → Sheet → Sheet
  | [], s => s
  | x :: xs, s =>
    let s := s.map fun p => (p.indentTo indent).indicator "-" true false true
    writeItems anchors indent xs (writeNode anchors (some indent) .item x s)
termination_by structural items => items

def writeEntries (anchors : Anchors) (indent : Nat) : List (Node × Node) → Sheet → Sheet
  | [], s => s
  | (key, value) :: es, s =>
    let s := s.map (·.indentTo indent)
    let s :=
      if isSimpleKey anchors s.written key then
        (writeNode anchors (some indent) .key key s).map (·.indicator ":" false)
      else
        let s := s.map (·.indicator "?" true false true)
        let s := writeNode anchors (some indent) .value key s
        s.map fun p => (p.indentTo indent).indicator ":" true false true
    writeEntries anchors indent es (writeNode anchors (some indent) .value value s)
termination_by structural entries => entries
end

def Node.write (node : Node) : String :=
  let anchors := (meet {} node).again.reverse
  ((writeNode anchors none .item node {}).page.indentTo 0).text

def write (d : Data) : Except Fault String :=
  if d.isWritable then .ok (nodeOf [] d).write else .error .numberTooLong

end RuleLowering.Yaml
