/-!
# Timestamps

The written form of a day, `2001-12-14`, and of a moment, `2001-12-14 21:59:43.10 -5`.
-/
namespace RuleLowering.Yaml

inductive Zone where
  | universal
  | shifted (west : Bool) (hours minutes : Nat)
  deriving DecidableEq, Repr

structure Clock where
  hour : Nat
  minute : Nat
  second : Nat
  /-- The digits after the point. -/
  fraction : List Char
  zone : Option Zone
  deriving DecidableEq, Repr

structure Timestamp where
  year : Nat
  month : Nat
  day : Nat
  clock : Option Clock
  /-- Month and day have two digits each. -/
  padded : Bool
  deriving DecidableEq, Repr

namespace Timestamp

def number (ds : List Char) : Nat :=
  ds.foldl (fun n c => n * 10 + (c.toNat - 48)) 0

/-- The digits at the front, of which there have to be `least` to `most`, and what follows. -/
def digits? (least most : Nat) (s : List Char) : Option (List Char × List Char) :=
  let ds := (s.take most).takeWhile Char.isDigit
  if least ≤ ds.length then some (ds, s.drop ds.length) else none

def past? (c : Char) (s : List Char) : Option (List Char) :=
  match s with
  | d :: rest => if d = c then some rest else none
  | [] => none

def isGap (c : Char) : Bool := c == ' ' || c == '\t'

def zone? (s : List Char) : Option (Option Zone) :=
  match s.dropWhile isGap with
  | [] => if s.isEmpty then some none else none
  | ['Z'] => some (some .universal)
  | sign :: rest => do
    if sign ≠ '+' ∧ sign ≠ '-' then none
    let (hours, rest) ← digits? 1 2 rest
    let minutes ← match rest with
      | [] => some []
      | ':' :: more => do
        let (minutes, rest) ← digits? 2 2 more
        if rest.isEmpty then some minutes else none
      | _ => none
    return some (.shifted (sign == '-') (number hours) (number minutes))

def clock? (s : List Char) : Option Clock := do
  let (hour, s) ← digits? 1 2 s
  let s ← past? ':' s
  let (minute, s) ← digits? 2 2 s
  let s ← past? ':' s
  let (second, s) ← digits? 2 2 s
  let (fraction, s) := match s with
    | '.' :: more => (more.takeWhile Char.isDigit, more.dropWhile Char.isDigit)
    | _ => ([], s)
  let zone ← zone? s
  return ⟨number hour, number minute, number second, fraction, zone⟩

/-- Reads what follows the day: nothing, or a gap and a time of day. -/
def clockPart? (s : List Char) : Option (Option Clock) :=
  match s with
  | [] => some none
  | c :: rest =>
    if c = 'T' ∨ c = 't' then (clock? rest).map some
    else if isGap c then (clock? (rest.dropWhile isGap)).map some
    else none

def chopLine (s : List Char) : List Char :=
  if s.getLast? = some '\n' then s.dropLast else s

/-- Reads a timestamp. One line feed may follow. -/
def parse? (s : List Char) : Option Timestamp := do
  let (year, s) ← digits? 4 4 (chopLine s)
  let s ← past? '-' s
  let (month, s) ← digits? 1 2 s
  let s ← past? '-' s
  let (day, s) ← digits? 1 2 s
  let clock ← clockPart? s
  return ⟨number year, number month, number day, clock, month.length == 2 && day.length == 2⟩

end Timestamp

end RuleLowering.Yaml
