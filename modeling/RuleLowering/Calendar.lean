/-!
# Calendar

Days of the Gregorian calendar and moments in them, as a document may hold them.
-/
namespace RuleLowering

structure Day where
  year : Nat
  month : Nat
  day : Nat
  deriving DecidableEq, Repr

/-- A time on a day, to the microsecond, with its distance from universal time in seconds if known. -/
structure Moment where
  date : Day
  hour : Nat
  minute : Nat
  second : Nat
  micro : Nat
  offset : Option Int
  deriving DecidableEq, Repr

def paddedTo (width n : Nat) : String :=
  let ds := toString n
  String.ofList (List.replicate (width - ds.length) '0') ++ ds

namespace Day

def isLeap (year : Nat) : Bool :=
  year % 4 == 0 && (year % 100 != 0 || year % 400 == 0)

def daysIn (year month : Nat) : Nat :=
  if month = 2 then if isLeap year then 29 else 28
  else if month = 4 ∨ month = 6 ∨ month = 9 ∨ month = 11 then 30
  else 31

/-- Days from the first day of year one. -/
def number (d : Day) : Nat :=
  let y := d.year - 1
  let before := (List.range (d.month - 1)).foldl (fun n m => n + daysIn d.year (m + 1)) 0
  y * 365 + y / 4 - y / 100 + y / 400 + before + d.day

def text (d : Day) : String :=
  paddedTo 4 d.year ++ "-" ++ paddedTo 2 d.month ++ "-" ++ paddedTo 2 d.day

end Day

namespace Moment

/-- Microseconds since the first moment of year one, in local time. -/
def localMicros (m : Moment) : Int :=
  (((m.date.number * 24 + m.hour) * 60 + m.minute) * 60 + m.second) * 1000000 + m.micro

/-- Microseconds in universal time, as far as the distance from it is known. -/
def micros (m : Moment) : Int :=
  m.localMicros - m.offset.getD 0 * 1000000

def offsetText (seconds : Int) : String :=
  let n := seconds.natAbs
  (if seconds < 0 then "-" else "+") ++ paddedTo 2 (n / 3600) ++ ":" ++ paddedTo 2 (n / 60 % 60)

/-- Day and time with a space between them; microseconds stand only if there are any. -/
def text (m : Moment) : String :=
  m.date.text ++ " " ++ paddedTo 2 m.hour ++ ":" ++ paddedTo 2 m.minute ++ ":" ++ paddedTo 2 m.second
    ++ (if m.micro = 0 then "" else "." ++ paddedTo 6 m.micro)
    ++ (m.offset.map offsetText).getD ""

end Moment

end RuleLowering
