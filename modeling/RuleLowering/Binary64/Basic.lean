/-!
# Binary floating point numbers

A binary64 number is kept as its 64 bits and read as a sign, a whole significand and a power
of two. A quotient of whole numbers is rounded to the nearest such number, a tie to the one
with an even significand.
-/
namespace RuleLowering

structure Binary64 where
  bits : UInt64
  deriving DecidableEq, Repr, Inhabited

namespace Binary64

def pow2 (n : Nat) : Nat := Nat.pow 2 n

def pow10 (n : Nat) : Nat := Nat.pow 10 n

inductive View where
  | nan
  | infinity (negative : Bool)
  /-- The number `± significand * 2 ^ exponent`. -/
  | finite (negative : Bool) (significand : Nat) (exponent : Int)
  deriving DecidableEq, Repr

def view (x : Binary64) : View :=
  let n := x.bits.toNat
  let negative := n / pow2 63 == 1
  let field : Nat := n / pow2 52 % pow2 11
  let fraction : Nat := n % pow2 52
  if field = 2047 then if fraction = 0 then .infinity negative else .nan
  else if field = 0 then .finite negative fraction (-1074)
  else .finite negative (fraction + pow2 52) ((field : Int) - 1075)

/-- A number that is not one, with a serial number in the bits that are left: such numbers are the
same only if their serial numbers are. -/
def nanOf (serial : Nat) : Binary64 :=
  ⟨UInt64.ofNat (0x7FF8000000000000 + serial % pow2 51)⟩

/-- The number that is not one, as a document without types spells it. -/
def nan : Binary64 := nanOf 0

def ofMagnitude (negative : Bool) (magnitude : Nat) : Binary64 :=
  ⟨UInt64.ofNat (magnitude + if negative then pow2 63 else 0)⟩

def infinity (negative : Bool) : Binary64 :=
  ofMagnitude negative (2047 * pow2 52)

def zero (negative : Bool) : Binary64 :=
  ofMagnitude negative 0

def isNaN (x : Binary64) : Bool :=
  x.view == .nan

def isZero (x : Binary64) : Bool :=
  match x.view with
  | .finite _ 0 _ => true
  | _ => false

def negative (x : Binary64) : Bool :=
  x.bits.toNat / pow2 63 == 1

/-- The quotient `num / den` as a whole number, rounded to the nearest, a half to the even one. -/
def roundHalfEven (num den : Nat) : Nat :=
  let q := num / den
  let twice := 2 * (num % den)
  if twice < den ∨ (twice = den ∧ q % 2 = 0) then q else q + 1

/-- The fraction `num / den` divided by a power of two, as a fraction. -/
def scaled (num den : Nat) (exponent : Int) : Nat × Nat :=
  if 0 ≤ exponent then (num, den * pow2 exponent.toNat) else (num * pow2 (-exponent).toNat, den)

/-- The least exponent at which the significand of `num / den` stays below `2 ^ 53`. -/
def exponentOf (num den : Nat) : Int :=
  let e : Int := num.log2 - den.log2 - 53
  let s := scaled num den e
  max (-1074) (if pow2 53 ≤ s.1 / s.2 then e + 1 else e)

/-- The binary64 number nearest to `± num / den`. -/
def ofRatio (negative : Bool) (num den : Nat) : Binary64 :=
  if num = 0 then zero negative else
  let e := exponentOf num den
  let s := scaled num den e
  let magnitude := (e + 1074).toNat * pow2 52 + roundHalfEven s.1 s.2
  if 2047 * pow2 52 ≤ magnitude then infinity negative else ofMagnitude negative magnitude

/-- The binary64 number nearest to `± digits * 10 ^ exponent`. -/
def ofDecimal (negative : Bool) (digits : Nat) (exponent : Int) : Binary64 :=
  if digits = 0 then zero negative
  else if 400 < exponent then infinity negative
  else if exponent + digits.log2 < -1200 then zero negative
  else if 0 ≤ exponent then ofRatio negative (digits * pow10 exponent.toNat) 1
  else ofRatio negative digits (pow10 (-exponent).toNat)

/-- The value on the number line, with the two infinite ends. -/
inductive Reach where
  | low
  /-- The number `num / den`, with `den` positive. -/
  | ratio (num : Int) (den : Nat)
  | high
  deriving DecidableEq, Repr

def reach? (x : Binary64) : Option Reach :=
  match x.view with
  | .nan => none
  | .infinity true => some .low
  | .infinity false => some .high
  | .finite negative m e =>
    let num : Int := if negative then -m else m
    some (if 0 ≤ e then .ratio (num * pow2 e.toNat) 1 else .ratio num (pow2 (-e).toNat))

namespace Reach

def ofInt (n : Int) : Reach := .ratio n 1

def equal : Reach → Reach → Bool
  | .low, .low => true
  | .high, .high => true
  | .ratio a b, .ratio c d => a * d == c * b
  | _, _ => false

def less : Reach → Reach → Bool
  | .low, .low => false
  | .low, _ => true
  | .high, _ => false
  | _, .high => true
  | _, .low => false
  | .ratio a b, .ratio c d => a * d < c * b

@[simp] theorem equal_self (r : Reach) : equal r r = true := by
  cases r <;> simp [equal]

theorem less_ofInt (a b : Int) : less (ofInt a) (ofInt b) = decide (a < b) := by
  simp [less, ofInt]

theorem equal_ofInt (a b : Int) : equal (ofInt a) (ofInt b) = decide (a = b) := by
  by_cases h : a = b <;> simp [equal, ofInt, h]

end Reach

/-- The whole part of a finite number, its fraction cut off. -/
def truncate? (x : Binary64) : Option Int :=
  match x.reach? with
  | some (.ratio num den) => some (num.tdiv den)
  | _ => none

end Binary64

end RuleLowering
