import RuleLowering.Binary64.Basic

/-!
# Arithmetic of binary floating point numbers

Sums and products are those of the exact values, rounded. What has no value, such as the sum of two
opposite infinities, is no number.
-/
namespace RuleLowering.Binary64

/-- A number with its sign changed; what is no number stays as it is. -/
def negate (x : Binary64) : Binary64 :=
  if x.isNaN then x else ⟨x.bits ^^^ 0x8000000000000000⟩

def isInfinite (x : Binary64) : Bool :=
  match x.view with
  | .infinity _ => true
  | _ => false

/-- The number nearest to a whole number, unless that exceeds all of them. -/
def ofInt? (n : Int) : Option Binary64 :=
  let x := ofRatio (n < 0) n.natAbs 1
  if x.isInfinite then none else some x

def mul (x y : Binary64) : Binary64 :=
  let negative := x.negative != y.negative
  match x.reach?, y.reach? with
  | some (.ratio a b), some (.ratio c d) => ofRatio negative (a * c).natAbs (b * d)
  | some _, some _ => if x.isZero || y.isZero then nan else infinity negative
  | _, _ => nan

/-- The sum. Of two zeros it is negative if both are; numbers that cancel leave the positive zero. -/
def add (x y : Binary64) : Binary64 :=
  match x.reach?, y.reach? with
  | some (.ratio a b), some (.ratio c d) =>
    let sum := a * d + c * b
    ofRatio (if sum = 0 then x.negative && y.negative else sum < 0) sum.natAbs (b * d)
  | some (.ratio _ _), some _ => y
  | some _, some (.ratio _ _) => x
  | some _, some _ => if x == y then x else nan
  | _, _ => nan

end RuleLowering.Binary64
