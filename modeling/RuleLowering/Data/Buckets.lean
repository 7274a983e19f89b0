import RuleLowering.Data.Same

/-!
# The order of a set of numbers

A set shows its members in the order of the buckets that it keeps them in. A number begins its search
for an empty bucket at one that its value gives, looks at some buckets behind it, and then leaps to
others. Values other than numbers have no such order and stay as they are.
-/
namespace RuleLowering.Data

def spreadPrime : Nat := Binary64.pow2 61 - 1

/-- A whole number of some sign, in two's complement of sixty-four bits. Minus one is avoided. -/
def signedWord (negative : Bool) (n : Nat) : Nat :=
  if !negative || n = 0 then n else Binary64.pow2 64 - (if n = 1 then 2 else n)

/-- The word that gives the first bucket of a number. Of a fraction with a power of two below, the
inverse of that power is multiplied. -/
def spread? (d : Data) : Option Nat :=
  match d.reach? with
  | some (.ratio num den) =>
    let inverse := Binary64.pow2 ((61 - den.log2 % 61) % 61)
    some (signedWord (num < 0) (num.natAbs % spreadPrime * inverse % spreadPrime))
  | some .high => some (signedWord false 314159)
  | some .low => some (signedWord true 314159)
  | none => none

/-- Buckets, whose number is a power of two; some are empty. -/
abbrev Buckets := Array (Option Data)

namespace Buckets

/-- The number of buckets that are looked at behind the one where a search begins. -/
def reach : Nat := 9

def emptyNear? (b : Buckets) (first : Nat) : Option Nat :=
  let count := if first + reach < b.size then reach + 1 else 1
  ((List.range count).map (first + ·)).find? fun i => (b[i]?.any Option.isNone)

/-- Searches for an empty bucket; `word` holds the bits that have not been used yet. -/
def emptyFrom (b : Buckets) : (fuel : Nat) → (first word : Nat) → Nat
  | 0, first, _ => first
  | fuel + 1, first, word =>
    match emptyNear? b first with
    | some i => i
    | none => emptyFrom b fuel ((first * 5 + 1 + word / 32) % b.size) (word / 32)

def insert (b : Buckets) (d : Data) (word : Nat) : Buckets :=
  b.setIfInBounds (emptyFrom b (b.size + 64) (word % b.size) word) (some d)

end Buckets

/-- The number of buckets for some values: a power of two, more than twice as many but for a few. -/
def bucketCount (values : Nat) : Nat :=
  if values < 5 then 8 else Binary64.pow2 ((2 * values).log2 + 1)

/-- The members of a set in the order in which it shows them. -/
def inBucketOrder (members : List Data) : List Data :=
  match members.mapM fun d => d.spread?.map (d, ·) with
  | none => members
  | some placed =>
    let empty : Buckets := Array.replicate (bucketCount members.length) none
    (placed.foldl (fun b (d, word) => b.insert d word) empty).toList.filterMap id

end RuleLowering.Data
