import RuleLowering.Data.Basic

/-!
# Equality of plain data

Two values are the same when they say the same, wherever they were read: numbers are compared
by value, be they whole, floating or truth values, and mappings without regard to order. A
number that is not one is the same as itself.
-/
namespace RuleLowering

open Binary64 (Reach)

namespace Data

def reach? : Data → Option Reach
  | .bool b => some (.ofInt (if b then 1 else 0))
  | .int n => some (.ofInt n)
  | .float x => x.reach?
  | _ => none

def sameSpecial : Special → Special → Bool
  | .day a, .day b => a == b
  | .moment a, .moment b => a.offset.isSome == b.offset.isSome && a.micros == b.micros
  | .bytes a, .bytes b => a == b
  | _, _ => false

def sameNumber (a b : Data) : Bool :=
  match a, b with
  | .float x, .float y => x == y || (match x.reach?, y.reach? with
    | some r, some s => r.equal s
    | _, _ => false)
  | _, _ => match a.reach?, b.reach? with
    | some r, some s => r.equal s
    | _, _ => false

mutual
/-- Two values say the same. -/
def same : Data → Data → Bool
  | .null, .null => true
  | .str a, .str b => a == b
  | .special _ a, .special _ b => sameSpecial a b
  | .list _ xs, .list _ ys => sameItems xs ys
  | .group .pair _ xs, .group .pair _ ys => sameItems xs ys
  | .group .set _ xs, .group .set _ ys => xs.length == ys.length && allIn xs ys
  | .map _ es, .map _ fs => es.length == fs.length && entriesIn es fs
  | a, b => sameNumber a b
termination_by structural a => a

def sameItems : List Data → List Data → Bool
  | [], [] => true
  | x :: xs, y :: ys => same x y && sameItems xs ys
  | _, _ => false
termination_by structural xs => xs

/-- Each of the items is the same as one of the others. -/
def allIn : List Data → List Data → Bool
  | [], _ => true
  | x :: xs, ys => ys.any (same x) && allIn xs ys
termination_by structural xs => xs

/-- Each of the entries has one with the same key and value among the others. -/
def entriesIn : List (Data × Data) → List (Data × Data) → Bool
  | [], _ => true
  | (k, v) :: es, fs => fs.any (fun e => same k e.1 && same v e.2) && entriesIn es fs
termination_by structural es => es
end

/-- A mapping with one more entry: a key that is there keeps its place and takes the new value. -/
def put {α : Type} (entries : List (Data × α)) (key : Data) (value : α) : List (Data × α) :=
  match entries with
  | [] => [(key, value)]
  | e :: rest => if same e.1 key then (e.1, value) :: rest else e :: put rest key value

def distinct (items : List Data) : List Data :=
  items.foldl (fun seen x => if seen.any (same · x) then seen else seen ++ [x]) []

end Data

end RuleLowering
