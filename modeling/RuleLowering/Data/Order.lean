import RuleLowering.Data.Items

/-!
# Order of plain data

Numbers are ordered by value, texts by code points, lists item by item. Values of different
kinds have no order, and a sort that has to compare two of them fails.
-/
namespace RuleLowering.Data

def lessList [LT α] [DecidableLT α] [DecidableEq α] : List α → List α → Bool
  | [], [] => false
  | [], _ :: _ => true
  | _ :: _, [] => false
  | a :: as, b :: bs => if a = b then lessList as bs else a < b

/-- One text stands before another, by code points. -/
def lessText (a b : Text) : Bool :=
  match a, b with
  | .plain x, .plain y => x < y
  | _, _ => lessList (a.glyphs.map Glyph.code) (b.glyphs.map Glyph.code)

/-- Order of two scalars of a typed document. A moment whose distance from universal time is known
has no order with one whose distance is not, and no moment has one with a day. -/
def lessSpecial? (a b : Special) : Except Fault Bool :=
  match a, b with
  | .day x, .day y => .ok (x.number < y.number)
  | .moment x, .moment y =>
    if x.offset.isSome == y.offset.isSome then .ok (x.micros < y.micros) else .error .mixedZones
  | .bytes x, .bytes y => .ok (lessList x y)
  | .day _, .moment _ | .moment _, .day _ => .error .momentAgainstDay
  | _, _ => .error (.incomparable (Data.special .fresh a).kindPath (Data.special .fresh b).kindPath)

def isNumber : Data → Bool
  | .bool _ | .int _ | .float _ => true
  | _ => false

/-- Order of two values that are not containers. A number that is not one stands before none. -/
def lessScalar? (a b : Data) : Except Fault Bool :=
  match a, b with
  | .str x, .str y => .ok (lessText x y)
  | .special _ x, .special _ y => lessSpecial? x y
  | _, _ =>
    if a.isNumber && b.isNumber then
      .ok (match a.reach?, b.reach? with
        | some r, some s => r.less s
        | _, _ => false)
    else .error (.incomparable a.kindPath b.kindPath)

mutual
def less? : Data → Data → Except Fault Bool
  | .list _ xs, .list _ ys => lessItems? xs ys
  | .group .pair _ xs, .group .pair _ ys => lessItems? xs ys
  | .group .set _ xs, .group .set _ ys => .ok (xs.length < ys.length && allIn xs ys)
  | a, b => lessScalar? a b
termination_by structural a => a

def lessItems? : List Data → List Data → Except Fault Bool
  | [], ys => .ok (!ys.isEmpty)
  | _ :: _, [] => .ok false
  | x :: xs, y :: ys => if same x y then lessItems? xs ys else less? x y
termination_by structural xs => xs
end

end RuleLowering.Data
