import RuleLowering.Binary64.Shortest

/-!
# Layout of a number

How the digits of a number stand in a text: positional between two powers of ten, with an
exponent outside.
-/
namespace RuleLowering.Binary64

/-- The choices that a textual format leaves open. -/
structure Layout where
  /-- The least power of ten of the leading digit that is written positionally. -/
  least : Int
  /-- The greatest one. -/
  greatest : Int
  /-- The least number of digits of an exponent. -/
  exponentDigits : Nat
  nan : String
  infinity : String
  deriving Repr

def padLeft (width : Nat) (s : String) : String :=
  String.ofList (List.replicate (width - s.length) '0') ++ s

namespace Layout

/-- Writes `digits * 10 ^ k`; a whole number keeps one zero after the point. -/
def decimal (l : Layout) (digits : Nat) (k : Int) : String :=
  let ds := (toString digits).toList
  let lead := k + ds.length - 1
  if lead < l.least ∨ l.greatest < lead then
    let fraction := match ds.drop 1 with
      | [] => ""
      | rest => "." ++ String.ofList rest
    let sign := if lead < 0 then "-" else "+"
    String.ofList (ds.take 1) ++ fraction ++ "e" ++ sign
      ++ padLeft l.exponentDigits (toString lead.natAbs)
  else if lead < 0 then
    "0." ++ String.ofList (List.replicate (-lead - 1).toNat '0' ++ ds)
  else if 0 ≤ k then
    String.ofList (ds ++ List.replicate k.toNat '0') ++ ".0"
  else
    String.ofList (ds.take (lead + 1).toNat) ++ "." ++ String.ofList (ds.drop (lead + 1).toNat)

/-- Writes a number with the fewest digits that read back. -/
def write (l : Layout) (x : Binary64) : String :=
  match x.view with
  | .nan => l.nan
  | .infinity negative => (if negative then "-" else "") ++ l.infinity
  | .finite negative m e =>
    (if negative then "-" else "")
      ++ if m = 0 then "0.0" else let s := shortest m e; l.decimal s.1 s.2

end Layout

end RuleLowering.Binary64
