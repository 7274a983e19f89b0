import RuleLowering.Text.Basic

/-!
# Placeholder names

Fresh names are a stem, an underscore and a number that counts up from one. Each source of
names counts for itself.
-/
namespace RuleLowering

/-- A source of fresh names. -/
structure Placeholder where
  stem : Text
  /-- The number of names drawn so far. -/
  drawn : Nat := 0
  deriving DecidableEq, Repr

namespace Placeholder

/-- The `k`-th name of a stem. -/
def name (stem : Text) (k : Nat) : Text :=
  stem ++ "_" ++ toString k

def draw (p : Placeholder) : Text × Placeholder :=
  (name p.stem (p.drawn + 1), { p with drawn := p.drawn + 1 })

inductive Step where
  /-- Makes one more source. -/
  | make (stem : Text)
  /-- Draws a name from the source at an index. -/
  | draw (index : Nat)
  deriving DecidableEq, Repr

/-- What a step answers: the index of the new source, or a name. -/
inductive Answer where
  | made (index : Nat)
  | name (t : Text)
  | noSource
  deriving DecidableEq, Repr

def step (sources : List Placeholder) : Step → Answer × List Placeholder
  | .make stem => (.made sources.length, sources ++ [{ stem }])
  | .draw index => match sources[index]? with
    | none => (.noSource, sources)
    | some p => (.name p.draw.1, sources.set index p.draw.2)

def run (sources : List Placeholder) : List Step → List Answer
  | [] => []
  | s :: rest => (step sources s).1 :: run (step sources s).2 rest

end Placeholder

end RuleLowering
