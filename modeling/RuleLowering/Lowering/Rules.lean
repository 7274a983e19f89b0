import RuleLowering.Form.Basic
import RuleLowering.Options

/-!
# Lowering rules

A rule becomes a function of the same name, clauses and position. In its bodies a generator
becomes a binding to a call of the support hook, which gets the generator's expression as data;
a generator over a binary becomes a plain binding and is marked as a violation.
-/
namespace RuleLowering

namespace Expr

/-- The call that takes the place of a generator's expression. -/
def hookCall (o : Options) (body : Expr) (pos : Data) : Expr :=
  let hook := .remote (.atom (.str o.supportModule) pos) (.atom (.str o.supportFunction) pos) pos
  .call hook [.quote body pos] pos

def lower (o : Options) (e : Expr) : Except Fault (Expr × List Marker) :=
  match e with
  | .absent => .error .absentExpression
  | .generator pattern body pos => .ok (.binding pattern (hookCall o body pos) pos, [])
  | .binaryGenerator pattern body pos =>
    .ok (.binding pattern body pos, [⟨.str o.origin, .violation .binaryGenerator, pos⟩])
  | _ => .ok (e, [])

end Expr

/-- Lowers each item by the given step and collects the markers in order. -/
def lowerEach {α β : Type} (step : α → Except Fault (β × List Marker)) :
    List α → Except Fault (List β × List Marker)
  | [] => .ok ([], [])
  | x :: xs => do
    let (y, here) ← step x
    let (ys, later) ← lowerEach step xs
    return (y :: ys, here ++ later)

/-- Lowers the body of a clause; patterns and guard stay. -/
def Clause.lower (o : Options) (c : Clause) : Except Fault (Clause × List Marker) := do
  let (body, markers) ← lowerEach (Expr.lower o) c.body
  return ({ c with body }, markers)

/-- The function that a rule becomes, with the markers of all its clauses. -/
def Rule.lower (o : Options) (r : Rule) : Except Fault (Function × List Marker) := do
  let (clauses, markers) ← lowerEach (Clause.lower o) r.clauses
  return (⟨r.name, clauses, r.pos⟩, markers)

/-- Lowers every rule, with its markers behind it. All other forms stay. -/
def lowerRules (o : Options) : List Form → Except Fault (List Form × List Marker)
  | [] => .ok ([], [])
  | .rule r :: rest => do
    let (f, here) ← r.lower o
    let (forms, later) ← lowerRules o rest
    return (.function f :: here.map .marker ++ forms, here ++ later)
  | f :: rest => do
    let (forms, later) ← lowerRules o rest
    return (f :: forms, later)

end RuleLowering
