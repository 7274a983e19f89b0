import RuleLowering.Data.Order
import RuleLowering.Form.Basic
import RuleLowering.Sorting

/-!
# Identities of rules

A rule is identified by its name and the one arity that all its clauses share. The identities
of a module are listed once each, by name and then by arity.
-/
namespace RuleLowering

/-- Puts a number in its place of an ascending list, once. -/
def insertAscending (n : Nat) : List Nat → List Nat
  | [] => [n]
  | m :: ms => if n < m then n :: m :: ms else if n = m then m :: ms else m :: insertAscending n ms

/-- The arities of some clauses, each once, in ascending order. -/
def aritiesOf (clauses : List Clause) : List Nat :=
  clauses.foldl (fun ns c => insertAscending c.arity ns) []

namespace Rule

/-- Name and arity of a rule. It needs at least one clause, and clauses of one arity. -/
def signature? (r : Rule) : Except Fault Signature :=
  match aritiesOf r.clauses with
  | [] => .error ((Fault.noClauses r.name r.pos).showing [r.name, r.pos])
  | [arity] => .ok ⟨r.name, .int arity⟩
  | arities => .error ((Fault.mixedArity r.name r.pos arities).showing [r.name, r.pos])

end Rule

namespace Signature

/-- By name, then by arity. -/
def less? (a b : Signature) : Except Fault Bool :=
  if a.name.same b.name then a.arity.less? b.arity else a.name.less? b.name

/-- The signatures without those that are the same as an earlier one. -/
def distinct (items : List Signature) : List Signature :=
  items.foldl (fun seen s => if seen.any (same · s) then seen else seen ++ [s]) []

end Signature

def Form.rule? : Form → Option Rule
  | .rule r => some r
  | _ => none

/-- The signature of a rule, with a name that can be looked up. -/
def Rule.listed? (r : Rule) : Except Fault Signature := do
  let s ← r.signature?
  s.name.hashable
  return s

/-- The identities of all rules, each once, in order. -/
def signatures? (forms : List Form) : Except Fault (List Signature) := do
  let all ← (forms.filterMap Form.rule?).mapM Rule.listed?
  sorted Signature.less? (Signature.distinct all)

end RuleLowering
