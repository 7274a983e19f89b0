import RuleLowering.Data.Same

/-!
# Expressions

Patterns, guards and bodies of clauses are trees. Each node carries its source position; names
and positions are whatever data the parser gave. A place where no expression stands, such as
a missing guard, holds the absent expression.
-/
namespace RuleLowering

inductive Expr where
  /-- No expression. -/
  | absent
  | var (name pos : Data)
  | atom (name pos : Data)
  /-- A number or a text. -/
  | literal (value pos : Data)
  | tuple (elements : List Expr) (pos : Data)
  | list (elements : List Expr) (pos : Data)
  /-- An infix operation, with the operator as it is spelled. -/
  | operation (operator : Data) (left right : Expr) (pos : Data)
  /-- A function of another module. -/
  | remote (owner function : Expr) (pos : Data)
  | call (function : Expr) (arguments : List Expr) (pos : Data)
  /-- `pattern = body`. -/
  | binding (pattern body : Expr) (pos : Data)
  /-- `pattern <- body`: the pattern takes each value of the body in turn. -/
  | generator (pattern body : Expr) (pos : Data)
  /-- `pattern <= body`: a generator over a binary, which rules may not contain. -/
  | binaryGenerator (pattern body : Expr) (pos : Data)
  /-- An expression held as data. -/
  | quote (body : Expr) (pos : Data)
  /-- A construct with no variant of its own, as the data that the parser made of it. -/
  | foreign (term pos : Data)
  deriving Repr, Inhabited

namespace Expr

def isAbsent : Expr → Bool
  | absent => true
  | _ => false

def pos? : Expr → Option Data
  | absent => none
  | var _ pos | atom _ pos | literal _ pos | tuple _ pos | list _ pos | operation _ _ _ pos
  | remote _ _ pos | call _ _ pos | binding _ _ pos | generator _ _ pos
  | binaryGenerator _ _ pos | quote _ pos | foreign _ pos => some pos

mutual
/-- Two expressions are of one variant with the same fields. -/
def same : Expr → Expr → Bool
  | absent, absent => true
  | var n p, var m q => n.same m && p.same q
  | atom n p, atom m q => n.same m && p.same q
  | literal n p, literal m q => n.same m && p.same q
  | tuple xs p, tuple ys q => sameAll xs ys && p.same q
  | list xs p, list ys q => sameAll xs ys && p.same q
  | operation o a b p, operation o' c d q => o.same o' && same a c && same b d && p.same q
  | remote a b p, remote c d q => same a c && same b d && p.same q
  | call f xs p, call g ys q => same f g && sameAll xs ys && p.same q
  | binding a b p, binding c d q => same a c && same b d && p.same q
  | generator a b p, generator c d q => same a c && same b d && p.same q
  | binaryGenerator a b p, binaryGenerator c d q => same a c && same b d && p.same q
  | quote a p, quote b q => same a b && p.same q
  | foreign t p, foreign u q => t.same u && p.same q
  | _, _ => false
termination_by structural e => e

def sameAll : List Expr → List Expr → Bool
  | [], [] => true
  | x :: xs, y :: ys => same x y && sameAll xs ys
  | _, _ => false
termination_by structural xs => xs
end

end Expr

end RuleLowering
