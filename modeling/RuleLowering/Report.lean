import RuleLowering.Lowering.Assembly

/-!
# Report on a module

An inventory of a list of forms: counts by kind, the identities of the rules, generators in
their bodies, and warnings about what lowering would object to. A malformed rule is reported,
not refused.
-/
namespace RuleLowering

structure Report where
  moduleName : Data := .null
  totalForms : Nat := 0
  /-- Number of forms of each kind, kinds in the order of their first form. -/
  formsByKind : List (FormKind × Nat) := []
  /-- The identities of the rules, each once. -/
  rules : List Signature := []
  /-- Those that occur more than once. -/
  duplicates : List Signature := []
  generators : Nat := 0
  binaryGenerators : Nat := 0
  existingMarkers : Nat := 0
  alreadyLowered : Bool := false
  warnings : List Text := []
  deriving Repr

namespace Report

def countKind (kind : FormKind) : List (FormKind × Nat) → List (FormKind × Nat)
  | [] => [(kind, 1)]
  | (k, n) :: rest => if k = kind then (k, n + 1) :: rest else (k, n) :: countKind kind rest

/-- A report with a warning that it does not hold yet. -/
def warn (r : Report) (text : Text) : Report :=
  if r.warnings.contains text then r else { r with warnings := r.warnings ++ [text] }

def warnIf (r : Report) (condition : Bool) (text : Text) : Report :=
  if condition then r.warn text else r

def countGenerators (r : Report) : List Expr → Except Fault Report
  | [] => .ok r
  | .absent :: _ => .error .absentExpression
  | .generator .. :: rest => countGenerators { r with generators := r.generators + 1 } rest
  | .binaryGenerator .. :: rest =>
    countGenerators { r with binaryGenerators := r.binaryGenerators + 1 } rest
  | _ :: rest => countGenerators r rest

/-- Adds an identity, as a duplicate if it is there. -/
def addRule (r : Report) (s : Signature) : Report :=
  if r.rules.any (·.same s) then
    if r.duplicates.any (·.same s) then r else { r with duplicates := r.duplicates ++ [s] }
  else { r with rules := r.rules ++ [s] }

def withRule (r : Report) (rule : Rule) : Except Fault Report :=
  match aritiesOf rule.clauses with
  | [arity] => do
    rule.name.hashable
    countGenerators (r.addRule ⟨rule.name, .int arity⟩) (rule.clauses.flatMap Clause.body)
  | arities => do
    return r.warn ("Rule " ++ (← rule.name.shownText) ++ " at " ++ (← rule.pos.shownText)
      ++ " has no single arity: " ++ Fault.numbersText arities)

/-- Takes a module declaration into account: the name of the first that is not null counts. -/
def withModule (r : Report) (m : ModuleDecl) : Except Fault Report :=
  if r.moduleName.isNull then
    let r := { r with moduleName := m.name }
    if m.parameters.isSome then do
      return r.warn ("Parameterized module declaration at " ++ (← m.pos.shownText))
    else .ok r
  else .ok r

def withForm (r : Report) (f : Form) : Except Fault Report :=
  let r := { r with formsByKind := countKind f.kind r.formsByKind }
  match f with
  | .module m => r.withModule m
  | .marker _ => .ok { r with existingMarkers := r.existingMarkers + 1 }
  | .rule rule => r.withRule rule
  | _ => .ok r

/-- A report with its warnings on the module as a whole. -/
def close (r : Report) (o : Options) : Except Fault Report := do
  let duplicates ← sorted Signature.less? r.duplicates
  let r := { r with duplicates }
  let r := r.warnIf r.moduleName.isNull "No module declaration"
  let names ← r.duplicates.mapM Signature.text
  let r := r.warnIf (!r.duplicates.isEmpty) ("Duplicate rule declarations: " ++ .join ", " names)
  let r := r.warnIf (r.binaryGenerators != 0)
    ("Binary generators in rule bodies: " ++ toString r.binaryGenerators)
  return r.warnIf r.alreadyLowered
    (o.introspection ++ "/0 already defined: forms look already transformed")

def ofForms (o : Options) (forms : List Form) : Except Fault Report := do
  let r ← forms.foldlM withForm { totalForms := forms.length }
  let rules ← sorted Signature.less? r.rules
  close { r with rules, alreadyLowered := isLowered o forms } o

end Report

end RuleLowering
