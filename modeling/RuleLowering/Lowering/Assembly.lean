import RuleLowering.Lowering.Identity
import RuleLowering.Lowering.Rules
import RuleLowering.Lowering.Scan

/-!
# Lowering a module

The rules of a module become functions, and two blocks of generated forms go in: behind the
module declaration an export list, behind the header attributes a function that lists all
rules. Each block starts with a mark for the file that generates it and ends with the mark that
was in effect, so that later diagnostics keep their places.
-/
namespace RuleLowering

/-- The position of every generated form. -/
def generatedPos : Data := 1

def FileMark.start (file : Text) : FileMark where
  file := .str file
  line := 1
  pos := generatedPos

namespace Options

/-- The identity of the generated function. -/
def introspectionSignature (o : Options) : Signature :=
  ⟨.str o.introspection, 0⟩

/-- The export list: the generated function, then every rule. -/
def exportList (o : Options) (rules : List Signature) : Export :=
  ⟨o.introspectionSignature :: rules, generatedPos⟩

/-- A rule's entry in the list that the generated function returns. -/
def entryFor (s : Signature) : Expr :=
  .tuple [.atom s.name generatedPos, .literal s.arity generatedPos] generatedPos

/-- The function that lists every rule. -/
def introspectionFunction (o : Options) (rules : List Signature) : Function where
  name := .str o.introspection
  clauses := [{
    patterns := []
    guard := .absent
    body := [.list (rules.map entryFor) generatedPos]
    pos := generatedPos }]
  pos := generatedPos

end Options

def Form.definesIntrospection (o : Options) : Form → Bool
  | .function f => f.name.same (.str o.introspection) && f.arity == 0
  | _ => false

/-- Whether the generated function is there already, as after an earlier lowering. -/
def isLowered (o : Options) (forms : List Form) : Bool :=
  forms.any (Form.definesIntrospection o)

/-- The warnings that lowering gives: one, if the module has been lowered before. -/
def loweringWarnings (o : Options) (forms : List Form) : List Text :=
  if isLowered o forms then
    ["Forms already define " ++ o.introspection
      ++ "/0; they appear to have been transformed before"]
  else []

/-- The forms of a module around the two generated blocks. -/
def assemble (o : Options) (scan : ModuleScan) (header : List Form) (rules : List Signature)
    (body : List Form) : List Form :=
  let here := Form.file (.start o.origin)
  let back := Form.file scan.mark
  scan.leading ++ (scan.markers o.origin).map .marker
    ++ [here, .exports (o.exportList rules), back]
    ++ header
    ++ [here, .function (o.introspectionFunction rules), back]
    ++ body

/-- Lowers a module. Violations become markers; only a malformed rule is a fault. -/
def lower (o : Options) (forms : List Form) : Except Fault (List Form) := do
  let scan := ModuleScan.scan forms
  let (header, body) := splitHeader scan.rest
  let rules ← signatures? forms
  let (lowered, _) ← lowerRules o body
  return assemble o scan header rules lowered

end RuleLowering
