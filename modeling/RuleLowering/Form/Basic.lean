import RuleLowering.Data.Items
import RuleLowering.Expr.Basic

/-!
# Forms

The declarations of one module, in source order: attributes, functions, rules, error markers
and the end of the file. A rule has the shape of a function and is turned into one; an error
marker in the output makes a later compiler refuse the module.
-/
namespace RuleLowering

structure Signature where
  name : Data
  arity : Data
  deriving Repr

namespace Signature

def same (a b : Signature) : Bool :=
  a.name.same b.name && a.arity.same b.arity

def text (s : Signature) : Except Fault Text := do
  return (← s.name.shownText) ++ "/" ++ (← s.arity.shownText)

def toData (s : Signature) : Data :=
  .ofList [s.name, s.arity]

end Signature

/-- One alternative of a function or rule. The number of its patterns is its arity. -/
structure Clause where
  patterns : List Expr
  /-- Absent if the clause has none. -/
  guard : Expr
  body : List Expr
  pos : Data
  deriving Repr

namespace Clause

def arity (c : Clause) : Nat := c.patterns.length

def same (a b : Clause) : Bool :=
  Expr.sameAll a.patterns b.patterns && a.guard.same b.guard && Expr.sameAll a.body b.body
    && a.pos.same b.pos

end Clause

/-- The declaration of the module. Parameters, even none in brackets, are not supported. -/
structure ModuleDecl where
  name : Data
  parameters : Option (List Data)
  pos : Data
  deriving Repr

/-- A position marker: the forms after it are those of `file`. -/
structure FileMark where
  file : Data
  line : Data
  pos : Data
  deriving Repr

structure Export where
  functions : List Signature
  pos : Data
  deriving Repr

/-- The variant that an attribute of the given name has to be, if it is not a generic one. -/
def reservedVariant? (name : Data) : Option (String × String) :=
  match name with
  | .str "module" => some ("module", "ModuleAttribute")
  | .str "file" => some ("file", "FileAttribute")
  | .str "export" => some ("export", "ExportAttribute")
  | _ => none

/-- A generic attribute needs a name that can be looked up and is not that of another variant. -/
def checkAttributeName (name : Data) : Except Fault Unit := do
  name.hashable
  match reservedVariant? name with
  | some (reserved, variant) => .error (.reservedAttribute reserved variant)
  | none => return

structure Attribute where
  name : Data
  value : Data
  pos : Data
  generic : checkAttributeName name = .ok ()

structure Function where
  name : Data
  clauses : List Clause
  pos : Data
  deriving Repr

/-- A function has the arity of its first clause. -/
def Function.arity (f : Function) : Nat :=
  match f.clauses with
  | [] => 0
  | c :: _ => c.arity

structure Rule where
  name : Data
  clauses : List Clause
  pos : Data
  deriving Repr

/-- What lowering finds wrong in a module. -/
inductive Violation where
  | binaryGenerator
  | parameterizedModule
  deriving DecidableEq, Repr

namespace Violation

def name : Violation → String
  | binaryGenerator => "binary_generator"
  | parameterizedModule => "parameterized_module"

def message : Violation → String
  | binaryGenerator => "binary generators illegal in henshin rules"
  | parameterizedModule => "parameterized modules are not supported by henshin"

def ofName? (d : Data) : Option Violation :=
  match d with
  | .str "binary_generator" => some binaryGenerator
  | .str "parameterized_module" => some parameterizedModule
  | _ => none

@[simp] theorem ofName?_name (v : Violation) : ofName? (.str v.name) = some v := by
  cases v <;> rfl

end Violation

/-- What a marker says: a violation, or the words of another tool. -/
inductive Descriptor where
  | violation (v : Violation)
  | foreign (d : Data)
  deriving Repr

/-- A diagnostic in the place of a form. -/
structure Marker where
  /-- Tag of the tool that emitted it. -/
  origin : Data
  descriptor : Descriptor
  pos : Data
  deriving Repr

inductive Form where
  | attr (a : Attribute)
  | module (m : ModuleDecl)
  | file (f : FileMark)
  | exports (e : Export)
  | function (f : Function)
  | rule (r : Rule)
  | marker (m : Marker)
  | eof (pos : Data)

inductive FormKind where
  | attr
  | function
  | rule
  | marker
  | eof
  deriving DecidableEq, Repr

def FormKind.name : FormKind → String
  | attr => "attribute"
  | function => "function"
  | rule => "rule"
  | marker => "error_marker"
  | eof => "eof"

namespace Form

def kind : Form → FormKind
  | attr _ | module _ | file _ | exports _ => .attr
  | function _ => .function
  | rule _ => .rule
  | marker _ => .marker
  | eof _ => .eof

def isAttribute (f : Form) : Bool := f.kind == .attr

def isRule (f : Form) : Bool := f.kind == .rule

def pos : Form → Data
  | attr a => a.pos
  | module m => m.pos
  | file f => f.pos
  | exports e => e.pos
  | function f => f.pos
  | rule r => r.pos
  | marker m => m.pos
  | eof pos => pos

end Form

end RuleLowering
