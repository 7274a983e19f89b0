import RuleLowering.Expr.Document
import RuleLowering.Form.Basic
import RuleLowering.Options

/-!
# Forms as documents

A form is a mapping whose field `type` names its kind, a module a list of forms. A marker is
read back as a violation only if it is of the reader's own origin; the words of other tools
stay as they are. Null in place of the list of forms is a module without forms.
-/
namespace RuleLowering

namespace Clause

def toData (c : Clause) : Data :=
  .ofFields [("patterns", .ofList (Expr.toItems c.patterns)), ("guard", c.guard.toData),
    ("body", .ofList (Expr.toItems c.body)), ("pos", c.pos)]

section Read

variable (exprs : Expr.Reading)

def exprsBy (entries : List (Data × Data)) (name : String) : Except Fault (List Expr) :=
  match Data.field? entries name with
  | some d => exprs.list d
  | none => .ok []

/-- Patterns, guard and body are all optional. -/
def readBy (d : Data) : Except Fault Clause :=
  match d with
  | .map _ entries => do
    let patterns ← exprsBy exprs entries "patterns"
    let guard ← exprs.one ((Data.field? entries "guard").getD .null)
    let body ← exprsBy exprs entries "body"
    return { patterns, guard, body, pos := (Data.field? entries "pos").getD 0 }
  | _ => .error (.notMapping .clause d.kindName)

def fieldBy (entries : List (Data × Data)) : Except Fault (List Clause) :=
  match Data.field? entries "clauses" with
  | none => .ok []
  | some (.list _ items) => items.mapM (readBy exprs)
  | some d => .error (.notList .clauseList d.kindName)

end Read

def exprsOrNone (entries : List (Data × Data)) (name : String) : Except Fault (List Expr) :=
  exprsBy .plain entries name

def ofData? (d : Data) : Except Fault Clause := readBy .plain d

def ofField? (entries : List (Data × Data)) : Except Fault (List Clause) := fieldBy .plain entries

/-- A clause read field by field. -/
theorem ofData?_map (place : Place) (entries : List (Data × Data)) :
    ofData? (.map place entries) = (do
      let patterns ← exprsOrNone entries "patterns"
      let guard ← Expr.ofData? ((Data.field? entries "guard").getD .null)
      let body ← exprsOrNone entries "body"
      return ⟨patterns, guard, body, (Data.field? entries "pos").getD 0⟩) := rfl

theorem fieldBy_plain (entries : List (Data × Data)) :
    fieldBy .plain entries = ofField? entries := rfl

end Clause

namespace Descriptor

def toData : Descriptor → Data
  | .violation v => .str v.name
  | .foreign d => d

/-- What a marker of some origin says to a reader of the origin `own`. -/
def ofData (own : Text) (origin value : Data) : Descriptor :=
  if origin.text? = some own then
    match Violation.ofName? value with
    | some v => .violation v
    | none => .foreign value
  else .foreign value

end Descriptor

def attributeData (name pos : Data) (fields : List (String × Data)) : Data :=
  .ofFields (("type", "attribute") :: ("name", name) :: ("pos", pos) :: fields)

def clausesData (type : String) (name : Data) (clauses : List Clause) (pos : Data) : Data :=
  .ofFields [("type", .str type), ("name", name),
    ("clauses", .ofList (clauses.map Clause.toData)), ("pos", pos)]

def Marker.toData (m : Marker) : Data :=
  .ofFields [("type", "error_marker"), ("origin", m.origin),
    ("descriptor", m.descriptor.toData), ("pos", m.pos)]

def FileMark.toData (f : FileMark) : Data :=
  attributeData "file" f.pos [("file", f.file), ("line", f.line)]

namespace Form

def toData : Form → Data
  | .attr a => attributeData a.name a.pos [("value", a.value)]
  | .module m =>
    attributeData "module" m.pos [("module", m.name),
      ("parameters", (m.parameters.map Data.ofList).getD .null)]
  | .file f => f.toData
  | .exports e =>
    attributeData "export" e.pos [("functions", .ofList (e.functions.map Signature.toData))]
  | .function f => clausesData "function" f.name f.clauses f.pos
  | .rule r => clausesData "rule" r.name r.clauses r.pos
  | .marker m => m.toData
  | .eof pos => .ofFields [("type", "eof"), ("pos", pos)]

def required (entries : List (Data × Data)) (name : String) : Except Fault Data :=
  match Data.field? entries name with
  | some d => .ok d
  | none => .error (.missingField name)

def ofAttribute? (name value pos : Data) : Except Fault Form :=
  match h : checkAttributeName name with
  | .error fault => .error fault
  | .ok () => .ok (.attr { name, value, pos, generic := h })

def ofModule? (entries : List (Data × Data)) (pos : Data) : Except Fault Form := do
  let name ← required entries "module"
  match (Data.field? entries "parameters").getD .null with
  | .null => return .module { name, parameters := none, pos }
  | d => return .module { name, parameters := some (← d.items?), pos }

def ofExport? (entries : List (Data × Data)) (pos : Data) : Except Fault Form := do
  let items ← ((Data.field? entries "functions").getD (.ofList [])).items?
  let functions ← items.mapM fun item => do
    let (name, arity) ← item.couple?
    return ({ name, arity } : Signature)
  return .exports { functions, pos }

/-- Reads a form. `own` is the origin of the reader's own markers. -/
def readBy (exprs : Expr.Reading) (own : Text) (d : Data) : Except Fault Form :=
  match d with
  | .map _ entries =>
    let pos := (Data.field? entries "pos").getD 0
    match (Data.field? entries "type").getD .null with
    | .str "attribute" => do
      match ← required entries "name" with
      | .str "module" => ofModule? entries pos
      | .str "file" => do
        let file ← required entries "file"
        return .file { file, line := (Data.field? entries "line").getD 1, pos }
      | .str "export" => ofExport? entries pos
      | name => ofAttribute? name ((Data.field? entries "value").getD .null) pos
    | .str "function" => do
      let name ← required entries "name"
      return .function { name, clauses := (← Clause.fieldBy exprs entries), pos }
    | .str "rule" => do
      let name ← required entries "name"
      return .rule { name, clauses := (← Clause.fieldBy exprs entries), pos }
    | .str "error_marker" => do
      let origin ← required entries "origin"
      let value := (Data.field? entries "descriptor").getD .null
      return .marker { origin, descriptor := .ofData own origin value, pos }
    | .str "eof" => .ok (.eof pos)
    | type => .error ((Fault.unknownType .form type).showing [type])
  | _ => .error (.notMapping .form d.kindName)

def listToData (forms : List Form) : Data :=
  .ofList (forms.map toData)

def listBy (exprs : Expr.Reading) (own : Text) (d : Data) : Except Fault (List Form) :=
  match d with
  | .null => .ok []
  | .list _ items => items.mapM (readBy exprs own)
  | _ => .error (.notList .formList d.kindName)

def ofData? (own : Text) (d : Data) : Except Fault Form := readBy .plain own d

/-- Reads a list of forms from a document that does not contain itself. -/
def listOfData? (own : Text) (d : Data) : Except Fault (List Form) := listBy .plain own d

theorem listOfData?_list (own : Text) (place : Place) (items : List Data) :
    listOfData? own (.list place items) = items.mapM (ofData? own) := rfl

/-- Reads a list of forms from a document that may contain itself. -/
def listOfCyclic? (own : Text) (d : Data) : Except Fault (List Form) := listBy .watchful own d

end Form

end RuleLowering
