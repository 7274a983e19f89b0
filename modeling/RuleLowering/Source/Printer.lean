import RuleLowering.Form.Basic
import RuleLowering.Source.Token

/-!
# Printed source

Forms as readable source text. Functions and rules stand in paragraphs of their own, error
markers become comments, and the end of the file prints nothing. Where an expression is no text
when printed, which only a variable with a strange name can bring about, it displays as data
inside other expressions and is a fault in a list.
-/
namespace RuleLowering.Source

/-- What an expression prints as: a text, but for a variable whatever its name is. -/
abbrev Printed := Data

def text (t : Text) : Except Fault Printed := .ok (.str t)

mutual
def expression : Expr → Except Fault Printed
  | .absent => .error .absentExpression
  | .var name _ => .ok name
  | .atom name _ => do text (← atom name)
  | .literal (.str t) _ => text (Text.escaped t)
  | .literal value _ => if value.isWritable then text value.inner else .error .numberTooLong
  | .tuple elements _ => do
    text ("\x7b" ++ (← Data.joinTexts ", " (← expressions elements)) ++ "\x7d")
  | .list elements _ => do
    text ("[" ++ (← Data.joinTexts ", " (← expressions elements)) ++ "]")
  | .operation operator left right _ => do
    let l ← (← expression left).shownText
    let o ← operator.shownText
    let r ← (← expression right).shownText
    text (l ++ " " ++ o ++ " " ++ r)
  | .remote owner function _ => do
    let m ← (← expression owner).shownText
    let f ← (← expression function).shownText
    text (m ++ ":" ++ f)
  | .call function arguments _ => do
    let f ← (← expression function).shownText
    text (f ++ "(" ++ (← Data.joinTexts ", " (← expressions arguments)) ++ ")")
  | .binding pattern body _ => do
    let p ← (← expression pattern).shownText
    let b ← (← expression body).shownText
    text (p ++ " = " ++ b)
  | .generator pattern body _ => do
    let p ← (← expression pattern).shownText
    let b ← (← expression body).shownText
    text (p ++ " <- " ++ b)
  | .binaryGenerator pattern body _ => do
    let p ← (← expression pattern).shownText
    let b ← (← expression body).shownText
    text (p ++ " <= " ++ b)
  | .quote body _ => do
    let b ← (← expression body).shownText
    text ("quote(" ++ b ++ ")")
  | .foreign t _ => do text (← termText t)

def expressions : List Expr → Except Fault (List Printed)
  | [] => .ok []
  | e :: es => do return (← expression e) :: (← expressions es)
end

def clause (name : Data) (arrow : String) (c : Clause) : Except Fault Text := do
  let head := (← atom name) ++ "(" ++ (← Data.joinTexts ", " (← expressions c.patterns)) ++ ")"
  let guard : Text ← match c.guard with
    | .absent => pure ""
    | g => do pure (" when " ++ (← (← expression g).shownText))
  let body ← Data.joinTexts ",\n    " (← expressions c.body)
  return head ++ guard ++ " " ++ arrow ++ "\n    " ++ body

/-- Prints the clauses of a function or rule, with a full stop. -/
def clauses (name : Data) (arrow : String) (cs : List Clause) : Except Fault Text := do
  return .join ";\n" (← cs.mapM (clause name arrow)) ++ "."

def descriptor : Descriptor → Except Fault Text
  | .violation v => .ok v.message
  | .foreign d => d.shownText

def exported (s : Signature) : Except Fault Text := do
  return (← atom s.name) ++ "/" ++ (← s.arity.shownText)

def form : Form → Except Fault Text
  | .attr a => do return "-" ++ (← atom a.name) ++ "(" ++ (← termText a.value) ++ ")."
  | .module m => do
    let name ← atom m.name
    match m.parameters with
    | none => return "-module(" ++ name ++ ")."
    | some ps => return "-module(" ++ name ++ ", [" ++ (← Data.joinTexts ", " ps) ++ "])."
  | .file f => do return "-file(" ++ (← string f.file) ++ ", " ++ (← f.line.shownText) ++ ")."
  | .exports e => do
    return "-export([" ++ .join ", " (← e.functions.mapM exported) ++ "])."
  | .function f => clauses f.name "->" f.clauses
  | .rule r => clauses r.name ":-" r.clauses
  | .marker m => do
    let words ← descriptor m.descriptor
    return "%% error: " ++ (← m.origin.shownText) ++ ": " ++ words
  | .eof _ => .ok ""

/-- How a list of forms is printed. -/
inductive Mode where
  | plain
  /-- Each form with a comment that gives its position. -/
  | annotated
  deriving DecidableEq, Repr

def Mode.ofName? : String → Except Fault Mode
  | "plain" => .ok .plain
  | "annotated" => .ok .annotated
  | name => .error (.unknownMode name)

/-- A form that stands in a paragraph of its own. -/
def isParagraph : Form → Bool
  | .function _ | .rule _ => true
  | _ => false

/-- The printed lines of a form, each of which may hold further line feeds. -/
def linesOf (mode : Mode) (f : Form) : Except Fault (List Text) := do
  let s ← form f
  if s.isEmpty then return []
  let position : List Text ← if mode = .annotated then do pure ["%% pos " ++ (← f.pos.shownText)] else pure []
  let own : List Text := if isParagraph f then ["", s, ""] else [s]
  return position ++ own

def print (mode : Mode) (forms : List Form) : Except Fault Text := do
  return .join "\n" (← forms.mapM (linesOf mode)).flatten ++ "\n"

end RuleLowering.Source
