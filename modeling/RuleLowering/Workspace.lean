import RuleLowering.Diagnostic
import RuleLowering.Format
import RuleLowering.Rendering
import RuleLowering.Report

/-!
# Workspaces

A list of forms with the options in use, and the steps that change or show it. A step that fails
leaves the workspace as it was.
-/
namespace RuleLowering

structure Workspace where
  forms : List Form := []
  options : Options := {}
  /-- The number of documents read so far. -/
  documents : Nat := 0

namespace Workspace

inductive Step where
  | setOptions (d : Data)
  | load (format : Format) (text : Text)
  | append (format : Format) (text : Text)
  /-- Keeps the forms from one index up to another; a negative one counts from the end. -/
  | keep (first : Int) (last : Option Int)
  | reverse
  /-- Writes the forms and reads them again. -/
  | reload (format : Format)
  | lower
  /-- Lowers the rules alone. -/
  | lowerRules
  | analyze
  | render (r : Rendering)
  | diagnose (file : Data)

inductive Answer where
  | done
  | inventory (kinds : List FormKind)
  | lowered (text : Text) (warnings : List Text)
  | rulesLowered (text : Text) (markers : Nat)
  | report (r : Report)
  | text (t : Text)
  | lines (ls : List Text)

/-- An index into a list of some length: a negative one counts from the end, and none is outside. -/
def clampIndex (length : Nat) (i : Int) : Nat :=
  if i < 0 then (i + length).toNat else min i.toNat length

def slice {α : Type} (items : List α) (first : Int) (last : Option Int) : List α :=
  let start := clampIndex items.length first
  let stop := (last.map (clampIndex items.length)).getD items.length
  (items.take stop).drop start

def withForms (w : Workspace) (forms : List Form) : Answer × Workspace :=
  (.inventory (forms.map Form.kind), { w with forms })

def formsText (forms : List Form) : Except Fault Text :=
  Rendering.write .json forms

def step (w : Workspace) : Step → Except Fault (Answer × Workspace)
  | .setOptions d => do return (.done, { w with options := ← Options.ofData? d })
  | .load format text => do
    let forms ← format.readForms w.documents w.options.origin text
    return { w with documents := w.documents + 1 }.withForms forms
  | .append format text => do
    let forms ← format.readForms w.documents w.options.origin text
    return { w with documents := w.documents + 1 }.withForms (w.forms ++ forms)
  | .keep first last => .ok (w.withForms (slice w.forms first last))
  | .reverse => .ok (w.withForms w.forms.reverse)
  | .reload format => do
    let text ← Rendering.write (match format with | .json => .json | .yaml => .yaml) w.forms
    let forms ← format.readForms w.documents w.options.origin text
    return { w with documents := w.documents + 1 }.withForms forms
  | .lower => do
    let forms ← RuleLowering.lower w.options w.forms
    return (.lowered (← formsText forms) (loweringWarnings w.options w.forms), { w with forms })
  | .lowerRules => do
    let (forms, markers) ← RuleLowering.lowerRules w.options w.forms
    return (.rulesLowered (← formsText forms) markers.length, { w with forms })
  | .analyze => do return (.report (← Report.ofForms w.options w.forms), w)
  | .render r => do return (.text (← r.write w.forms), w)
  | .diagnose file => do return (.lines (← (markersOf w.forms).mapM (·.diagnostic file)), w)

/-- Takes steps in turn; each answers or fails for itself. -/
def run (w : Workspace) : List Step → List (Except Fault Answer)
  | [] => []
  | s :: rest => match w.step s with
    | .ok (answer, w) => .ok answer :: w.run rest
    | .error fault => .error fault :: w.run rest

end Workspace

end RuleLowering
