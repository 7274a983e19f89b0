import RuleLowering.Diagnostic
import RuleLowering.Example
import RuleLowering.Report

/-!
# A tour

The example module with errors, step by step: its forms, the report on them, the lowered
source and the diagnostics, as one text.
-/
namespace RuleLowering.Demo

def ruler (c : Char) : String := String.ofList (List.replicate 80 c)

def title : String := "COMPLETE PIPELINE DEMO: forms → analysis → transform → source"

def indented (front : String) (lines : List Text) : List Text :=
  lines.map fun line => front ++ line

def lines : Except Fault (List Text) := do
  let options : Options := {}
  let forms := Example.family true
  let report ← Report.ofForms options forms
  let lowered ← lower options forms
  let source ← Source.print .plain lowered
  let names ← report.rules.mapM Signature.text
  let moduleName ← report.moduleName.shownText
  let diagnosed ← (markersOf lowered).mapM (·.diagnostic "family.erl")
  let warnings : List Text :=
    if report.warnings.isEmpty then []
    else "" :: ("   Warnings (" ++ toString report.warnings.length ++ "):" : String)
      :: indented "      - " report.warnings
  let front : List Text := [ruler '=', title, ruler '=',
    "", "1. BUILDING FORMS...", ("   ✓ Forms: " ++ toString forms.length : String),
    "", "2. ANALYZING FORMS...", "   ✓ Module: " ++ moduleName,
    "   ✓ Rules: " ++ .join ", " names,
    ("   ✓ Generators: " ++ toString report.generators : String)]
  let middle : List Text :=
    ["", "3. TRANSFORMING...", ("   ✓ Output forms: " ++ toString lowered.length : String),
      "", "4. REWRITTEN SOURCE:", ruler '-']
  let back : List Text := "" :: "5. DIAGNOSTICS:" :: ruler '-' :: indented "   " diagnosed
  return front ++ warnings ++ middle ++ indented "   " source.lines ++ back

def text : Except Fault Text := do
  return .join "" ((← lines).map fun line => line ++ "\n")

end RuleLowering.Demo
