import RuleLowering.Source.Printer

/-!
# Diagnostics

An error marker as a compiler reports it: file, position, origin and message, with colons
between them. The file is that of the last file mark in front of the marker.
-/
namespace RuleLowering

def Marker.diagnostic (m : Marker) (file : Data) : Except Fault Text := do
  let words ← Source.descriptor m.descriptor
  return (← file.shownText) ++ ":" ++ (← m.pos.shownText) ++ ": " ++ (← m.origin.shownText) ++ ": "
    ++ words

/-- The lines that report the markers of a module; `file` is the file in effect at its start. -/
def diagnostics (file : Data) : List Form → Except Fault (List Text)
  | [] => .ok []
  | .file f :: rest => diagnostics f.file rest
  | .marker m :: rest => do return (← m.diagnostic file) :: (← diagnostics file rest)
  | _ :: rest => diagnostics file rest

/-- The lines in front of the first marker that cannot be reported. -/
def diagnosticsBefore (file : Data) : List Form → List Text
  | [] => []
  | .file f :: rest => diagnosticsBefore f.file rest
  | .marker m :: rest => match m.diagnostic file with
    | .ok line => line :: diagnosticsBefore file rest
    | .error _ => []
  | _ :: rest => diagnosticsBefore file rest

def markersOf (forms : List Form) : List Marker :=
  forms.filterMap fun
    | .marker m => some m
    | _ => none

end RuleLowering
