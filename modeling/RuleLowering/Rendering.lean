import RuleLowering.Form.Document
import RuleLowering.Json.Writer
import RuleLowering.Source.Printer
import RuleLowering.Yaml.Writer

/-!
# Renderings

The texts that a list of forms can be written as.
-/
namespace RuleLowering

inductive Rendering where
  | json
  | yaml
  | source (mode : Source.Mode)
  deriving DecidableEq, Repr

namespace Rendering

/-- The JSON text of a document, names in order. -/
def jsonText (d : Data) : Except Fault String :=
  Json.write .byName d

def write (r : Rendering) (forms : List Form) : Except Fault Text :=
  match r with
  | json => do return (← jsonText (Form.listToData forms))
  | yaml => do return (← Yaml.write (Form.listToData forms))
  | source mode => Source.print mode forms

end Rendering

end RuleLowering
