import RuleLowering.Form.Document
import RuleLowering.Json.Reader
import RuleLowering.Yaml.Reader

/-!
# Formats of documents

The formats in which a document can be read.
-/
namespace RuleLowering

inductive Format where
  | json
  | yaml
  deriving DecidableEq, Repr

namespace Format

/-- Reads a document, which gets a number that tells its containers from those of others. -/
def read (format : Format) (document : Nat) (text : Text) : Except Fault Data :=
  match format with
  | json => Json.read document text
  | yaml => Yaml.read document text

/-- Reads the forms of a document, which in YAML may contain itself. `own` is the origin of the
reader's own markers. -/
def readForms (format : Format) (document : Nat) (own text : Text) : Except Fault (List Form) := do
  let d ← format.read document text
  match format with
  | json => Form.listOfData? own d
  | yaml => Form.listOfCyclic? own d

end Format

/-- Reads the options of a YAML file. A malformed text is a fault of the options. -/
def Options.ofFile? (path content : String) (document : Nat) : Except Fault Options :=
  match Yaml.readFile document content with
  | .error fault => .error (if fault.kind = .yaml then .brokenOptionsFile path else fault)
  | .ok d => Options.ofData? d

end RuleLowering
