import RuleLowering.Form.Basic
import RuleLowering.Placeholder

/-!
# Finding the module declaration

Only file marks and error markers may stand in front of the module declaration. The first form
of any other kind ends the scan: the module is undeclared and gets a placeholder name.
-/
namespace RuleLowering

/-- The mark in effect where no file mark precedes. -/
def FileMark.standard : FileMark where
  file := "nofile"
  line := 1
  pos := 0

/-- What a scan for the module declaration finds. -/
structure ModuleScan where
  /-- The file mark in effect at the end of the leading forms. -/
  mark : FileMark
  declaration : Option ModuleDecl
  /-- The forms up to and including the declaration. -/
  leading : List Form
  /-- All later forms. -/
  rest : List Form

namespace ModuleScan

def after (f : Form) (s : ModuleScan) : ModuleScan :=
  { s with leading := f :: s.leading }

/-- Scans from a point where the given mark is in effect. -/
def ofForms (mark : FileMark) : List Form → ModuleScan
  | .file f :: rest => after (.file f) (ofForms f rest)
  | .marker m :: rest => after (.marker m) (ofForms mark rest)
  | .module m :: rest => ⟨mark, some m, [.module m], rest⟩
  | rest => ⟨mark, none, [], rest⟩

def scan (forms : List Form) : ModuleScan :=
  ofForms .standard forms

/-- The name of the module. A source of fresh names is asked only if there is no declaration. -/
def nameFrom {m : Type → Type} [Monad m] (fresh : m Text) (s : ModuleScan) : m Data :=
  match s.declaration with
  | some d => pure d.name
  | none => do return .str (← fresh)

/-- The name of the module, where fresh ones are placeholders. -/
def name (s : ModuleScan) (names : Placeholder) : Data × Placeholder :=
  s.nameFrom (m := StateM Placeholder) Placeholder.draw names

/-- A declaration with parameters is a violation. -/
def markers (s : ModuleScan) (origin : Text) : List Marker :=
  match s.declaration with
  | some m =>
    if m.parameters.isSome then [⟨origin, .violation .parameterizedModule, m.pos⟩] else []
  | none => []

@[simp] theorem after_mark (f : Form) (s : ModuleScan) : (after f s).mark = s.mark := rfl

@[simp] theorem after_declaration (f : Form) (s : ModuleScan) :
    (after f s).declaration = s.declaration := rfl

@[simp] theorem after_leading (f : Form) (s : ModuleScan) :
    (after f s).leading = f :: s.leading := rfl

@[simp] theorem after_rest (f : Form) (s : ModuleScan) : (after f s).rest = s.rest := rfl

end ModuleScan

/-- The attributes at the front, and the forms from the first other one on. -/
def splitHeader (forms : List Form) : List Form × List Form :=
  (forms.takeWhile Form.isAttribute, forms.dropWhile Form.isAttribute)

@[simp] theorem splitHeader_append (forms : List Form) :
    (splitHeader forms).1 ++ (splitHeader forms).2 = forms :=
  List.takeWhile_append_dropWhile

end RuleLowering
