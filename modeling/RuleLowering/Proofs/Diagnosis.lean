import RuleLowering.Diagnostic
import RuleLowering.Proofs.Splice

/-!
# The markers of a lowered module

Lowering reports from three places: the declaration, the rules of the body, and the markers that
are there already. Each form accounts for its own markers and for no others, so the markers of
the output follow the input form by form, with that of the declaration behind the leading forms.
-/
namespace RuleLowering

/-- The markers that a form accounts for after lowering: a marker for itself, and a rule for its
generators over binaries. -/
def Form.reported (o : Options) : Form → List Marker
  | .marker m => [m]
  | .rule r => r.reported o
  | _ => []

@[simp] theorem markersOf_append (xs ys : List Form) :
    markersOf (xs ++ ys) = markersOf xs ++ markersOf ys :=
  List.filterMap_append

@[simp] theorem markersOf_map_marker (ms : List Marker) : markersOf (ms.map .marker) = ms := by
  induction ms with
  | nil => rfl
  | cons m ms ih => exact congrArg (m :: ·) ih

theorem markersOf_image (o : Options) (f : Form) : markersOf (f.image o) = f.reported o := by
  cases f with
  | rule r => exact markersOf_map_marker (r.reported o)
  | _ => rfl

/-- The markers of a flat rewrite, form by form. -/
theorem markersOf_rewritten (o : Options) (forms : List Form) :
    markersOf (rewritten o forms) = forms.flatMap (Form.reported o) := by
  induction forms with
  | nil => rfl
  | cons f rest ih =>
    rw [rewritten_cons, markersOf_append, markersOf_image, ih, List.flatMap_cons]

namespace ModuleScan

/-- Only a declaration with parameters is reported by the scan, and once. -/
theorem markers_eq (s : ModuleScan) (origin : Text) :
    s.markers origin = (s.declaration.toList.filter (·.parameters.isSome)).map fun m =>
      ⟨.str origin, .violation .parameterizedModule, m.pos⟩ := by
  unfold markers
  cases s.declaration with
  | none => rfl
  | some m =>
    dsimp only [Option.toList_some]
    cases h : m.parameters.isSome <;> simp [h]

theorem markersOf_exportBlock (s : ModuleScan) (o : Options) (rules : List Signature) :
    markersOf (s.exportBlock o rules) = s.markers o.origin := by
  rw [exportBlock, markersOf_append, markersOf_map_marker]
  exact List.append_nil _

theorem markersOf_introspectionBlock (s : ModuleScan) (o : Options) (rules : List Signature) :
    markersOf (s.introspectionBlock o rules) = [] := rfl

/-- Header and body account for the markers of all forms behind the leading ones. -/
theorem markersOf_rest (s : ModuleScan) (o : Options) :
    markersOf s.header ++ markersOf (rewritten o s.body) = s.rest.flatMap (Form.reported o) := by
  rw [← rewritten_header o s, ← markersOf_append, ← rewritten_append, markersOf_rewritten, header,
    body, splitHeader_append]

end ModuleScan

open ModuleScan (scan)

/-- The markers of a lowered module are those of the leading forms, one for a declaration with
parameters, and then, form by form, the markers of the input in their places and one for each
generator over a binary at the top of a rule's body, clause by clause. -/
theorem markersOf_lowered {o : Options} {forms out : List Form} (h : lower o forms = .ok out) :
    let s := scan forms
    markersOf out = markersOf s.leading
      ++ ((s.declaration.toList.filter (·.parameters.isSome)).map fun m =>
        ⟨.str o.origin, .violation .parameterizedModule, m.pos⟩)
      ++ s.rest.flatMap (Form.reported o) := by
  intro s
  obtain ⟨-, rules, -, hout⟩ := lower_eq_ok.mp h
  calc markersOf out
      = markersOf s.leading ++ s.markers o.origin
          ++ (markersOf s.header ++ markersOf (rewritten o s.body)) := by
        simp only [hout, markersOf_append, ModuleScan.markersOf_exportBlock,
          ModuleScan.markersOf_introspectionBlock, List.nil_append, List.append_assoc, s]
    _ = _ := by rw [ModuleScan.markersOf_rest, ModuleScan.markers_eq]

/-- A module with markers on both sides of a declaration with parameters, and rules that are
reported twice and once. -/
def crowded : List Form :=
  let marker (word : String) (pos : Data) : Form := .marker ⟨"erl_parse", .foreign word, pos⟩
  let binary (pos : Data) : Expr := .binaryGenerator (.var "X" pos) (.var "B" pos) pos
  let clause (body : List Expr) (pos : Data) : Clause := ⟨[], .absent, body, pos⟩
  [ marker "first" 1, .module ⟨"m", some [], 2⟩, marker "second" 3,
    .rule ⟨"twice", [clause [binary 5, .atom "ok" 6] 5, clause [binary 7] 7], 5⟩,
    marker "third" 8, .rule ⟨"once", [clause [.quote (binary 9) 9, binary 10] 9], 9⟩ ]

/-- Each of them is reported in its place; a generator inside a quote is none of a body. -/
theorem crowded_markersOf_lowered :
    ∃ out, lower {} crowded = .ok out ∧ markersOf out =
      [ ⟨"erl_parse", .foreign "first", 1⟩,
        ⟨"henshin_module", .violation .parameterizedModule, 2⟩,
        ⟨"erl_parse", .foreign "second", 3⟩,
        ⟨"henshin_module", .violation .binaryGenerator, 5⟩,
        ⟨"henshin_module", .violation .binaryGenerator, 7⟩,
        ⟨"erl_parse", .foreign "third", 8⟩,
        ⟨"henshin_module", .violation .binaryGenerator, 10⟩ ] := by
  have h : lower {} crowded = .ok _ := rfl
  exact ⟨_, h, markersOf_lowered h⟩

end RuleLowering
