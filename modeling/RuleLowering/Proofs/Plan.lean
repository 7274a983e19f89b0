import RuleLowering.Proofs.Diagnosis
import RuleLowering.Proofs.Refusal

/-!
# Lowering under other options

A module is lowered after a plan that no option takes part in: for each place of the output the plan
says which form of the input is kept there, which rule gives way to its function, which violation is
marked, or which generated form follows. The options only fill in names. So two lowerings of one
module fail alike, or their outputs agree place by place in all but these names.
-/
namespace RuleLowering

open ModuleScan (scan)

/-- What stands at a place of a lowered module, before the options name it. -/
inductive Planned where
  /-- A form of the input that is no rule. -/
  | kept (f : Form)
  /-- The function that takes the place of a rule. -/
  | function (r : Rule)
  | violation (v : Violation) (pos : Data)
  /-- The mark that opens a generated block. -/
  | here
  | exports (rules : List Signature)
  | introspection (rules : List Signature)
  /-- The mark that closes a generated block. -/
  | back (mark : FileMark)

namespace Planned

def form (o : Options) : Planned → Form
  | kept f => f
  | function r => .function (r.rewritten o)
  | violation v pos => .marker ⟨.str o.origin, .violation v, pos⟩
  | here => .file (.start o.origin)
  | exports rules => .exports (o.exportList rules)
  | introspection rules => .function (o.introspectionFunction rules)
  | back mark => .file mark

/-- The form of the input that stands at a place or gives way to what stands there. -/
def source? : Planned → Option Form
  | kept f => some f
  | function r => some (.rule r)
  | _ => none

end Planned

/-- The mark that follows the function of a rule for an expression of a body. -/
def Expr.planned : Expr → List Planned
  | .binaryGenerator _ _ pos => [.violation .binaryGenerator pos]
  | _ => []

def Form.planned : Form → List Planned
  | .rule r => .function r :: r.clauses.flatMap fun c => c.body.flatMap Expr.planned
  | f => [.kept f]

def planned (forms : List Form) : List Planned := forms.flatMap Form.planned

namespace ModuleScan

def exportPlan (s : ModuleScan) (rules : List Signature) : List Planned :=
  ((s.declaration.toList.filter (·.parameters.isSome)).map fun m =>
    .violation .parameterizedModule m.pos) ++ [.here, .exports rules, .back s.mark]

def introspectionPlan (s : ModuleScan) (rules : List Signature) : List Planned :=
  [.here, .introspection rules, .back s.mark]

def plan (s : ModuleScan) (rules : List Signature) : List Planned :=
  planned s.leading ++ s.exportPlan rules ++ planned s.header ++ s.introspectionPlan rules
    ++ planned s.body

end ModuleScan

section Plans

variable {o : Options}

theorem Expr.map_marker_reported (e : Expr) :
    (e.reported o).map Form.marker = e.planned.map (Planned.form o) := by
  cases e <;> rfl

theorem Rule.map_marker_reported (r : Rule) :
    (r.reported o).map Form.marker =
      (r.clauses.flatMap fun c => c.body.flatMap Expr.planned).map (Planned.form o) := by
  simp only [Rule.reported, Clause.reported, List.map_flatMap, Expr.map_marker_reported]

/-- What takes the place of a form is as planned. -/
theorem Form.image_eq_map_planned (f : Form) : f.image o = f.planned.map (Planned.form o) := by
  cases f with
  | rule r => exact congrArg (Form.function (r.rewritten o) :: ·) r.map_marker_reported
  | _ => rfl

theorem rewritten_eq_map_planned (forms : List Form) :
    rewritten o forms = (planned forms).map (Planned.form o) := by
  have himage : Form.image o = fun f => f.planned.map (Planned.form o) :=
    funext Form.image_eq_map_planned
  rw [rewritten, planned, List.map_flatMap, himage]

theorem Form.filterMap_source?_planned (f : Form) : f.planned.filterMap Planned.source? = [f] := by
  cases f with
  | rule r =>
    have hbody : (r.clauses.flatMap fun c => c.body.flatMap Expr.planned).filterMap
        Planned.source? = [] := by
      rw [List.filterMap_eq_nil_iff]
      intro p hp
      obtain ⟨c, -, hc⟩ := List.mem_flatMap.mp hp
      obtain ⟨e, -, he⟩ := List.mem_flatMap.mp hc
      cases e with
      | binaryGenerator _ _ pos =>
        obtain rfl := List.mem_singleton.mp he
        rfl
      | _ => cases he
    exact congrArg (Form.rule r :: ·) hbody
  | _ => rfl

/-- The forms planned for are all there, once each and in order. -/
theorem filterMap_source?_planned (forms : List Form) :
    (planned forms).filterMap Planned.source? = forms := by
  induction forms with
  | nil => rfl
  | cons f rest ih =>
    have hcons : planned (f :: rest) = f.planned ++ planned rest := rfl
    rw [hcons, List.filterMap_append, ih, Form.filterMap_source?_planned]
    rfl

/-- No rule is kept. -/
theorem not_isRule_of_kept_mem_planned {forms : List Form} {f : Form}
    (h : .kept f ∈ planned forms) : f.isRule = false := by
  obtain ⟨g, -, hg⟩ := List.mem_flatMap.mp h
  cases g with
  | rule r =>
    simp only [Form.planned, List.mem_cons, reduceCtorEq, List.mem_flatMap, false_or] at hg
    obtain ⟨c, -, e, -, he⟩ := hg
    cases e with
    | binaryGenerator _ _ pos => cases List.mem_singleton.mp he
    | _ => cases he
  | _ =>
    obtain rfl := Planned.kept.inj (List.mem_singleton.mp hg)
    rfl

namespace ModuleScan

variable (s : ModuleScan) (rules : List Signature)

theorem exportBlock_eq_map_plan :
    s.exportBlock o rules = (s.exportPlan rules).map (Planned.form o) := by
  rw [exportBlock, exportPlan, markers_eq, List.map_append, List.map_map, List.map_map]
  rfl

theorem introspectionBlock_eq_map_plan :
    s.introspectionBlock o rules = (s.introspectionPlan rules).map (Planned.form o) := rfl

/-- Nothing in a generated block comes from the input. -/
theorem source?_of_mem_exportPlan {p : Planned} (h : p ∈ s.exportPlan rules) :
    p.source? = none := by
  rcases List.mem_append.mp h with h | h
  · obtain ⟨m, -, rfl⟩ := List.mem_map.mp h
    rfl
  · simp only [List.mem_cons, List.not_mem_nil, or_false] at h
    rcases h with rfl | rfl | rfl <;> rfl

theorem source?_of_mem_introspectionPlan {p : Planned} (h : p ∈ s.introspectionPlan rules) :
    p.source? = none := by
  simp only [introspectionPlan, List.mem_cons, List.not_mem_nil, or_false] at h
  rcases h with rfl | rfl | rfl <;> rfl

/-- The plan of a module plans for all its forms, once each and in order. -/
theorem filterMap_source?_plan (forms : List Form) :
    ((scan forms).plan rules).filterMap Planned.source? = forms := by
  have hexports := List.filterMap_eq_nil_iff.mpr fun p =>
    (scan forms).source?_of_mem_exportPlan rules (p := p)
  have hintrospection := List.filterMap_eq_nil_iff.mpr fun p =>
    (scan forms).source?_of_mem_introspectionPlan rules (p := p)
  simp only [plan, List.filterMap_append, filterMap_source?_planned, hexports, hintrospection,
    List.append_assoc]
  exact parts_append forms

theorem not_isRule_of_kept_mem_plan {f : Form} (h : .kept f ∈ s.plan rules) : f.isRule = false := by
  simp only [plan, List.mem_append] at h
  rcases h with (((h | h) | h) | h) | h
  · exact not_isRule_of_kept_mem_planned h
  · cases s.source?_of_mem_exportPlan rules h
  · exact not_isRule_of_kept_mem_planned h
  · cases s.source?_of_mem_introspectionPlan rules h
  · exact not_isRule_of_kept_mem_planned h

end ModuleScan

/-- Whether a module is lowered, and after which plan, the options do not tell. -/
theorem lower_eq_map_plan {forms out : List Form} :
    lower o forms = .ok out ↔ RulesComplete forms ∧ ∃ rules, signatures? forms = .ok rules
      ∧ out = ((scan forms).plan rules).map (Planned.form o) := by
  simp only [lower_eq_ok, ModuleScan.plan, List.map_append, ← rewritten_eq_map_planned,
    ← ModuleScan.exportBlock_eq_map_plan, ← ModuleScan.introspectionBlock_eq_map_plan,
    ModuleScan.rewritten_leading, ModuleScan.rewritten_header]

end Plans

mutual
/-- The positions in an expression: its own, then those of its parts from left to right. -/
def Expr.positions : Expr → List Data
  | .absent => []
  | .var _ pos | .atom _ pos | .literal _ pos | .foreign _ pos => [pos]
  | .tuple xs pos | .list xs pos => pos :: positionsAll xs
  | .operation _ a b pos | .remote a b pos | .binding a b pos | .generator a b pos
  | .binaryGenerator a b pos => pos :: (positions a ++ positions b)
  | .call f xs pos => pos :: (positions f ++ positionsAll xs)
  | .quote a pos => pos :: positions a
termination_by structural e => e

def Expr.positionsAll : List Expr → List Data
  | [] => []
  | x :: xs => positions x ++ positionsAll xs
termination_by structural xs => xs
end

/-- The call of the hook stands where its generator stood, whatever the hook is named. -/
theorem Expr.positions_rewritten (o o' : Options) (e : Expr) :
    (e.rewritten o).positions = (e.rewritten o').positions := by
  cases e <;> rfl

/-- Two functions are alike but for the names inside their bodies. -/
structure Function.SameOutline (f g : Function) : Prop where
  name : f.name = g.name
  arity : f.arity = g.arity
  length : f.clauses.length = g.clauses.length
  patterns : f.clauses.map Clause.patterns = g.clauses.map Clause.patterns
  guards : f.clauses.map Clause.guard = g.clauses.map Clause.guard
  /-- At each place of a body stands an expression with the same positions in it. -/
  positions : (f.clauses.map fun c => c.body.map Expr.positions) =
    g.clauses.map fun c => c.body.map Expr.positions

theorem Rule.sameOutline_rewritten (o o' : Options) (r : Rule) :
    (r.rewritten o).SameOutline (r.rewritten o') where
  name := rfl
  arity := by cases h : r.clauses <;> simp [Rule.rewritten, Function.arity, h]
  length := by simp [Rule.rewritten]
  patterns := by simp [Rule.rewritten, Clause.rewritten]
  guards := by simp [Rule.rewritten, Clause.rewritten]
  positions := by
    have heach : ∀ c : Clause, (c.rewritten o).body.map Expr.positions =
        (c.rewritten o').body.map Expr.positions := by
      intro c
      simp only [Clause.rewritten, List.map_map]
      exact List.map_congr_left fun e _ => e.positions_rewritten o o'
    simp only [Rule.rewritten, List.map_map]
    exact List.map_congr_left fun c _ => heach c

namespace Planned

variable (o o' : Options) (p : Planned)

theorem kind_form : (p.form o).kind = (p.form o').kind := by
  cases p <;> rfl

theorem pos_form : (p.form o).pos = (p.form o').pos := by
  cases p <;> rfl

/-- No form of a lowered module shows the beginning of placeholder names. -/
theorem form_placeholder (t : Text) : p.form { o with placeholder := t } = p.form o := by
  cases p <;> rfl

end Planned

/-- Lowered with two sets of options a module fails with the same fault, or gives outputs that stem
from one plan, which plans for the forms of the module once each and in order. They have one length
and at each place forms of one kind at one position; a form of the input that is no rule is kept in
both, and the functions of a rule differ in nothing but names inside their bodies. Options that
differ in the beginning of placeholder names only give one output. -/
theorem lowered_alike_but_names (o o' : Options) (forms : List Form) :
    (∃ fault, lower o forms = .error fault ∧ lower o' forms = .error fault)
      ∨ ∃ (out out' : List Form) (plan : List Planned),
        lower o forms = .ok out ∧ lower o' forms = .ok out'
        ∧ out = plan.map (Planned.form o) ∧ out' = plan.map (Planned.form o')
        ∧ plan.filterMap Planned.source? = forms ∧ (∀ f : Form, .kept f ∈ plan → f.isRule = false)
        ∧ out.length = out'.length ∧ out.map Form.kind = out'.map Form.kind
        ∧ out.map Form.pos = out'.map Form.pos
        ∧ (∀ (i : Nat) (f : Form), plan[i]? = some (.kept f) → out[i]? = some f ∧ out'[i]? = some f)
        ∧ (∀ (i : Nat) (r : Rule), plan[i]? = some (.function r) → ∃ g g' : Function,
          out[i]? = some (.function g) ∧ out'[i]? = some (.function g') ∧ g.name = r.name
            ∧ g.SameOutline g')
        ∧ ({ o with placeholder := o'.placeholder } = o' → out = out') := by
  cases h : lower o forms with
  | error fault => exact .inl ⟨fault, rfl, lower_eq_error.mpr (lower_eq_error.mp h)⟩
  | ok out =>
    obtain ⟨hcomplete, rules, hrules, rfl⟩ := lower_eq_map_plan.mp h
    have h' : lower o' forms = .ok _ := lower_eq_map_plan.mpr ⟨hcomplete, rules, hrules, rfl⟩
    refine .inr ⟨_, _, (scan forms).plan rules, rfl, h', rfl, rfl,
      ModuleScan.filterMap_source?_plan rules forms,
      fun f => (scan forms).not_isRule_of_kept_mem_plan rules, by simp, ?_, ?_, ?_, ?_, ?_⟩
    · simp only [List.map_map]
      exact List.map_congr_left fun p _ => p.kind_form o o'
    · simp only [List.map_map]
      exact List.map_congr_left fun p _ => p.pos_form o o'
    · intro i f hi
      simp [hi, Planned.form]
    · intro i r hi
      refine ⟨r.rewritten o, r.rewritten o', ?_, ?_, rfl, r.sameOutline_rewritten o o'⟩
      · simp [hi, Planned.form]
      · simp [hi, Planned.form]
    · intro hplaceholder
      rw [← hplaceholder]
      exact List.map_congr_left fun p _ => (p.form_placeholder o _).symm

def otherNames : Options := ⟨"rewriter", "listed", "support", "each", "unnamed"⟩

/-- The example module is lowered under both, with its two markers at the same places. -/
theorem family_lowered_with_otherNames :
    ∃ out out', lower {} (Example.family true) = .ok out
      ∧ lower otherNames (Example.family true) = .ok out' ∧ out.length = out'.length
      ∧ out.map Form.kind = out'.map Form.kind ∧ out.map Form.pos = out'.map Form.pos
      ∧ (markersOf out).map Marker.origin = ["henshin_module", "henshin_module"]
      ∧ (markersOf out').map Marker.origin = ["rewriter", "rewriter"] := by
  have h : lower {} (Example.family true) = .ok _ := rfl
  have h' : lower otherNames (Example.family true) = .ok _ := rfl
  rcases lowered_alike_but_names {} otherNames (Example.family true) with
    ⟨fault, hfault, -⟩ | ⟨out, out', plan, hout, hout', -, -, -, -, hlength, hkind, hpos, -⟩
  · cases h.symm.trans hfault
  · obtain rfl := Except.ok.inj (h.symm.trans hout)
    obtain rfl := Except.ok.inj (h'.symm.trans hout')
    exact ⟨_, _, h, h', hlength, hkind, hpos, rfl, rfl⟩

end RuleLowering
