import RuleLowering.Lowering.Identity
import RuleLowering.Lowering.Rules
import RuleLowering.Proofs.Success

/-!
# The rewrite of rules, as a total function

Lowering a body can only fail at a place where no expression stands. Everywhere else it is a
map, and the markers are those of the generators over binaries, in reading order. A list of
forms is therefore rewritten form by form: each rule gives way to its function and its markers,
and any other form stays.
-/
namespace RuleLowering

namespace Expr

def rewritten (o : Options) : Expr → Expr
  | .generator pattern body pos => .binding pattern (hookCall o body pos) pos
  | .binaryGenerator pattern body pos => .binding pattern body pos
  | e => e

def reported (o : Options) : Expr → List Marker
  | .binaryGenerator _ _ pos => [⟨.str o.origin, .violation .binaryGenerator, pos⟩]
  | _ => []

theorem lower_eq_ok {o : Options} {e : Expr} {x : Expr × List Marker} :
    e.lower o = .ok x ↔ e ≠ .absent ∧ x = (e.rewritten o, e.reported o) := by
  cases e <;> simp [Expr.lower, rewritten, reported, eq_comm]

end Expr

/-- Steps that succeed on known items, each with one result, give all results in order. -/
theorem lowerEach_eq_ok {α β : Type} {step : α → Except Fault (β × List Marker)}
    {Fit : α → Prop} {result : α → β} {markers : α → List Marker}
    (hstep : ∀ a x, step a = .ok x ↔ Fit a ∧ x = (result a, markers a))
    {items : List α} {x : List β × List Marker} :
    lowerEach step items = .ok x ↔
      (∀ a ∈ items, Fit a) ∧ x = (items.map result, items.flatMap markers) := by
  induction items generalizing x with
  | nil => simp [lowerEach, eq_comm]
  | cons a items ih =>
    simp only [lowerEach, bind_eq_ok_iff, hstep, ih, return_eq_ok_iff, List.forall_mem_cons,
      List.map_cons, List.flatMap_cons]
    constructor
    · rintro ⟨_, ⟨ha, rfl⟩, _, ⟨hitems, rfl⟩, rfl⟩
      exact ⟨⟨ha, hitems⟩, rfl⟩
    · rintro ⟨⟨ha, hitems⟩, rfl⟩
      exact ⟨_, ⟨ha, rfl⟩, _, ⟨hitems, rfl⟩, rfl⟩

namespace Clause

/-- An expression stands at each place of the body. -/
def Complete (c : Clause) : Prop := .absent ∉ c.body

def rewritten (o : Options) (c : Clause) : Clause :=
  { c with body := c.body.map (Expr.rewritten o) }

def reported (o : Options) (c : Clause) : List Marker := c.body.flatMap (Expr.reported o)

@[simp] theorem arity_rewritten (o : Options) (c : Clause) : (c.rewritten o).arity = c.arity := rfl

theorem lower_eq_ok {o : Options} {c : Clause} {x : Clause × List Marker} :
    c.lower o = .ok x ↔ c.Complete ∧ x = (c.rewritten o, c.reported o) := by
  have hbody : (∀ e ∈ c.body, e ≠ .absent) ↔ c.Complete :=
    ⟨fun h habsent => h _ habsent rfl, fun h e he heq => h (heq ▸ he)⟩
  simp only [Clause.lower, bind_eq_ok_iff, lowerEach_eq_ok fun e x => Expr.lower_eq_ok (o := o),
    return_eq_ok_iff, hbody]
  constructor
  · rintro ⟨_, ⟨h, rfl⟩, rfl⟩
    exact ⟨h, rfl⟩
  · rintro ⟨h, rfl⟩
    exact ⟨_, ⟨h, rfl⟩, rfl⟩

end Clause

namespace Rule

def Complete (r : Rule) : Prop := ∀ c ∈ r.clauses, c.Complete

def rewritten (o : Options) (r : Rule) : Function :=
  ⟨r.name, r.clauses.map (Clause.rewritten o), r.pos⟩

/-- The markers of a rule: clause by clause, and in each clause in the order of its body. -/
def reported (o : Options) (r : Rule) : List Marker := r.clauses.flatMap (Clause.reported o)

theorem lower_eq_ok {o : Options} {r : Rule} {x : Function × List Marker} :
    r.lower o = .ok x ↔ r.Complete ∧ x = (r.rewritten o, r.reported o) := by
  simp only [Rule.lower, bind_eq_ok_iff, lowerEach_eq_ok fun c x => Clause.lower_eq_ok (o := o),
    return_eq_ok_iff]
  constructor
  · rintro ⟨_, ⟨h, rfl⟩, rfl⟩
    exact ⟨h, rfl⟩
  · rintro ⟨h, rfl⟩
    exact ⟨_, ⟨h, rfl⟩, rfl⟩

end Rule

namespace Form

theorem isRule_iff {f : Form} : f.isRule = true ↔ ∃ r, f = .rule r := by
  cases f <;> simp [isRule, kind]

theorem rule?_eq_none {f : Form} (h : f.isRule = false) : f.rule? = none := by
  cases f <;> first | rfl | cases h

/-- The forms that take the place of a form: a rule's function with the rule's markers behind
it, or the form itself. -/
def image (o : Options) : Form → List Form
  | .rule r => .function (r.rewritten o) :: (r.reported o).map .marker
  | f => [f]

theorem image_of_not_isRule {o : Options} {f : Form} (h : f.isRule = false) : f.image o = [f] := by
  cases f <;> first | rfl | cases h

/-- No rule is left in what takes the place of a form. -/
theorem not_isRule_of_mem_image {o : Options} {f g : Form} (h : g ∈ f.image o) :
    g.isRule = false := by
  cases f with
  | rule r =>
    simp only [image, List.mem_cons, List.mem_map] at h
    rcases h with rfl | ⟨m, -, rfl⟩ <;> rfl
  | _ =>
    obtain rfl := List.mem_singleton.mp h
    rfl

end Form

/-- Every rule of a list has an expression at each place of its bodies. -/
def RulesComplete (forms : List Form) : Prop := ∀ r, .rule r ∈ forms → r.Complete

theorem rulesComplete_cons_rule {r : Rule} {rest : List Form} :
    RulesComplete (.rule r :: rest) ↔ r.Complete ∧ RulesComplete rest := by
  simp [RulesComplete]

theorem rulesComplete_cons_of_not_isRule {f : Form} {rest : List Form} (hf : f.isRule = false) :
    RulesComplete (f :: rest) ↔ RulesComplete rest := by
  simp only [RulesComplete, List.mem_cons]
  refine ⟨fun h r hr => h r (.inr hr), fun h r hr => h r (hr.resolve_left ?_)⟩
  rintro rfl
  cases hf

def rewritten (o : Options) (forms : List Form) : List Form := forms.flatMap (Form.image o)

@[simp] theorem rewritten_nil (o : Options) : rewritten o [] = [] := rfl

@[simp] theorem rewritten_cons (o : Options) (f : Form) (rest : List Form) :
    rewritten o (f :: rest) = f.image o ++ rewritten o rest := rfl

@[simp] theorem rewritten_append (o : Options) (xs ys : List Form) :
    rewritten o (xs ++ ys) = rewritten o xs ++ rewritten o ys := by
  simp [rewritten]

/-- A list without rules is its own rewrite. -/
theorem rewritten_eq_self {o : Options} {forms : List Form} (h : ∀ f ∈ forms, f.isRule = false) :
    rewritten o forms = forms := by
  induction forms with
  | nil => rfl
  | cons f rest ih =>
    obtain ⟨hf, hrest⟩ := List.forall_mem_cons.mp h
    rw [rewritten_cons, Form.image_of_not_isRule hf, ih hrest]
    rfl

theorem not_isRule_of_mem_rewritten {o : Options} {forms : List Form} {g : Form}
    (h : g ∈ rewritten o forms) : g.isRule = false := by
  obtain ⟨f, -, hg⟩ := List.mem_flatMap.mp h
  exact Form.not_isRule_of_mem_image hg

/-- A count of forms that adds up over lists. -/
def AddsUp (count : List Form → Nat) : Prop :=
  ∀ xs ys, count (xs ++ ys) = count xs + count ys

namespace AddsUp

variable {o : Options} {forms : List Form} {count lost total : List Form → Nat}

theorem zero : AddsUp fun _ => 0 := fun _ _ => rfl

theorem countP (p : Form → Bool) : AddsUp (List.countP p) := fun _ _ => List.countP_append

theorem add (hcount : AddsUp count) (htotal : AddsUp total) :
    AddsUp fun forms => count forms + total forms := by
  intro xs ys
  dsimp only
  rw [hcount, htotal]
  omega

/-- What holds of the counts at each form and at what takes its place holds of the counts of a list
and of its flat rewrite. -/
theorem rewritten (hcount : AddsUp count) (hlost : AddsUp lost) (htotal : AddsUp total)
    (himage : ∀ f ∈ forms, count (f.image o) + lost [f] = total [f]) :
    count (rewritten o forms) + lost forms = total forms := by
  have hnil : ∀ {μ : List Form → Nat}, AddsUp μ → μ [] = 0 := by
    intro μ hμ
    have hsum : μ [] = μ [] + μ [] := hμ [] []
    omega
  induction forms with
  | nil => rw [rewritten_nil, hnil hcount, hnil hlost, hnil htotal]
  | cons f rest ih =>
    obtain ⟨hf, hrest⟩ := List.forall_mem_cons.mp himage
    have hcons : f :: rest = [f] ++ rest := rfl
    have hlater := ih hrest
    rw [rewritten_cons, hcons, hcount, hlost, htotal]
    omega

end AddsUp

theorem lowerRules_cons_of_not_isRule {o : Options} {f : Form} {rest : List Form}
    (hf : f.isRule = false) :
    lowerRules o (f :: rest) = (do
      let (forms, later) ← lowerRules o rest
      return (f :: forms, later)) := by
  cases f <;> first | rfl | cases hf

/-- Lowering the rules of a list succeeds exactly when their bodies are complete, and then gives
the rewrite, with the markers of all rules in order. -/
theorem lowerRules_eq_ok {o : Options} {forms : List Form} {x : List Form × List Marker} :
    lowerRules o forms = .ok x ↔ RulesComplete forms ∧
      x = (rewritten o forms, (forms.filterMap Form.rule?).flatMap (Rule.reported o)) := by
  induction forms generalizing x with
  | nil => simp [lowerRules, RulesComplete, eq_comm]
  | cons f rest ih =>
    cases hf : f.isRule with
    | true =>
      obtain ⟨r, rfl⟩ := Form.isRule_iff.mp hf
      simp only [lowerRules, bind_eq_ok_iff, Rule.lower_eq_ok, ih, return_eq_ok_iff,
        rulesComplete_cons_rule]
      constructor
      · rintro ⟨_, ⟨hr, rfl⟩, _, ⟨hrest, rfl⟩, rfl⟩
        exact ⟨⟨hr, hrest⟩, rfl⟩
      · rintro ⟨⟨hr, hrest⟩, rfl⟩
        exact ⟨_, ⟨hr, rfl⟩, _, ⟨hrest, rfl⟩, rfl⟩
    | false =>
      simp only [lowerRules_cons_of_not_isRule hf, bind_eq_ok_iff, ih, return_eq_ok_iff,
        rulesComplete_cons_of_not_isRule hf, rewritten_cons, Form.image_of_not_isRule hf,
        List.filterMap_cons_none (Form.rule?_eq_none hf)]
      constructor
      · rintro ⟨_, ⟨hrest, rfl⟩, rfl⟩
        exact ⟨hrest, rfl⟩
      · rintro ⟨hrest, rfl⟩
        exact ⟨_, ⟨hrest, rfl⟩, rfl⟩

end RuleLowering
