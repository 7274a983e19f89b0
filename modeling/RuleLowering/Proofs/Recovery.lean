import RuleLowering.Form.Same
import RuleLowering.Proofs.Rewrite

/-!
# What the function of a rule tells

A generator becomes a binding whose right side is a call with a quote as its only argument, and a
generator over a binary becomes a binding of its own right side. So where a body has no bindings and
no quotes of its own, each expression can be told from what takes its place, and the expression
inside the quote is the one that the generator had.
-/
namespace RuleLowering

namespace Expr

def isBinding : Expr → Bool
  | binding .. => true
  | _ => false

mutual
/-- No quote stands in an expression, at any depth. -/
def isUnquoted : Expr → Bool
  | tuple xs _ | list xs _ => areUnquoted xs
  | operation _ a b _ | remote a b _ | binding a b _ | generator a b _ | binaryGenerator a b _ =>
    isUnquoted a && isUnquoted b
  | call f xs _ => isUnquoted f && areUnquoted xs
  | quote _ _ => false
  | absent | var .. | atom .. | literal .. | foreign .. => true
termination_by structural e => e

def areUnquoted : List Expr → Bool
  | [] => true
  | x :: xs => isUnquoted x && areUnquoted xs
termination_by structural xs => xs
end

/-- What a body may hold, for its rule to be recovered: no bindings, and no quotes at any depth. -/
def IsSource (e : Expr) : Prop := e.isBinding = false ∧ e.isUnquoted = true

/-- The expression that a call hands over as data, if it hands over nothing else. -/
def quoted? : Expr → Option Expr
  | call _ [quote body _] _ => some body
  | _ => none

/-- The expression of a rule that an expression of a function comes from. -/
def recovered : Expr → Expr
  | binding pattern body pos =>
    match body.quoted? with
    | some source => .generator pattern source pos
    | none => .binaryGenerator pattern body pos
  | e => e

variable {o o' : Options} {e e' : Expr}

theorem quoted?_of_isUnquoted (h : e.isUnquoted = true) : e.quoted? = none := by
  unfold quoted?
  split
  · simp [isUnquoted, areUnquoted] at h
  · rfl

/-- An expression is recovered from what takes its place. -/
theorem recovered_rewritten (h : e.IsSource) : (e.rewritten o).recovered = e := by
  obtain ⟨hbinding, hquotes⟩ := h
  cases e with
  | generator pattern body pos => rfl
  | binaryGenerator pattern body pos =>
    have hbody : body.isUnquoted = true := by simp_all [isUnquoted]
    simp [rewritten, recovered, quoted?_of_isUnquoted hbody]
  | binding pattern body pos => cases hbinding
  | _ => rfl

/-- Of expressions that are the same both hand over an expression or neither does. -/
theorem isSome_quoted?_of_same (h : e.same e' = true) :
    e.quoted?.isSome = e'.quoted?.isSome := by
  cases e with
  | call f xs _ =>
    cases e' with
    | call g ys _ =>
      simp only [same, Bool.and_eq_true] at h
      obtain ⟨⟨-, hxs⟩, -⟩ := h
      match xs, ys, hxs with
      | [], [], _ => rfl
      | [x], [y], hxs =>
        simp only [sameAll, Bool.and_true] at hxs
        cases x <;> cases y <;> first | rfl | cases hxs
      | _ :: _ :: _, _ :: _ :: _, _ => simp [quoted?]
      | [_], _ :: _ :: _, hxs => simp [sameAll] at hxs
      | _ :: _ :: _, [_], hxs => simp [sameAll] at hxs
    | _ => cases h
  | _ => cases e' <;> first | rfl | cases h

/-- Expressions are the same if what takes their places is. -/
theorem same_of_rewritten (h : e.IsSource) (h' : e'.IsSource)
    (hsame : (e.rewritten o).same (e'.rewritten o') = true) : e.same e' = true := by
  obtain ⟨hbinding, hquotes⟩ := h
  obtain ⟨hbinding', hquotes'⟩ := h'
  cases e with
  | generator pattern body pos =>
    cases e' with
    | generator pattern' body' pos' =>
      simp only [rewritten, hookCall, same, sameAll, Bool.and_eq_true] at hsame ⊢
      exact ⟨⟨hsame.1.1, hsame.1.2.1.2.1.1⟩, hsame.2⟩
    | binaryGenerator pattern' body' pos' =>
      simp only [rewritten, same, Bool.and_eq_true] at hsame
      have hquoted := isSome_quoted?_of_same hsame.1.2
      have hbody' : body'.isUnquoted = true := by simp_all [isUnquoted]
      rw [quoted?_of_isUnquoted hbody'] at hquoted
      cases hquoted
    | binding _ _ _ => cases hbinding'
    | _ => cases hsame
  | binaryGenerator pattern body pos =>
    cases e' with
    | generator pattern' body' pos' =>
      simp only [rewritten, same, Bool.and_eq_true] at hsame
      have hquoted := isSome_quoted?_of_same hsame.1.2
      have hbody : body.isUnquoted = true := by simp_all [isUnquoted]
      rw [quoted?_of_isUnquoted hbody] at hquoted
      cases hquoted
    | binaryGenerator _ _ _ => exact hsame
    | binding _ _ _ => cases hbinding'
    | _ => cases hsame
  | binding _ _ _ => cases hbinding
  | _ =>
    cases e' with
    | generator _ _ _ => cases hsame
    | binaryGenerator _ _ _ => cases hsame
    | _ => exact hsame

end Expr

/-- Items come back if each one does. -/
theorem map_map_eq_self {α β : Type} {f : α → β} {g : β → α} {xs : List α}
    (h : ∀ x ∈ xs, g (f x) = x) : (xs.map f).map g = xs := by
  induction xs with
  | nil => rfl
  | cons x xs ih =>
    rw [List.map_cons, List.map_cons, h x List.mem_cons_self, ih fun y hy => h y (.tail x hy)]

namespace Clause

def recovered (c : Clause) : Clause := { c with body := c.body.map Expr.recovered }

def IsSource (c : Clause) : Prop := ∀ e ∈ c.body, e.IsSource

variable {o o' : Options} {c c' : Clause}

theorem recovered_rewritten (h : c.IsSource) : (c.rewritten o).recovered = c := by
  have hbody : (c.body.map (Expr.rewritten o)).map Expr.recovered = c.body :=
    map_map_eq_self fun e he => Expr.recovered_rewritten (h e he)
  rw [recovered, rewritten, hbody]

theorem same_of_rewritten (h : c.IsSource) (h' : c'.IsSource)
    (hsame : (c.rewritten o).same (c'.rewritten o') = true) : c.same c' = true := by
  simp only [Clause.same, rewritten, Expr.sameAll_eq_sameEach, Bool.and_eq_true] at hsame ⊢
  obtain ⟨⟨hhead, hbody⟩, hpos⟩ := hsame
  exact ⟨⟨hhead, sameEach_of_map (fun e he e' he' => Expr.same_of_rewritten (h e he) (h' e' he'))
    hbody⟩, hpos⟩

end Clause

def Function.recovered (f : Function) : Rule := ⟨f.name, f.clauses.map Clause.recovered, f.pos⟩

namespace Rule

/-- No body of a rule has a binding at its top, or a quote at any depth. -/
def IsSource (r : Rule) : Prop := ∀ c ∈ r.clauses, c.IsSource

variable {o o' : Options} {r r' : Rule}

/-- A rule is recovered from the function that takes its place. -/
theorem recovered_rewritten (h : r.IsSource) : (r.rewritten o).recovered = r := by
  have hclauses : (r.clauses.map (Clause.rewritten o)).map Clause.recovered = r.clauses :=
    map_map_eq_self fun c hc => Clause.recovered_rewritten (h c hc)
  rw [Function.recovered, rewritten, hclauses]

theorem same_of_rewritten (h : r.IsSource) (h' : r'.IsSource)
    (hsame : (r.rewritten o).same (r'.rewritten o') = true) : r.same r' = true := by
  simp only [Function.same, Rule.same, rewritten, Bool.and_eq_true] at hsame ⊢
  obtain ⟨⟨hname, hclauses⟩, hpos⟩ := hsame
  exact ⟨⟨hname, sameEach_of_map (fun c hc c' hc' => Clause.same_of_rewritten (h c hc) (h' c' hc'))
    hclauses⟩, hpos⟩

end Rule

/-- The function of a rule without bindings and quotes tells the rule: each expression of a body is
recovered from what takes its place, a generator with the expression inside the quote. So rules with
equal functions are equal, and rules with functions that say the same say the same, in names,
positions, patterns, guards and bodies. That is so whatever the options of the two lowerings are. -/
theorem function_tells_rule {o o' : Options} {r r' : Rule} {f f' : Function}
    {markers markers' : List Marker} (hr : r.IsSource) (hr' : r'.IsSource)
    (h : r.lower o = .ok (f, markers)) (h' : r'.lower o' = .ok (f', markers')) :
    f.recovered = r ∧ (f = f' → r = r') ∧ (f.same f' = true → r.same r' = true) := by
  obtain ⟨-, hlowered⟩ := Rule.lower_eq_ok.mp h
  obtain ⟨-, hlowered'⟩ := Rule.lower_eq_ok.mp h'
  obtain ⟨rfl, -⟩ := Prod.mk.inj hlowered
  obtain ⟨rfl, -⟩ := Prod.mk.inj hlowered'
  have hrecovered := Rule.recovered_rewritten (o := o) hr
  refine ⟨hrecovered, fun heq => ?_, Rule.same_of_rewritten hr hr'⟩
  have hrecovered' := Rule.recovered_rewritten (o := o') hr'
  rw [← hrecovered, heq, hrecovered']

/-- A rule with one expression of each kind in its body, at a position given in one of two ways. -/
def eachKind (pos : Data) : Rule :=
  let x : Expr := .var "X" pos
  ⟨"f", [⟨[x], .absent, [.generator x (.atom "ok" pos) pos, .binaryGenerator x x pos,
    .call (.atom "g" pos) [x] pos], pos⟩], pos⟩

/-- The position 1 says the same as a truth value, in the function and in the rule. -/
theorem eachKind_told_by_function :
    let r := eachKind 1
    let r' := eachKind (.bool true)
    ∃ f f' markers markers', r.lower {} = .ok (f, markers) ∧ r'.lower {} = .ok (f', markers')
      ∧ f.recovered = r ∧ f'.recovered = r' ∧ f.same f' = true ∧ r.same r' = true := by
  intro r r'
  have hsource : ∀ pos, (eachKind pos).IsSource := by
    intro pos
    simp [eachKind, Rule.IsSource, Clause.IsSource, Expr.IsSource, Expr.isBinding, Expr.isUnquoted,
      Expr.areUnquoted]
  have h : r.lower {} = .ok _ := rfl
  have h' : r'.lower {} = .ok _ := rfl
  obtain ⟨hrecovered, -, hsame⟩ := function_tells_rule (hsource _) (hsource _) h h'
  obtain ⟨hrecovered', -, -⟩ := function_tells_rule (hsource _) (hsource _) h' h
  exact ⟨_, _, _, _, h, h', hrecovered, hrecovered', rfl, hsame rfl⟩

/-- Bindings and quotes in a body do collide with generators: neither condition can be dropped. -/
theorem Expr.rewritten_collides (o : Options) (pattern body : Expr) (pos : Data) :
    (binding pattern body pos).rewritten o = (binaryGenerator pattern body pos).rewritten o
      ∧ (binaryGenerator pattern (hookCall o body pos) pos).rewritten o =
        (generator pattern body pos).rewritten o :=
  ⟨rfl, rfl⟩

end RuleLowering
