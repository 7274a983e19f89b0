import RuleLowering.Proofs.Accounting
import RuleLowering.Proofs.Diagnosis

/-!
# Hook calls and markers

Lowering inserts two things into the rules themselves: a call of the support hook for each
generator, and a marker for each generator over a binary. A call can stand at any depth, and the
body of a generator is kept inside a quote, so the calls are counted over whole trees.
-/
namespace RuleLowering

open ModuleScan (scan)

namespace Expr

def isHook (o : Options) : Expr → Bool
  | .remote (.atom owner _) (.atom function _) _ =>
    owner.same (.str o.supportModule) && function.same (.str o.supportFunction)
  | _ => false

mutual
/-- The number of calls of the support hook in an expression, those inside quotes included. -/
def hookCalls (o : Options) : Expr → Nat
  | .tuple xs _ | .list xs _ => hookCallsAll o xs
  | .operation _ a b _ | .remote a b _ | .binding a b _ | .generator a b _
  | .binaryGenerator a b _ => hookCalls o a + hookCalls o b
  | .call f xs _ => (if f.isHook o then 1 else 0) + hookCalls o f + hookCallsAll o xs
  | .quote a _ => hookCalls o a
  | .absent | .var .. | .atom .. | .literal .. | .foreign .. => 0
termination_by structural e => e

def hookCallsAll (o : Options) : List Expr → Nat
  | [] => 0
  | x :: xs => hookCalls o x + hookCallsAll o xs
termination_by structural xs => xs
end

/-- The call of the hook is one more than those in the body that it quotes. -/
theorem hookCalls_hookCall (o : Options) (body : Expr) (pos : Data) :
    (hookCall o body pos).hookCalls o = 1 + body.hookCalls o := by
  simp [hookCall, hookCalls, hookCallsAll, isHook]

theorem hookCalls_rewritten (o : Options) (e : Expr) :
    (e.rewritten o).hookCalls o = e.hookCalls o + if e.isGenerator then 1 else 0 := by
  cases e with
  | generator pattern body pos =>
    rw [rewritten, hookCalls, hookCalls_hookCall, hookCalls, isGenerator, if_pos rfl]
    omega
  | binaryGenerator pattern body pos => rfl
  | _ => rfl

/-- A body gets one call more for each generator. -/
theorem hookCallsAll_rewritten (o : Options) (body : List Expr) :
    hookCallsAll o (body.map (Expr.rewritten o)) =
      hookCallsAll o body + body.countP Expr.isGenerator := by
  induction body with
  | nil => rfl
  | cons e rest ih =>
    rw [List.map_cons, hookCallsAll, hookCallsAll, ih, hookCalls_rewritten, List.countP_cons]
    omega

end Expr

def Clause.hookCalls (o : Options) (c : Clause) : Nat :=
  Expr.hookCallsAll o c.patterns + c.guard.hookCalls o + Expr.hookCallsAll o c.body

def Clause.hookCallsAll (o : Options) : List Clause → Nat
  | [] => 0
  | c :: rest => c.hookCalls o + hookCallsAll o rest

def Form.hookCalls (o : Options) : Form → Nat
  | .function f => Clause.hookCallsAll o f.clauses
  | .rule r => Clause.hookCallsAll o r.clauses
  | _ => 0

def hookCalls (o : Options) : List Form → Nat
  | [] => 0
  | f :: rest => f.hookCalls o + hookCalls o rest

section HookCalls

variable {o : Options} {forms : List Form}

theorem hookCalls_append (xs ys : List Form) :
    hookCalls o (xs ++ ys) = hookCalls o xs + hookCalls o ys := by
  induction xs with
  | nil => exact (Nat.zero_add _).symm
  | cons f xs ih => rw [List.cons_append, hookCalls, hookCalls, ih, Nat.add_assoc]

theorem hookCalls_markers (ms : List Marker) : hookCalls o (ms.map .marker) = 0 := by
  induction ms with
  | nil => rfl
  | cons m ms ih => exact (Nat.zero_add _).trans ih

/-- Clauses get one call more for each generator in their bodies. -/
theorem hookCallsAll_rewritten (clauses : List Clause) :
    Clause.hookCallsAll o (clauses.map (Clause.rewritten o)) =
      Clause.hookCallsAll o clauses
        + (clauses.flatMap Clause.body).countP Expr.isGenerator := by
  induction clauses with
  | nil => rfl
  | cons c rest ih =>
    have hbody : (c.rewritten o).hookCalls o = c.hookCalls o + c.body.countP Expr.isGenerator := by
      have hrewritten := Expr.hookCallsAll_rewritten o c.body
      simp only [Clause.hookCalls, Clause.rewritten]
      omega
    rw [List.map_cons, Clause.hookCallsAll, Clause.hookCallsAll, ih, hbody, List.flatMap_cons,
      List.countP_append]
    omega

theorem hookCalls_image (f : Form) (hf : ∀ r, f = .rule r → ¬ r.Malformed) :
    hookCalls o (f.image o) = hookCalls o [f] + (inspected [f]).countP Expr.isGenerator := by
  cases f with
  | rule r =>
    obtain ⟨s, hs⟩ := Rule.signature?_of_not_malformed (hf r rfl)
    have himage : hookCalls o ((Form.rule r).image o) =
        Clause.hookCallsAll o (r.clauses.map (Clause.rewritten o)) := by
      rw [Form.image, hookCalls, hookCalls_markers]
      rfl
    rw [himage, hookCallsAll_rewritten, inspected_of_signature? hs]
    rfl
  | _ => rfl

/-- The flat rewrite has one call more for each generator. -/
theorem hookCalls_rewritten (hwell : RulesWellFormed forms) :
    hookCalls o (rewritten o forms) =
      hookCalls o forms + (inspected forms).countP Expr.isGenerator :=
  AddsUp.rewritten hookCalls_append .zero (.add hookCalls_append (.inspected _))
    fun f hf => hookCalls_image f fun r hr => hwell r (hr ▸ hf)

/-- The list of all rules calls nothing. -/
theorem hookCalls_introspectionBlock (s : ModuleScan) (rules : List Signature) :
    hookCalls o (s.introspectionBlock o rules) = 0 := by
  have hentries : Expr.hookCallsAll o (rules.map Options.entryFor) = 0 := by
    induction rules with
    | nil => rfl
    | cons s rest ih =>
      rw [List.map_cons, Expr.hookCallsAll, ih]
      rfl
  simp [hookCalls, ModuleScan.introspectionBlock, Form.hookCalls, Options.introspectionFunction,
    Clause.hookCallsAll, Clause.hookCalls, Expr.hookCalls, Expr.hookCallsAll, hentries]

theorem hookCalls_exportBlock (s : ModuleScan) (rules : List Signature) :
    hookCalls o (s.exportBlock o rules) = 0 := by
  rw [ModuleScan.exportBlock, hookCalls_append, hookCalls_markers]
  rfl

/-- A lowered module has one call of the hook more for each generator. -/
theorem hookCalls_lowered {out : List Form} (hnamed : RulesNamed forms)
    (h : lower o forms = .ok out) :
    hookCalls o out = hookCalls o forms + (inspected forms).countP Expr.isGenerator := by
  have hflat := hookCalls_rewritten (o := o) (rulesWellFormed_of_lower hnamed h)
  obtain ⟨-, rules, -, rfl⟩ := lower_eq_ok.mp h
  rw [ModuleScan.rewritten_parts, hookCalls_append, hookCalls_append] at hflat
  rw [hookCalls_append, hookCalls_append, hookCalls_append, hookCalls_append,
    hookCalls_exportBlock, hookCalls_introspectionBlock]
  omega

end HookCalls

section Markers

variable {o : Options} {forms out : List Form}

/-- The flat rewrite has the markers that are there already and those of the rules. -/
theorem countP_markersOf_rewritten (counted : Marker → Bool) :
    (markersOf (rewritten o forms)).countP counted =
      (markersOf forms).countP counted
        + ((forms.filterMap Form.rule?).flatMap (Rule.reported o)).countP counted := by
  have hmarkers : AddsUp fun forms => (markersOf forms).countP counted := by
    intro xs ys
    simp only [markersOf_append, List.countP_append]
  have hrules : AddsUp fun forms =>
      ((forms.filterMap Form.rule?).flatMap (Rule.reported o)).countP counted := by
    intro xs ys
    simp only [List.filterMap_append, List.flatMap_append, List.countP_append]
  refine AddsUp.rewritten hmarkers .zero (.add hmarkers hrules) fun f _ => ?_
  rw [markersOf_image]
  cases f with
  | rule r =>
    have hone : ([Form.rule r].filterMap Form.rule?).flatMap (Rule.reported o) = r.reported o :=
      List.flatMap_singleton _ _
    rw [hone]
    exact (Nat.zero_add _).symm
  | _ => rfl

/-- A lowered module has one more for a declaration with parameters. -/
theorem countP_markersOf_lowered (counted : Marker → Bool) (h : lower o forms = .ok out) :
    (markersOf out).countP counted =
      (markersOf forms).countP counted + ((scan forms).markers o.origin).countP counted
        + ((forms.filterMap Form.rule?).flatMap (Rule.reported o)).countP counted := by
  have hflat := @countP_markersOf_rewritten o forms counted
  obtain ⟨-, rules, -, rfl⟩ := lower_eq_ok.mp h
  rw [ModuleScan.rewritten_parts] at hflat
  simp only [markersOf_append, List.countP_append] at hflat ⊢
  rw [ModuleScan.markersOf_exportBlock, ModuleScan.markersOf_introspectionBlock, List.countP_nil]
  omega

def Marker.reports (v : Violation) (m : Marker) : Bool :=
  match m.descriptor with
  | .violation w => w == v
  | .foreign _ => false

theorem length_reported_rules (hwell : RulesWellFormed forms) :
    ((forms.filterMap Form.rule?).flatMap (Rule.reported o)).length =
      (inspected forms).countP Expr.isBinaryGenerator := by
  induction forms with
  | nil => rfl
  | cons f rest ih =>
    have hrest := ih fun r hr => hwell r (.tail f hr)
    cases f with
    | rule r =>
      have hrules : (Form.rule r :: rest).filterMap Form.rule? = r :: rest.filterMap Form.rule? :=
        List.filterMap_cons_some rfl
      have hinspected := AddsUp.inspected Expr.isBinaryGenerator [.rule r] rest
      rw [hrules, List.flatMap_cons, List.length_append, hrest,
        Rule.length_reported o (hwell r List.mem_cons_self)]
      exact hinspected.symm
    | _ => exact hrest

/-- A lowered module has one marker more for each generator over a binary. -/
theorem countP_binaryGenerator_lowered (hnamed : RulesNamed forms) (h : lower o forms = .ok out) :
    (markersOf out).countP (Marker.reports .binaryGenerator) =
      (markersOf forms).countP (Marker.reports .binaryGenerator)
        + (inspected forms).countP Expr.isBinaryGenerator := by
  have hscan : ((scan forms).markers o.origin).countP (Marker.reports .binaryGenerator) = 0 := by
    rw [List.countP_eq_zero]
    intro m hm
    obtain ⟨pos, rfl⟩ := ModuleScan.mem_markers hm
    exact Bool.false_ne_true
  have hrules : ((forms.filterMap Form.rule?).flatMap (Rule.reported o)).countP
      (Marker.reports .binaryGenerator) = (inspected forms).countP Expr.isBinaryGenerator := by
    rw [← length_reported_rules (o := o) (rulesWellFormed_of_lower hnamed h),
      List.countP_eq_length]
    intro m hm
    obtain ⟨r, -, hr⟩ := List.mem_flatMap.mp hm
    obtain ⟨pos, rfl⟩ := Rule.mem_reported hr
    rfl
  rw [countP_markersOf_lowered _ h, hscan, hrules, Nat.add_zero]

end Markers

end RuleLowering
