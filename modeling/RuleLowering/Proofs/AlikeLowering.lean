import RuleLowering.Lowering.Assembly
import RuleLowering.Proofs.Alike
import RuleLowering.Proofs.Identities
import RuleLowering.Proofs.Reshaped

/-!
# Forms over related data are lowered alike

The lowering looks at the kinds of forms, at the numbers of patterns and at the names of rules,
which have to be values that can be looked up. So it goes alike on forms of one shape over related
data, and its results are of one shape again.
-/
namespace RuleLowering

open Data (Reshapes)
open ModuleScan (scan)

variable {R : Data → Data → Prop}

section Rules

variable {α β γ δ : Type} {S : γ → δ → Prop}

/-- Results of one shape come with markers of one shape. -/
def Emits (R : Data → Data → Prop) (S : γ → δ → Prop) (x : γ × List Marker) (y : δ × List Marker) :
    Prop :=
  S x.1 y.1 ∧ List.Forall₂ (Marker.Reshaped R) x.2 y.2

/-- A walk that collects markers goes alike over related items if its steps do. -/
theorem alike_lowerEach {P : α → β → Prop} {step : α → Except Fault (γ × List Marker)}
    {step' : β → Except Fault (δ × List Marker)} {as : List α} {bs : List β}
    (h : List.Forall₂ P as bs) (hstep : ∀ a b, P a b → Alike (Emits R S) (step a) (step' b)) :
    Alike (Emits R (List.Forall₂ S)) (lowerEach step as) (lowerEach step' bs) := by
  induction h with
  | nil => exact .ok ⟨.nil, .nil⟩
  | cons hab _ ih =>
    exact (hstep _ _ hab).bind fun x y hxy => ih.map fun xs ys hrest =>
      ⟨.cons hxy.1 hrest.1, List.rel_append hxy.2 hrest.2⟩

end Rules

variable (hR : Reshapes R) (o : Options)
include hR

section Bodies

theorem Expr.reshaped_hookCall {body body' : Expr} {pos pos' : Data}
    (hbody : Expr.Reshaped R body body') (hpos : R pos pos') :
    Expr.Reshaped R (hookCall o body pos) (hookCall o body' pos') :=
  .call (.remote (.atom (hR.text _) hpos) (.atom (hR.text _) hpos) hpos)
    (.cons (.quote hbody hpos) .nil) hpos

theorem Expr.alike_lower {e e' : Expr} (h : Expr.Reshaped R e e') :
    Alike (Emits R (Expr.Reshaped R)) (e.lower o) (e'.lower o) := by
  cases h with
  | absent => exact .error rfl
  | generator hp hb hpos =>
    exact .ok ⟨.binding hp (Expr.reshaped_hookCall hR o hb hpos) hpos, .nil⟩
  | binaryGenerator hp hb hpos =>
    exact .ok ⟨.binding hp hb hpos, .cons ⟨hR.text _, .violation _, hpos⟩ .nil⟩
  | _ => exact .ok ⟨by constructor <;> assumption, .nil⟩

theorem Clause.alike_lower {c c' : Clause} (h : Clause.Reshaped R c c') :
    Alike (Emits R (Clause.Reshaped R)) (c.lower o) (c'.lower o) :=
  (alike_lowerEach h.body fun _ _ => Expr.alike_lower hR o).map fun _ _ hbody =>
    ⟨⟨h.patterns, h.guard, hbody.1, h.pos⟩, hbody.2⟩

/-- The functions that two rules become, of one shape. -/
theorem Rule.alike_lower {r r' : Rule} (h : Rule.Reshaped R r r') :
    Alike (Emits R fun f f' => Form.Reshaped R (.function f) (.function f'))
      (r.lower o) (r'.lower o) :=
  (alike_lowerEach h.clauses fun _ _ => Clause.alike_lower hR o).map fun _ _ hclauses =>
    ⟨.function h.name hclauses.1 h.pos, hclauses.2⟩

end Bodies

section Forms

variable {f f' : Form} {forms forms' : List Form}

omit hR in
theorem reshaped_markers {ms ms' : List Marker} (h : List.Forall₂ (Marker.Reshaped R) ms ms') :
    List.Forall₂ (Form.Reshaped R) (ms.map .marker) (ms'.map .marker) := by
  rw [List.forall₂_map_left_iff, List.forall₂_map_right_iff]
  exact h.imp fun _ _ => .marker

/-- The rules of forms of one shape are lowered alike. -/
theorem alike_lowerRules (h : List.Forall₂ (Form.Reshaped R) forms forms') :
    Alike (Emits R (List.Forall₂ (Form.Reshaped R))) (lowerRules o forms) (lowerRules o forms') := by
  induction h with
  | nil => exact .ok ⟨.nil, .nil⟩
  | cons hf _ ih =>
    cases hf with
    | rule hr =>
      exact (Rule.alike_lower hR o hr).bind fun _ _ hr => ih.map fun _ _ hrest =>
        ⟨.cons hr.1 (List.rel_append (reshaped_markers hr.2) hrest.1),
          List.rel_append hr.2 hrest.2⟩
    | _ =>
      exact ih.map fun _ _ hrest => ⟨.cons (by constructor <;> assumption) hrest.1, hrest.2⟩

omit hR in
theorem isAttribute_of_reshaped (h : Form.Reshaped R f f') : f.isAttribute = f'.isAttribute := by
  cases h <;> rfl

omit hR in
/-- The front of attributes ends at the same place. -/
theorem splitHeader_reshaped (h : List.Forall₂ (Form.Reshaped R) forms forms') :
    List.Forall₂ (Form.Reshaped R) (splitHeader forms).1 (splitHeader forms').1
      ∧ List.Forall₂ (Form.Reshaped R) (splitHeader forms).2 (splitHeader forms').2 := by
  rw [splitHeader, splitHeader]
  induction h with
  | nil => exact ⟨.nil, .nil⟩
  | @cons f f' rest rest' hf hrest ih =>
    have hattr := isAttribute_of_reshaped hf
    cases hf' : f'.isAttribute with
    | true =>
      simp only [List.takeWhile_cons, List.dropWhile_cons, hattr, hf', if_true]
      exact ⟨.cons hf ih.1, ih.2⟩
    | false =>
      simp only [List.takeWhile_cons, List.dropWhile_cons, hattr, hf', Bool.false_eq_true, if_false]
      exact ⟨.nil, .cons hf hrest⟩

omit hR in
structure ModuleScan.Reshaped (R : Data → Data → Prop) (s s' : ModuleScan) : Prop where
  mark : FileMark.Reshaped R s.mark s'.mark
  declaration : Option.Rel (ModuleDecl.Reshaped R) s.declaration s'.declaration
  leading : List.Forall₂ (Form.Reshaped R) s.leading s'.leading
  rest : List.Forall₂ (Form.Reshaped R) s.rest s'.rest

omit hR in
theorem ModuleScan.reshaped_ofForms {mark mark' : FileMark} (hmark : FileMark.Reshaped R mark mark')
    (h : List.Forall₂ (Form.Reshaped R) forms forms') :
    ModuleScan.Reshaped R (ofForms mark forms) (ofForms mark' forms') := by
  induction h generalizing mark mark' with
  | nil => exact ⟨hmark, .none, .nil, .nil⟩
  | cons hf hrest ih =>
    cases hf with
    | file hfile =>
      obtain ⟨hmark', hdeclaration, hleading, hrest'⟩ := ih hfile
      exact ⟨hmark', hdeclaration, .cons (.file hfile) hleading, hrest'⟩
    | marker hm =>
      obtain ⟨hmark', hdeclaration, hleading, hrest'⟩ := ih hmark
      exact ⟨hmark', hdeclaration, .cons (.marker hm) hleading, hrest'⟩
    | module hm => exact ⟨hmark, .some hm, .cons (.module hm) .nil, hrest⟩
    | _ => exact ⟨hmark, .none, .nil, .cons (by constructor <;> assumption) hrest⟩

theorem ModuleScan.reshaped_scan (h : List.Forall₂ (Form.Reshaped R) forms forms') :
    ModuleScan.Reshaped R (scan forms) (scan forms') :=
  reshaped_ofForms ⟨hR.text _, hR.one, hR.zero⟩ h

theorem ModuleScan.reshaped_scanMarkers {s s' : ModuleScan} (h : ModuleScan.Reshaped R s s')
    (origin : Text) :
    List.Forall₂ (Marker.Reshaped R) (s.markers origin) (s'.markers origin) := by
  rw [markers, markers]
  rcases rel_cases h.declaration with ⟨hd, hd'⟩ | ⟨m, m', hd, hd', hm⟩ <;> rw [hd, hd']
  · exact .nil
  · have hparameters : m.parameters.isSome = m'.parameters.isSome := by
      rcases rel_cases hm.parameters with ⟨hp, hp'⟩ | ⟨_, _, hp, hp', -⟩ <;> simp [hp, hp']
    dsimp only
    rw [hparameters]
    split
    · exact .cons ⟨hR.text _, .violation _, hm.pos⟩ .nil
    · exact .nil

end Forms

section Signatures

omit hR

theorem arity_of_reshaped {c c' : Clause} (h : Clause.Reshaped R c c') : c.arity = c'.arity :=
  h.patterns.length_eq

theorem aritiesOf_of_reshaped {cs cs' : List Clause} (h : List.Forall₂ (Clause.Reshaped R) cs cs') :
    aritiesOf cs = aritiesOf cs' := by
  rw [aritiesOf, aritiesOf]
  generalize ([] : List Nat) = seen
  induction h generalizing seen with
  | nil => rfl
  | cons hc _ ih => rw [List.foldl_cons, List.foldl_cons, arity_of_reshaped hc, ih]

/-- A rule that is listed with a related one of the same identity: the name can be looked up. -/
theorem Rule.alike_listed? (hR : Reshapes R) {r r' : Rule} (h : Rule.Reshaped R r r') :
    Alike (fun s s' => s = s' ∧ R s.name s.name) r.listed? r'.listed? := by
  have hwritable : [r.name, r.pos].all Data.isWritable = [r'.name, r'.pos].all Data.isWritable := by
    simp [hR.isWritable_eq _ _ h.name, hR.isWritable_eq _ _ h.pos]
  have hsignature : Alike (fun s s' => s.name = r.name ∧ s'.name = r'.name ∧ s.arity = s'.arity)
      r.signature? r'.signature? := by
    rw [signature?, signature?, aritiesOf_of_reshaped h.clauses]
    split
    · exact .error (Fault.kind_showing (by rfl) hwritable)
    · exact .ok ⟨rfl, rfl, rfl⟩
    · exact .error (Fault.kind_showing (by rfl) hwritable)
  refine hsignature.bind ?_
  rintro s s' ⟨hs, hs', harity⟩
  rw [hs, hs', Data.hashable, Data.hashable, ← hR.unhashable?_eq h.name]
  cases hkind : r.name.unhashable? with
  | some kind => exact .error rfl
  | none =>
    obtain ⟨name, arity⟩ := s
    obtain ⟨name', arity'⟩ := s'
    have hname := hR.eq_of_hashable h.name hkind
    refine .ok ⟨?_, ?_⟩
    · rw [Signature.mk.injEq]
      exact ⟨hs.trans (hname.symm.trans hs'.symm), harity⟩
    · have hrelated := h.name
      rw [hname] at hrelated
      exact hs ▸ hrelated

/-- What stands in a list without repetitions stood in the list. -/
theorem mem_of_mem_foldl_addNew {same : Signature → Signature → Bool} {items seen : List Signature}
    {s : Signature} (h : s ∈ items.foldl (addNew same) seen) : s ∈ seen ∨ s ∈ items := by
  induction items generalizing seen with
  | nil => exact .inl h
  | cons x items ih =>
    rcases ih h with hseen | hrest
    · rw [addNew] at hseen
      split at hseen
      · exact .inl hseen
      · rcases List.mem_append.mp hseen with hseen | hx
        · exact .inl hseen
        · exact .inr (List.mem_singleton.mp hx ▸ List.mem_cons_self)
    · exact .inr (.tail x hrest)

theorem Signature.mem_of_mem_distinct {items : List Signature} {s : Signature}
    (h : s ∈ distinct items) : s ∈ items :=
  (@mem_of_mem_foldl_addNew same items [] s h).resolve_left nofun

/-- What is listed is the identity of a rule, whose arity is that of a clause. -/
theorem exists_rule_of_mem_signatures? {forms : List Form} {rules : List Signature} {s : Signature}
    (h : signatures? forms = .ok rules) (hs : s ∈ rules) :
    ∃ r, .rule r ∈ forms ∧ ∃ n : Nat, s.arity = .int n ∧ ∃ c ∈ r.clauses, c.arity = n := by
  obtain ⟨all, hall, hsorted⟩ := bind_eq_ok_iff.mp h
  have hmem := Signature.mem_of_mem_distinct ((perm_of_sorted hsorted).mem_iff.mp hs)
  obtain ⟨r, hr, hlisted⟩ := (mem_of_mapM_eq_ok hall s).mp hmem
  obtain ⟨hne, n, heach, rfl⟩ := Rule.signature?_eq_ok.mp (Rule.listed?_eq_ok.mp hlisted).1
  obtain ⟨c, hc⟩ := List.exists_mem_of_ne_nil _ hne
  exact ⟨r, mem_rules.mp hr, n, rfl, c, hc, heach c hc⟩

theorem rules_of_reshaped {forms forms' : List Form}
    (h : List.Forall₂ (Form.Reshaped R) forms forms') :
    List.Forall₂ (Rule.Reshaped R) (forms.filterMap Form.rule?) (forms'.filterMap Form.rule?) := by
  induction h with
  | nil => exact .nil
  | cons hf _ ih =>
    cases hf with
    | rule hr => exact .cons hr ih
    | _ => exact ih

/-- Forms of one shape have the same rules, by identity. -/
theorem alike_signatures? (hR : Reshapes R) {forms forms' : List Form}
    (h : List.Forall₂ (Form.Reshaped R) forms forms') :
    Alike (fun rules rules' => rules = rules' ∧ ∀ s ∈ rules, R s.name s.name)
      (signatures? forms) (signatures? forms') := by
  have hlisted := Alike.mapM (rules_of_reshaped h) fun _ _ => Rule.alike_listed? hR
  refine hlisted.bind fun all all' hall => ?_
  have heq : List.Forall₂ (· = ·) all all' := hall.imp fun _ _ hs => hs.1
  obtain rfl : all = all' := List.forall₂_eq_eq_eq ▸ heq
  have hnames : ∀ s ∈ all, R s.name s.name := fun s hs => (List.forall₂_same.mp hall s hs).2
  exact .refl fun rules hrules => ⟨rfl, fun s hs =>
    hnames s (Signature.mem_of_mem_distinct ((perm_of_sorted hrules).mem_iff.mp hs))⟩

end Signatures

section Generated

variable {rules : List Signature} (hrules : ∀ s ∈ rules, Signature.Reshaped R s s)
include hrules

theorem reshaped_introspectionFunction : Form.Reshaped R
    (.function (o.introspectionFunction rules)) (.function (o.introspectionFunction rules)) := by
  have hentries : List.Forall₂ (Expr.Reshaped R) (rules.map Options.entryFor)
      (rules.map Options.entryFor) := by
    refine List.forall₂_same.mpr fun e he => ?_
    obtain ⟨s, hs, rfl⟩ := List.mem_map.mp he
    have hs' := hrules s hs
    exact .tuple (.cons (.atom hs'.name hR.one) (.cons (.literal hs'.arity hR.one) .nil)) hR.one
  exact .function (hR.text _)
    (.cons ⟨.nil, .absent, .cons (.list hentries hR.one) .nil, hR.one⟩ .nil) hR.one

theorem reshaped_exportList :
    Form.Reshaped R (.exports (o.exportList rules)) (.exports (o.exportList rules)) :=
  .exports (.cons ⟨hR.text _, hR.zero⟩ (List.forall₂_same.mpr hrules)) hR.one

theorem reshaped_assemble {s s' : ModuleScan} (hs : ModuleScan.Reshaped R s s')
    {header header' body body' : List Form}
    (hheader : List.Forall₂ (Form.Reshaped R) header header')
    (hbody : List.Forall₂ (Form.Reshaped R) body body') :
    List.Forall₂ (Form.Reshaped R) (assemble o s header rules body)
      (assemble o s' header' rules body') := by
  have hhere : Form.Reshaped R (.file (.start o.origin)) (.file (.start o.origin)) :=
    .file ⟨hR.text _, hR.one, hR.one⟩
  have hback : Form.Reshaped R (.file s.mark) (.file s'.mark) := .file hs.mark
  have hmarkers := reshaped_markers (ModuleScan.reshaped_scanMarkers hR hs o.origin)
  have hexports := reshaped_exportList hR o hrules
  have hfunction := reshaped_introspectionFunction hR o hrules
  rw [assemble, assemble]
  refine List.rel_append (List.rel_append (List.rel_append (List.rel_append (List.rel_append
    hs.leading hmarkers) ?_) hheader) ?_) hbody
  · exact .cons hhere (.cons hexports (.cons hback .nil))
  · exact .cons hhere (.cons hfunction (.cons hback .nil))

end Generated

/-- Forms of one shape over related data are lowered alike, to forms of one shape, if the arities of
their rules are related to themselves. -/
theorem alike_lower {forms forms' : List Form} (h : List.Forall₂ (Form.Reshaped R) forms forms')
    (harities : ∀ rules, signatures? forms = .ok rules → ∀ s ∈ rules, R s.arity s.arity) :
    Alike (List.Forall₂ (Form.Reshaped R)) (lower o forms) (lower o forms') := by
  have hscan := ModuleScan.reshaped_scan hR h
  obtain ⟨hheader, hbody⟩ := splitHeader_reshaped hscan.rest
  have hrules := alike_signatures? hR h
  rw [lower, lower]
  dsimp only
  refine hrules.with_results.bind fun rules rules' hall => ?_
  obtain ⟨hfirst, -, rfl, hnames⟩ := hall
  have hself : ∀ s ∈ rules, Signature.Reshaped R s s :=
    fun s hs => ⟨hnames s hs, harities rules hfirst s hs⟩
  exact (alike_lowerRules hR o hbody).map fun _ _ hlowered =>
    reshaped_assemble hR o hself hscan hheader hlowered.1

end RuleLowering
