import RuleLowering.Form.Document
import RuleLowering.Proofs.Reshaped

/-!
# Forms of one shape have related documents

Documents are built of lists, and of mappings with fixed names. A relation that goes on to what the
program builds so goes on from the data of two forms to their documents.
-/
namespace RuleLowering

namespace Data

/-- Containers that the program builds of related values are related. -/
structure Builds (R : Data → Data → Prop) : Prop where
  list : ∀ items items', List.Forall₂ R items items' → R (.ofList items) (.ofList items')
  fields : ∀ fields fields' : List (String × Data), (fields.map Prod.fst).Nodup →
    List.Forall₂ (fun f f' => f'.1 = f.1 ∧ R f.2 f'.2) fields fields' →
    R (.ofFields fields) (.ofFields fields')

end Data

open Data (Reshapes Builds)

section Documents

variable {R : Data → Data → Prop} (hR : Reshapes R) (hbuilds : Builds R)
include hR hbuilds

theorem Expr.related_node {type : String} {pos pos' : Data} {fields fields' : List (String × Data)}
    (hnames : ("type" :: "pos" :: fields.map Prod.fst).Nodup) (hpos : R pos pos')
    (hfields : List.Forall₂ (fun f f' => f'.1 = f.1 ∧ R f.2 f'.2) fields fields') :
    R (node type pos fields) (node type pos' fields') :=
  hbuilds.fields _ _ hnames (.cons ⟨rfl, hR.text _⟩ (.cons ⟨rfl, hpos⟩ hfields))

theorem Expr.related_pair {type first second : String} {pos pos' a a' b b' : Data}
    (hnames : ["type", "pos", first, second].Nodup) (hpos : R pos pos') (ha : R a a')
    (hb : R b b') : R (node type pos [(first, a), (second, b)])
      (node type pos' [(first, a'), (second, b')]) :=
  related_node hR hbuilds hnames hpos (.cons ⟨rfl, ha⟩ (.cons ⟨rfl, hb⟩ .nil))

end Documents

mutual

/-- Expressions of one shape have related documents. -/
theorem Expr.related_toData {R : Data → Data → Prop} (hR : Reshapes R) (hbuilds : Builds R) :
    ∀ e e' : Expr, Expr.Reshaped R e e' → R e.toData e'.toData
  | .absent, _, h => by
    cases h
    exact hR.null
  | .var _ _, _, h => by
    cases h with
    | var hname hpos => exact related_node hR hbuilds (by simp) hpos (.cons ⟨rfl, hname⟩ .nil)
  | .atom _ _, _, h => by
    cases h with
    | atom hname hpos => exact related_node hR hbuilds (by simp) hpos (.cons ⟨rfl, hname⟩ .nil)
  | .literal _ _, _, h => by
    cases h with
    | literal hvalue hpos => exact related_node hR hbuilds (by simp) hpos (.cons ⟨rfl, hvalue⟩ .nil)
  | .foreign _ _, _, h => by
    cases h with
    | foreign hterm hpos => exact related_node hR hbuilds (by simp) hpos (.cons ⟨rfl, hterm⟩ .nil)
  | .tuple es _, _, h => by
    cases h with
    | tuple hes hpos =>
      have helements := hbuilds.list _ _ (related_toItems hR hbuilds es _ hes)
      exact related_node hR hbuilds (by simp) hpos (.cons ⟨rfl, helements⟩ .nil)
  | .list es _, _, h => by
    cases h with
    | list hes hpos =>
      have helements := hbuilds.list _ _ (related_toItems hR hbuilds es _ hes)
      exact related_node hR hbuilds (by simp) hpos (.cons ⟨rfl, helements⟩ .nil)
  | .operation _ l r _, _, h => by
    cases h with
    | operation hop hl hr hpos =>
      have hl' := related_toData hR hbuilds l _ hl
      have hr' := related_toData hR hbuilds r _ hr
      exact related_node hR hbuilds (by simp) hpos
        (.cons ⟨rfl, hop⟩ (.cons ⟨rfl, hl'⟩ (.cons ⟨rfl, hr'⟩ .nil)))
  | .remote a b _, _, h => by
    cases h with
    | remote ha hb hpos =>
      exact related_pair hR hbuilds (by simp) hpos (related_toData hR hbuilds a _ ha)
        (related_toData hR hbuilds b _ hb)
  | .binding a b _, _, h => by
    cases h with
    | binding ha hb hpos =>
      exact related_pair hR hbuilds (by simp) hpos (related_toData hR hbuilds a _ ha)
        (related_toData hR hbuilds b _ hb)
  | .generator a b _, _, h => by
    cases h with
    | generator ha hb hpos =>
      exact related_pair hR hbuilds (by simp) hpos (related_toData hR hbuilds a _ ha)
        (related_toData hR hbuilds b _ hb)
  | .binaryGenerator a b _, _, h => by
    cases h with
    | binaryGenerator ha hb hpos =>
      exact related_pair hR hbuilds (by simp) hpos (related_toData hR hbuilds a _ ha)
        (related_toData hR hbuilds b _ hb)
  | .call f es _, _, h => by
    cases h with
    | call hf hes hpos =>
      exact related_pair hR hbuilds (by simp) hpos (related_toData hR hbuilds f _ hf)
        (hbuilds.list _ _ (related_toItems hR hbuilds es _ hes))
  | .quote b _, _, h => by
    cases h with
    | quote hb hpos =>
      exact related_node hR hbuilds (by simp) hpos
        (.cons ⟨rfl, related_toData hR hbuilds b _ hb⟩ .nil)

theorem Expr.related_toItems {R : Data → Data → Prop} (hR : Reshapes R) (hbuilds : Builds R) :
    ∀ es es' : List Expr, List.Forall₂ (Expr.Reshaped R) es es' →
      List.Forall₂ R (toItems es) (toItems es')
  | [], _, h => by
    cases h
    exact .nil
  | e :: es, _, h => by
    cases h with
    | cons he hes =>
      exact .cons (related_toData hR hbuilds e _ he) (related_toItems hR hbuilds es _ hes)

end

section Documents

variable {R : Data → Data → Prop} (hR : Reshapes R) (hbuilds : Builds R)
include hR hbuilds

omit hR in
theorem related_ofEach {α : Type} {S : α → α → Prop} {write : α → Data}
    (hwrite : ∀ a b, S a b → R (write a) (write b)) {as bs : List α} (h : List.Forall₂ S as bs) :
    R (.ofList (as.map write)) (.ofList (bs.map write)) := by
  refine hbuilds.list _ _ ?_
  rw [List.forall₂_map_left_iff, List.forall₂_map_right_iff]
  exact h.imp hwrite

omit hR in
theorem Signature.related_toData {s s' : Signature} (h : Signature.Reshaped R s s') :
    R s.toData s'.toData :=
  hbuilds.list _ _ (.cons h.name (.cons h.arity .nil))

theorem Clause.related_toData {c c' : Clause} (h : Clause.Reshaped R c c') :
    R c.toData c'.toData := by
  have hpatterns := hbuilds.list _ _ (Expr.related_toItems hR hbuilds _ _ h.patterns)
  have hguard := Expr.related_toData hR hbuilds _ _ h.guard
  have hbody := hbuilds.list _ _ (Expr.related_toItems hR hbuilds _ _ h.body)
  exact hbuilds.fields _ _ (by simp)
    (.cons ⟨rfl, hpatterns⟩ (.cons ⟨rfl, hguard⟩ (.cons ⟨rfl, hbody⟩ (.cons ⟨rfl, h.pos⟩ .nil))))

omit hbuilds in
theorem Descriptor.related_toData {x x' : Descriptor} (h : Descriptor.Reshaped R x x') :
    R x.toData x'.toData := by
  cases h with
  | violation v => exact hR.text _
  | foreign hd => exact hd

namespace Form

theorem related_attributeData {name name' pos pos' : Data} {fields fields' : List (String × Data)}
    (hnames : ("type" :: "name" :: "pos" :: fields.map Prod.fst).Nodup) (hname : R name name')
    (hpos : R pos pos')
    (hfields : List.Forall₂ (fun f f' => f'.1 = f.1 ∧ R f.2 f'.2) fields fields') :
    R (attributeData name pos fields) (attributeData name' pos' fields') :=
  hbuilds.fields _ _ hnames
    (.cons ⟨rfl, hR.text _⟩ (.cons ⟨rfl, hname⟩ (.cons ⟨rfl, hpos⟩ hfields)))

theorem related_clausesData (type : String) {name name' pos pos' : Data}
    {clauses clauses' : List Clause} (hname : R name name')
    (hclauses : List.Forall₂ (Clause.Reshaped R) clauses clauses') (hpos : R pos pos') :
    R (clausesData type name clauses pos) (clausesData type name' clauses' pos') := by
  have hlist := related_ofEach hbuilds (fun _ _ h => Clause.related_toData hR hbuilds h) hclauses
  exact hbuilds.fields _ _ (by simp)
    (.cons ⟨rfl, hR.text _⟩ (.cons ⟨rfl, hname⟩ (.cons ⟨rfl, hlist⟩ (.cons ⟨rfl, hpos⟩ .nil))))

/-- Forms of one shape have related documents. -/
theorem related_toData {f f' : Form} (h : Form.Reshaped R f f') : R f.toData f'.toData := by
  cases h with
  | attr hname hvalue hpos =>
    exact related_attributeData hR hbuilds (by simp) hname hpos (.cons ⟨rfl, hvalue⟩ .nil)
  | @module m m' hm =>
    have hparameters : R ((m.parameters.map Data.ofList).getD .null)
        ((m'.parameters.map Data.ofList).getD .null) := by
      rcases rel_cases hm.parameters with ⟨h, h'⟩ | ⟨ps, ps', h, h', hps⟩ <;> rw [h, h']
      · exact hR.null
      · exact hbuilds.list ps ps' hps
    exact related_attributeData hR hbuilds (by simp) (hR.text _) hm.pos
      (.cons ⟨rfl, hm.name⟩ (.cons ⟨rfl, hparameters⟩ .nil))
  | file hf =>
    exact related_attributeData hR hbuilds (by simp) (hR.text _) hf.pos
      (.cons ⟨rfl, hf.file⟩ (.cons ⟨rfl, hf.line⟩ .nil))
  | exports hfunctions hpos =>
    have hlist := related_ofEach hbuilds (fun _ _ h => Signature.related_toData hbuilds h) hfunctions
    exact related_attributeData hR hbuilds (by simp) (hR.text _) hpos (.cons ⟨rfl, hlist⟩ .nil)
  | function hname hclauses hpos => exact related_clausesData hR hbuilds _ hname hclauses hpos
  | rule hr => exact related_clausesData hR hbuilds _ hr.name hr.clauses hr.pos
  | marker hm =>
    have hdescriptor := Descriptor.related_toData hR hm.descriptor
    exact hbuilds.fields _ _ (by simp) (.cons ⟨rfl, hR.text _⟩ (.cons ⟨rfl, hm.origin⟩
      (.cons ⟨rfl, hdescriptor⟩ (.cons ⟨rfl, hm.pos⟩ .nil))))
  | eof hpos =>
    exact hbuilds.fields _ _ (by simp) (.cons ⟨rfl, hR.text _⟩ (.cons ⟨rfl, hpos⟩ .nil))

theorem related_listToData {forms forms' : List Form}
    (h : List.Forall₂ (Form.Reshaped R) forms forms') :
    R (listToData forms) (listToData forms') :=
  related_ofEach hbuilds (fun _ _ h => related_toData hR hbuilds h) h

end Form

end Documents

end RuleLowering
