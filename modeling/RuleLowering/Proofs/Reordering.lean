import RuleLowering.Proofs.AlikeLowering
import RuleLowering.Proofs.AlikeReading
import RuleLowering.Proofs.Malformed
import RuleLowering.Proofs.RelatedDocuments
import RuleLowering.Rendering

/-!
# The order of keys does not count

Documents of JSON that differ only in the order in which mappings have their entries, at any depth,
are read alike and lowered alike, and the lowered modules have the same JSON text: data travels
through reading and lowering as it is, and the text puts all entries in the order of their names.
Only where the reader walks a mapping for its keys would the order count.
-/
namespace RuleLowering

open Data (Reordered Reshapes Builds Inherited Unfolds NamedOnce EntriesRelated)

namespace Data

namespace Reordered

variable {d d' : Data}

/-- Values that differ in the order of entries at most are not told apart by their parts. -/
theorem unfolds (h : Reordered d d') : Unfolds Reordered d d' := by
  cases d with
  | list place items =>
    obtain ⟨place', items', rfl, hpairs⟩ := exists_list_of_reordered h.reordered
    exact .list ((forall₂_with_mem hpairs).imp fun x y hxy =>
      ⟨isJson_of_mem_list h.isJson_left hxy.1, isJson_of_mem_list h.isJson_right hxy.2.1,
        hxy.2.2⟩)
  | map place entries =>
    have hnamed := NamedOnce.of_isJson h.isJson_left
    obtain ⟨place', fs, gs, rfl, hperm, hpairs⟩ := exists_map_of_reordered hnamed h.reordered
    have hleft := (isJson_map h.isJson_left).2
    have hright := (isJson_map h.isJson_right).2
    have hrelated : List.Forall₂ (EntriesRelated Reordered) entries gs :=
      (forall₂_with_mem hpairs).imp fun e g heg => ⟨heg.2.2.1,
        (hleft e heg.1).2, (hright g (hperm.mem_iff.mp heg.2.1)).2, heg.2.2.2⟩
    refine .map hnamed.texts fun name => ?_
    have hgs : NamedOnce gs := (NamedOnce.of_isJson h.isJson_right).of_perm hperm.symm
    rw [← field?_eq_of_perm hgs hperm]
    exact rel_field? hrelated name
  | special _ _ | group _ _ _ => cases h.isJson_left
  | _ =>
    obtain rfl := eq_of_reordered rfl h.reordered
    exact .atomic rfl

theorem ofList {items items' : List Data} (h : List.Forall₂ Reordered items items') :
    Reordered (.ofList items) (.ofList items') := by
  refine ⟨isJson_ofList.mpr fun d hd => ?_, isJson_ofList.mpr fun d hd => ?_, ?_⟩
  · obtain ⟨d', -, hdd'⟩ := exists_right_of_forall₂ h d hd
    exact hdd'.isJson_left
  · obtain ⟨d', -, hdd'⟩ := exists_left_of_forall₂ h d hd
    exact hdd'.isJson_right
  · exact reorderedItems_iff.mpr (h.imp fun _ _ hdd' => hdd'.reordered)

theorem ofFields {fields fields' : List (String × Data)} (hnames : (fields.map Prod.fst).Nodup)
    (h : List.Forall₂ (fun f f' => f'.1 = f.1 ∧ Reordered f.2 f'.2) fields fields') :
    Reordered (.ofFields fields) (.ofFields fields') := by
  have hsame : fields'.map Prod.fst = fields.map Prod.fst := by
    have heach : List.Forall₂ (· = ·) (fields'.map Prod.fst) (fields.map Prod.fst) := by
      rw [List.forall₂_map_left_iff, List.forall₂_map_right_iff]
      exact (h.imp fun _ _ hff' => hff'.1.symm).flip.imp fun _ _ heq => heq.symm
    exact List.forall₂_eq_eq_eq ▸ heach
  refine ⟨(isJson_ofFields hnames).mpr fun f hf => ?_,
    (isJson_ofFields (hsame ▸ hnames)).mpr fun f hf => ?_, ?_⟩
  · obtain ⟨f', -, hff'⟩ := exists_right_of_forall₂ h f hf
    exact hff'.2.isJson_left
  · obtain ⟨f', -, hff'⟩ := exists_left_of_forall₂ h f hf
    exact hff'.2.isJson_right
  · have hlength : (fields.map fun f => (Data.str f.1, f.2)).length =
        (fields'.map fun f => (Data.str f.1, f.2)).length := by
      rw [List.length_map, List.length_map, h.length_eq]
    refine Bool.and_eq_true_iff.mpr ⟨beq_iff_eq.mpr hlength, foundIn_iff.mpr fun e he => ?_⟩
    obtain ⟨f, hf, rfl⟩ := List.mem_map.mp he
    obtain ⟨f', hf', hname, hvalue⟩ := exists_right_of_forall₂ h f hf
    refine ⟨_, List.mem_map_of_mem hf', ?_, hvalue.reordered⟩
    rw [hname]
    exact reordered_of_isAtomic rfl

end Reordered

theorem reshapes_reordered : Reshapes Reordered where
  unfolds _ _ h := h.unfolds
  isWritable_eq _ _ h := h.isWritable_eq
  null := .of_isAtomic rfl
  text _ := .of_isAtomic rfl
  zero := .of_isAtomic rfl
  one := .of_isAtomic rfl
  empty := .ofList .nil

theorem builds_reordered : Builds Reordered where
  list _ _ h := .ofList h
  fields _ _ hnames h := .ofFields hnames h

end Data

section Written

/-- Values of JSON that differ in the order of entries at most, and can be written. -/
def Data.WrittenAlike (d d' : Data) : Prop :=
  Reordered d d' ∧ d'.isJson = true ∧ d'.isWritable = true

theorem Data.one_lt_numberLimit : 1 < numberLimit :=
  Nat.lt_of_lt_of_le (by decide : 1 < 10 ^ 1) (Json.pow_le_pow10 (by decide))

theorem Data.inherited_written :
    Inherited fun d => d.isJson = true ∧ d.isWritable = true where
  list _ _ h _ hd := ⟨isJson_of_mem_list h.1 hd, isWritable_of_mem_list h.1 h.2 hd⟩
  map _ _ h _ he := ⟨((isJson_map h.1).2 _ he).2, isWritable_of_mem_map h.1 h.2 he⟩
  null := ⟨rfl, rfl⟩
  text _ := ⟨rfl, rfl⟩
  zero := ⟨rfl, isWritable_int.mpr (Nat.lt_trans Nat.one_pos one_lt_numberLimit)⟩
  one := ⟨rfl, isWritable_int.mpr one_lt_numberLimit⟩
  empty := ⟨rfl, rfl⟩

theorem Data.reshapes_written : Reshapes WrittenAlike :=
  reshapes_reordered.and inherited_written

theorem Data.builds_written : Builds WrittenAlike where
  list items items' h := by
    refine ⟨.ofList (h.imp fun _ _ hd => hd.1), isJson_ofList.mpr fun d hd => ?_,
      isWritable_ofList.mpr fun d hd => ?_⟩
    all_goals obtain ⟨d', -, hdd'⟩ := exists_left_of_forall₂ h d hd
    · exact hdd'.2.1
    · exact hdd'.2.2
  fields fields fields' hnames h := by
    have hfields := Reordered.ofFields hnames (h.imp fun _ _ hf => ⟨hf.1, hf.2.1⟩)
    refine ⟨hfields, hfields.isJson_right, isWritable_ofFields.mpr fun f hf => ?_⟩
    obtain ⟨f', -, hff'⟩ := exists_left_of_forall₂ h f hf
    exact hff'.2.2.2

end Written

/-- No rule of a document has more patterns than a number can be written for. -/
def ArityWritable (own : Text) (d : Data) : Prop :=
  ∀ forms, Form.listOfData? own d = .ok forms →
    ∀ r, .rule r ∈ forms → ∀ c ∈ r.clauses, c.arity < Data.numberLimit

theorem alike_reordered {o : Options} {d d' : Data} (h : Reordered d d')
    (hwalk : d = d' ∨ ∀ place items, d = .list place items → ∀ item ∈ items, Form.WalksLists item) :
    Alike (List.Forall₂ (Form.Reshaped Reordered)) (Form.listOfData? o.origin d >>= lower o)
      (Form.listOfData? o.origin d' >>= lower o) := by
  have hread := Form.alike_listOfData? Data.reshapes_reordered o.origin h hwalk
  refine hread.bind fun forms forms' hforms => alike_lower Data.reshapes_reordered o hforms ?_
  intro rules hrules s hs
  obtain ⟨r, -, n, hn, -⟩ := exists_rule_of_mem_signatures? hrules hs
  rw [hn]
  exact .of_isAtomic rfl

/-- What is made of a value of JSON has a value of JSON as its document. -/
theorem isJson_listToData_lowered {o : Options} {d : Data} {out : List Form}
    (hjson : d.isJson = true) (hout : (Form.listOfData? o.origin d >>= lower o) = .ok out) :
    (Form.listToData out).isJson = true := by
  obtain ⟨out', hout', hrelated⟩ := (alike_reordered (.refl hjson) (.inl rfl)).exists_ok hout
  obtain rfl := Except.ok.inj (hout.symm.trans hout')
  exact (Form.related_listToData Data.reshapes_reordered Data.builds_reordered hrelated).isJson_left

/-- What is made of a value of JSON that can be written has a JSON text. -/
theorem exists_write_of_lowered {o : Options} {d : Data} {out : List Form} (hjson : d.isJson = true)
    (hwritable : d.isWritable = true) (harity : ArityWritable o.origin d)
    (hout : (Form.listOfData? o.origin d >>= lower o) = .ok out) :
    ∃ text, Rendering.json.write out = .ok text := by
  have hself : Data.WrittenAlike d d := ⟨.refl hjson, hjson, hwritable⟩
  have hread := Form.alike_listOfData? Data.reshapes_written o.origin hself (.inl rfl)
  have halike : Alike (List.Forall₂ (Form.Reshaped Data.WrittenAlike))
      (Form.listOfData? o.origin d >>= lower o) (Form.listOfData? o.origin d >>= lower o) := by
    refine hread.with_results.bind fun forms forms' ⟨hforms, hforms', hrelated⟩ => ?_
    refine alike_lower Data.reshapes_written o hrelated fun rules hrules s hs => ?_
    obtain ⟨r, hr, n, hn, c, hc, harity'⟩ := exists_rule_of_mem_signatures? hrules hs
    have hlimit : (Data.int n).isWritable = true := by
      rw [Data.isWritable_int, Int.natAbs_natCast, ← harity']
      exact harity forms hforms r hr c hc
    rw [hn]
    exact ⟨.of_isAtomic rfl, rfl, hlimit⟩
  obtain ⟨out', hout', hrelated⟩ := halike.exists_ok hout
  obtain rfl := Except.ok.inj (hout.symm.trans hout')
  have hdocument := Form.related_listToData Data.reshapes_written Data.builds_written hrelated
  obtain ⟨text, htext⟩ := (Json.exists_write_iff hdocument.2.1).mpr hdocument.2.2
  exact ⟨text, by rw [Rendering.write, Rendering.jsonText, htext]; rfl⟩

/-- Documents of JSON that differ in nothing but the order of entries, and in which the reader walks
lists only, are read and lowered to modules with the same JSON text, or fail with faults of one
kind. There is such a text, if the numbers of the document can be written and so can the arities of
its rules. -/
theorem reordered_lowered_alike {o : Options} {d d' : Data} (h : Reordered d d')
    (hwalk : ∀ place items, d = .list place items → ∀ item ∈ items, Form.WalksLists item) :
    Alike (fun out out' => Rendering.json.write out = Rendering.json.write out'
        ∧ (d.isWritable = true → ArityWritable o.origin d →
          ∃ text, Rendering.json.write out = .ok text))
      (Form.listOfData? o.origin d >>= lower o) (Form.listOfData? o.origin d' >>= lower o) := by
  refine (alike_reordered h (.inr hwalk)).with_results.mono fun out out' ⟨hout, _, hrelated⟩ => ⟨?_, ?_⟩
  · have hdocument :=
      Form.related_listToData Data.reshapes_reordered Data.builds_reordered hrelated
    rw [Rendering.write, Rendering.write, Rendering.jsonText, Rendering.jsonText, hdocument.write_eq]
  · exact fun hwritable harity => exists_write_of_lowered h.isJson_left hwritable harity hout

/-- A rule whose body is data of another tool, which is a mapping. -/
def opaqueRule : Data :=
  .ofList [.ofFields [("type", "rule"), ("name", "f"), ("clauses", .ofList [
    .ofFields [("body", .ofList [
      .ofFields [("type", "opaque"), ("term", .ofFields [("b", 1), ("a", 2)])]])]])]]

def opaqueRuleTurned : Data :=
  .ofList [.ofFields [("clauses", .ofList [
    .ofFields [("body", .ofList [
      .ofFields [("term", .ofFields [("a", 2), ("b", 1)]), ("type", "opaque")]])]]),
    ("name", "f"), ("type", "rule")]]

/-- Both are lowered to modules with one and the same JSON text. -/
theorem opaqueRuleTurned_same_text :
    ∃ out out' text, (Form.listOfData? "henshin_module" opaqueRule >>= lower {}) = .ok out
      ∧ (Form.listOfData? "henshin_module" opaqueRuleTurned >>= lower {}) = .ok out'
      ∧ Rendering.json.write out = .ok text ∧ Rendering.json.write out' = .ok text := by
  have h : Reordered opaqueRule opaqueRuleTurned := ⟨by decide, by decide, by decide⟩
  have hwalk : ∀ place items, opaqueRule = .list place items →
      ∀ item ∈ items, Form.WalksLists item := by
    rintro _ _ ⟨⟩ item hitem
    obtain rfl := List.mem_singleton.mp hitem
    exact Form.walksLists_of_ne fun htype => absurd (Data.str.inj htype) (by decide)
  have harity : ArityWritable ({} : Options).origin opaqueRule := by
    rintro _ ⟨⟩ r hr c hc
    obtain rfl := Form.rule.inj (List.mem_singleton.mp hr)
    obtain rfl := List.mem_singleton.mp hc
    exact Nat.lt_trans Nat.one_pos Data.one_lt_numberLimit
  have hout : (Form.listOfData? ({} : Options).origin opaqueRule >>= lower {}) = .ok _ := rfl
  obtain ⟨out', hout', hsame, hwritten⟩ := (reordered_lowered_alike h hwalk).exists_ok hout
  obtain ⟨text, htext⟩ := hwritten (by decide +kernel) harity
  exact ⟨_, out', text, hout, hout', htext, hsame ▸ htext⟩

end RuleLowering
