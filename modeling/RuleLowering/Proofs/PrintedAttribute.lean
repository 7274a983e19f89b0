import RuleLowering.Proofs.PrintedTerm
import RuleLowering.Proofs.RoundTrip

/-!
# Printed attributes told apart

An attribute prints as a word and what stands in brackets behind it. The word tells the variant, for
a generic attribute never has the word of another one, and the brackets hold names, strings, numbers
and rows that end where a closing mark stands. So the text of an attribute tells all of it but its
position.
-/
namespace RuleLowering

open RuleLowering.Expr (comma)
open Source (atomChars isAtomChar Marked marked_cons row_cancel atom_cancel string_cancel int_cancel
  term_cancel)

/-- A name of letters, digits, underscores and at signs. -/
def Data.IsParameter (d : Data) : Prop := ∃ w : String, d = .str w ∧ IsName isAtomChar w.toList

/-- A name that is a string, with a number of parameters. -/
def Signature.IsEntry (s : Signature) : Prop :=
  ∃ (name : String) (arity : Nat), s = ⟨.str name, .int arity⟩

/-- An attribute whose names are strings: the declaration of a module, which may have parameters, a
position marker, a list of exports, or a generic attribute with an ordinary value. -/
inductive Form.OrdinaryAttribute : Form → Prop
  | module {m : ModuleDecl} {name : String} : m.name = .str name →
    (∀ ps ∈ m.parameters, ∀ p ∈ ps, p.IsParameter) → OrdinaryAttribute (.module m)
  | file {f : FileMark} {file : String} {line : Int} : f.file = .str file → f.line = .int line →
    OrdinaryAttribute (.file f)
  | exports {e : Export} : (∀ s ∈ e.functions, s.IsEntry) → OrdinaryAttribute (.exports e)
  | attr {a : Attribute} {name : String} : a.name = .str name → a.value.Ordinary →
    OrdinaryAttribute (.attr a)

/-- Attributes of one variant with the same fields, wherever they stand and their values were
read. -/
inductive Form.SameAttribute : Form → Form → Prop
  | module {m n : ModuleDecl} : m.name = n.name → m.parameters = n.parameters →
    SameAttribute (.module m) (.module n)
  | file {f g : FileMark} : f.file = g.file → f.line = g.line → SameAttribute (.file f) (.file g)
  | exports {e e' : Export} : e.functions = e'.functions → SameAttribute (.exports e) (.exports e')
  | attr {a b : Attribute} : a.name = b.name → a.value.placeless = b.value.placeless →
    SameAttribute (.attr a) (.attr b)

section Layout

def Signature.chars (s : Signature) : List Char :=
  atomChars s.name.display.chars ++ '/' :: s.arity.display.chars

def ModuleDecl.parameterChars (m : ModuleDecl) : List Char :=
  match m.parameters with
  | none => []
  | some ps => comma ++ '[' :: (comma.intercalate (ps.map fun p => p.display.chars) ++ [']'])

def Form.word : Form → Data
  | .attr a => a.name
  | .module _ => "module"
  | .file _ => "file"
  | .exports _ => "export"
  | _ => .null

def Form.inside : Form → List Char
  | .attr a => (Source.term a.value).toList
  | .module m => atomChars m.name.display.chars ++ m.parameterChars
  | .file f => (Source.term f.file).toList ++ (comma ++ (Source.term f.line).toList)
  | .exports e => '[' :: (comma.intercalate (e.functions.map Signature.chars) ++ [']'])
  | _ => []

def Form.attributeChars (f : Form) : List Char :=
  '-' :: (atomChars f.word.display.chars ++ '(' :: (f.inside ++ [')', '.']))

/-- No number in an attribute has too many digits to be written, and its value has an end. -/
def Form.isPrintable : Form → Bool
  | .attr a => !a.value.isCyclic && a.value.isWritable
  | .file f => f.line.isWritable
  | .exports e => e.functions.all fun s => s.arity.isWritable
  | _ => true

/-- A walk whose steps all fail alike, if they fail. -/
theorem mapM_eq_ite {ε α β : Type} {f : α → Except ε β} {p : α → Bool} {g : α → β} {fault : ε}
    {items : List α} (heach : ∀ a ∈ items, f a = if p a then .ok (g a) else .error fault) :
    items.mapM f = if items.all p then .ok (items.map g) else .error fault := by
  induction items with
  | nil => rfl
  | cons a items ih =>
    obtain ⟨ha, hitems⟩ := List.forall_mem_cons.mp heach
    rw [List.mapM_cons, ha, ih hitems, List.all_cons]
    cases p a with
    | false => rfl
    | true => cases items.all p <;> rfl

/-- The parameters of a module print as they are. -/
theorem Source.joinTexts_parameters {ps : List Data} (hps : ∀ p ∈ ps, p.IsParameter) :
    Data.joinTexts ", " ps =
      .ok (.plain (String.ofList (comma.intercalate (ps.map fun p => p.display.chars)))) := by
  have htexts : ps = (ps.map Data.display).map .str := by
    have hsame : ∀ p ∈ ps, p = .str p.display := by
      intro p hp
      obtain ⟨w, rfl, -⟩ := hps p hp
      rfl
    rw [List.map_map]
    exact (List.map_id ps).symm.trans (List.map_congr_left hsame)
  have hplain : ps.map Data.display =
      (ps.map fun p => p.display.chars).map fun s => .plain (String.ofList s) := by
    rw [List.map_map]
    refine List.map_congr_left fun p hp => ?_
    obtain ⟨w, rfl, -⟩ := hps p hp
    simp
  conv_lhs => rw [htexts]
  rw [Data.joinTexts_str, hplain, Text.join_map_plain]
  rfl

theorem Text.plain_eq_ofList {s : String} {cs : List Char} (h : s.toList = cs) :
    Text.plain s = .plain (String.ofList cs) := by
  rw [← h, String.ofList_toList]

/-- A value prints if it has an end and its numbers can be written. -/
theorem Source.termText_eq_ok {d : Data} {t : String} :
    termText d = .ok t ↔ (!d.isCyclic && d.isWritable) = true ∧ term d = t := by
  unfold termText
  cases d.isCyclic <;> cases d.isWritable <;> simp

theorem Data.display_int (n : Int) : (Data.int n).display = .plain (toString n) := rfl

theorem Source.exported_eq {s : Signature} (hs : s.IsEntry) :
    exported s =
      if s.arity.isWritable then .ok (.plain (String.ofList s.chars))
      else .error .numberTooLong := by
  obtain ⟨name, arity, rfl⟩ := hs
  have htext : Text.plain (String.ofList (atomChars name.toList) ++ "/" ++ toString (arity : Int)) =
      .plain (String.ofList (Signature.chars ⟨.str name, .int arity⟩)) := by
    apply Text.plain_eq_ofList
    simp [Signature.chars, Data.display_int]
  simp only [exported, atom, atomText, ok_bind, Data.shownText, Data.display_int]
  by_cases hwritable : (Data.int arity).isWritable = true
  · rw [if_pos hwritable, if_pos hwritable, ← htext]
    rfl
  · rw [if_neg hwritable, if_neg hwritable]
    rfl

/-- An attribute prints as its characters, or fails. -/
theorem Source.form_eq {f : Form} (hf : f.OrdinaryAttribute) :
    ∃ fault, form f =
      if f.isPrintable then .ok (.plain (String.ofList f.attributeChars)) else .error fault := by
  have hmodule : atomChars ['m', 'o', 'd', 'u', 'l', 'e'] = "module".toList := by decide
  have hmark : atomChars ['f', 'i', 'l', 'e'] = "file".toList := by decide
  have hexport : atomChars ['e', 'x', 'p', 'o', 'r', 't'] = "export".toList := by decide
  cases hf with
  | @module m name hname hparameters =>
    have hprintable : (Form.module m).isPrintable = true := rfl
    refine ⟨.numberTooLong, ?_⟩
    rw [if_pos hprintable]
    simp only [form, hname, atom, atomText, ok_bind]
    cases hps : m.parameters with
    | none =>
      simp only [Text.plain_append_plain]
      refine congrArg Except.ok (Text.plain_eq_ofList ?_)
      simp [Form.attributeChars, Form.word, Form.inside, ModuleDecl.parameterChars, hname, hps,
        hmodule]
    | some ps =>
      simp only [joinTexts_parameters (hparameters ps hps), ok_bind, Text.plain_append_plain]
      refine congrArg Except.ok (Text.plain_eq_ofList ?_)
      simp [Form.attributeChars, Form.word, Form.inside, ModuleDecl.parameterChars, hname, hps,
        hmodule, comma]
  | @file f file line hfile hline =>
    have hprintable : (Form.file f).isPrintable = (Data.int line).isWritable :=
      congrArg Data.isWritable hline
    refine ⟨.numberTooLong, ?_⟩
    rw [hprintable]
    simp only [form, hfile, hline, string, Json.write, Json.writeIn, ok_bind, Data.shownText,
      Data.display_int]
    by_cases hwritable : (Data.int line).isWritable = true
    · simp only [if_pos hwritable, ok_bind, Text.plain_append_plain]
      refine congrArg Except.ok (Text.plain_eq_ofList ?_)
      simp [Form.attributeChars, Form.word, Form.inside, hfile, hline, hmark, comma, term]
    · rw [if_neg hwritable, if_neg hwritable]
      rfl
  | @exports e hfunctions =>
    have hmap : e.functions.map (fun s => Text.plain (String.ofList s.chars)) =
        (e.functions.map Signature.chars).map fun s => .plain (String.ofList s) := by
      rw [List.map_map]
      rfl
    have hprintable : (Form.exports e).isPrintable =
        e.functions.all fun s => s.arity.isWritable := rfl
    refine ⟨.numberTooLong, ?_⟩
    rw [hprintable]
    simp only [form, mapM_eq_ite fun s hs => exported_eq (hfunctions s hs)]
    by_cases harities : (e.functions.all fun s => s.arity.isWritable) = true
    · simp only [if_pos harities, ok_bind, hmap, Text.join_map_plain, Text.plain_append_plain]
      refine congrArg Except.ok (Text.plain_eq_ofList ?_)
      simp [Form.attributeChars, Form.word, Form.inside, hexport, comma]
    · rw [if_neg harities, if_neg harities]
      rfl
  | @attr a name hname hvalue =>
    simp only [form, hname, atom, atomText, ok_bind]
    cases hterm : termText a.value with
    | ok t =>
      obtain ⟨hwritable, rfl⟩ := termText_eq_ok.mp hterm
      have hprintable : (Form.attr a).isPrintable = true := hwritable
      refine ⟨.endless, ?_⟩
      rw [if_pos hprintable]
      simp only [ok_bind, Text.plain_append_plain]
      refine congrArg Except.ok (Text.plain_eq_ofList ?_)
      simp [Form.attributeChars, Form.word, Form.inside, hname]
    | error fault =>
      have hprintable : ¬ (Form.attr a).isPrintable = true := fun h => by
        cases hterm.symm.trans (termText_eq_ok.mpr ⟨h, rfl⟩)
      refine ⟨fault, ?_⟩
      rw [if_neg hprintable]
      rfl

end Layout

section Told

variable {r r' : List Char}

theorem Source.parameter_cancel {p q : Data} (hp : p.IsParameter) (hq : q.IsParameter) :
    Cancels id (fun d : Data => d.display.chars) p q := by
  obtain ⟨w, rfl, hw⟩ := hp
  obtain ⟨v, rfl, hv⟩ := hq
  intro r r' hr hr' h
  simp only [Data.display_str, Text.chars_plain] at h
  obtain ⟨hname, hrest⟩ :=
    Json.front_cancel hw.all hv.all (hr.fails rfl) (hr'.fails rfl) h
  rw [String.toList_injective hname]
  exact ⟨rfl, hrest⟩

/-- Behind the name of a module stands whether it has parameters, and which. -/
theorem ModuleDecl.parameterChars_cancel {m n : ModuleDecl}
    (hm : ∀ ps ∈ m.parameters, ∀ p ∈ ps, p.IsParameter)
    (hn : ∀ ps ∈ n.parameters, ∀ p ∈ ps, p.IsParameter)
    (h : m.parameterChars ++ [')', '.'] = n.parameterChars ++ [')', '.']) :
    m.parameters = n.parameters := by
  rw [parameterChars, parameterChars] at h
  cases hps : m.parameters with
  | none =>
    cases hqs : n.parameters with
    | none => rfl
    | some qs => simp [hps, hqs, comma] at h
  | some ps =>
    cases hqs : n.parameters with
    | none => simp [hps, hqs, comma] at h
    | some qs =>
      simp only [hps, hqs, List.append_assoc, List.append_cancel_left_eq, List.cons_append,
        List.nil_append, List.cons.injEq, true_and] at h
      have hfirst : ∀ p, p ∈ ps ∨ p ∈ qs → ∃ c rest, p.display.chars = c :: rest ∧ c ≠ ']' := by
        intro p hp
        obtain ⟨w, rfl, hw⟩ := hp.elim (hm ps hps p) (hn qs hqs p)
        obtain ⟨c, rest, hcons, hc⟩ := hw.first
        refine ⟨c, rest, by simpa using hcons, ?_⟩
        rintro rfl
        cases hc
      obtain ⟨hsame, -⟩ := row_cancel id (by decide) (by decide) hfirst
        (fun p hp q hq => Source.parameter_cancel (hm ps hps p hp) (hn qs hqs q hq)) h
      simpa using hsame

theorem ModuleDecl.marked_parameterChars (m : ModuleDecl) :
    Marked (m.parameterChars ++ [')', '.']) := by
  rw [parameterChars]
  split
  · exact marked_cons (by decide) _
  · exact marked_cons (by decide) _

theorem Signature.chars_cancel {s s' : Signature} (hs : s.IsEntry) (hs' : s'.IsEntry) :
    Source.Cancels id Signature.chars s s' := by
  obtain ⟨name, arity, rfl⟩ := hs
  obtain ⟨name', arity', rfl⟩ := hs'
  intro r r' hr hr' h
  simp only [chars, Data.display_str, Data.display_int, Text.chars_plain, List.append_assoc,
    List.cons_append] at h
  obtain ⟨hname, hrest⟩ := atom_cancel (marked_cons (by decide) _) (marked_cons (by decide) _) h
  obtain ⟨harity, hend⟩ := int_cancel hr hr' (List.cons.inj hrest).2
  rw [String.toList_injective hname, harity]
  exact ⟨rfl, hend⟩

theorem Signature.exists_cons_chars (s : Signature) : ∃ c rest, s.chars = c :: rest ∧ c ≠ ']' := by
  obtain ⟨c, rest, hcons, hc⟩ := Source.exists_cons_atomChars s.name.display.chars
  refine ⟨c, rest ++ '/' :: s.arity.display.chars, by rw [chars, hcons, List.cons_append], ?_⟩
  rintro rfl
  exact hc (by decide)

/-- The words of the other variants are not those of a generic attribute. -/
theorem Attribute.name_ne (a : Attribute) :
    a.name ≠ .str "module" ∧ a.name ≠ .str "file" ∧ a.name ≠ .str "export" := by
  have hvariant := Form.reservedVariant?_name a
  refine ⟨fun h => ?_, fun h => ?_, fun h => ?_⟩ <;>
  · rw [h] at hvariant
    cases hvariant

theorem Form.OrdinaryAttribute.exists_word {f : Form} (hf : f.OrdinaryAttribute) :
    ∃ w : String, f.word = .str w := by
  cases hf with
  | module => exact ⟨"module", rfl⟩
  | file => exact ⟨"file", rfl⟩
  | exports => exact ⟨"export", rfl⟩
  | attr hname => exact ⟨_, hname⟩

/-- The characters of an attribute are those of its word and of what stands in its brackets. -/
theorem Form.word_and_inside_eq {f g : Form} (hf : f.OrdinaryAttribute) (hg : g.OrdinaryAttribute)
    (h : f.attributeChars = g.attributeChars) :
    f.word = g.word ∧ f.inside ++ [')', '.'] = g.inside ++ [')', '.'] := by
  obtain ⟨w, hw⟩ := hf.exists_word
  obtain ⟨w', hw'⟩ := hg.exists_word
  simp only [attributeChars, hw, hw', Data.display_str, Text.chars_plain, List.cons.injEq,
    true_and] at h
  obtain ⟨hsame, hinside⟩ := atom_cancel (marked_cons (by decide) _) (marked_cons (by decide) _) h
  rw [hw, hw', String.toList_injective hsame]
  exact ⟨rfl, (List.cons.inj hinside).2⟩

/-- An attribute is told by its characters, but for its position. -/
theorem Form.sameAttribute_of_chars {f g : Form} (hf : f.OrdinaryAttribute)
    (hg : g.OrdinaryAttribute) (h : f.attributeChars = g.attributeChars) : f.SameAttribute g := by
  obtain ⟨hword, hinside⟩ := word_and_inside_eq hf hg h
  cases hf with
  | @module m name hname hparameters =>
    cases hg with
    | @module n name' hname' hparameters' =>
      simp only [inside, hname, hname', Data.display_str, Text.chars_plain,
        List.append_assoc] at hinside
      obtain ⟨hsame, hrest⟩ := atom_cancel m.marked_parameterChars n.marked_parameterChars hinside
      refine .module ?_ (ModuleDecl.parameterChars_cancel hparameters hparameters' hrest)
      rw [hname, hname', String.toList_injective hsame]
    | @attr b => exact absurd hword.symm b.name_ne.1
    | _ => simp [word] at hword
  | @file m file line hfile hline =>
    cases hg with
    | @file n file' line' hfile' hline' =>
      simp only [inside, hfile, hfile', hline, hline', List.append_assoc] at hinside
      obtain ⟨hsame, hrest⟩ := string_cancel hinside
      obtain ⟨hnumber, -⟩ := int_cancel (marked_cons (by decide) _) (marked_cons (by decide) _)
        (List.append_cancel_left hrest)
      refine .file ?_ ?_
      · rw [hfile, hfile', hsame]
      · rw [hline, hline', hnumber]
    | @attr b => exact absurd hword.symm b.name_ne.2.1
    | _ => simp [word] at hword
  | @exports e hfunctions =>
    cases hg with
    | @exports e' hfunctions' =>
      simp only [inside, List.cons_append, List.append_assoc, List.nil_append, List.cons.injEq,
        true_and] at hinside
      obtain ⟨hsame, -⟩ := row_cancel id (by decide) (by decide)
        (fun s _ => s.exists_cons_chars)
        (fun s hs s' hs' => Signature.chars_cancel (hfunctions s hs) (hfunctions' s' hs')) hinside
      exact .exports (by simpa using hsame)
    | @attr b => exact absurd hword.symm b.name_ne.2.2
    | _ => simp [word] at hword
  | @attr a name hname hvalue =>
    cases hg with
    | module => exact absurd hword a.name_ne.1
    | file => exact absurd hword a.name_ne.2.1
    | exports => exact absurd hword a.name_ne.2.2
    | @attr b name' hname' hvalue' =>
      obtain ⟨hterm, -⟩ := term_cancel hvalue hvalue' (marked_cons (by decide) _)
        (marked_cons (by decide) _) hinside
      exact .attr hword hterm

/-- The characters of an attribute do not depend on its position. -/
theorem Form.attributeChars_eq {f g : Form} (hf : f.OrdinaryAttribute) (hg : g.OrdinaryAttribute)
    (h : f.SameAttribute g) : f.attributeChars = g.attributeChars := by
  cases h with
  | module hname hparameters =>
    simp [attributeChars, word, inside, ModuleDecl.parameterChars, hname, hparameters]
  | file hfile hline => simp [attributeChars, word, inside, hfile, hline]
  | exports hfunctions => simp [attributeChars, word, inside, hfunctions]
  | @attr a b hname hvalue =>
    cases hf with
    | attr _ ha =>
      cases hg with
      | attr _ hb =>
        have hterm : Source.term a.value = Source.term b.value := by
          rw [← Source.term_placeless ha, hvalue, Source.term_placeless hb]
        simp [attributeChars, word, inside, hname, hterm]

/-- An attribute prints exactly if no number in it is too long and its value has an end. Two
attributes have one text exactly if they are of one variant with the same fields but for their
positions: the same names, strings, numbers and parameters, and values that are equal but for the
places where they were read, with the entries of mappings in the same order. -/
theorem Form.printed_eq_iff_sameAttribute {f g : Form} (hf : f.OrdinaryAttribute)
    (hg : g.OrdinaryAttribute) :
    ((∃ t, Source.form f = .ok t) ↔ f.isPrintable = true)
      ∧ ∀ t t', Source.form f = .ok t → Source.form g = .ok t' → (t = t' ↔ f.SameAttribute g) := by
  have htext : ∀ {f : Form}, f.OrdinaryAttribute → ∀ t, Source.form f = .ok t →
      f.isPrintable = true ∧ t = .plain (String.ofList f.attributeChars) := by
    intro f hf t ht
    obtain ⟨fault, hform⟩ := Source.form_eq hf
    rw [hform] at ht
    split at ht
    · rename_i hprintable
      exact ⟨hprintable, (Except.ok.inj ht).symm⟩
    · cases ht
  refine ⟨⟨?_, ?_⟩, ?_⟩
  · rintro ⟨t, ht⟩
    exact (htext hf t ht).1
  · intro hprintable
    obtain ⟨fault, hform⟩ := Source.form_eq hf
    exact ⟨_, by rw [hform, if_pos hprintable]⟩
  · intro t t' ht ht'
    rw [(htext hf t ht).2, (htext hg t' ht').2]
    constructor
    · intro h
      exact sameAttribute_of_chars hf hg (String.ofList_injective (Text.plain.inj h))
    · intro h
      rw [attributeChars_eq hf hg h]

/-- A mapping whose one name looks like a further entry, and whose value is a list. -/
def trickyValue (place : Place) : Data :=
  .map place [("a\" => 1, \"b", .list .fresh [.null, .bool true, .int (-7), "it's, ]\n"])]

theorem ordinary_trickyValue (place : Place) : (trickyValue place).Ordinary := by
  refine .map place (by simp) ?_
  simp only [List.mem_singleton, forall_eq]
  refine .list .fresh ?_
  simp only [List.forall_mem_cons]
  exact ⟨.null, .bool true, .int (-7), .str _, List.forall_mem_nil _⟩

/-- An attribute has one text wherever it stands, though quotes, commas and brackets in its strings
look like those around them. -/
theorem Form.trickyAttribute_same :
    let f : Form := .attr ⟨"don't", trickyValue .fresh, 1, rfl⟩
    let g : Form := .attr ⟨"don't", trickyValue (.node 0 3), 2, rfl⟩
    let t : Text :=
      .plain "-'don\\'t'(#\x7b\"a\\\" => 1, \\\"b\" => [undefined, true, -7, \"it's, ]\\n\"]\x7d)."
    f.OrdinaryAttribute ∧ g.OrdinaryAttribute ∧ Source.form f = .ok t ∧ Source.form g = .ok t
      ∧ f.SameAttribute g := by
  intro f g t
  have hf : f.OrdinaryAttribute := .attr rfl (ordinary_trickyValue .fresh)
  have hg : g.OrdinaryAttribute := .attr rfl (ordinary_trickyValue (.node 0 3))
  have hterm : ∀ place, (!(trickyValue place).isCyclic && (trickyValue place).isWritable) = true →
      Source.termText (trickyValue place) = .ok (Source.term (trickyValue .fresh)) :=
    fun place h => Source.termText_eq_ok.mpr ⟨h, rfl⟩
  have ht : Source.form f = .ok t := by
    simp only [f, Source.form, hterm .fresh (by decide +kernel)]
    rfl
  have ht' : Source.form g = .ok t := by
    simp only [g, Source.form, hterm (.node 0 3) (by decide +kernel)]
    rfl
  exact ⟨hf, hg, ht, ht', ((printed_eq_iff_sameAttribute hf hg).2 t t ht ht').mp rfl⟩

end Told

end RuleLowering
