import RuleLowering.Proofs.KeyOrder
import RuleLowering.Proofs.Printed
import RuleLowering.Proofs.Refusal

/-!
# Documents of options

A document is taken for options exactly if it holds nothing or is a mapping of names of options to
texts that are not empty, and then each option is the text of its entry or the default. What is
refused is refused as options that are none, but for one case: to list unknown names they are put in
order and joined, which fails with a mismatch of kinds if a key of the mapping is not a text.
-/
namespace RuleLowering

/-- The entries of a mapping; other data has none. -/
def Data.entries : Data → List (Data × Data)
  | .map _ entries => entries
  | _ => []

namespace Options

/-- An entry that gives one of the options a text. -/
def IsOption (e : Data × Data) : Prop :=
  (∃ name ∈ names, e.1 = .str (.plain name)) ∧ ∃ t : Text, e.2 = .str t ∧ t ≠ .plain ""

/-- The document holds nothing, or is a mapping whose entries all give options texts. -/
def Acceptable (d : Data) : Prop :=
  d.isBlank = true ∨ ∃ place entries, d = .map place entries ∧ ∀ e ∈ entries, IsOption e

def NamedByTexts (d : Data) : Prop := ∀ e ∈ d.entries, ∃ t, e.1 = .str t

def fields (o : Options) : List (String × Text) :=
  [("origin", o.origin), ("introspection_name", o.introspection),
    ("support_module", o.supportModule), ("support_function", o.supportFunction),
    ("placeholder_prefix", o.placeholder)]

/-- The text of an option is that of its entry, or the default if no entry has its name. -/
def Given (d : Data) (field : String × Text) : Prop :=
  (.str (.plain field.1), .str field.2) ∈ d.entries
    ∨ (∀ e ∈ d.entries, e.1 ≠ .str (.plain field.1)) ∧ field ∈ fields {}

section Entries

theorem isKnown_iff {key : Data} :
    isKnown key = true ↔ ∃ name ∈ names, key = .str (.plain name) := by
  unfold isKnown
  split
  · simp
  · rename_i hkey
    refine iff_of_false Bool.false_ne_true ?_
    rintro ⟨name, -, rfl⟩
    exact hkey name rfl

theorem isText_iff {value : Data} :
    isText value = true ↔ ∃ t : Text, value = .str t ∧ t ≠ .plain "" := by
  cases value with
  | str t => cases t <;> simp [isText, Text.isEmpty]
  | _ => simp [isText]

/-- An option has the text of its entry, or else the default. -/
theorem given_textOr {place : Place} {entries : List (Data × Data)} {name : String} {default : Text}
    (hentries : ∀ e ∈ entries, IsOption e) (hdefault : (name, default) ∈ fields {}) :
    Given (.map place entries) (name, textOr entries name default) := by
  cases hfield : Data.field? entries name with
  | none =>
    right
    refine ⟨?_, by simpa [textOr, hfield] using hdefault⟩
    rintro ⟨_, value⟩ he rfl
    obtain ⟨value', hvalue⟩ := Data.exists_field?_of_mem (List.mem_map_of_mem he)
    cases hfield.symm.trans hvalue
  | some value =>
    left
    have hmem := Data.mem_of_field? hfield
    obtain ⟨-, t, rfl, -⟩ := hentries _ hmem
    simpa [textOr, hfield, Data.text?, Data.entries] using hmem

end Entries

section Unknown

open Data (nameBefore)

/-- Keys that are texts are compared by their code points. -/
theorem compares_texts : Compares Data.less? (fun d => ∃ t, d = .str t)
    fun a b => nameBefore (a, ()) (b, ()) = true where
  answers a b := Data.compares_nameBefore.answers (a, ()) (b, ())
  asymm a b := Data.compares_nameBefore.asymm (a, ()) (b, ())
  through a b c := Data.compares_nameBefore.through (a, ()) (b, ()) (c, ())

theorem exists_texts {keys : List Data} (h : ∀ d ∈ keys, ∃ t, d = .str t) :
    ∃ texts : List Text, keys = texts.map .str := by
  induction keys with
  | nil => exact ⟨[], rfl⟩
  | cons d keys ih =>
    obtain ⟨⟨t, rfl⟩, hkeys⟩ := List.forall_mem_cons.mp h
    obtain ⟨texts, rfl⟩ := ih hkeys
    exact ⟨t :: texts, rfl⟩

/-- Keys that are texts are listed in order. -/
theorem unknownFault_of_texts {keys : List Data} (h : ∀ d ∈ keys, ∃ t, d = .str t) :
    ∃ listed : List Text, unknownFault keys = .unknownOptions listed
      ∧ (listed.map .str).Perm keys ∧ listed.Pairwise fun s t => ¬ t.codes < s.codes := by
  obtain ⟨out, hout, hperm, horder⟩ := compares_texts.sorted_ok h
  obtain ⟨listed, rfl⟩ := exists_texts fun d hd => h d (hperm.mem_iff.mp hd)
  have htexts : (listed.map Data.str).filterMap Data.text? = listed := by
    rw [List.filterMap_map]
    exact List.filterMap_some
  refine ⟨listed, ?_, hperm, ?_⟩
  · simp only [unknownFault, hout, Data.joinTexts_str, htexts]
  · refine (List.pairwise_map.mp horder).imp fun hst => ?_
    rwa [← Data.lessText_iff]

/-- If not all keys are texts, they cannot be listed. -/
theorem kind_unknownFault {keys : List Data} {d : Data} (hd : d ∈ keys) (hnot : ¬ ∃ t, d = .str t) :
    (unknownFault keys).kind = .mismatch := by
  unfold unknownFault
  split
  · rename_i cause hcause
    exact raises_sorted Data.raises_less? _ cause hcause
  · rename_i arranged harranged
    split
    · rename_i cause hcause
      exact Data.raises_joinTexts _ _ cause hcause
    · rename_i t ht
      have hmem : d ∈ arranged := (perm_of_sorted harranged).mem_iff.mpr hd
      unfold Data.joinTexts at ht
      split at ht
      · cases ht
      · rename_i hnone
        have htext := List.findIdx?_eq_none_iff.mp hnone d hmem
        cases d <;> simp [Data.text?] at htext hnot

/-- The unknown names of a mapping are listed exactly if all its keys are texts. -/
theorem kind_unknownFault_cases (place : Place) (entries : List (Data × Data)) :
    let fault := unknownFault ((entries.map (·.1)).filter (!isKnown ·))
    fault.kind = .options ∧ NamedByTexts (.map place entries)
      ∨ fault.kind = .mismatch ∧ ¬ NamedByTexts (.map place entries) := by
  intro fault
  by_cases htexts : NamedByTexts (.map place entries)
  · have hkeys : ∀ d ∈ (entries.map (·.1)).filter (!isKnown ·), ∃ t, d = .str t := by
      intro d hd
      obtain ⟨e, he, rfl⟩ := List.mem_map.mp (List.mem_filter.mp hd).1
      exact htexts e he
    obtain ⟨listed, hlisted, -, -⟩ := unknownFault_of_texts hkeys
    exact .inl ⟨congrArg Fault.kind hlisted, htexts⟩
  · obtain ⟨e, he, hnot⟩ : ∃ e ∈ entries, ¬ ∃ t, e.1 = .str t := by
      simpa [NamedByTexts, Data.entries] using htexts
    have hunknown : isKnown e.1 = false := by
      by_contra hknown
      obtain ⟨name, -, hkey⟩ := isKnown_iff.mp (by simpa using hknown)
      exact hnot ⟨_, hkey⟩
    have hlisted : e.1 ∈ (entries.map (·.1)).filter (!isKnown ·) :=
      List.mem_filter.mpr ⟨List.mem_map_of_mem he, by simp [hunknown]⟩
    exact .inr ⟨kind_unknownFault hlisted hnot, htexts⟩

end Unknown

section Reading

/-- A mapping is taken if all its entries give options texts. -/
theorem decides_map {place : Place} {entries : List (Data × Data)} (hne : entries ≠ []) :
    Decides (ofData? (.map place entries)) (∀ e ∈ entries, IsOption e)
      (fun fault => fault.kind = .options ∧ NamedByTexts (.map place entries)
        ∨ fault.kind = .mismatch ∧ ¬ NamedByTexts (.map place entries))
      fun o => o = ofEntries entries ∧ ∀ field ∈ o.fields, Given (.map place entries) field := by
  have hblank : (Data.map place entries).isBlank = false := by
    simpa [Data.isBlank] using hne
  unfold ofData?
  rw [hblank, if_neg Bool.false_ne_true]
  dsimp only
  split
  · rename_i hfilter
    have hknown : ∀ e ∈ entries, ∃ name ∈ names, e.1 = .str (.plain name) := by
      intro e he
      have hkey := List.filter_eq_nil_iff.mp hfilter e.1 (List.mem_map_of_mem he)
      exact isKnown_iff.mp (by simpa using hkey)
    have htexts : NamedByTexts (.map place entries) := by
      intro e he
      obtain ⟨name, -, hkey⟩ := hknown e he
      exact ⟨_, hkey⟩
    split
    · rename_i key value hfind
      have hvalue : ¬ isText value = true := by simpa using List.find?_some hfind
      refine .of_error rfl (fun h => ?_) (.inl ⟨rfl, htexts⟩)
      exact hvalue (isText_iff.mpr (h _ (List.mem_of_find?_eq_some hfind)).2)
    · rename_i hfind
      have hoptions : ∀ e ∈ entries, IsOption e := by
        intro e he
        have hvalue := List.find?_eq_none.mp hfind e he
        exact ⟨hknown e he, isText_iff.mp (by simpa using hvalue)⟩
      refine .of_ok rfl hoptions ⟨rfl, ?_⟩
      simp only [fields, ofEntries, List.forall_mem_cons]
      refine ⟨?_, ?_, ?_, ?_, ?_, by simp⟩ <;>
        exact given_textOr hoptions (by simp [fields])
  · rename_i hfilter
    obtain ⟨key, hkey⟩ := List.exists_mem_of_ne_nil _ hfilter
    obtain ⟨hmem, hunknown⟩ := List.mem_filter.mp hkey
    obtain ⟨e, he, rfl⟩ := List.mem_map.mp hmem
    refine .of_error rfl (fun h => ?_) (kind_unknownFault_cases place entries)
    rw [isKnown_iff.mpr (h e he).1] at hunknown
    cases hunknown

/-- Data is taken for options or refused, in the latter case as options that are none if no key is
other than a text. -/
theorem decides_ofData? (d : Data) :
    Decides (ofData? d) (Acceptable d)
      (fun fault => fault.kind = .options ∧ NamedByTexts d
        ∨ fault.kind = .mismatch ∧ ¬ NamedByTexts d)
      fun o => ∀ field ∈ o.fields, Given d field := by
  cases hblank : d.isBlank with
  | true =>
    have hentries : d.entries = [] := by
      cases d <;> simp_all [Data.isBlank, Data.entries]
    refine .of_ok (a := {}) (by simp [ofData?, hblank]) (.inl hblank) fun field hfield => ?_
    exact .inr ⟨by simp [hentries], hfield⟩
  | false =>
    by_cases hmap : ∃ place entries, d = .map place entries
    · obtain ⟨place, entries, rfl⟩ := hmap
      have hne : entries ≠ [] := by
        rintro rfl
        cases hblank
      refine (decides_map hne).mono ⟨fun h => .inr ⟨place, entries, rfl, h⟩, ?_⟩ fun _ h => h.2
      rintro (h | ⟨_, _, heq, h⟩)
      · cases hblank.symm.trans h
      · cases heq
        exact h
    · have hread : ofData? d = .error (.optionsNotMapping d.kindName) := by
        cases d <;> simp_all [ofData?]
      refine .of_error hread ?_ (.inl ⟨rfl, ?_⟩)
      · rintro (h | ⟨place, entries, heq, -⟩)
        · cases hblank.symm.trans h
        · exact hmap ⟨place, entries, heq⟩
      · intro e he
        cases d with
        | map place entries => exact absurd ⟨place, entries, rfl⟩ hmap
        | _ => cases he

/-- The order of the entries of a mapping does not count. -/
theorem ofData?_eq_ok_of_perm {place place' : Place} {entries entries' : List (Data × Data)}
    (honce : (entries.map Prod.fst).Nodup) (hperm : entries.Perm entries') {o : Options}
    (h : ofData? (.map place entries) = .ok o) : ofData? (.map place' entries') = .ok o := by
  by_cases hne : entries = []
  · obtain rfl := hne
    obtain rfl := hperm.nil_eq
    exact h
  · have hoptions := (decides_map hne).exists_ok_iff.mp ⟨o, h⟩
    have hnamed : Data.NamedOnce entries := by
      refine ⟨fun e he => ?_, honce⟩
      obtain ⟨⟨name, -, hkey⟩, -⟩ := hoptions e he
      exact ⟨_, hkey⟩
    have hsame : ofEntries entries' = ofEntries entries := by
      simp only [ofEntries, textOr, Data.field?_eq_of_perm hnamed hperm]
    have hne' : entries' ≠ [] := by
      rintro rfl
      exact hne hperm.eq_nil
    obtain ⟨o', ho'⟩ : ∃ o', ofData? (.map place' entries') = .ok o' :=
      (decides_map hne').exists_ok_iff.mpr fun e he => hoptions e (hperm.mem_iff.mpr he)
    rw [ho', ((decides_map hne').fit ho').1, hsame, ((decides_map hne).fit h).1]

end Reading

/-- A document is taken for options exactly if it holds nothing or is a mapping of names of options
to texts that are not empty. Each option then has the text of its entry, or the default if it has no
entry, in whatever order the entries stand. Any other document is refused: as options that are none,
if all its keys are texts, and with a mismatch of kinds, if it is a mapping with another key. -/
theorem options_accepted_iff (d : Data) :
    ((∃ o, ofData? d = .ok o) ↔ Acceptable d)
      ∧ (∀ o, ofData? d = .ok o → ∀ field ∈ o.fields, Given d field)
      ∧ (∀ place entries, d = .map place entries → (entries.map Prod.fst).Nodup →
        ∀ place' entries', entries.Perm entries' →
          ∀ o, ofData? d = .ok o ↔ ofData? (.map place' entries') = .ok o)
      ∧ ∀ fault, ofData? d = .error fault →
        (fault.kind = .options ↔ NamedByTexts d) ∧ (fault.kind = .mismatch ↔ ¬ NamedByTexts d) := by
  have hdecides := decides_ofData? d
  refine ⟨hdecides.exists_ok_iff, fun o => hdecides.fit, ?_, ?_⟩
  · rintro place entries rfl honce place' entries' hperm o
    exact ⟨ofData?_eq_ok_of_perm honce hperm,
      ofData?_eq_ok_of_perm ((hperm.map Prod.fst).nodup_iff.mp honce) hperm.symm⟩
  · intro fault hfault
    rcases hdecides.bad hfault with ⟨hkind, htexts⟩ | ⟨hkind, htexts⟩ <;> simp [hkind, htexts]

def twoOptions : Data := .map .fresh [("support_module", "runtime"), ("origin", "rewriter")]

/-- They are taken in the other order, too, and the other options have the defaults. With an unknown
name among them they are refused as options that are none. -/
theorem twoOptions_accepted :
    let turned : Data := .map .fresh [("origin", "rewriter"), ("support_module", "runtime")]
    let coloured : Data := .map .fresh [("origin", "rewriter"), ("colour", "red")]
    (∃ o, ofData? twoOptions = .ok o ∧ ofData? turned = .ok o
      ∧ Given twoOptions ("origin", o.origin)
      ∧ o = { origin := "rewriter", supportModule := "runtime" })
      ∧ ¬ Acceptable coloured
      ∧ ∃ fault, ofData? coloured = .error fault ∧ fault.kind = .options := by
  intro turned coloured
  have hread : ofData? twoOptions = .ok { origin := "rewriter", supportModule := "runtime" } := rfl
  obtain ⟨-, hgiven, hturned, -⟩ := options_accepted_iff twoOptions
  obtain ⟨haccepted, -, -, hrefused⟩ := options_accepted_iff coloured
  have hcoloured : ofData? coloured = .error (.unknownOptions ["colour"]) := rfl
  have htexts : NamedByTexts coloured := by
    simp [NamedByTexts, Data.entries, coloured]
  refine ⟨⟨_, hread, ?_, hgiven _ hread _ List.mem_cons_self, rfl⟩, fun h => ?_, _, hcoloured,
    (hrefused _ hcoloured).1.mpr htexts⟩
  · exact (hturned _ _ rfl (by simp) _ _ (.swap _ _ []) _).mp hread
  · obtain ⟨o, ho⟩ := haccepted.mpr h
    cases hcoloured.symm.trans ho

/-- A mapping with a number as its key is refused with a mismatch of kinds. -/
theorem numberedOption_mismatch :
    let d : Data := .map .fresh [(.int 1, "x")]
    ¬ Acceptable d ∧ ∃ fault, ofData? d = .error fault ∧ fault.kind = .mismatch
      ∧ fault.kind ≠ .options := by
  intro d
  refine ⟨?_, _, rfl, rfl, nofun⟩
  rintro (h | ⟨_, _, heq, h⟩)
  · cases h
  · obtain ⟨-, rfl⟩ := Data.map.inj heq
    obtain ⟨⟨name, -, hkey⟩, -⟩ := h _ List.mem_cons_self
    cases hkey

end Options

end RuleLowering
