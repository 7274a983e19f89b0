import Mathlib.Data.List.Forall2
import RuleLowering.Example
import RuleLowering.Proofs.Exports
import RuleLowering.Proofs.Location

/-!
# Where the generated forms stand

The two generated blocks stand among attributes and markers, in front of the first function and in
front of any end of file, and each is opened by a mark for the file that generates it. Each is also
closed by a mark of the input, or by the standard one: the file in effect at a form that was there
before is one that the input names in front of that form, or none.
-/
namespace RuleLowering

namespace Form

/-- Forms that may stand in front of the generated function. -/
def isFront (f : Form) : Bool := f.isAttribute || f.kind == .marker

theorem isFront_iff {f : Form} : f.isFront = true ↔ f.isAttribute = true ∨ ∃ m, f = .marker m := by
  cases f <;> simp [isFront, isAttribute, kind]

end Form

/-- The forms that take the place of some forms, each with the forms in front of the one whose
place it takes. -/
def sourced (o : Options) (before : List Form) : List Form → List (List Form × Form)
  | [] => []
  | f :: rest => (f.image o).map (before, ·) ++ sourced o (before ++ [f]) rest

theorem sourced_append (o : Options) (before xs ys : List Form) :
    sourced o before (xs ++ ys) = sourced o before xs ++ sourced o (before ++ xs) ys := by
  induction xs generalizing before with
  | nil => simp [sourced]
  | cons f xs ih => simp [sourced, ih]

theorem subset_of_mem_sourced {o : Options} {before forms : List Form} {source : List Form × Form}
    (h : source ∈ sourced o before forms) : source.1 ⊆ before ++ forms := by
  induction forms generalizing before with
  | nil => cases h
  | cons f rest ih =>
    rcases List.mem_append.mp h with hfirst | hrest
    · obtain ⟨g, -, rfl⟩ := List.mem_map.mp hfirst
      exact List.subset_append_left _ _
    · simpa using ih hrest

/-- A file that is named by one of the given forms, or the standard one where none is named. -/
def NamedIn (before : List Form) (file : Data) : Prop :=
  file = .str "nofile" ∨ ∃ m, .file m ∈ before ∧ file = m.file

theorem NamedIn.mono {xs ys : List Form} {file : Data} (h : NamedIn xs file) (hsub : xs ⊆ ys) :
    NamedIn ys file := by
  rcases h with h | ⟨m, hm, h⟩
  · exact .inl h
  · exact .inr ⟨m, hsub hm, h⟩

/-- One more form keeps the file in effect named. -/
theorem NamedIn.fileAfter_form {before : List Form} {file : Data} (h : NamedIn before file)
    (f : Form) : NamedIn (before ++ [f]) (f.fileAfter file) := by
  cases f with
  | file m => exact .inr ⟨m, by simp, rfl⟩
  | _ => exact h.mono (List.subset_append_left _ _)

theorem NamedIn.fileAfter {before : List Form} {file : Data} (h : NamedIn before file)
    (forms : List Form) : NamedIn (before ++ forms) (fileAfter file forms) := by
  induction forms generalizing before file with
  | nil => simpa using h
  | cons f rest ih => simpa using ih (h.fileAfter_form f)

/-- A form that takes the place of another, in a file that is named in front of the other. -/
def Attributed (place : Data × Form) (source : List Form × Form) : Prop :=
  place.2 = source.2 ∧ NamedIn source.1 place.1

/-- If the file in effect at the start of some forms is named in front of them, so is the file in
effect at each of them. -/
theorem attributed_located {o : Options} {before : List Form} {file : Data}
    (h : NamedIn before file) (forms : List Form) :
    List.Forall₂ Attributed (locatedImages o (located file forms)) (sourced o before forms) := by
  induction forms generalizing before file with
  | nil => exact .nil
  | cons f rest ih =>
    have hfirst : List.Forall₂ Attributed ((f.image o).map (file, ·))
        ((f.image o).map (before, ·)) := by
      rw [List.forall₂_map_left_iff, List.forall₂_map_right_iff, List.forall₂_same]
      exact fun g _ => ⟨rfl, h⟩
    exact List.rel_append hfirst (ih (h.fileAfter_form f))

namespace ModuleScan

theorem isFront_of_mem_leading {mark : FileMark} {forms : List Form} {f : Form}
    (h : f ∈ (ofForms mark forms).leading) : f.isFront = true := by
  rcases cases_of_mem_leading h with ⟨m, rfl⟩ | ⟨m, rfl⟩ | ⟨m, rfl⟩ <;> rfl

theorem isFront_of_mem_exportBlock {s : ModuleScan} {o : Options} {rules : List Signature}
    {f : Form} (h : f ∈ s.exportBlock o rules) : f.isFront = true := by
  simp only [exportBlock, List.mem_append, List.mem_map, List.mem_cons, List.not_mem_nil,
    or_false] at h
  rcases h with ⟨m, -, rfl⟩ | rfl | rfl | rfl
  · rfl
  · rfl
  · rfl
  · rfl

/-- Only attributes and markers stand in front of the generated function. -/
theorem isFront_of_mem_beforeIntrospection {forms : List Form} {o : Options}
    {rules : List Signature} {f : Form} (h : f ∈ (scan forms).beforeIntrospection o rules) :
    f.isFront = true := by
  simp only [beforeIntrospection, List.mem_append, List.mem_singleton] at h
  rcases h with ((h | h) | h) | rfl
  · exact isFront_of_mem_leading h
  · exact isFront_of_mem_exportBlock h
  · rw [Form.isFront, isAttribute_of_mem_header h]
    rfl
  · rfl

theorem fileAfter_beforeExports (s : ModuleScan) (o : Options) (file : Data) :
    fileAfter file (s.beforeExports o) = .str o.origin := by
  rw [beforeExports, fileAfter_append]
  rfl

theorem fileAfter_beforeIntrospection (s : ModuleScan) (o : Options) (rules : List Signature)
    (file : Data) : fileAfter file (s.beforeIntrospection o rules) = .str o.origin := by
  rw [beforeIntrospection, fileAfter_append]
  rfl

/-- Behind the generated function and its mark there is the rewritten body only. -/
theorem take_lowered (s : ModuleScan) (o : Options) (rules : List Signature)
    (later : List Form) :
    (s.leading ++ s.exportBlock o rules ++ s.header ++ s.introspectionBlock o rules ++ later).take
        (s.introspectionPlace o + 2) =
      s.beforeIntrospection o rules
        ++ [.function (o.introspectionFunction rules), .file s.mark] := by
  rw [header_append_introspectionBlock, ← s.length_beforeIntrospection o rules,
    List.take_length_add_append]
  rfl

end ModuleScan

open ModuleScan (scan)

/-- If a module ends with an end of file, so does its body. -/
theorem exists_body_eq_append_eof {forms : List Form} {pos : Data}
    (h : forms.getLast? = some (.eof pos)) : ∃ init, (scan forms).body = init ++ [.eof pos] := by
  have hparts := ModuleScan.parts_append forms
  rw [← hparts, ← List.append_assoc, List.getLast?_append] at h
  cases hlast : (scan forms).body.getLast? with
  | some f =>
    rw [hlast] at h
    obtain rfl := Option.some.inj h
    exact List.getLast?_eq_some_iff.mp hlast
  | none =>
    rw [hlast, Option.none_or] at h
    rcases List.mem_append.mp (List.mem_of_getLast? h) with hmem | hmem
    · cases ModuleScan.isFront_of_mem_leading hmem
    · cases ModuleScan.isAttribute_of_mem_header hmem

theorem getLast?_lowered {o : Options} {forms out : List Form} {pos : Data}
    (h : lower o forms = .ok out) (hlast : forms.getLast? = some (.eof pos)) :
    out.getLast? = some (.eof pos) := by
  obtain ⟨-, rules, -, rfl⟩ := lower_eq_ok.mp h
  obtain ⟨init, hinit⟩ := exists_body_eq_append_eof hlast
  have hbody : rewritten o (scan forms).body = rewritten o init ++ [.eof pos] := by
    rw [hinit, rewritten_append]
    rfl
  rw [hbody, ← List.append_assoc, List.getLast?_concat]

/-- Apart from the generated blocks each form of a lowered module is attributed to a file that is
named in front of the form whose place it takes, or to none. -/
theorem attributed_lowered {o : Options} {forms out : List Form} (h : lower o forms = .ok out) :
    List.Forall₂ Attributed ((scan forms).withoutBlocks o (located "nofile" out))
      (sourced o [] forms) := by
  have hstart : NamedIn [] "nofile" := .inl rfl
  have hfront := attributed_located (o := o) hstart ((scan forms).leading ++ (scan forms).header)
  have hfile : NamedIn ((scan forms).leading ++ (scan forms).header)
      (fileAfter "nofile" (scan forms).leading) :=
    (hstart.fileAfter (scan forms).leading).mono (List.subset_append_left _ _)
  have hbody := attributed_located (o := o) hfile (scan forms).body
  have hsourced : sourced o [] forms = sourced o [] ((scan forms).leading ++ (scan forms).header)
      ++ sourced o ((scan forms).leading ++ (scan forms).header) (scan forms).body := by
    have hparts := sourced_append o [] ((scan forms).leading ++ (scan forms).header)
      (scan forms).body
    rwa [List.append_assoc, ModuleScan.parts_append, ← List.append_assoc] at hparts
  rw [located_lowered h, hsourced]
  exact List.rel_append hfront hbody

/-- In a lowered module only attributes and markers stand in front of the generated function, so
that it is the first function and stands behind the export list. No end of file stands in front of
a generated form, and one at the end of the module stays there. The file in effect at the export
list and at the function is that of the options, and at any other form one that is named in front of
the form whose place it takes, or none: no form is taken to be of the file of the options unless
the module itself names that file. -/
theorem generated_forms_placed {o : Options} {forms out : List Form} (h : lower o forms = .ok out) :
    let s := scan forms
    ∃ rules, signatures? forms = .ok rules
      ∧ out = s.leading ++ ((s.markers o.origin).map .marker
          ++ [.file (.start o.origin), .exports (o.exportList rules), .file s.mark])
        ++ s.header
        ++ [.file (.start o.origin), .function (o.introspectionFunction rules), .file s.mark]
        ++ rewritten o s.body
      ∧ out[s.exportPlace o]? = some (.exports (o.exportList rules))
      ∧ out[s.introspectionPlace o]? = some (.function (o.introspectionFunction rules))
      ∧ s.exportPlace o < s.introspectionPlace o
      ∧ (∀ f ∈ out.take (s.introspectionPlace o), f.isAttribute = true ∨ ∃ m, f = .marker m)
      ∧ (∀ pos, .eof pos ∉ out.take (s.introspectionPlace o + 2))
      ∧ (∀ pos, forms.getLast? = some (.eof pos) → out.getLast? = some (.eof pos))
      ∧ fileAfter "nofile" (out.take (s.exportPlace o)) = .str o.origin
      ∧ fileAfter "nofile" (out.take (s.introspectionPlace o)) = .str o.origin
      ∧ List.Forall₂ Attributed (s.withoutBlocks o (located "nofile" out)) (sourced o [] forms)
      ∧ ∀ place ∈ s.withoutBlocks o (located "nofile" out), place.1 = .str o.origin →
        NamedIn forms (.str o.origin) := by
  intro s
  obtain ⟨-, rules, hrules, hout⟩ := lower_eq_ok.mp h
  have hexport := getElem?_exportPlace h hrules
  have hfunction := getElem?_introspectionPlace h hrules
  have hlast : ∀ pos, forms.getLast? = some (.eof pos) → out.getLast? = some (.eof pos) :=
    fun pos => getLast?_lowered h
  have hattributed := attributed_lowered h
  have hexportFront : out.take (s.exportPlace o) = s.beforeExports o := by
    rw [hout, List.append_assoc _ _ (rewritten o _), List.append_assoc _ s.header,
      ModuleScan.leading_append_exportBlock]
    exact List.take_left' (s.length_beforeExports o)
  have hblocks : out.take (s.introspectionPlace o + 2) = s.beforeIntrospection o rules
      ++ [.function (o.introspectionFunction rules), .file s.mark] := by
    rw [hout]
    exact ModuleScan.take_lowered s o rules _
  have hfunctionFront : out.take (s.introspectionPlace o) = s.beforeIntrospection o rules := by
    rw [hout, ModuleScan.header_append_introspectionBlock]
    exact List.take_left' (s.length_beforeIntrospection o rules)
  have hfront : ∀ f ∈ s.beforeIntrospection o rules, f.isFront = true :=
    fun f => ModuleScan.isFront_of_mem_beforeIntrospection
  refine ⟨rules, hrules, hout, hexport, hfunction, ?_, ?_, ?_, hlast, ?_, ?_, hattributed, ?_⟩
  · rw [ModuleScan.introspectionPlace]
    omega
  · rw [hfunctionFront]
    exact fun f hf => Form.isFront_iff.mp (hfront f hf)
  · intro pos hpos
    rw [hblocks, List.mem_append] at hpos
    rcases hpos with hpos | hpos
    · cases hfront _ hpos
    · simp at hpos
  · rw [hexportFront]
    exact ModuleScan.fileAfter_beforeExports s o _
  · rw [hfunctionFront]
    exact ModuleScan.fileAfter_beforeIntrospection s o rules _
  · intro place hplace horigin
    obtain ⟨n, rfl⟩ := List.mem_iff_get.mp hplace
    have hn : n < (sourced o [] forms).length := hattributed.length_eq ▸ n.isLt
    obtain ⟨-, hnamed⟩ := hattributed.get n.isLt hn
    exact horigin ▸ hnamed.mono (subset_of_mem_sourced (List.get_mem _ _))

/-- A module with a header that names a file, a rule in another file and an end of file. -/
def twoFiles : List Form :=
  [ .file ⟨"m.erl", 1, 1⟩, .marker ⟨"epp", .foreign "undefined macro", 1⟩,
    .module ⟨"m", some [], 1⟩, .file ⟨"a.hrl", 1, 2⟩, .file ⟨"m.erl", 3, 3⟩,
    .file ⟨"b.hrl", 1, 4⟩, Example.parent, .file ⟨"m.erl", 5, 5⟩, Example.count, .eof 14 ]

/-- Its generated function stands in the twelfth place, behind attributes and markers only, in the
file of the transformation, and its end of file stays at the end. -/
theorem twoFiles_placed :
    ∃ out rules, lower {} twoFiles = .ok out
      ∧ out[5]? = some (.exports (Options.exportList {} rules))
      ∧ out[11]? = some (.function (Options.introspectionFunction {} rules))
      ∧ (∀ f ∈ out.take 11, f.isAttribute = true ∨ ∃ m, f = .marker m)
      ∧ out.getLast? = some (.eof 14)
      ∧ fileAfter "nofile" (out.take 11) = .str "henshin_module"
      ∧ List.Forall₂ Attributed ((scan twoFiles).withoutBlocks {} (located "nofile" out))
        (sourced {} [] twoFiles) := by
  have h : lower {} twoFiles = .ok _ := rfl
  obtain ⟨rules, -, -, hexport, hfunction, -, hfront, -, hlast, -, hfile, hattributed, -⟩ :=
    generated_forms_placed h
  exact ⟨_, rules, h, hexport, hfunction, hfront, hlast 14 rfl, hfile, hattributed⟩

end RuleLowering
