import RuleLowering.Diagnostic
import RuleLowering.Example
import RuleLowering.Proofs.Splice

/-!
# Files in effect

A diagnostic against a form names the file of the last file mark in front of it. The marks that
end the two generated blocks restore the file in effect at the end of the leading forms. Behind
the first block that is right. Behind the second one it is right only if the header leaves the
same file in effect, since the block ends with the mark of the leading forms and not with the
last one of the header.
-/
namespace RuleLowering

/-- The file in effect behind a form, given the one in effect at it. -/
def Form.fileAfter (file : Data) : Form → Data
  | .file f => f.file
  | _ => file

def fileAfter (file : Data) (forms : List Form) : Data := forms.foldl Form.fileAfter file

def located (file : Data) : List Form → List (Data × Form)
  | [] => []
  | f :: rest => (file, f) :: located (f.fileAfter file) rest

@[simp] theorem fileAfter_nil (file : Data) : fileAfter file [] = file := rfl

@[simp] theorem fileAfter_cons (file : Data) (f : Form) (rest : List Form) :
    fileAfter file (f :: rest) = fileAfter (f.fileAfter file) rest := rfl

@[simp] theorem fileAfter_append (file : Data) (xs ys : List Form) :
    fileAfter file (xs ++ ys) = fileAfter (fileAfter file xs) ys :=
  List.foldl_append

@[simp] theorem length_located (file : Data) (forms : List Form) :
    (located file forms).length = forms.length := by
  induction forms generalizing file with
  | nil => rfl
  | cons f rest ih => simp [located, ih]

@[simp] theorem located_append (file : Data) (xs ys : List Form) :
    located file (xs ++ ys) = located file xs ++ located (fileAfter file xs) ys := by
  induction xs generalizing file with
  | nil => rfl
  | cons f xs ih => simp [located, ih]

def locatedMarkers (places : List (Data × Form)) : List (Data × Marker) :=
  places.filterMap fun
    | (file, .marker m) => some (file, m)
    | _ => none

/-- The diagnostics of a module are those of its markers, each against the file in effect. -/
theorem diagnostics_eq_located (file : Data) (forms : List Form) :
    diagnostics file forms =
      (locatedMarkers (located file forms)).mapM fun p => p.2.diagnostic p.1 := by
  induction forms generalizing file with
  | nil => rfl
  | cons f rest ih =>
    cases f with
    | marker m => simp [diagnostics, located, locatedMarkers, Form.fileAfter, ih]
    | _ => exact ih _

/-- Located forms, each replaced by what takes its place, at the same file. -/
def locatedImages (o : Options) (places : List (Data × Form)) : List (Data × Form) :=
  places.flatMap fun p => (p.2.image o).map (p.1, ·)

@[simp] theorem locatedImages_append (o : Options) (xs ys : List (Data × Form)) :
    locatedImages o (xs ++ ys) = locatedImages o xs ++ locatedImages o ys := by
  simp [locatedImages]

/-- Markers leave the file in effect as it is. -/
theorem fileAfter_markers (file : Data) (ms : List Marker) :
    fileAfter file (ms.map .marker) = file := by
  induction ms with
  | nil => rfl
  | cons m ms ih => exact ih

theorem located_markers (file : Data) (ms : List Marker) :
    located file (ms.map .marker) = (ms.map .marker).map (file, ·) := by
  induction ms with
  | nil => rfl
  | cons m ms ih => exact congrArg ((file, Form.marker m) :: ·) ih

namespace Form

/-- What takes the place of a form leaves the same file in effect. -/
theorem fileAfter_image (o : Options) (f : Form) (file : Data) :
    RuleLowering.fileAfter file (f.image o) = f.fileAfter file := by
  cases f with
  | rule r => exact fileAfter_markers file _
  | _ => rfl

/-- All that takes the place of a form stands in the same file. -/
theorem located_image (o : Options) (f : Form) (file : Data) :
    located file (f.image o) = (f.image o).map (file, ·) := by
  cases f with
  | rule r => exact congrArg (_ :: ·) (located_markers file _)
  | _ => rfl

end Form

/-- The flat rewrite keeps the files in effect. -/
theorem located_rewritten (o : Options) (file : Data) (forms : List Form) :
    located file (rewritten o forms) = locatedImages o (located file forms) := by
  induction forms generalizing file with
  | nil => rfl
  | cons f rest ih =>
    rw [rewritten_cons, located_append, Form.located_image, Form.fileAfter_image, ih]
    rfl

namespace ModuleScan

/-- The mark that a scan ends with names the file in effect behind the leading forms. -/
theorem file_mark (mark : FileMark) (forms : List Form) :
    (ofForms mark forms).mark.file = fileAfter mark.file (ofForms mark forms).leading := by
  fun_induction ofForms mark forms with
  | case1 mark f rest ih => exact ih
  | case2 mark m rest ih => exact ih
  | case3 mark m rest => rfl
  | case4 mark rest _ _ _ => rfl

variable {α : Type}

/-- What stands at the places of a lowered module that are not of the two generated blocks. -/
def withoutBlocks (s : ModuleScan) (o : Options) (places : List α) : List α :=
  let n := s.leading.length
  let k := (s.markers o.origin).length + 3
  let m := s.header.length
  places.take n ++ (places.drop (n + k)).take m ++ places.drop (n + k + m + 3)

theorem withoutBlocks_append {s : ModuleScan} {o : Options} {leading header body : List α}
    {first second : List α} (hleading : leading.length = s.leading.length)
    (hfirst : first.length = (s.markers o.origin).length + 3)
    (hheader : header.length = s.header.length) (hsecond : second.length = 3) :
    s.withoutBlocks o (leading ++ first ++ header ++ second ++ body) =
      leading ++ header ++ body := by
  simp only [withoutBlocks, ← hleading, ← hheader]
  rw [← hfirst, ← hsecond]
  simp only [List.append_assoc, ← List.drop_drop, List.take_left, List.drop_left]

/-- Both blocks restore the file of the mark that the scan ends with. -/
theorem fileAfter_exportBlock (s : ModuleScan) (o : Options) (rules : List Signature)
    (file : Data) : fileAfter file (s.exportBlock o rules) = s.mark.file := by
  rw [exportBlock, fileAfter_append]
  rfl

theorem fileAfter_introspectionBlock (s : ModuleScan) (o : Options) (rules : List Signature)
    (file : Data) : fileAfter file (s.introspectionBlock o rules) = s.mark.file := rfl

end ModuleScan

open ModuleScan (scan)

/-- Behind the leading forms the mark of the scan tells the file in effect. -/
theorem fileAfter_leading (forms : List Form) :
    fileAfter "nofile" (scan forms).leading = (scan forms).mark.file :=
  (ModuleScan.file_mark .standard forms).symm

/-- The first form of a list tells the file in effect at its start. -/
theorem file_eq_of_located_eq {o : Options} {file file' : Data} {forms : List Form}
    (hne : forms ≠ [])
    (h : locatedImages o (located file forms) = locatedImages o (located file' forms)) :
    file = file' := by
  cases forms with
  | nil => exact absurd rfl hne
  | cons f rest =>
    cases f with
    | _ => exact congrArg Prod.fst (List.cons.inj h).1

/-- The parts in front of the body are their own rewrite. -/
theorem rewritten_front (o : Options) (forms : List Form) :
    rewritten o ((scan forms).leading ++ (scan forms).header) =
      (scan forms).leading ++ (scan forms).header := by
  rw [rewritten_append, ModuleScan.rewritten_leading, ModuleScan.rewritten_header]

/-- Apart from the generated blocks a lowered module is the flat rewrite. -/
theorem withoutBlocks_lowered {o : Options} {forms out : List Form} (h : lower o forms = .ok out) :
    (scan forms).withoutBlocks o out = rewritten o forms := by
  obtain ⟨-, rules, -, rfl⟩ := lower_eq_ok.mp h
  rw [ModuleScan.withoutBlocks_append rfl (ModuleScan.length_exportBlock _ o rules) rfl rfl,
    List.append_assoc]
  exact (ModuleScan.rewritten_parts o forms).symm

/-- Up to the header each form of a lowered module keeps the file in effect at it. The body is
taken to stand in the file of the leading forms. -/
theorem located_lowered {o : Options} {forms out : List Form} (h : lower o forms = .ok out) :
    let s := scan forms
    s.withoutBlocks o (located "nofile" out) =
      locatedImages o (located "nofile" (s.leading ++ s.header))
        ++ locatedImages o (located (fileAfter "nofile" s.leading) s.body) := by
  intro s
  obtain ⟨-, rules, -, rfl⟩ := lower_eq_ok.mp h
  have hmark : fileAfter "nofile" s.leading = s.mark.file := fileAfter_leading forms
  have hfront : locatedImages o (located "nofile" (s.leading ++ s.header)) =
      located "nofile" s.leading ++ located s.mark.file s.header := by
    rw [← located_rewritten, rewritten_front, located_append, hmark]
  have hplaces : located "nofile" (s.leading ++ s.exportBlock o rules ++ s.header
      ++ s.introspectionBlock o rules ++ rewritten o s.body) =
      located "nofile" s.leading ++ located s.mark.file (s.exportBlock o rules)
        ++ located s.mark.file s.header
        ++ located (fileAfter s.mark.file s.header) (s.introspectionBlock o rules)
        ++ located s.mark.file (rewritten o s.body) := by
    simp only [located_append, fileAfter_append, ModuleScan.fileAfter_exportBlock,
      ModuleScan.fileAfter_introspectionBlock, hmark]
  rw [hplaces, ModuleScan.withoutBlocks_append (length_located _ _)
    ((length_located _ _).trans (s.length_exportBlock o rules)) (length_located _ _)
    (length_located _ _), hfront, hmark, located_rewritten]

/-- Apart from the generated blocks a lowered module is the flat rewrite of its forms. All of them
keep the file in effect exactly if there is no body or the header leaves the file of the leading
forms in effect; otherwise the body is taken to stand in that file. -/
theorem locations_kept_iff {o : Options} {forms out : List Form} (h : lower o forms = .ok out) :
    let s := scan forms
    s.withoutBlocks o out = rewritten o forms
      ∧ s.withoutBlocks o (located "nofile" out) =
        locatedImages o (located "nofile" (s.leading ++ s.header))
          ++ locatedImages o (located (fileAfter "nofile" s.leading) s.body)
      ∧ (s.withoutBlocks o (located "nofile" out) = locatedImages o (located "nofile" forms) ↔
        s.body = []
          ∨ fileAfter "nofile" (s.leading ++ s.header) = fileAfter "nofile" s.leading) := by
  intro s
  have hout := located_lowered h
  have hforms : locatedImages o (located "nofile" forms) =
      locatedImages o (located "nofile" (s.leading ++ s.header))
        ++ locatedImages o (located (fileAfter "nofile" (s.leading ++ s.header)) s.body) := by
    rw [← locatedImages_append, ← located_append, List.append_assoc, ModuleScan.parts_append]
  refine ⟨withoutBlocks_lowered h, hout, ?_⟩
  rw [hout, hforms, List.append_cancel_left_eq]
  constructor
  · intro heq
    by_cases hbody : s.body = []
    · exact .inl hbody
    · exact .inr (file_eq_of_located_eq hbody heq).symm
  · rintro (hbody | hfile)
    · rw [hbody]
      rfl
    · rw [hfile]

/-- A header without file marks keeps all files, as in the example module. -/
theorem family_locations_kept :
    let forms := Example.family true
    ∃ out, lower {} forms = .ok out
      ∧ (scan forms).withoutBlocks {} (located "nofile" out) =
        locatedImages {} (located "nofile" forms) := by
  intro forms
  have h : lower {} forms = .ok _ := rfl
  exact ⟨_, h, (locations_kept_iff h).2.2.mpr (.inr rfl)⟩

def foreignMarker : Marker := ⟨"erl_parse", .foreign "syntax error", 4⟩

/-- A module whose header names another file than its leading forms. -/
def includedHeader : List Form :=
  [ .module ⟨"m", none, 1⟩,
    .file ⟨"a.hrl", 1, 2⟩,
    .function ⟨"f", [⟨[], .absent, [.atom "ok" 3], 3⟩], 3⟩,
    .marker foreignMarker ]

/-- Such a header is forgotten: a marker of the body is reported against the wrong file. -/
theorem includedHeader_file_lost :
    ∃ out, lower {} includedHeader = .ok out
      ∧ locatedMarkers (located "nofile" includedHeader) = [(.str "a.hrl", foreignMarker)]
      ∧ locatedMarkers (located "nofile" out) = [(.str "nofile", foreignMarker)]
      ∧ (scan includedHeader).withoutBlocks {} (located "nofile" out) ≠
        locatedImages {} (located "nofile" includedHeader) := by
  have h : lower {} includedHeader = .ok _ := rfl
  refine ⟨_, h, rfl, rfl, fun hkept => ?_⟩
  have hmarkers := congrArg locatedMarkers hkept
  have hfile : [(Data.str "nofile", foreignMarker)] = [(.str "a.hrl", foreignMarker)] := hmarkers
  simp at hfile

end RuleLowering
