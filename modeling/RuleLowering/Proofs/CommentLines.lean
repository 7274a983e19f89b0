import RuleLowering.Proofs.Inventory
import RuleLowering.Proofs.OneLine
import RuleLowering.Source.Printer

/-!
# Markers as comments

Two per cent signs stand in front of a printed marker. What it shows is any data, and a line feed in
there begins a line of its own. Only a text shown as itself has line feeds, so that whether a marker
stays a comment is a question of at most three texts, and whether the other lines of a source are
left as they are is a question of the markers put into it.
-/
namespace RuleLowering

namespace Text

theorem glyphLines_ne_nil (gs : List Glyph) : glyphLines gs ≠ [] := by
  fun_cases glyphLines gs <;> simp_all

/-- The lines of two texts with a line feed between them are those of both. -/
theorem glyphLines_append_cons (gs rest : List Glyph) :
    glyphLines (gs ++ .char '\n' :: rest) = glyphLines gs ++ glyphLines rest := by
  induction gs with
  | nil => rfl
  | cons g gs ih =>
    obtain ⟨line, others, hlines⟩ := List.exists_cons_of_ne_nil (glyphLines_ne_nil gs)
    rw [List.cons_append, glyphLines, glyphLines, ih, hlines]
    split <;> rfl

/-- Texts written with a line feed behind each have the lines of all of them, and an empty line
behind the last line feed. -/
theorem glyphLines_joined {texts : List Text} (htexts : texts ≠ []) :
    glyphLines (join "\n" texts ++ ("\n" : Text)).glyphs =
      texts.flatMap (fun t => glyphLines t.glyphs) ++ [[]] := by
  fun_induction join "\n" texts with
  | case1 => exact absurd rfl htexts
  | case2 t =>
    rw [glyphs_append, List.flatMap_singleton]
    exact glyphLines_append_cons t.glyphs []
  | case3 t rest hrest ih =>
    have hglyphs : (t ++ ("\n" : Text) ++ join "\n" rest ++ ("\n" : Text)).glyphs =
        t.glyphs ++ .char '\n' :: (join "\n" rest ++ ("\n" : Text)).glyphs := by
      simp
    rw [hglyphs, glyphLines_append_cons, ih (by simpa using hrest), List.flatMap_cons,
      List.append_assoc]

/-- Whether a line begins with two per cent signs. -/
def isComment : List Glyph → Bool
  | a :: b :: _ => a = .char '%' && b = .char '%'
  | _ => false

/-- Whether every line feed is followed by two per cent signs. -/
def marksLines : List Glyph → Bool
  | [] => true
  | g :: rest => (g ≠ .char '\n' || isComment rest) && marksLines rest

/-- What is looked at for the signs lies in front of the first line feed. -/
theorem isComment_takeWhile (gs : List Glyph) :
    isComment (gs.takeWhile (· ≠ .char '\n')) = isComment gs := by
  match gs with
  | [] => rfl
  | [a] => by_cases ha : a = .char '\n' <;> simp [isComment, ha]
  | a :: b :: gs =>
    by_cases ha : a = .char '\n' <;> by_cases hb : b = .char '\n' <;> simp [isComment, ha, hb]

/-- The first line reaches to the first line feed, and the others are comments where the line feeds
are followed by the signs. -/
theorem exists_glyphLines_eq (gs : List Glyph) :
    ∃ others, glyphLines gs = gs.takeWhile (· ≠ .char '\n') :: others
      ∧ others.all isComment = marksLines gs := by
  induction gs with
  | nil => exact ⟨[], rfl, rfl⟩
  | cons g gs ih =>
    obtain ⟨others, hlines, hothers⟩ := ih
    by_cases hg : g = .char '\n'
    · refine ⟨glyphLines gs, by simp [glyphLines, hg], ?_⟩
      rw [hlines, List.all_cons, isComment_takeWhile, hothers, marksLines]
      simp [hg]
    · refine ⟨others, by simp [glyphLines, hg, hlines], ?_⟩
      rw [hothers, marksLines]
      simp [hg]

/-- All lines of a text are comments if it begins with the signs and marks its further lines. -/
theorem all_glyphLines (gs : List Glyph) :
    (glyphLines gs).all isComment = (isComment gs && marksLines gs) := by
  obtain ⟨others, hlines, hothers⟩ := exists_glyphLines_eq gs
  rw [hlines, List.all_cons, isComment_takeWhile, hothers]

/-- A piece that is no sign ends what is looked at. -/
theorem isComment_append_cons (gs : List Glyph) {g : Glyph} (hg : g ≠ .char '%')
    (rest : List Glyph) : isComment (gs ++ g :: rest) = isComment gs := by
  match gs with
  | [] => cases rest <;> simp [isComment, hg]
  | [a] => simp [isComment, hg]
  | a :: b :: gs => simp [isComment]

/-- In front of a colon a text marks its lines by itself. -/
theorem marksLines_append_colon (gs rest : List Glyph) :
    marksLines (gs ++ .char ':' :: rest) = (marksLines gs && marksLines rest) := by
  induction gs with
  | nil => simp [marksLines]
  | cons g gs ih =>
    rw [List.cons_append, marksLines, marksLines, ih, isComment_append_cons gs (by decide),
      Bool.and_assoc]

/-- Nothing has to be marked in front of the first line feed. -/
theorem marksLines_append {s : String} (hs : OneLine s) (gs : List Glyph) :
    marksLines (s.toList.map .char ++ gs) = marksLines gs := by
  unfold OneLine at hs
  generalize s.toList = cs at hs
  induction cs with
  | nil => rfl
  | cons c cs ih =>
    obtain ⟨hc, hcs⟩ := not_or.mp (mt List.mem_cons.mpr hs)
    rw [List.map_cons, List.cons_append, marksLines, ih hcs]
    simp [Ne.symm hc]

/-- A comment in front makes comments of all lines that are marked. -/
theorem forall_isComment_iff {s : String} (hs : OneLine s) (gs : List Glyph)
    (hcomment : isComment (s.toList.map .char ++ gs) = true) :
    (∀ line ∈ glyphLines (s.toList.map .char ++ gs), isComment line = true) ↔
      marksLines gs = true := by
  rw [← List.all_eq_true, all_glyphLines, hcomment, marksLines_append hs, Bool.true_and]

@[simp] theorem isEmpty_plain (s : String) : (plain s).isEmpty = s.isEmpty := rfl

theorem isEmpty_iff {t : Text} : t.isEmpty = true ↔ t.glyphs = [] := by
  cases t <;> simp [isEmpty, glyphs]

@[simp] theorem isEmpty_append (s t : Text) : (s ++ t).isEmpty = (s.isEmpty && t.isEmpty) := by
  rw [Bool.eq_iff_iff, Bool.and_eq_true, isEmpty_iff, isEmpty_iff, isEmpty_iff, glyphs_append,
    List.append_eq_nil_iff]

def codeLines (t : Text) : List (List Glyph) :=
  (glyphLines t.glyphs).filter fun line => !isComment line

theorem codeLines_eq_nil_iff {t : Text} :
    t.codeLines = [] ↔ ∀ line ∈ glyphLines t.glyphs, isComment line = true := by
  simp [codeLines]

theorem codeLines_joined {texts : List Text} (htexts : texts ≠ []) :
    (join "\n" texts ++ ("\n" : Text)).codeLines = texts.flatMap codeLines ++ [[]] := by
  rw [codeLines, glyphLines_joined htexts, List.filter_append, List.filter_flatMap]
  rfl

end Text

open Text (glyphLines isComment marksLines codeLines)

/-- Data other than a text is displayed on one line. -/
theorem Data.marksLines_display_iff {d : Data} :
    marksLines d.display.glyphs = true ↔ ∀ t, d = .str t → marksLines t.glyphs = true := by
  by_cases htext : ∃ t, d = .str t
  · obtain ⟨t, rfl⟩ := htext
    simp
  · have hnot : ∀ t, d ≠ .str t := fun t ht => htext ⟨t, ht⟩
    obtain ⟨s, hs, hline⟩ := Data.display_of_not_text hnot
    have hmarks := Text.marksLines_append hline []
    rw [List.append_nil] at hmarks
    rw [hs, Text.glyphs_plain, hmarks]
    exact iff_of_true rfl fun t ht => absurd ht (hnot t)

namespace Marker

open Source (Mode)

structure IsShowable (mode : Mode) (m : Marker) : Prop where
  origin : m.origin.isWritable = true
  words : ∀ d, m.descriptor = .foreign d → d.isWritable = true
  pos : mode = .annotated → m.pos.isWritable = true

/-- In each text that a marker shows as itself, two per cent signs follow every line feed. -/
structure StaysComment (mode : Mode) (m : Marker) : Prop where
  origin : ∀ t, m.origin = .str t → marksLines t.glyphs = true
  words : ∀ t, m.descriptor = .foreign (.str t) → marksLines t.glyphs = true
  pos : mode = .annotated → ∀ t, m.pos = .str t → marksLines t.glyphs = true

end Marker

namespace Source

variable {mode : Mode}

theorem descriptor_settles (d : Descriptor) :
    Settles (descriptor d) (∀ x, d = .foreign x → x.isWritable = true) .numberTooLong fun words =>
      marksLines words.glyphs = true ↔ ∀ t, d = .foreign (.str t) → marksLines t.glyphs = true := by
  cases d with
  | violation v =>
    refine .of_ok rfl (fun x hx => nomatch hx) ?_
    have hmarks : marksLines (v.message : Text).glyphs = true := by
      cases v <;> decide
    exact iff_of_true hmarks fun t ht => nomatch ht
  | foreign x =>
    refine (Data.shownText_settles x).mono (by simp) fun words hwords => ?_
    rw [hwords, Data.marksLines_display_iff]
    simp

theorem comments_errorText_iff (origin words : Text) :
    (∀ line ∈ glyphLines (("%% error: " : Text) ++ origin ++ (": " : Text) ++ words).glyphs,
        isComment line = true) ↔
      marksLines origin.glyphs = true ∧ marksLines words.glyphs = true := by
  have hglyphs : (("%% error: " : Text) ++ origin ++ (": " : Text) ++ words).glyphs =
      "%% error: ".toList.map .char
        ++ (origin.glyphs ++ .char ':' :: .char ' ' :: words.glyphs) := by
    simp
  have hblank : marksLines (.char ' ' :: words.glyphs) = marksLines words.glyphs := rfl
  rw [hglyphs, Text.forall_isComment_iff (by decide) _ rfl, Text.marksLines_append_colon, hblank,
    Bool.and_eq_true]

theorem comments_posText_iff (pos : Text) :
    (∀ line ∈ glyphLines (("%% pos " : Text) ++ pos).glyphs, isComment line = true) ↔
      marksLines pos.glyphs = true := by
  rw [Text.glyphs_append, Text.glyphs_plain, Text.forall_isComment_iff (by decide) _ rfl]

theorem form_marker_settles (m : Marker) :
    Settles (form (.marker m))
      ((∀ x, m.descriptor = .foreign x → x.isWritable = true) ∧ m.origin.isWritable = true)
      .numberTooLong fun s => s.isEmpty = false ∧
        ((∀ line ∈ glyphLines s.glyphs, isComment line = true) ↔
          (∀ t, m.origin = .str t → marksLines t.glyphs = true)
            ∧ ∀ t, m.descriptor = .foreign (.str t) → marksLines t.glyphs = true) := by
  refine ((descriptor_settles m.descriptor).bind fun words hwords =>
    ((Data.shownText_settles m.origin).bind (Q := True) fun origin horigin =>
      .of_ok rfl trivial ⟨?_, ?_⟩)).mono (by simp) fun _ h => h
  · simp only [Text.isEmpty_append]
    rfl
  · rw [comments_errorText_iff, hwords, horigin, Data.marksLines_display_iff]

/-- A marker is printed if all that it shows can be written, in annotated mode behind a line with
its position. -/
theorem linesOf_marker_settles (mode : Mode) (m : Marker) :
    Settles (linesOf mode (.marker m)) (m.IsShowable mode) .numberTooLong fun lines =>
      (∀ t ∈ lines, ∀ line ∈ glyphLines t.glyphs, isComment line = true) ↔ m.StaysComment mode := by
  refine ((form_marker_settles m).bind (Q := mode = .annotated → m.pos.isWritable = true)
    fun s ⟨hs, hlines⟩ => ?_).mono ?_ fun _ h => h
  · rw [hs]
    cases mode with
    | plain =>
      refine .of_ok (a := [s]) rfl nofun ?_
      rw [List.forall_mem_singleton, hlines]
      exact ⟨fun h => ⟨h.1, h.2, nofun⟩, fun h => ⟨h.origin, h.words⟩⟩
    | annotated =>
      refine ((Data.shownText_settles m.pos).bind (Q := True) fun pos hpos =>
        .of_ok (a := ["%% pos " ++ pos, s]) rfl trivial ?_).mono (by simp) fun _ h => h
      rw [List.forall_mem_cons, List.forall_mem_singleton, hlines, comments_posText_iff, hpos,
        Data.marksLines_display_iff]
      exact ⟨fun h => ⟨h.2.1, h.2.2, fun _ => h.1⟩, fun h => ⟨h.pos rfl, h.origin, h.words⟩⟩
  · exact ⟨fun h => ⟨h.1.2, h.1.1, h.2⟩, fun h => ⟨⟨h.words, h.origin⟩, h.pos⟩⟩

/-- Only the end of the file is printed as nothing. -/
theorem isEmpty_form_iff {f : Form} {s : Text} (h : form f = .ok s) :
    s.isEmpty = true ↔ f.kind = .eof := by
  cases f with
  | eof pos =>
    cases h
    simp [Form.kind]
  | module m =>
    simp only [form, bind_eq_ok_iff] at h
    obtain ⟨name, -, h⟩ := h
    split at h
    · cases h
      simp [Form.kind]
    · simp only [bind_eq_ok_iff, return_eq_ok_iff] at h
      obtain ⟨_, -, rfl⟩ := h
      simp [Form.kind]
  | exports _ | function _ | rule _ =>
    obtain ⟨_, -, h⟩ := bind_eq_ok_iff.mp h
    cases h
    simp [Form.kind]
  | attr _ | file _ | marker _ =>
    obtain ⟨_, -, h⟩ := bind_eq_ok_iff.mp h
    obtain ⟨_, -, h⟩ := bind_eq_ok_iff.mp h
    cases h
    simp [Form.kind]

theorem linesOf_eq_nil_iff {f : Form} {lines : List Text} (h : linesOf mode f = .ok lines) :
    lines = [] ↔ f.kind = .eof := by
  obtain ⟨s, hs, h⟩ := bind_eq_ok_iff.mp h
  rw [← isEmpty_form_iff hs]
  cases hempty : s.isEmpty with
  | true =>
    rw [hempty] at h
    cases h
    simp
  | false =>
    rw [hempty] at h
    cases mode with
    | plain =>
      cases h
      split <;> simp
    | annotated =>
      obtain ⟨pos, -, h⟩ := bind_eq_ok_iff.mp h
      cases h
      simp

/-- Forms are printed if each of them is. -/
theorem print_eq_ok_iff {forms : List Form} {source : Text} :
    print mode forms = .ok source ↔
      ∃ lines, forms.mapM (linesOf mode) = .ok lines
        ∧ source = .join "\n" lines.flatten ++ "\n" := by
  simp only [print, bind_eq_ok_iff, return_eq_ok_iff]

theorem exists_print_iff {forms : List Form} :
    (∃ source, print mode forms = .ok source) ↔
      ∀ f ∈ forms, ∃ lines, linesOf mode f = .ok lines := by
  constructor
  · rintro ⟨source, h⟩
    obtain ⟨lines, hlines, -⟩ := print_eq_ok_iff.mp h
    exact exists_ok_of_mapM hlines
  · intro h
    obtain ⟨lines, hlines⟩ := exists_mapM_ok h
    exact ⟨_, print_eq_ok_iff.mpr ⟨lines, hlines, rfl⟩⟩

theorem flatten_eq_nil_iff {forms : List Form} {lines : List (List Text)}
    (h : forms.mapM (linesOf mode) = .ok lines) :
    lines.flatten = [] ↔ ∀ f ∈ forms, f.kind = .eof := by
  rw [List.flatten_eq_nil_iff]
  constructor
  · intro hnil f hf
    obtain ⟨own, hown⟩ := exists_ok_of_mapM h f hf
    exact (linesOf_eq_nil_iff hown).mp (hnil own ((mem_of_mapM_eq_ok h own).mpr ⟨f, hf, hown⟩))
  · intro heof own hown
    obtain ⟨f, hf, hlines⟩ := (mem_of_mapM_eq_ok h own).mp hown
    exact (linesOf_eq_nil_iff hlines).mpr (heof f hf)

end Source

/-- Forms with markers put in between them. -/
inductive Inserted : List Marker → List Form → List Form → Prop
  | nil : Inserted [] [] []
  | form (f : Form) {ms : List Marker} {forms more : List Form} :
      Inserted ms forms more → Inserted ms (f :: forms) (f :: more)
  | marker (m : Marker) {ms : List Marker} {forms more : List Form} :
      Inserted ms forms more → Inserted (m :: ms) forms (.marker m :: more)

open Source (Mode linesOf linesOf_marker_settles print print_eq_ok_iff flatten_eq_nil_iff)

namespace Inserted

variable {ms : List Marker} {forms more : List Form}

theorem mem_iff (h : Inserted ms forms more) {f : Form} :
    f ∈ more ↔ f ∈ forms ∨ ∃ m ∈ ms, f = .marker m := by
  induction h with
  | nil => simp
  | form g _ ih => simp [ih, or_assoc]
  | marker m _ ih => simp [ih, or_left_comm]

/-- What is put in adds its own lines, and no code among them if all the markers stay comments. -/
theorem codeLines_eq_iff {mode : Mode} {lines lines' : List (List Text)}
    (h : Inserted ms forms more) (hlines : forms.mapM (linesOf mode) = .ok lines)
    (hlines' : more.mapM (linesOf mode) = .ok lines') :
    (lines.flatten.flatMap codeLines).length ≤ (lines'.flatten.flatMap codeLines).length
      ∧ (lines'.flatten.flatMap codeLines = lines.flatten.flatMap codeLines ↔
        ∀ m ∈ ms, m.StaysComment mode) := by
  induction h generalizing lines lines' with
  | nil =>
    cases hlines
    cases hlines'
    simp
  | form f _ ih =>
    rw [List.mapM_cons] at hlines hlines'
    obtain ⟨own, hown, hlines⟩ := bind_eq_ok_iff.mp hlines
    obtain ⟨rest, hrest, hlines⟩ := bind_eq_ok_iff.mp hlines
    obtain ⟨own', hown', hlines'⟩ := bind_eq_ok_iff.mp hlines'
    obtain ⟨rest', hrest', hlines'⟩ := bind_eq_ok_iff.mp hlines'
    obtain rfl : own = own' := Except.ok.inj (hown.symm.trans hown')
    cases hlines
    cases hlines'
    obtain ⟨hlength, hiff⟩ := ih hrest hrest'
    rw [List.flatten_cons, List.flatten_cons, List.flatMap_append, List.flatMap_append,
      List.append_cancel_left_eq]
    refine ⟨?_, hiff⟩
    rw [List.length_append, List.length_append]
    omega
  | marker m _ ih =>
    rw [List.mapM_cons] at hlines'
    obtain ⟨own, hown, hlines'⟩ := bind_eq_ok_iff.mp hlines'
    obtain ⟨rest, hrest, hlines'⟩ := bind_eq_ok_iff.mp hlines'
    cases hlines'
    obtain ⟨hlength, hiff⟩ := ih hlines hrest
    have hcomment : own.flatMap codeLines = [] ↔ m.StaysComment mode := by
      rw [← (linesOf_marker_settles mode m).fit hown, List.flatMap_eq_nil_iff]
      simp only [Text.codeLines_eq_nil_iff]
    rw [List.flatten_cons, List.flatMap_append, List.forall_mem_cons, ← hiff, ← hcomment]
    refine ⟨?_, fun heq => ?_, fun ⟨hnil, heq⟩ => by rw [hnil, heq, List.nil_append]⟩
    · rw [List.length_append]
      omega
    · have hnil : own.flatMap codeLines = [] := by
        have hsum := congrArg List.length heq
        rw [List.length_append] at hsum
        exact List.eq_nil_of_length_eq_zero (by omega)
      rw [hnil, List.nil_append] at heq
      exact ⟨hnil, heq⟩

theorem exists_print_iff {mode : Mode} (h : Inserted ms forms more) :
    (∃ source, print mode more = .ok source) ↔
      (∃ source, print mode forms = .ok source) ∧ ∀ m ∈ ms, m.IsShowable mode := by
  have hmarker : ∀ m ∈ ms, (∃ lines, linesOf mode (.marker m) = .ok lines) ↔ m.IsShowable mode :=
    fun m _ => (linesOf_marker_settles mode m).exists_ok_iff
  rw [Source.exists_print_iff, Source.exists_print_iff, ← forall₂_congr hmarker]
  constructor
  · intro hmore
    exact ⟨fun f hf => hmore f (h.mem_iff.mpr (.inl hf)),
      fun m hm => hmore (.marker m) (h.mem_iff.mpr (.inr ⟨m, hm, rfl⟩))⟩
  · rintro ⟨hforms, hms⟩ f hf
    rcases h.mem_iff.mp hf with hf | ⟨m, hm, rfl⟩
    · exact hforms f hf
    · exact hms m hm

end Inserted

/-- A marker is printed exactly if no number that it shows is too long to be written. All its lines
are comments exactly if each text that it shows as itself has the signs behind its line feeds; no
other data can break it. Markers put between printed forms leave the lines that are no comments as
they are exactly if all of them stay comments. Where nothing else is printed, the source without
markers is one empty line, which goes with them. -/
theorem markers_stay_comments_iff (mode : Mode) :
    (∀ m : Marker,
      Settles (linesOf mode (.marker m)) (m.IsShowable mode) .numberTooLong fun lines =>
        (∀ t ∈ lines, ∀ line ∈ glyphLines t.glyphs, isComment line = true) ↔ m.StaysComment mode)
      ∧ ∀ ms forms more, Inserted ms forms more →
        ((∃ source, print mode more = .ok source) ↔
          (∃ source, print mode forms = .ok source) ∧ ∀ m ∈ ms, m.IsShowable mode)
        ∧ ∀ source source', print mode forms = .ok source → print mode more = .ok source' →
          ((∃ f ∈ forms, f.kind ≠ .eof) →
            (source'.codeLines = source.codeLines ↔ ∀ m ∈ ms, m.StaysComment mode))
          ∧ ((∀ f ∈ forms, f.kind = .eof) → ms ≠ [] → (∀ m ∈ ms, m.StaysComment mode) →
            source.codeLines = [] :: source'.codeLines) := by
  refine ⟨linesOf_marker_settles mode, fun ms forms more h => ⟨h.exists_print_iff, ?_⟩⟩
  intro source source' hsource hsource'
  obtain ⟨lines, hlines, rfl⟩ := print_eq_ok_iff.mp hsource
  obtain ⟨lines', hlines', rfl⟩ := print_eq_ok_iff.mp hsource'
  obtain ⟨-, hiff⟩ := h.codeLines_eq_iff hlines hlines'
  constructor
  · rintro ⟨f, hf, hkind⟩
    have hne : lines.flatten ≠ [] := fun hnil =>
      hkind ((flatten_eq_nil_iff hlines).mp hnil f hf)
    have hne' : lines'.flatten ≠ [] := fun hnil =>
      hkind ((flatten_eq_nil_iff hlines').mp hnil f (h.mem_iff.mpr (.inl hf)))
    rw [Text.codeLines_joined hne, Text.codeLines_joined hne', List.append_left_inj, hiff]
  · intro heof hms hstay
    obtain ⟨m, rest, rfl⟩ := List.exists_cons_of_ne_nil hms
    have hnil : lines.flatten = [] := (flatten_eq_nil_iff hlines).mpr heof
    have hne' : lines'.flatten ≠ [] := fun hnil' =>
      nomatch (flatten_eq_nil_iff hlines').mp hnil' (.marker m)
        (h.mem_iff.mpr (.inr ⟨m, List.mem_cons_self, rfl⟩))
    rw [Text.codeLines_joined hne', hiff.mpr hstay, hnil]
    rfl

namespace Marker

def nestedWords : Marker where
  origin := "erl_parse"
  descriptor := .foreign (.list .fresh ["syntax error before: ", "\n"])
  pos := 3

/-- Two lines, of which the second one has signs of its own. -/
def twoComments : Marker where
  origin := "epp"
  descriptor := .foreign "undefined macro\n%% used in line 2"
  pos := 4

/-- An attribute keeps its line between the two markers, whose four lines are comments. -/
theorem twoMarkers_stay_comments :
    let author : Form := .attr { name := "author", value := "henshin", pos := 2, generic := rfl }
    let more := [.marker nestedWords, author, .marker twoComments]
    Inserted [nestedWords, twoComments] [author] more
      ∧ nestedWords.StaysComment .annotated ∧ twoComments.StaysComment .annotated
      ∧ ∃ source source', print .annotated [author] = .ok source
        ∧ print .annotated more = .ok source' ∧ source'.codeLines = source.codeLines := by
  intro author more
  have hnested : nestedWords.StaysComment .annotated :=
    ⟨fun t ht => by cases ht; decide, nofun, nofun⟩
  have htwo : twoComments.StaysComment .annotated :=
    ⟨fun t ht => by cases ht; decide, fun t ht => by cases ht; decide, nofun⟩
  have h : Inserted [nestedWords, twoComments] [author] more :=
    .marker _ (.form _ (.marker _ .nil))
  obtain ⟨source, hsource⟩ :=
    exists_ok_of_toBool (x := print .annotated [author]) (by decide +kernel)
  obtain ⟨source', hsource'⟩ :=
    exists_ok_of_toBool (x := print .annotated more) (by decide +kernel)
  obtain ⟨-, hprint⟩ := (markers_stay_comments_iff .annotated).2 _ _ _ h
  obtain ⟨hiff, -⟩ := hprint source source' hsource hsource'
  refine ⟨h, hnested, htwo, source, source', hsource, hsource', ?_⟩
  exact (hiff ⟨author, List.mem_cons_self, nofun⟩).mpr (by simp [hnested, htwo])

/-- The words of a parser that shows the source it could not read. -/
def brokenWords : Marker where
  origin := "erl_parse"
  descriptor := .foreign "syntax error\nboot() -> halt()."
  pos := 1

/-- The second line of the words is no comment, and stands in the source as a function. -/
theorem brokenWords_printed_as_code :
    linesOf .plain (.marker brokenWords) =
        .ok ["%% error: erl_parse: syntax error\nboot() -> halt()."]
      ∧ ("%% error: erl_parse: syntax error\nboot() -> halt()." : Text).codeLines =
        ["boot() -> halt().".toList.map Glyph.char]
      ∧ ∃ source source', print .plain [.marker twoComments] = .ok source
        ∧ print .plain [.marker brokenWords, .marker twoComments] = .ok source'
        ∧ source.codeLines = [[]]
        ∧ source'.codeLines = ["boot() -> halt().".toList.map Glyph.char, []] := by
  refine ⟨rfl, by decide, _, _, rfl, rfl, ?_, ?_⟩
  · decide
  · decide

end Marker

end RuleLowering
