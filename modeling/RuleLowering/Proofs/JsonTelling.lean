import Mathlib.Data.List.Forall2
import RuleLowering.Proofs.JsonNumber
import RuleLowering.Proofs.JsonText
import RuleLowering.Proofs.Success
import RuleLowering.Proofs.Told

/-!
# Texts that tell values

A text tells a value if what is read in its place, in any text, is told of the value: it says the
same, with entries in the order of their names. Words, whole numbers and texts in quotes are told by
themselves. Rows of them with separators between tell lists and mappings; a mapping is told by its
entries in the order of their names.
-/
namespace RuleLowering.Json

open Data (EntriesRelated NamedOnce Ascending Told joinWith toList_joinWith_cons)

/-- A character that the text of a value can begin with: what is blank is passed over in front of a
value, a bracket ends a list, and a byte order mark is refused. -/
def StartsValue (c : Char) : Prop :=
  Input.isBlank (.char c) = false ∧ c ≠ ']' ∧ c ≠ '\ufeff'

instance (c : Char) : Decidable (StartsValue c) :=
  inferInstanceAs (Decidable (_ ∧ _))

/-- A text tells a value: whatever the text stands in, what is read in its place is told of the
value. -/
structure Tells (text : List Char) (d : Data) : Prop where
  starts : ∃ c rest, text = c :: rest ∧ StartsValue c
  reads : ∀ (document fuel read : Nat) (rest : List Glyph), Ends rest → 2 * text.length ≤ fuel →
    ∃ d' after, readValue document fuel ⟨text.map .char ++ rest, read⟩ = .ok (d', ⟨rest, after⟩)
      ∧ Told d d'

/-- A word or a number is told if it is read as it is. -/
theorem tells_of_readWord {text : List Char} {d : Data} {c : Char} {text' : List Char}
    (hd : d.isAtomic = true) (htext : text = c :: text') (hc : StartsValue c)
    (hword : c ∉ ['\x22', '[', '\x7b'])
    (h : ∀ (read : Nat) (rest : List Glyph), Ends rest →
      ∃ after, readWord ⟨text.map .char ++ rest, read⟩ = .ok (d, ⟨rest, after⟩)) :
    Tells text d := by
  refine ⟨⟨c, text', htext, hc⟩, fun document fuel read rest hrest hfuel => ?_⟩
  obtain ⟨after, hafter⟩ := h read rest hrest
  refine ⟨d, after, ?_, .of_isAtomic hd⟩
  rw [htext, List.length_cons] at hfuel
  obtain ⟨fuel, rfl⟩ : ∃ k, fuel = k + 1 := ⟨fuel - 1, by omega⟩
  rw [← hafter, htext, List.map_cons, List.cons_append, readValue]
  simp only [List.mem_cons, List.not_mem_nil, or_false, not_or] at hword
  obtain ⟨hquote, hlist, hmap⟩ := hword
  split
  · rename_i heq
    exact absurd (Glyph.char.inj (List.cons.inj heq).1) hquote
  · rename_i heq
    exact absurd (Glyph.char.inj (List.cons.inj heq).1) hlist
  · rename_i heq
    exact absurd (Glyph.char.inj (List.cons.inj heq).1) hmap
  · rfl

theorem skipBlank_of_not_blank {g : Glyph} (hg : Input.isBlank g = false) (rest : List Glyph)
    (read : Nat) : (Input.mk (g :: rest) read).skipBlank = ⟨g :: rest, read⟩ := by
  simp [Input.skipBlank, Input.skip, hg]

/-- Behind a comma or a colon one blank is passed over. -/
theorem skip_skipBlank {g : Glyph} (hg : Input.isBlank g = false) (mark : Glyph)
    (rest : List Glyph) (read : Nat) :
    ((Input.mk (mark :: .char ' ' :: g :: rest) read).skip 1).skipBlank =
      ⟨g :: rest, read + 2⟩ := by
  have hblank : Input.isBlank (.char ' ') = true := rfl
  simp [Input.skipBlank, Input.skip, hg, hblank]

theorem tells_null : Tells "null".toList .null :=
  tells_of_readWord rfl rfl (by decide) (by decide) fun read _ _ =>
    ⟨read + 4, by simp [readWord, words, Text.glyphs, List.isPrefixOf, Input.skip]⟩

theorem tells_bool (b : Bool) : Tells (if b then "true" else "false").toList (.bool b) := by
  cases b with
  | true =>
    exact tells_of_readWord rfl rfl (by decide) (by decide) fun read _ _ =>
      ⟨read + 4, by simp [readWord, words, Text.glyphs, List.isPrefixOf, Input.skip]⟩
  | false =>
    exact tells_of_readWord rfl rfl (by decide) (by decide) fun read _ _ =>
      ⟨read + 5, by simp [readWord, words, Text.glyphs, List.isPrefixOf, Input.skip]⟩

theorem tells_toString {n : Int} (hn : (Data.int n).isWritable = true) :
    Tells (toString n).toList (.int n) := by
  obtain ⟨c, text, htext, hc⟩ : ∃ c text, (toString n).toList = c :: text
      ∧ (c = '-' ∨ c.isDigit = true) := by
    obtain ⟨d, ds, hcons, hd⟩ := exists_toDigits_eq_cons n.natAbs
    rw [toList_toString, hcons]
    split
    · exact ⟨'-', d :: ds, rfl, .inl rfl⟩
    · exact ⟨d, ds, rfl, .inr hd⟩
  obtain ⟨hstarts, hword⟩ : StartsValue c ∧ c ∉ ['\x22', '[', '\x7b'] := by
    rcases hc with rfl | hc
    · decide
    · have hne : ∀ d : Char, d.isDigit = false → c ≠ d := by
        rintro d hd rfl
        rw [hc] at hd
        cases hd
      have hblank : Input.isBlank (.char c) = false := by
        simp [Input.isBlank, hne ' ' rfl, hne '\t' rfl, hne '\n' rfl, hne '\r' rfl]
      exact ⟨⟨hblank, hne _ rfl, hne _ rfl⟩, by simp [hne '\x22' rfl, hne '[' rfl, hne '\x7b' rfl]⟩
  exact tells_of_readWord rfl htext hstarts hword fun read rest hrest =>
    ⟨_, readWord_toString hn hrest read⟩

theorem tells_int {n : Int} {text : String} (h : writeInt n = .ok text) :
    Tells text.toList (.int n) := by
  rw [writeInt] at h
  split at h
  · rename_i hn
    exact Except.ok.inj h ▸ tells_toString hn
  · cases h

theorem tells_str (s : String) : Tells (Text.escaped (.plain s)).toList (.str (.plain s)) := by
  have htext : (Text.escaped (.plain s)).toList = '\x22' :: (Text.escape s.toList ++ ['\x22']) := by
    simp
  rw [htext]
  refine ⟨⟨_, _, rfl, by decide⟩, fun document fuel read rest _ hfuel => ?_⟩
  rw [List.length_cons] at hfuel
  obtain ⟨fuel, rfl⟩ : ∃ k, fuel = k + 1 := ⟨fuel - 1, by omega⟩
  obtain ⟨after, hafter⟩ := readText_escape_quote read (read + 1) [] s.toList rest
  rw [List.reverse_nil, List.nil_append, Text.ofGlyphs_map_char] at hafter
  refine ⟨.str (.plain s), after, ?_, .of_isAtomic rfl⟩
  have happend : ('\x22' :: (Text.escape s.toList ++ ['\x22'])).map Glyph.char ++ rest =
      .char '\x22' :: ((Text.escape s.toList).map .char ++ .char '\x22' :: rest) := by
    simp
  rw [happend, readValue]
  simp only [hafter, ok_bind]
  rfl

/-- A row of texts begins as its first one does. -/
theorem joinWith_starts {text : String} {c : Char} {rest : List Char} (texts : List String)
    (h : text.toList = c :: rest) :
    ∃ rest', (joinWith ", " (text :: texts)).toList = c :: rest' := by
  cases texts with
  | nil => exact ⟨rest, h⟩
  | cons next texts => exact ⟨_, by rw [toList_joinWith_cons, h]; rfl⟩

/-- Texts that tell some items, with separators between, tell the list of them. -/
theorem readItems_of_tells {texts : List String} {items : List Data}
    (h : List.Forall₂ (fun text item => Tells text.toList item) texts items) (hne : texts ≠ [])
    (document fuel read : Nat) (rest : List Glyph)
    (hfuel : 2 * (joinWith ", " texts).toList.length + 1 ≤ fuel) :
    ∃ items' after, readItems document fuel
        ⟨(joinWith ", " texts).toList.map .char ++ .char ']' :: rest, read⟩ =
      .ok (items', ⟨rest, after⟩) ∧ List.Forall₂ Told items items' := by
  induction h generalizing fuel read with
  | nil => exact absurd rfl hne
  | @cons text item texts items htext htexts ih =>
    obtain ⟨fuel, rfl⟩ : ∃ k, fuel = k + 1 := ⟨fuel - 1, by omega⟩
    cases htexts with
    | nil =>
      obtain ⟨item', after, hread, htold⟩ := htext.reads document fuel read (.char ']' :: rest)
        (.bracket rest) (by rw [joinWith] at hfuel; omega)
      refine ⟨[item'], after + 1, ?_, .cons htold .nil⟩
      have hskip := skipBlank_of_not_blank (g := .char ']') rfl rest after
      rw [joinWith, readItems, hread]
      simp only [ok_bind, hskip]
      rfl
    | @cons next item₂ texts items hnext htexts =>
      rw [toList_joinWith_cons, List.length_append, List.length_cons, List.length_cons] at hfuel
      obtain ⟨c, rest', hcons, hstarts⟩ := hnext.starts
      obtain ⟨rest'', hrow⟩ := joinWith_starts texts hcons
      let behind := (joinWith ", " (next :: texts)).toList.map Glyph.char ++ .char ']' :: rest
      obtain ⟨item', after, hread, htold⟩ := htext.reads document fuel read
        (.char ',' :: .char ' ' :: behind) (.comma _) (by omega)
      obtain ⟨items', last, hreads, htolds⟩ := ih (by simp) fuel (after + 2) (by omega)
      refine ⟨item' :: items', last, ?_, .cons htold htolds⟩
      have hcomma := skipBlank_of_not_blank (g := .char ',') rfl (.char ' ' :: behind) after
      have hnext : ((Input.mk (.char ',' :: .char ' ' :: behind) after).skip 1).skipBlank =
          ⟨behind, after + 2⟩ := by
        simp only [behind, hrow]
        exact skip_skipBlank hstarts.1 _ _ _
      have happend : (joinWith ", " (text :: next :: texts)).toList.map Glyph.char
          ++ .char ']' :: rest = text.toList.map .char ++ .char ',' :: .char ' ' :: behind := by
        rw [toList_joinWith_cons]
        simp [behind]
      rw [happend, readItems, hread]
      simp only [ok_bind, hcomma, hnext]
      simp only [behind, hreads, ok_bind]
      rfl

/-- A text tells an entry: its name in quotes, and behind a colon its value. -/
def TellsEntry (text : String) (e : Data × Data) : Prop :=
  ∃ name value, e.1 = .str (.plain name) ∧ text = Text.escaped (.plain name) ++ ": " ++ value
    ∧ Tells value.toList e.2

theorem put_of_forall_ne {entries : List (Data × Data)} {t : Text}
    (h : ∀ e ∈ entries, e.1 ≠ .str t) (value : Data) :
    Data.put entries (.str t) value = entries ++ [(.str t, value)] := by
  induction entries with
  | nil => rfl
  | cons e entries ih =>
    have hne : Data.same e.1 (.str t) ≠ true := fun hsame =>
      h e List.mem_cons_self (Data.same_str_right.mp hsame)
    rw [Data.put, if_neg hne, ih fun e' he' => h e' (.tail e he'), List.cons_append]

theorem toList_entry (name value : String) :
    (Text.escaped (.plain name) ++ ": " ++ value).toList =
      '\x22' :: (Text.escape name.toList ++ '\x22' :: ':' :: ' ' :: value.toList) := by
  rw [String.toList_append, String.toList_append, Text.escaped_plain, String.toList_ofList]
  simp

/-- An entry that a text tells is put behind those read before it, and what stands behind it decides
how reading goes on. -/
theorem readEntries_step {text : String} {e : Data × Data} (h : TellsEntry text e)
    (document fuel read : Nat) {rest : List Glyph} (hrest : Ends rest)
    (hfuel : 2 * text.toList.length ≤ fuel) {before : List (Data × Data)}
    (hbefore : ∀ f ∈ before, f.1 ≠ e.1) :
    ∃ e' after, EntriesRelated Told e e'
      ∧ (∀ rest', rest = .char '\x7d' :: rest' →
        readEntries document (fuel + 1) ⟨text.toList.map .char ++ rest, read⟩ before =
          .ok (before ++ [e'], ⟨rest', after + 1⟩))
      ∧ ∀ rest', rest = .char ',' :: rest' →
        readEntries document (fuel + 1) ⟨text.toList.map .char ++ rest, read⟩ before =
          readEntries document fuel ((Input.mk rest after).skip 1).skipBlank (before ++ [e']) := by
  obtain ⟨key, v⟩ := e
  obtain ⟨name, value, hkey, rfl, hvalue⟩ := h
  obtain rfl : key = .str (.plain name) := hkey
  obtain ⟨c, tail, hcons, hstarts⟩ := hvalue.starts
  have hlength : value.toList.length ≤
      (Text.escaped (.plain name) ++ ": " ++ value).toList.length := by
    simp only [String.toList_append, List.length_append]
    omega
  have happend : (Text.escaped (.plain name) ++ ": " ++ value).toList.map Glyph.char ++ rest =
      .char '\x22' :: ((Text.escape name.toList).map .char ++
        .char '\x22' :: .char ':' :: .char ' ' :: (value.toList.map .char ++ rest)) := by
    rw [toList_entry]
    simp
  obtain ⟨afterName, hname⟩ := readText_escape_quote read (read + 1) [] name.toList
    (.char ':' :: .char ' ' :: (value.toList.map .char ++ rest))
  rw [List.reverse_nil, List.nil_append, Text.ofGlyphs_map_char] at hname
  obtain ⟨v', after, hread, htold⟩ :=
    hvalue.reads document fuel (afterName + 2) rest hrest (by omega)
  have hcolon := skipBlank_of_not_blank (g := .char ':') rfl
    (.char ' ' :: (value.toList.map .char ++ rest)) afterName
  have hnext : ((Input.mk (.char ':' :: .char ' ' :: (value.toList.map .char ++ rest))
      afterName).skip 1).skipBlank = ⟨value.toList.map .char ++ rest, afterName + 2⟩ := by
    rw [hcons]
    exact skip_skipBlank hstarts.1 _ _ _
  have hput := put_of_forall_ne hbefore v'
  refine ⟨(.str (.plain name), v'), after, ⟨rfl, htold⟩, ?_, ?_⟩
  · rintro rest' rfl
    have hbrace := skipBlank_of_not_blank (g := .char '\x7d') rfl rest' after
    rw [happend, readEntries]
    simp only [hname, ok_bind, hcolon, hnext, hread, hbrace, hput]
    rfl
  · rintro rest' rfl
    have hcomma := skipBlank_of_not_blank (g := .char ',') rfl rest' after
    rw [happend, readEntries]
    simp only [hname, ok_bind, hcolon, hnext, hread, hcomma, hput]

/-- Texts that tell some entries, with separators between, tell the mapping of them. -/
theorem readEntries_of_tells {texts : List String} {entries : List (Data × Data)}
    (h : List.Forall₂ TellsEntry texts entries) (hne : texts ≠ [])
    (document fuel read : Nat) (rest : List Glyph) (before : List (Data × Data))
    (hkeys : ((before ++ entries).map Prod.fst).Nodup)
    (hfuel : 2 * (joinWith ", " texts).toList.length + 1 ≤ fuel) :
    ∃ entries' after, readEntries document fuel
        ⟨(joinWith ", " texts).toList.map .char ++ .char '\x7d' :: rest, read⟩ before =
      .ok (before ++ entries', ⟨rest, after⟩)
        ∧ List.Forall₂ (EntriesRelated Told) entries entries' := by
  induction h generalizing fuel read before with
  | nil => exact absurd rfl hne
  | @cons text e texts entries htext htexts ih =>
    obtain ⟨fuel, rfl⟩ : ∃ k, fuel = k + 1 := ⟨fuel - 1, by omega⟩
    have hbefore : ∀ f ∈ before, f.1 ≠ e.1 := by
      intro f hf
      rw [List.map_append] at hkeys
      exact (List.nodup_append.mp hkeys).2.2 f.1 (List.mem_map_of_mem hf) e.1
        (List.mem_map_of_mem List.mem_cons_self)
    cases htexts with
    | nil =>
      obtain ⟨e', after, htold, hclose, -⟩ := readEntries_step htext document fuel read
        (.brace rest) (by rw [joinWith] at hfuel; omega) hbefore
      exact ⟨[e'], after + 1, hclose rest rfl, .cons htold .nil⟩
    | @cons next e₂ texts entries hnext htexts =>
      rw [toList_joinWith_cons, List.length_append, List.length_cons, List.length_cons] at hfuel
      obtain ⟨name, value, -, hnextText, -⟩ := hnext
      obtain ⟨rest', hrow⟩ : ∃ rest', (joinWith ", " (next :: texts)).toList = '\x22' :: rest' :=
        joinWith_starts texts (by rw [hnextText, toList_entry])
      let behind := (joinWith ", " (next :: texts)).toList.map Glyph.char ++ .char '\x7d' :: rest
      obtain ⟨e', after, htold, -, hgo⟩ := readEntries_step htext document fuel read
        (.comma (.char ' ' :: behind)) (by omega) hbefore
      have hkeys' : ((before ++ [e'] ++ e₂ :: entries).map Prod.fst).Nodup := by
        simpa [htold.1] using hkeys
      obtain ⟨entries', last, hreads, htolds⟩ := ih (by simp) fuel (after + 2) _ hkeys' (by omega)
      refine ⟨e' :: entries', last, ?_, .cons htold htolds⟩
      have hnext : ((Input.mk (.char ',' :: .char ' ' :: behind) after).skip 1).skipBlank =
          ⟨behind, after + 2⟩ := by
        simp only [behind, hrow]
        exact skip_skipBlank rfl _ _ _
      have happend : (joinWith ", " (text :: next :: texts)).toList.map Glyph.char
          ++ .char '\x7d' :: rest = text.toList.map .char ++ .char ',' :: .char ' ' :: behind := by
        rw [toList_joinWith_cons]
        simp [behind]
      rw [happend, hgo _ rfl, hnext, hreads, List.append_assoc]
      rfl

theorem readValue_list {document fuel read : Nat} {g : Glyph} {rest : List Glyph}
    {items : List Data} {after : Input} (hblank : Input.isBlank g = false) (hg : g ≠ .char ']')
    (h : readItems document fuel ⟨g :: rest, read + 1⟩ = .ok (items, after)) :
    readValue document (fuel + 1) ⟨.char '[' :: g :: rest, read⟩ =
      .ok (.list (.node document read) items, after) := by
  have hskip : ((Input.mk (.char '[' :: g :: rest) read).skip 1).skipBlank =
      ⟨g :: rest, read + 1⟩ := skipBlank_of_not_blank hblank rest (read + 1)
  have hhead : (g :: rest).head? ≠ some (.char ']') := fun heq => hg (Option.some.inj heq)
  rw [readValue]
  simp only [hskip, if_neg hhead, h, ok_bind]
  rfl

theorem readValue_map {document fuel read : Nat} {g : Glyph} {rest : List Glyph}
    {entries : List (Data × Data)} {after : Input} (hblank : Input.isBlank g = false)
    (hg : g ≠ .char '\x7d')
    (h : readEntries document fuel ⟨g :: rest, read + 1⟩ [] = .ok (entries, after)) :
    readValue document (fuel + 1) ⟨.char '\x7b' :: g :: rest, read⟩ =
      .ok (.map (.node document read) entries, after) := by
  have hskip : ((Input.mk (.char '\x7b' :: g :: rest) read).skip 1).skipBlank =
      ⟨g :: rest, read + 1⟩ := skipBlank_of_not_blank hblank rest (read + 1)
  have hhead : (g :: rest).head? ≠ some (.char '\x7d') := fun heq => hg (Option.some.inj heq)
  rw [readValue]
  simp only [hskip, if_neg hhead, h, ok_bind]
  rfl

/-- Texts that tell some items, in brackets, tell the list of them. -/
theorem tells_of_items {texts : List String} {items : List Data} (place : Place)
    (h : List.Forall₂ (fun text item => Tells text.toList item) texts items) (hne : texts ≠ []) :
    Tells ("[" ++ joinWith ", " texts ++ "]").toList (.list place items) := by
  have htext : ("[" ++ joinWith ", " texts ++ "]").toList =
      '[' :: ((joinWith ", " texts).toList ++ [']']) := by
    rw [String.toList_append, String.toList_append]
    rfl
  rw [htext]
  refine ⟨⟨_, _, rfl, by decide⟩, fun document fuel read rest _ hfuel => ?_⟩
  rw [List.length_cons, List.length_append, List.length_singleton] at hfuel
  obtain ⟨fuel, rfl⟩ : ∃ k, fuel = k + 1 := ⟨fuel - 1, by omega⟩
  obtain ⟨items', after, hread, htold⟩ :=
    readItems_of_tells h hne document fuel (read + 1) rest (by omega)
  refine ⟨.list (.node document read) items', after, ?_, .list htold⟩
  cases h with
  | nil => exact absurd rfl hne
  | @cons first item texts items hfirst _ =>
    obtain ⟨c, tail, hcons, hblank, hclose, -⟩ := hfirst.starts
    obtain ⟨row, hrow⟩ := joinWith_starts texts hcons
    rw [hrow] at hread ⊢
    simp only [List.map_cons, List.cons_append, List.map_append, List.append_assoc] at hread ⊢
    exact readValue_list hblank (fun heq => hclose (Glyph.char.inj heq)) hread

/-- Texts that tell the entries of a mapping in the order of their names, in braces, tell the
mapping. -/
theorem tells_of_entries {texts : List String} {es entries : List (Data × Data)} (place : Place)
    (h : List.Forall₂ TellsEntry texts es) (hne : texts ≠ []) (hperm : es.Perm entries)
    (hnamed : NamedOnce es) (horder : Ascending es) :
    Tells ("\x7b" ++ joinWith ", " texts ++ "\x7d").toList (.map place entries) := by
  have htext : ("\x7b" ++ joinWith ", " texts ++ "\x7d").toList =
      '\x7b' :: ((joinWith ", " texts).toList ++ ['\x7d']) := by
    rw [String.toList_append, String.toList_append]
    rfl
  rw [htext]
  refine ⟨⟨_, _, rfl, by decide⟩, fun document fuel read rest _ hfuel => ?_⟩
  rw [List.length_cons, List.length_append, List.length_singleton] at hfuel
  obtain ⟨fuel, rfl⟩ : ∃ k, fuel = k + 1 := ⟨fuel - 1, by omega⟩
  obtain ⟨entries', after, hread, htold⟩ :=
    readEntries_of_tells h hne document fuel (read + 1) rest [] hnamed.once (by omega)
  refine ⟨.map (.node document read) entries', after, ?_, .map hperm hnamed horder htold⟩
  cases h with
  | nil => exact absurd rfl hne
  | @cons first e texts es hfirst _ =>
    obtain ⟨name, value, -, hfirstText, -⟩ := hfirst
    obtain ⟨row, hrow⟩ : ∃ row, (joinWith ", " (first :: texts)).toList = '\x22' :: row :=
      joinWith_starts texts (by rw [hfirstText, toList_entry])
    rw [hrow] at hread ⊢
    simp only [List.map_cons, List.cons_append, List.map_append, List.append_assoc] at hread ⊢
    exact readValue_map rfl (by decide) hread

theorem tells_empty_list (place : Place) : Tells "[]".toList (.list place []) := by
  refine ⟨⟨'[', [']'], rfl, by decide⟩, fun document fuel read rest _ hfuel => ?_⟩
  have hlength : "[]".toList.length = 2 := rfl
  obtain ⟨fuel, rfl⟩ : ∃ k, fuel = k + 1 := ⟨fuel - 1, by omega⟩
  exact ⟨.list (.node document read) [], read + 2, rfl, .list .nil⟩

theorem tells_empty_map (place : Place) : Tells "\x7b\x7d".toList (.map place []) := by
  refine ⟨⟨'\x7b', ['\x7d'], rfl, by decide⟩, fun document fuel read rest _ hfuel => ?_⟩
  have hlength : "\x7b\x7d".toList.length = 2 := rfl
  obtain ⟨fuel, rfl⟩ : ∃ k, fuel = k + 1 := ⟨fuel - 1, by omega⟩
  have htold : Told (.map place []) (.map (.node document read) []) :=
    .map (.refl _) ⟨nofun, .nil⟩ .nil .nil
  exact ⟨.map (.node document read) [], read + 2, rfl, htold⟩

end RuleLowering.Json
