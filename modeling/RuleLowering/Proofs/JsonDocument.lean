import Mathlib.Data.List.Perm.Basic
import RuleLowering.Proofs.JsonTelling

/-!
# JSON text read back

The JSON text of a value without floating-point numbers, whose texts hold no halves of surrogate
pairs and whose mappings have different texts as keys, is read back as a value that says the same.
The entries of a mapping come back in the order of their keys.
-/
namespace RuleLowering.Json

open Data (NamedOnce Ascending Told)

mutual

/-- The JSON text of the value tells all of it, by whole numbers and characters alone. -/
def isFaithful : Data → Bool
  | .null | .bool _ | .int _ => true
  | .str t => t.string?.isSome
  | .list _ items => allFaithful items
  | .map _ entries => decide (entries.map (·.1.text?)).Nodup && entriesFaithful entries
  | _ => false

def allFaithful : List Data → Bool
  | [] => true
  | x :: xs => isFaithful x && allFaithful xs

def entriesFaithful : List (Data × Data) → Bool
  | [] => true
  | (k, v) :: es => (k.text?.bind Text.string?).isSome && isFaithful v && entriesFaithful es

end

/-- The text of a list tells it, if those of its items tell them. -/
theorem tells_list {place : Place} {around : List Place} {items : List Data} {text : String}
    (hitems : ∀ texts, writeItems .byName (place :: around) items = .ok texts →
      List.Forall₂ (fun text item => Tells text.toList item) texts items)
    (h : writeIn .byName around (.list place items) = .ok text) :
    Tells text.toList (.list place items) := by
  rw [writeIn] at h
  split at h
  · rename_i hempty
    obtain rfl := List.isEmpty_iff.mp hempty
    exact Except.ok.inj h ▸ tells_empty_list place
  · rename_i hempty
    split at h
    · cases h
    · obtain ⟨texts, htexts, h⟩ := bind_eq_ok_iff.mp h
      obtain rfl := return_eq_ok_iff.mp h
      have htell := hitems texts htexts
      refine tells_of_items place htell ?_
      rintro rfl
      cases htell
      exact hempty rfl

theorem writeEntries_eq_map (order : EntryOrder) (around : List Place) (es : List (Data × Data)) :
    writeEntries order around es = es.map fun e => (e.1, writeIn order around e.2) := by
  induction es with
  | nil => rfl
  | cons e es ih => rw [writeEntries, ih, List.map_cons]

theorem perm_of_arrange {α : Type} {order : EntryOrder} {entries arranged : List (Data × α)}
    (h : arrange order entries = .ok arranged) : arranged.Perm entries := by
  cases order with
  | asRead => exact Except.ok.inj h ▸ .refl _
  | byName => exact perm_of_sorted h

theorem namedOnce_writeEntries {entries : List (Data × Data)} (h : NamedOnce entries)
    (order : EntryOrder) (around : List Place) :
    NamedOnce (writeEntries order around entries) := by
  refine h.of_keys ?_
  rw [writeEntries_eq_map, List.map_map]
  rfl

/-- The written entries of a mapping are those of it, in the order of their names. -/
theorem exists_ascending_of_arrange {around : List Place} {entries : List (Data × Data)}
    {arranged : List (Data × Except Fault String)} (hnamed : NamedOnce entries)
    (h : arrange .byName (writeEntries .byName around entries) = .ok arranged) :
    ∃ es, es.Perm entries ∧ Ascending es
      ∧ List.Forall₂ (fun w e => w = (e.1, writeIn .byName around e.2)) arranged es := by
  obtain ⟨row, hrow, hperm, horder⟩ :=
    Data.exists_arranged (namedOnce_writeEntries hnamed .byName around)
  obtain rfl := Except.ok.inj (hrow.symm.trans h)
  rw [writeEntries_eq_map] at hperm
  have hentries : List.Forall₂ (fun w e => w = (e.1, writeIn .byName around e.2))
      (entries.map fun e => (e.1, writeIn .byName around e.2)) entries :=
    List.forall₂_map_left_iff.mpr (List.forall₂_same.mpr fun _ _ => rfl)
  obtain ⟨es, hes, hperm'⟩ := List.perm_comp_forall₂ hperm hentries
  refine ⟨es, hperm', Data.ascending_of_keys ?_ horder, hes⟩
  have hkeys : List.Forall₂ (· = ·) (row.map Prod.fst) (es.map Prod.fst) := by
    rw [List.forall₂_map_left_iff, List.forall₂_map_right_iff]
    exact hes.imp fun w e hw => congrArg Prod.fst hw
  exact (List.forall₂_eq_eq_eq ▸ hkeys : _ = _).symm

/-- A written entry tells the entry, if the text of its value tells that. -/
theorem tellsEntry_of_write {around : List Place} {e : Data × Data} {text : String}
    (hkey : ∃ name, e.1 = .str (.plain name))
    (hvalue : ∀ value, writeIn .byName around e.2 = .ok value → Tells value.toList e.2)
    (h : writeEntry (e.1, writeIn .byName around e.2) = .ok text) : TellsEntry text e := by
  obtain ⟨key, v⟩ := e
  obtain ⟨name, rfl⟩ := hkey
  obtain ⟨quoted, hname, h⟩ := bind_eq_ok_iff.mp h
  obtain rfl := Except.ok.inj hname
  obtain ⟨value, hwritten, h⟩ := bind_eq_ok_iff.mp h
  obtain rfl := return_eq_ok_iff.mp h
  exact ⟨name, value, rfl, rfl, hvalue value hwritten⟩

theorem tellsEntry_of_mapM {around : List Place} {arranged : List (Data × Except Fault String)}
    {es : List (Data × Data)} {texts : List String}
    (hes : List.Forall₂ (fun w e => w = (e.1, writeIn .byName around e.2)) arranged es)
    (hentries : ∀ e ∈ es, (∃ name, e.1 = .str (.plain name))
      ∧ ∀ value, writeIn .byName around e.2 = .ok value → Tells value.toList e.2)
    (h : arranged.mapM writeEntry = .ok texts) : List.Forall₂ TellsEntry texts es := by
  induction hes generalizing texts with
  | nil =>
    obtain rfl := Except.ok.inj h
    exact .nil
  | @cons w e arranged es hw hes ih =>
    obtain ⟨hfirst, hothers⟩ := List.forall_mem_cons.mp hentries
    rw [List.mapM_cons] at h
    obtain ⟨text, htext, h⟩ := bind_eq_ok_iff.mp h
    obtain ⟨texts, htexts, h⟩ := bind_eq_ok_iff.mp h
    obtain rfl := return_eq_ok_iff.mp h
    rw [hw] at htext
    exact .cons (tellsEntry_of_write hfirst.1 hfirst.2 htext) (ih hothers htexts)

/-- The text of a mapping tells it, if those of its values tell them. -/
theorem tells_map {place : Place} {around : List Place} {entries : List (Data × Data)}
    {text : String} (hnamed : NamedOnce entries)
    (hentries : ∀ e ∈ entries, (∃ name, e.1 = .str (.plain name))
      ∧ ∀ value, writeIn .byName (place :: around) e.2 = .ok value → Tells value.toList e.2)
    (h : writeIn .byName around (.map place entries) = .ok text) :
    Tells text.toList (.map place entries) := by
  rw [writeIn] at h
  split at h
  · rename_i hempty
    obtain rfl := List.isEmpty_iff.mp hempty
    exact Except.ok.inj h ▸ tells_empty_map place
  · rename_i hempty
    split at h
    · cases h
    · obtain ⟨arranged, harranged, h⟩ := bind_eq_ok_iff.mp h
      obtain ⟨texts, htexts, h⟩ := bind_eq_ok_iff.mp h
      obtain rfl := return_eq_ok_iff.mp h
      obtain ⟨es, hperm, horder, hes⟩ := exists_ascending_of_arrange hnamed harranged
      have htell := tellsEntry_of_mapM hes
        (fun e he => hentries e (hperm.mem_iff.mp he)) htexts
      refine tells_of_entries place htell ?_ hperm (hnamed.of_perm hperm.symm) horder
      rintro rfl
      cases htell
      obtain rfl := hperm.nil_eq
      exact hempty rfl

mutual

/-- The text of a faithful value tells it. -/
theorem tells_of_write : ∀ (d : Data) (around : List Place) (text : String),
    isFaithful d = true → writeIn .byName around d = .ok text → Tells text.toList d
  | .null => by
    intro _ text _ h
    obtain rfl := Except.ok.inj h
    exact tells_null
  | .bool b => by
    intro _ text _ h
    obtain rfl := Except.ok.inj h
    exact tells_bool b
  | .int n => by
    intro _ text _ h
    rw [writeIn] at h
    exact tells_int h
  | .str (.plain s) => by
    intro _ text _ h
    obtain rfl := Except.ok.inj h
    exact tells_str s
  | .str (.broken _ _ _) | .float _ | .special _ _ | .group _ _ _ => by
    intro _ _ hd
    cases hd
  | .list place items => by
    intro around text hd h
    exact tells_list (fun texts => tells_of_writeItems items (place :: around) texts hd) h
  | .map place entries => by
    intro around text hd h
    obtain ⟨hkeys, hentries⟩ := Bool.and_eq_true_iff.mp hd
    have hkeys' : (entries.map Prod.fst).Nodup := by
      have htexts : ((entries.map Prod.fst).map Data.text?).Nodup := by
        rw [List.map_map]
        exact of_decide_eq_true hkeys
      exact htexts.of_map
    have htell := tells_of_writeEntries entries (place :: around) hentries
    have hnamed : NamedOnce entries :=
      ⟨fun e he => (htell e he).1.elim fun name hname => ⟨.plain name, hname⟩, hkeys'⟩
    exact tells_map hnamed htell h

theorem tells_of_writeItems : ∀ (items : List Data) (around : List Place) (texts : List String),
    allFaithful items = true → writeItems .byName around items = .ok texts →
    List.Forall₂ (fun text item => Tells text.toList item) texts items
  | [], _, texts, _, h => by
    obtain rfl := Except.ok.inj h
    exact .nil
  | x :: xs, around, texts, hd, h => by
    obtain ⟨hx, hxs⟩ := Bool.and_eq_true_iff.mp hd
    obtain ⟨text, htext, h⟩ := bind_eq_ok_iff.mp h
    obtain ⟨texts, htexts, h⟩ := bind_eq_ok_iff.mp h
    obtain rfl := return_eq_ok_iff.mp h
    exact .cons (tells_of_write x around text hx htext)
      (tells_of_writeItems xs around texts hxs htexts)

theorem tells_of_writeEntries : ∀ (entries : List (Data × Data)) (around : List Place),
    entriesFaithful entries = true → ∀ e ∈ entries, (∃ name, e.1 = .str (.plain name))
      ∧ ∀ value, writeIn .byName around e.2 = .ok value → Tells value.toList e.2
  | [], _, _ => by
    intro e he
    cases he
  | (key, v) :: entries, around, hd => by
    rw [entriesFaithful, Bool.and_eq_true, Bool.and_eq_true] at hd
    obtain ⟨⟨hkey, hv⟩, hentries⟩ := hd
    intro e he
    rcases List.mem_cons.mp he with rfl | he
    · refine ⟨?_, fun value h => tells_of_write v around value hv h⟩
      obtain ⟨name, hname⟩ := Option.isSome_iff_exists.mp hkey
      obtain ⟨t, ht, hplain⟩ := Option.bind_eq_some_iff.mp hname
      cases t with
      | plain s => exact ⟨s, Data.text?_eq_some.mp ht⟩
      | broken _ _ _ => cases hplain
    · exact tells_of_writeEntries entries around hentries e he

end

/-- The JSON text of a faithful value is read back as what is told of it. -/
theorem exists_read_of_write {d : Data} {text : String} (hd : isFaithful d = true)
    (h : write .byName d = .ok text) (document : Nat) :
    ∃ d', Json.read document (.plain text) = .ok d' ∧ Told d d' := by
  have htell : Tells text.toList d := tells_of_write d [] text hd h
  obtain ⟨c, tail, hcons, hblank, -, hmark⟩ := htell.starts
  obtain ⟨d', after, hread, htold⟩ := htell.reads document (2 * text.toList.length + 2) 0 []
    .nil (by omega)
  refine ⟨d', ?_, htold⟩
  have hskip : (Input.mk (text.toList.map .char) 0).skipBlank = ⟨text.toList.map .char, 0⟩ := by
    rw [hcons]
    exact skipBlank_of_not_blank hblank _ _
  have hhead : (text.toList.map Glyph.char).head? ≠ some (.char '\ufeff') := by
    rw [hcons]
    exact fun heq => hmark (Glyph.char.inj (Option.some.inj heq))
  have hend : (Input.mk [] after).skipBlank = ⟨[], after⟩ := rfl
  rw [List.append_nil] at hread
  rw [Json.read, Text.glyphs]
  simp only [if_neg hhead, List.length_map, hskip, hread, ok_bind, hend]
  rfl

end RuleLowering.Json
