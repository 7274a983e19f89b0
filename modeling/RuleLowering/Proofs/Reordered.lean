import RuleLowering.Proofs.JsonData

/-!
# Values with their entries in another order

Two values of JSON may differ in nothing but the order in which their mappings, at any depth, have
their entries. They then have the same JSON text, in which all entries are in the order of their
names. A value with its entries in that order is displayed as the other one is once it is arranged.
-/
namespace RuleLowering

namespace Data

/-- A mapping of JSON has different texts as keys. -/
theorem NamedOnce.of_isJson {place : Place} {entries : List (Data × Data)}
    (h : isJson (.map place entries) = true) : NamedOnce entries := by
  obtain ⟨hkeys, hentries⟩ := isJson_map h
  refine ⟨fun e he => (hentries e he).1, .of_map text? ?_⟩
  rwa [List.map_map]

/-- A property of values of JSON, inside containers of some places, that holds of the values without
parts, and of each container if it holds of the parts inside it. -/
structure HoldsByParts (P : List Place → Data → Prop) : Prop where
  atomic : ∀ around d, d.isAtomic = true → P around d
  list : ∀ around place items, place.isAmong around = false →
    (∀ d ∈ items, isJsonIn (place :: around) d = true ∧ P (place :: around) d) →
    P around (.list place items)
  map : ∀ around place entries, place.isAmong around = false → NamedOnce entries →
    (∀ e ∈ entries, isJsonIn (place :: around) e.2 = true ∧ P (place :: around) e.2) →
    P around (.map place entries)

mutual

/-- It holds of all values of JSON. -/
theorem HoldsByParts.holds {P : List Place → Data → Prop} (h : HoldsByParts P) :
    ∀ (d : Data) (around : List Place), isJsonIn around d = true → P around d
  | .null, around, _ | .bool _, around, _ | .int _, around, _ | .float _, around, _
  | .str _, around, _ => h.atomic around _ rfl
  | .special _ _, _, hd | .group _ _ _, _, hd => by cases hd
  | .list place items, around, hd => by
    obtain ⟨hplace, hitems⟩ := isJsonIn_list.mp hd
    exact h.list around place items hplace (h.holds_items items _ hitems)
  | .map place entries, around, hd => by
    obtain ⟨hplace, -, hentries⟩ := isJsonIn_map.mp hd
    exact h.map around place entries hplace (.of_isJson (isJson_of_isJsonIn hd))
      (h.holds_entries entries _ fun e he => (hentries e he).2)

theorem HoldsByParts.holds_items {P : List Place → Data → Prop} (h : HoldsByParts P) :
    ∀ (items : List Data) (around : List Place), (∀ d ∈ items, isJsonIn around d = true) →
      ∀ d ∈ items, isJsonIn around d = true ∧ P around d
  | [], _, _ => nofun
  | d :: items, around, hitems => by
    obtain ⟨hd, hrest⟩ := List.forall_mem_cons.mp hitems
    exact List.forall_mem_cons.mpr ⟨⟨hd, h.holds d around hd⟩, h.holds_items items around hrest⟩

theorem HoldsByParts.holds_entries {P : List Place → Data → Prop} (h : HoldsByParts P) :
    ∀ (entries : List (Data × Data)) (around : List Place),
      (∀ e ∈ entries, isJsonIn around e.2 = true) →
      ∀ e ∈ entries, isJsonIn around e.2 = true ∧ P around e.2
  | [], _, _ => nofun
  | (_, v) :: entries, around, hentries => by
    obtain ⟨hv, hrest⟩ := List.forall_mem_cons.mp hentries
    exact List.forall_mem_cons.mpr ⟨⟨hv, h.holds v around hv⟩, h.holds_entries entries around hrest⟩

end

/-- A value of JSON differs from itself in nothing. -/
theorem reordered_self : ∀ (d : Data) (around : List Place), isJsonIn around d = true →
    reordered d d = true := by
  refine HoldsByParts.holds ⟨?_, ?_, ?_⟩
  · exact fun _ _ hd => reordered_of_isAtomic hd
  · intro around place items _ hitems
    exact reorderedItems_iff.mpr (List.forall₂_same.mpr fun d hd => (hitems d hd).2)
  · intro around place entries _ hnamed hentries
    refine Bool.and_eq_true_iff.mpr ⟨beq_self_eq_true _, foundIn_iff.mpr fun e he => ?_⟩
    obtain ⟨t, ht⟩ := hnamed.texts e he
    exact ⟨e, he, reordered_of_isAtomic (ht ▸ rfl), (hentries e he).2⟩

/-- Only a list differs from a list in its order, item by item. -/
theorem exists_list_of_reordered {place : Place} {items : List Data} {d : Data}
    (h : reordered (.list place items) d = true) : ∃ place' items', d = .list place' items'
      ∧ List.Forall₂ (fun x y => reordered x y = true) items items' := by
  cases d with
  | list place' items' => exact ⟨place', items', rfl, reorderedItems_iff.mp h⟩
  | _ => cases h

/-- Only a mapping differs from a mapping in its order, and its entries are in some order those of
the other one, by their keys. -/
theorem exists_map_of_reordered {place : Place} {es : List (Data × Data)} {d : Data}
    (hes : NamedOnce es) (h : reordered (.map place es) d = true) :
    ∃ place' fs gs, d = .map place' fs ∧ gs.Perm fs
      ∧ List.Forall₂ (EntriesRelated fun v w => reordered v w = true) es gs := by
  cases d with
  | map place' fs =>
    obtain ⟨hlength, hfound⟩ := Bool.and_eq_true_iff.mp h
    have hpartner : ∀ e ∈ es, ∃ f ∈ fs, EntriesRelated (fun v w => reordered v w = true) e f := by
      intro e he
      obtain ⟨f, hf, hkey, hvalue⟩ := foundIn_iff.mp hfound e he
      obtain ⟨t, ht⟩ := hes.texts e he
      exact ⟨f, hf, eq_of_reordered (ht ▸ rfl) hkey, hvalue⟩
    obtain ⟨gs, hgs, hsubset⟩ := exists_partners hpartner
    have hnodup : gs.Nodup := .of_map Prod.fst (keys_eq_of_related hgs ▸ hes.once)
    refine ⟨place', fs, gs, rfl, ?_, hgs⟩
    refine (List.subperm_of_subset hnodup hsubset).perm_of_length_le (Nat.le_of_eq ?_)
    rw [← hgs.length_eq, beq_iff_eq.mp hlength]
  | _ => cases h

/-- Two values of JSON that differ in the order of entries at most. -/
structure Reordered (d d' : Data) : Prop where
  isJson_left : d.isJson = true
  isJson_right : d'.isJson = true
  reordered : d.reordered d' = true

end Data

namespace Json

open Data (NamedOnce isJsonIn isWritableIn)

theorem writeItems_congr {order : EntryOrder} {around around' : List Place} {xs ys : List Data}
    (h : List.Forall₂ (fun x y => writeIn order around x = writeIn order around' y) xs ys) :
    writeItems order around xs = writeItems order around' ys := by
  induction h with
  | nil => rfl
  | cons hxy _ ih => rw [writeItems, writeItems, hxy, ih]

theorem writeEntries_congr {order : EntryOrder} {around around' : List Place}
    {es fs : List (Data × Data)} (h : List.Forall₂ (Data.EntriesRelated fun v w =>
      writeIn order around v = writeIn order around' w) es fs) :
    writeEntries order around es = writeEntries order around' fs := by
  induction h with
  | nil => rfl
  | @cons e f es fs hef _ ih =>
    obtain ⟨k, v⟩ := e
    obtain ⟨l, w⟩ := f
    obtain ⟨rfl, hvw⟩ := hef
    dsimp only at hvw
    rw [writeEntries, writeEntries, hvw, ih]

/-- Values that differ in the order of entries at most have the same JSON text with entries by name,
or the same fault. -/
theorem writeIn_eq_of_reordered : ∀ (d : Data) (around : List Place), isJsonIn around d = true →
    ∀ (d' : Data) (around' : List Place), isJsonIn around' d' = true → d.reordered d' = true →
      writeIn .byName around d = writeIn .byName around' d' := by
  refine Data.HoldsByParts.holds ⟨?_, ?_, ?_⟩
  · intro around d hd d' around' _ h
    obtain rfl := Data.eq_of_reordered hd h
    cases d' <;> first | rfl | cases hd
  · intro around place items hplace hitems d' around' hd' h
    obtain ⟨place', items', rfl, hpairs⟩ := Data.exists_list_of_reordered h
    obtain ⟨hplace', hitems'⟩ := Data.isJsonIn_list.mp hd'
    have hempty : items.isEmpty = items'.isEmpty := by
      cases hpairs <;> rfl
    have htexts : writeItems .byName (place :: around) items =
        writeItems .byName (place' :: around') items' :=
      writeItems_congr ((forall₂_with_mem hpairs).imp fun x y hxy =>
        (hitems x hxy.1).2 y _ (hitems' y hxy.2.1) hxy.2.2)
    rw [writeIn, writeIn, hempty, hplace, hplace', htexts]
  · intro around place entries hplace hnamed hentries d' around' hd' h
    obtain ⟨place', fs, gs, rfl, hperm, hpairs⟩ := Data.exists_map_of_reordered hnamed h
    obtain ⟨hplace', -, hfs⟩ := Data.isJsonIn_map.mp hd'
    have hempty : entries.isEmpty = fs.isEmpty := by
      rw [← hperm.isEmpty_eq]
      cases hpairs <;> rfl
    have htexts : writeEntries .byName (place :: around) entries =
        writeEntries .byName (place' :: around') gs :=
      writeEntries_congr ((forall₂_with_mem hpairs).imp fun e g heg =>
        ⟨heg.2.2.1, (hentries e heg.1).2 _ _ (hfs g (hperm.mem_iff.mp heg.2.1)).2 heg.2.2.2⟩)
    have hrow : (writeEntries .byName (place' :: around') gs).Perm
        (writeEntries .byName (place' :: around') fs) := by
      rw [writeEntries_eq_map, writeEntries_eq_map]
      exact hperm.map _
    have harranged := Data.arrange_eq_of_perm
      (htexts ▸ namedOnce_writeEntries hnamed _ _) hrow
    rw [writeIn, writeIn, hempty, hplace, hplace', htexts, harranged]

theorem writeItems_eq_mapM (order : EntryOrder) (around : List Place) (items : List Data) :
    writeItems order around items = items.mapM (writeIn order around) := by
  induction items with
  | nil => rfl
  | cons d items ih => rw [writeItems, ih, List.mapM_cons]

/-- A value of JSON with writable numbers has a JSON text. -/
theorem exists_writeIn : ∀ (d : Data) (around : List Place), isJsonIn around d = true →
    isWritableIn around d = true → ∃ text, writeIn .byName around d = .ok text := by
  refine Data.HoldsByParts.holds ⟨?_, ?_, ?_⟩
  · intro around d hd hwritable
    cases d with
    | int n =>
      refine ⟨toString n, ?_⟩
      rw [writeIn, writeInt]
      exact if_pos hwritable
    | special place x => cases hd
    | list place items => cases hd
    | group how place items => cases hd
    | map place entries => cases hd
    | _ => exact ⟨_, rfl⟩
  · intro around place items hplace hitems hwritable
    rw [isWritableIn, hplace, Bool.false_or, Data.allWritable_iff] at hwritable
    obtain ⟨texts, htexts⟩ := exists_mapM_ok fun d hd => (hitems d hd).2 (hwritable d hd)
    rw [writeIn, hplace, writeItems_eq_mapM, htexts]
    split <;> exact ⟨_, rfl⟩
  · intro around place entries hplace hnamed hentries hwritable
    rw [isWritableIn, hplace, Bool.false_or, Data.entriesWritable_iff] at hwritable
    obtain ⟨row, hrow, hperm, -⟩ :=
      Data.exists_arranged (namedOnce_writeEntries hnamed .byName (place :: around))
    have heach : ∀ w ∈ row, ∃ text, writeEntry w = .ok text := by
      intro w hw
      rw [hperm.mem_iff, writeEntries_eq_map] at hw
      obtain ⟨e, he, rfl⟩ := List.mem_map.mp hw
      obtain ⟨t, ht⟩ := hnamed.texts e he
      obtain ⟨text, htext⟩ := (hentries e he).2 (hwritable e he).2
      exact ⟨_, by rw [writeEntry, ht, htext]; rfl⟩
    obtain ⟨texts, htexts⟩ := exists_mapM_ok heach
    rw [writeIn, hplace, hrow, ok_bind, htexts]
    split <;> exact ⟨_, rfl⟩

/-- A value of JSON has a JSON text exactly if its numbers can be written. -/
theorem exists_write_iff {d : Data} (h : d.isJson = true) :
    (∃ text, write .byName d = .ok text) ↔ d.isWritable = true :=
  ⟨fun ⟨_, htext⟩ => isWritableIn_of_write [] _ _ _ htext, exists_writeIn d [] h⟩

end Json

namespace Data

namespace Reordered

variable {d d' : Data}

theorem of_isAtomic (h : d.isAtomic = true) : Reordered d d := by
  have hjson : d.isJson = true := by
    cases d <;> first | rfl | cases h
  exact ⟨hjson, hjson, reordered_of_isAtomic h⟩

theorem refl (h : d.isJson = true) : Reordered d d := ⟨h, h, reordered_self d [] h⟩

/-- Values that differ in the order of entries at most have the same JSON text. -/
theorem write_eq (h : Reordered d d') : Json.write .byName d = Json.write .byName d' :=
  Json.writeIn_eq_of_reordered d [] h.isJson_left d' [] h.isJson_right h.reordered

/-- So both can be written, or none. -/
theorem isWritable_eq (h : Reordered d d') : d.isWritable = d'.isWritable := by
  rw [Bool.eq_iff_iff, ← Json.exists_write_iff h.isJson_left, ← Json.exists_write_iff h.isJson_right,
    h.write_eq]

end Reordered

/-- Of a value of JSON a part can be written wherever it stands. -/
theorem isWritable_of_isWritableIn {d : Data} {around : List Place} (h : isJsonIn around d = true)
    (hwritable : isWritableIn around d = true) : d.isWritable = true := by
  have hjson := isJson_of_isJsonIn h
  obtain ⟨text, htext⟩ := Json.exists_writeIn d around h hwritable
  refine (Json.exists_write_iff hjson).mp ⟨text, ?_⟩
  rw [← htext]
  exact Json.writeIn_eq_of_reordered d [] hjson d around h (reordered_self d [] hjson)

/-- The parts of a value of JSON that can be written can be written. -/
theorem isWritable_of_mem_list {place : Place} {items : List Data}
    (h : isJson (.list place items) = true) (hwritable : isWritable (.list place items) = true)
    {d : Data} (hd : d ∈ items) : d.isWritable = true := by
  obtain ⟨hplace, hitems⟩ := isJsonIn_list.mp h
  rw [isWritable, isWritableIn, hplace, Bool.false_or, allWritable_iff] at hwritable
  exact isWritable_of_isWritableIn (hitems d hd) (hwritable d hd)

theorem isWritable_of_mem_map {place : Place} {entries : List (Data × Data)}
    (h : isJson (.map place entries) = true) (hwritable : isWritable (.map place entries) = true)
    {e : Data × Data} (he : e ∈ entries) : e.2.isWritable = true := by
  obtain ⟨hplace, -, hentries⟩ := isJsonIn_map.mp h
  rw [isWritable, isWritableIn, hplace, Bool.false_or, entriesWritable_iff] at hwritable
  exact isWritable_of_isWritableIn (hentries e he).2 (hwritable e he).2

end Data

end RuleLowering
