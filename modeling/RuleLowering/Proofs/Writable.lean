import RuleLowering.Proofs.JsonDocument
import RuleLowering.Rendering

/-!
# Values that can be written

A value is shown by whole numbers that all have to be writable, but for what stands in a container
inside itself. What the program builds has no place and so cannot stand inside itself: a document of
built containers can be written if all its parts can. A value that has a JSON or a YAML text has
only writable numbers.
-/
namespace RuleLowering

namespace Place

/-- A built container is never met again inside itself. -/
@[simp] theorem isAmong_cons_fresh (place : Place) (around : List Place) :
    place.isAmong (.fresh :: around) = place.isAmong around := by
  cases place <;> simp [isAmong]

end Place

namespace Data

variable {around around' : List Place}

section Around

variable (h : ∀ place : Place, place.isAmong around = place.isAmong around')
include h

theorem isAmong_cons_congr (place p : Place) :
    p.isAmong (place :: around) = p.isAmong (place :: around') := by
  have hp := h p
  simp only [Place.isAmong, List.contains_cons] at hp ⊢
  cases hfresh : p != .fresh
  · rfl
  · rw [hfresh, Bool.true_and, Bool.true_and] at hp
    rw [hp]

end Around

mutual

/-- Of the containers around a value only those count that a container can be inside of again. -/
theorem isWritableIn_congr : ∀ (d : Data) {around around' : List Place},
    (∀ place : Place, place.isAmong around = place.isAmong around') →
    isWritableIn around d = isWritableIn around' d
  | .list place items, _, _, h => by
    rw [isWritableIn, isWritableIn, h place, allWritable_congr items (isAmong_cons_congr h place)]
  | .group _ place items, _, _, h => by
    rw [isWritableIn, isWritableIn, h place, allWritable_congr items (isAmong_cons_congr h place)]
  | .map place entries, _, _, h => by
    rw [isWritableIn, isWritableIn, h place,
      entriesWritable_congr entries (isAmong_cons_congr h place)]
  | .null, _, _, _ | .bool _, _, _, _ | .int _, _, _, _ | .float _, _, _, _ | .str _, _, _, _
  | .special _ _, _, _, _ => rfl

theorem allWritable_congr : ∀ (items : List Data) {around around' : List Place},
    (∀ place : Place, place.isAmong around = place.isAmong around') →
    allWritable around items = allWritable around' items
  | [], _, _, _ => rfl
  | d :: items, _, _, h => by
    rw [allWritable, allWritable, isWritableIn_congr d h, allWritable_congr items h]

theorem entriesWritable_congr : ∀ (entries : List (Data × Data)) {around around' : List Place},
    (∀ place : Place, place.isAmong around = place.isAmong around') →
    entriesWritable around entries = entriesWritable around' entries
  | [], _, _, _ => rfl
  | (k, v) :: entries, _, _, h => by
    rw [entriesWritable, entriesWritable, isWritableIn_congr k h, isWritableIn_congr v h,
      entriesWritable_congr entries h]

end

theorem allWritable_iff {items : List Data} :
    allWritable around items = true ↔ ∀ d ∈ items, isWritableIn around d = true := by
  induction items with
  | nil => simp [allWritable]
  | cons d items ih => rw [allWritable, Bool.and_eq_true, ih, List.forall_mem_cons]

theorem entriesWritable_iff {entries : List (Data × Data)} :
    entriesWritable around entries = true ↔
      ∀ e ∈ entries, isWritableIn around e.1 = true ∧ isWritableIn around e.2 = true := by
  induction entries with
  | nil => simp [entriesWritable]
  | cons e entries ih =>
    rw [entriesWritable, Bool.and_eq_true, Bool.and_eq_true, ih, List.forall_mem_cons]

/-- A built list can be written if its items can. -/
@[simp] theorem isWritable_ofList {items : List Data} :
    isWritable (.ofList items) = true ↔ ∀ d ∈ items, d.isWritable = true := by
  have hitems := allWritable_congr items (Place.isAmong_cons_fresh · [])
  rw [isWritable, ofList, isWritableIn, hitems]
  exact allWritable_iff

/-- A built mapping can be written if the values of its fields can. -/
@[simp] theorem isWritable_ofFields {fields : List (String × Data)} :
    isWritable (.ofFields fields) = true ↔ ∀ f ∈ fields, f.2.isWritable = true := by
  have hentries := entriesWritable_congr (fields.map fun f => (Data.str f.1, f.2))
    (Place.isAmong_cons_fresh · [])
  have hkey : ∀ name : String, isWritableIn [] (.str name) = true := fun _ => rfl
  rw [isWritable, ofFields, isWritableIn, hentries]
  simp only [Place.isAmong, bne_self_eq_false, Bool.false_and, Bool.false_or, entriesWritable_iff,
    List.forall_mem_map, hkey, true_and]
  rfl

end Data

namespace Json

open Data (isWritableIn allWritable entriesWritable)

theorem isWritableIn_of_writeInt {n : Int} {text : String} (h : writeInt n = .ok text)
    (around : List Place) : isWritableIn around (.int n) = true := by
  have hint : ∀ a, isWritableIn a (.int n) = decide (n.natAbs < Data.numberLimit) := fun a => by
    rw [isWritableIn]
  rw [writeInt, Data.isWritable, hint] at h
  rw [hint]
  by_contra hn
  rw [if_neg hn] at h
  cases h

theorem isWritableIn_of_writeName {key : Data} {text : String} (h : writeName key = .ok text)
    (around : List Place) : isWritableIn around key = true := by
  cases key with
  | int n =>
    obtain ⟨text', hn, -⟩ := bind_eq_ok_iff.mp h
    exact isWritableIn_of_writeInt hn around
  | list _ _ | group _ _ _ | map _ _ => cases h
  | _ => rfl

mutual

/-- A value with a JSON text has only writable numbers. -/
theorem isWritableIn_of_write {order : EntryOrder} (around : List Place) :
    ∀ (d : Data) (inside : List Place) (text : String), writeIn order inside d = .ok text →
      isWritableIn around d = true
  | .list place items => by
    intro _ _ h
    rw [isWritableIn, Bool.or_eq_true]
    right
    rw [writeIn] at h
    split at h
    · rename_i hempty
      rw [List.isEmpty_iff.mp hempty]
      rfl
    · split at h
      · cases h
      · obtain ⟨texts, htexts, -⟩ := bind_eq_ok_iff.mp h
        exact allWritable_of_write _ items _ _ htexts
  | .group .pair place items => by
    intro _ _ h
    rw [isWritableIn, Bool.or_eq_true]
    right
    rw [writeIn] at h
    split at h
    · cases h
    · obtain ⟨texts, htexts, -⟩ := bind_eq_ok_iff.mp h
      exact allWritable_of_write _ items _ _ htexts
  | .map place entries => by
    intro inside _ h
    rw [isWritableIn, Bool.or_eq_true]
    right
    rw [writeIn] at h
    split at h
    · rename_i hempty
      rw [List.isEmpty_iff.mp hempty]
      rfl
    · split at h
      · cases h
      · obtain ⟨arranged, harranged, h⟩ := bind_eq_ok_iff.mp h
        obtain ⟨texts, htexts, -⟩ := bind_eq_ok_iff.mp h
        have hentries : ∀ e ∈ entries, ∃ text,
            writeEntry (e.1, writeIn order (place :: inside) e.2) = .ok text := by
          intro e he
          have hmem : (e.1, writeIn order (place :: inside) e.2) ∈ arranged := by
            rw [(perm_of_arrange harranged).mem_iff, writeEntries_eq_map]
            exact List.mem_map_of_mem he
          exact exists_ok_of_mapM htexts _ hmem
        exact entriesWritable_of_write _ entries _ hentries
  | .int n => by
    intro _ _ h
    rw [writeIn] at h
    exact isWritableIn_of_writeInt h around
  | .group .set _ _ => by
    intro _ _ h
    cases h
  | .null | .bool _ | .float _ | .str _ | .special _ _ => fun _ _ _ => rfl

theorem allWritable_of_write {order : EntryOrder} (around : List Place) :
    ∀ (items : List Data) (inside : List Place) (texts : List String),
      writeItems order inside items = .ok texts → allWritable around items = true
  | [] => fun _ _ _ => rfl
  | d :: items => by
    intro _ _ h
    obtain ⟨text, htext, h⟩ := bind_eq_ok_iff.mp h
    obtain ⟨texts, htexts, -⟩ := bind_eq_ok_iff.mp h
    rw [allWritable, isWritableIn_of_write around d _ _ htext,
      allWritable_of_write around items _ _ htexts]
    rfl

theorem entriesWritable_of_write {order : EntryOrder} (around : List Place) :
    ∀ (entries : List (Data × Data)) (inside : List Place),
      (∀ e ∈ entries, ∃ text, writeEntry (e.1, writeIn order inside e.2) = .ok text) →
      entriesWritable around entries = true
  | [] => fun _ _ => rfl
  | (k, v) :: entries => by
    intro _ h
    obtain ⟨⟨text, hentry⟩, hrest⟩ := List.forall_mem_cons.mp h
    obtain ⟨name, hname, hentry⟩ := bind_eq_ok_iff.mp hentry
    obtain ⟨value, hvalue, -⟩ := bind_eq_ok_iff.mp hentry
    rw [entriesWritable, isWritableIn_of_writeName hname, isWritableIn_of_write around v _ _ hvalue,
      entriesWritable_of_write around entries _ hrest]
    rfl

end

end Json

end RuleLowering
