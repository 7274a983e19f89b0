import RuleLowering.Proofs.KeyOrder

/-!
# What is told of a value

The JSON text of a value gives the entries of all mappings in the order of their names. What is read
of the text says the same as the value, and it is the value itself but for that order and for the
places of its containers.
-/
namespace RuleLowering

section Pairs

variable {α β : Type} {R : α → β → Prop} {as : List α} {bs : List β}

/-- Where all of some items have a partner among others, these partners make a row. -/
theorem exists_partners (h : ∀ a ∈ as, ∃ b ∈ bs, R a b) : ∃ cs, List.Forall₂ R as cs ∧ cs ⊆ bs := by
  induction as with
  | nil => exact ⟨[], .nil, List.nil_subset bs⟩
  | cons a as ih =>
    obtain ⟨⟨b, hb, hab⟩, hrest⟩ := List.forall_mem_cons.mp h
    obtain ⟨cs, hcs, hsubset⟩ := ih hrest
    exact ⟨b :: cs, .cons hab hcs, List.cons_subset.mpr ⟨hb, hsubset⟩⟩

/-- Items that are related are items of their lists. -/
theorem forall₂_with_mem (h : List.Forall₂ R as bs) :
    List.Forall₂ (fun a b => a ∈ as ∧ b ∈ bs ∧ R a b) as bs := by
  induction h with
  | nil => exact .nil
  | cons hab _ ih =>
    refine .cons ⟨List.mem_cons_self, List.mem_cons_self, hab⟩ (ih.imp fun a b h => ?_)
    exact ⟨.tail _ h.1, .tail _ h.2.1, h.2.2⟩

theorem exists_right_of_forall₂ (h : List.Forall₂ R as bs) : ∀ a ∈ as, ∃ b ∈ bs, R a b :=
  ((List.forall₂_and_left as bs).mp ((forall₂_with_mem h).imp fun _ b hab =>
    ⟨⟨b, hab.2⟩, hab.2.2⟩)).1

theorem exists_left_of_forall₂ (h : List.Forall₂ R as bs) : ∀ b ∈ bs, ∃ a ∈ as, R a b :=
  ((List.forall₂_and_left bs as).mp (List.Forall₂.flip ((forall₂_with_mem h).imp fun a _ hab =>
    ⟨⟨a, hab.1, hab.2.2⟩, hab.2.2⟩))).1

end Pairs

namespace Data

/-- A value of JSON that is no container. -/
def isAtomic : Data → Bool
  | .null | .bool _ | .int _ | .float _ | .str _ => true
  | .special _ _ | .list _ _ | .group _ _ _ | .map _ _ => false

mutual

/-- Two values of JSON are equal but for the order in which mappings have their entries. -/
def reordered : Data → Data → Bool
  | .null, .null => true
  | .bool a, .bool b => a == b
  | .int m, .int n => m == n
  | .float x, .float y => x == y
  | .str s, .str t => s == t
  | .list _ xs, .list _ ys => reorderedItems xs ys
  | .map _ es, .map _ fs => es.length == fs.length && foundIn es fs
  | _, _ => false
termination_by structural d => d

def reorderedItems : List Data → List Data → Bool
  | [], [] => true
  | x :: xs, y :: ys => reordered x y && reorderedItems xs ys
  | _, _ => false
termination_by structural xs => xs

/-- Each of the entries has one with its key, and with its value up to order, among the others. -/
def foundIn : List (Data × Data) → List (Data × Data) → Bool
  | [], _ => true
  | (k, v) :: es, fs => fs.any (fun f => reordered k f.1 && reordered v f.2) && foundIn es fs
termination_by structural es => es

end

theorem eq_of_reordered {d d' : Data} (hd : d.isAtomic = true) (h : reordered d d' = true) :
    d' = d := by
  unfold reordered at h
  split at h
  · rfl
  · exact congrArg Data.bool (beq_iff_eq.mp h).symm
  · exact congrArg Data.int (beq_iff_eq.mp h).symm
  · exact congrArg Data.float (beq_iff_eq.mp h).symm
  · exact congrArg Data.str (beq_iff_eq.mp h).symm
  · cases hd
  · cases hd
  · cases h

theorem reordered_of_isAtomic {d : Data} (hd : d.isAtomic = true) : reordered d d = true := by
  cases d <;> first | exact beq_self_eq_true _ | rfl | cases hd

theorem reorderedItems_iff {xs ys : List Data} :
    reorderedItems xs ys = true ↔ List.Forall₂ (fun x y => reordered x y = true) xs ys := by
  induction xs generalizing ys with
  | nil => cases ys <;> simp [reorderedItems]
  | cons x xs ih => cases ys <;> simp [reorderedItems, ih]

theorem foundIn_iff {es fs : List (Data × Data)} : foundIn es fs = true ↔
    ∀ e ∈ es, ∃ f ∈ fs, reordered e.1 f.1 = true ∧ reordered e.2 f.2 = true := by
  induction es with
  | nil => simp [foundIn]
  | cons e es ih => simp [foundIn, ih]

/-- Two entries have the same key, and values that are related. -/
def EntriesRelated (R : Data → Data → Prop) (e f : Data × Data) : Prop :=
  f.1 = e.1 ∧ R e.2 f.2

theorem keys_eq_of_related {R : Data → Data → Prop} {es fs : List (Data × Data)}
    (h : List.Forall₂ (EntriesRelated R) es fs) : fs.map Prod.fst = es.map Prod.fst := by
  induction h with
  | nil => rfl
  | cons hkey _ ih => rw [List.map_cons, List.map_cons, hkey.1, ih]

mutual

/-- In all mappings of a value the entries are in the order of their names. -/
def isArranged : Data → Bool
  | .list _ items => itemsArranged items
  | .map _ entries => decide (Ascending entries) && entriesArranged entries
  | _ => true

def itemsArranged : List Data → Bool
  | [] => true
  | x :: xs => isArranged x && itemsArranged xs

def entriesArranged : List (Data × Data) → Bool
  | [] => true
  | (_, v) :: es => isArranged v && entriesArranged es

end

theorem itemsArranged_iff {items : List Data} :
    itemsArranged items = true ↔ ∀ d ∈ items, d.isArranged = true := by
  induction items with
  | nil => simp [itemsArranged]
  | cons d items ih => rw [itemsArranged, Bool.and_eq_true, ih, List.forall_mem_cons]

theorem entriesArranged_iff {entries : List (Data × Data)} :
    entriesArranged entries = true ↔ ∀ e ∈ entries, e.2.isArranged = true := by
  induction entries with
  | nil => simp [entriesArranged]
  | cons e entries ih => rw [entriesArranged, Bool.and_eq_true, ih, List.forall_mem_cons]

theorem isArranged_list {place : Place} {items : List Data} :
    isArranged (.list place items) = true ↔ ∀ d ∈ items, d.isArranged = true := by
  rw [isArranged, itemsArranged_iff]

theorem isArranged_map {place : Place} {entries : List (Data × Data)} :
    isArranged (.map place entries) = true ↔
      Ascending entries ∧ ∀ e ∈ entries, e.2.isArranged = true := by
  rw [isArranged, Bool.and_eq_true, decide_eq_true_iff, entriesArranged_iff]

/-- What is read of the text of a value. -/
structure Told (d d' : Data) : Prop where
  same : d.same d' = true
  reordered : d.reordered d' = true
  arranged : d'.isArranged = true

namespace Told

theorem of_isAtomic {d : Data} (h : d.isAtomic = true) : Told d d where
  same := d.same_self
  reordered := reordered_of_isAtomic h
  arranged := by
    cases d <;> first | rfl | cases h

theorem list {place place' : Place} {items items' : List Data} (h : List.Forall₂ Told items items') :
    Told (.list place items) (.list place' items') where
  same := by
    have hsame : sameItems items items' = true := by
      induction h with
      | nil => rfl
      | cons hd _ ih => rw [sameItems, hd.same, ih, Bool.and_self]
    exact hsame
  reordered := reorderedItems_iff.mpr (h.imp fun _ _ hd => hd.reordered)
  arranged := isArranged_list.mpr fun d' hd' => by
    obtain ⟨d, -, hd⟩ := exists_left_of_forall₂ h d' hd'
    exact hd.arranged

/-- Entries in the order of their names are those of a mapping, if what is told of each is there. -/
theorem map {place place' : Place} {entries es fs : List (Data × Data)} (hperm : es.Perm entries)
    (hnamed : NamedOnce es) (horder : Ascending es) (h : List.Forall₂ (EntriesRelated Told) es fs) :
    Told (.map place entries) (.map place' fs) := by
  have hlength : (entries.length == fs.length) = true := by
    rw [beq_iff_eq, ← hperm.length_eq, h.length_eq]
  have hpartner : ∀ e ∈ entries, ∃ f ∈ fs, EntriesRelated Told e f := fun e he =>
    exists_right_of_forall₂ h e (hperm.mem_iff.mpr he)
  refine ⟨?_, ?_, ?_⟩
  · have hin : entriesIn entries fs = true := by
      refine entriesIn_iff.mpr fun e he => ?_
      obtain ⟨f, hf, hkey, hvalue⟩ := hpartner e he
      exact ⟨f, hf, by rw [hkey]; exact same_self _, hvalue.same⟩
    rw [Data.same, hlength, hin]
    rfl
  · have hfound : foundIn entries fs = true := by
      refine foundIn_iff.mpr fun e he => ?_
      obtain ⟨f, hf, hkey, hvalue⟩ := hpartner e he
      obtain ⟨t, ht⟩ := hnamed.texts e (hperm.mem_iff.mpr he)
      exact ⟨f, hf, by rw [hkey]; exact reordered_of_isAtomic (ht ▸ rfl), hvalue.reordered⟩
    rw [Data.reordered, hlength, hfound]
    rfl
  · refine isArranged_map.mpr ⟨?_, fun f hf => ?_⟩
    · exact ascending_of_keys (keys_eq_of_related h) horder
    · obtain ⟨e, -, -, hvalue⟩ := exists_left_of_forall₂ h f hf
      exact hvalue.arranged

end Told

end Data

end RuleLowering
