import RuleLowering.Proofs.Reordering

/-!
# Values with their entries in the order of their names

The JSON text of a value gives all entries in the order of their names, so that is how they come
back when the text is read. A value that has come back is displayed as the one that was written
would be displayed if its entries were put in that order, and as that one itself if they were in it
before.
-/
namespace RuleLowering

namespace Data

section Rows

variable {α β : Type} {entries out : List (Data × α)}

/-- One row of entries only is in the order of their names. -/
theorem eq_of_ascending (h : NamedOnce entries) (hperm : out.Perm entries)
    (hout : Ascending out) (hentries : Ascending entries) : out = entries :=
  Except.ok.inj ((arrange_eq h hperm hout).symm.trans (arrange_eq h (.refl _) hentries))

theorem ascending_map {f : Data × α → β} :
    Ascending (entries.map fun e => (e.1, f e)) ↔ Ascending entries :=
  List.pairwise_map

def byName (entries : List (Data × α)) : List (Data × α) :=
  match Json.arrange .byName entries with
  | .ok out => out
  | .error _ => entries

theorem byName_spec (h : NamedOnce entries) :
    (byName entries).Perm entries ∧ Ascending (byName entries) := by
  obtain ⟨out, hout, hperm, horder⟩ := exists_arranged h
  rw [byName, hout]
  exact ⟨hperm, horder⟩

theorem byName_eq_self (h : NamedOnce entries) (horder : Ascending entries) :
    byName entries = entries :=
  eq_of_ascending h (byName_spec h).1 (byName_spec h).2 horder

end Rows

mutual

/-- A value with the entries of all its mappings in the order of their names. -/
def arranged : Data → Data
  | .list place items => .list place (arrangedItems items)
  | .map place entries => .map place (byName (arrangedEntries entries))
  | d => d

def arrangedItems : List Data → List Data
  | [] => []
  | x :: xs => arranged x :: arrangedItems xs

def arrangedEntries : List (Data × Data) → List (Data × Data)
  | [] => []
  | (k, v) :: es => (k, arranged v) :: arrangedEntries es

end

theorem arrangedItems_eq_map (items : List Data) : arrangedItems items = items.map arranged := by
  induction items with
  | nil => rfl
  | cons d items ih => rw [arrangedItems, ih, List.map_cons]

theorem arrangedEntries_eq_map (entries : List (Data × Data)) :
    arrangedEntries entries = entries.map fun e => (e.1, e.2.arranged) := by
  induction entries with
  | nil => rfl
  | cons e entries ih => rw [arrangedEntries, ih, List.map_cons]

theorem NamedOnce.arrangedEntries {entries : List (Data × Data)} (h : NamedOnce entries) :
    NamedOnce (arrangedEntries entries) := by
  refine h.of_keys ?_
  rw [arrangedEntries_eq_map, List.map_map]
  rfl

theorem arranged_of_isAtomic {d : Data} (h : d.isAtomic = true) : d.arranged = d := by
  cases d <;> first | rfl | cases h

/-- What is arranged already stays as it is. -/
theorem arranged_eq_self_of_isJsonIn : ∀ (d : Data) (around : List Place),
    isJsonIn around d = true → d.isArranged = true → d.arranged = d := by
  refine HoldsByParts.holds ⟨?_, ?_, ?_⟩
  · exact fun _ d hd _ => arranged_of_isAtomic hd
  · intro around place items _ hitems harranged
    have hitems' : items.map arranged = items.map id :=
      List.map_congr_left fun d hd => (hitems d hd).2 (isArranged_list.mp harranged d hd)
    rw [arranged, arrangedItems_eq_map, hitems', List.map_id]
  · intro around place entries _ hnamed hentries harranged
    obtain ⟨horder, hvalues⟩ := isArranged_map.mp harranged
    have hentries' : (entries.map fun e => (e.1, e.2.arranged)) = entries.map id :=
      List.map_congr_left fun e he =>
        congrArg (Prod.mk e.1) ((hentries e he).2 (hvalues e he))
    rw [arranged, arrangedEntries_eq_map, hentries', List.map_id, byName_eq_self hnamed horder]

theorem arranged_eq_self {d : Data} (hjson : d.isJson = true) (h : d.isArranged = true) :
    d.arranged = d :=
  arranged_eq_self_of_isJsonIn d [] hjson h

/-- To be arranged goes on to parts. -/
theorem inherited_arranged : Inherited fun d => d.isArranged = true where
  list _ _ h := isArranged_list.mp h
  map _ _ h := (isArranged_map.mp h).2
  null := rfl
  text _ := rfl
  zero := rfl
  one := rfl
  empty := rfl

section Display

theorem innerItems_eq_map (around : List Place) (items : List Data) :
    innerItems around items = items.map (innerIn around) := by
  induction items with
  | nil => rfl
  | cons d items ih => rw [innerItems, ih, List.map_cons]

/-- The entries of a mapping with texts as keys are displayed by the keys and the displayed
values. -/
theorem innerEntries_eq_map (around : List Place) {entries : List (Data × Data)}
    (h : ∀ e ∈ entries, ∃ t, e.1 = .str t) : innerEntries around entries =
      (entries.map fun e => (e.1, innerIn around e.2)).map fun p => p.1.inner ++ ": " ++ p.2 := by
  induction entries with
  | nil => rfl
  | cons e entries ih =>
    obtain ⟨⟨t, ht⟩, hrest⟩ := List.forall_mem_cons.mp h
    obtain ⟨k, v⟩ := e
    obtain rfl : k = .str t := ht
    rw [innerEntries, ih hrest]
    rfl

/-- An arranged value is displayed as each value that it differs from in the order of entries, once
that is arranged. -/
theorem innerIn_eq_of_arranged : ∀ (d : Data) (around : List Place), isJsonIn around d = true →
    ∀ (d' : Data) (around' : List Place), isJsonIn around' d' = true → d.reordered d' = true →
      d'.isArranged = true → innerIn around' d' = innerIn around d.arranged := by
  refine HoldsByParts.holds ⟨?_, ?_, ?_⟩
  · intro around d hd d' around' _ h _
    obtain rfl := eq_of_reordered hd h
    rw [arranged_of_isAtomic hd]
    cases d' <;> first | rfl | cases hd
  · intro around place items hplace hitems d' around' hd' h harranged
    obtain ⟨place', items', rfl, hpairs⟩ := exists_list_of_reordered h
    obtain ⟨hplace', hitems'⟩ := isJsonIn_list.mp hd'
    have heach : List.Forall₂ (fun text text' => text = text')
        (items'.map (innerIn (place' :: around')))
        ((items.map arranged).map (innerIn (place :: around))) := by
      rw [List.forall₂_map_left_iff, List.map_map, List.forall₂_map_right_iff]
      exact (forall₂_with_mem hpairs).flip.imp fun y x hxy => (hitems x hxy.1).2 y _
        (hitems' y hxy.2.1) hxy.2.2 (isArranged_list.mp harranged y hxy.2.1)
    rw [List.forall₂_eq_eq_eq] at heach
    rw [arranged, arrangedItems_eq_map, innerIn, innerIn, hplace, hplace', innerItems_eq_map,
      innerItems_eq_map, heach]
  · intro around place entries hplace hnamed hentries d' around' hd' h harranged
    obtain ⟨place', fs, gs, rfl, hperm, hpairs⟩ := exists_map_of_reordered hnamed h
    obtain ⟨hplace', -, hfs⟩ := isJsonIn_map.mp hd'
    obtain ⟨horder, hvalues⟩ := isArranged_map.mp harranged
    have hfsnamed : NamedOnce fs := .of_isJson (isJson_of_isJsonIn hd')
    obtain ⟨hrow, hroworder⟩ := byName_spec hnamed.arrangedEntries
    have hrownamed := hnamed.arrangedEntries.of_perm hrow.symm
    have heach : (gs.map fun e => (e.1, innerIn (place' :: around') e.2)) =
        (arrangedEntries entries).map fun e => (e.1, innerIn (place :: around) e.2) := by
      have hpair : List.Forall₂ (fun p p' => p = p')
          (gs.map fun e => (e.1, innerIn (place' :: around') e.2))
          ((arrangedEntries entries).map fun e => (e.1, innerIn (place :: around) e.2)) := by
        rw [arrangedEntries_eq_map, List.map_map, List.forall₂_map_left_iff,
          List.forall₂_map_right_iff]
        refine (forall₂_with_mem hpairs).flip.imp fun g e heg => ?_
        obtain ⟨he, hg, hkey, hvalue⟩ := heg
        have hg' := hperm.mem_iff.mp hg
        exact Prod.ext hkey ((hentries e he).2 _ _ (hfs g hg').2 hvalue (hvalues g hg'))
      exact List.forall₂_eq_eq_eq ▸ hpair
    have hsame : (fs.map fun e => (e.1, innerIn (place' :: around') e.2)) =
        (byName (arrangedEntries entries)).map fun e => (e.1, innerIn (place :: around) e.2) := by
      refine eq_of_ascending (hrownamed.of_keys (by rw [List.map_map]; rfl)) ?_
        (ascending_map.mpr horder) (ascending_map.mpr hroworder)
      exact (hperm.map _).symm.trans (heach ▸ (hrow.map _).symm)
    rw [arranged, innerIn, innerIn, hplace, hplace', innerEntries_eq_map _ hfsnamed.texts,
      innerEntries_eq_map _ hrownamed.texts, hsame]

end Display

/-- The second value is the first one with all its entries in the order of their names. -/
def ArrangedAs (d d' : Data) : Prop := Reordered d d' ∧ d'.isArranged = true

theorem reshapes_arranged : Reshapes ArrangedAs := reshapes_reordered.and inherited_arranged

theorem ArrangedAs.display_eq {d d' : Data} (h : ArrangedAs d d') :
    d'.display = d.arranged.display := by
  obtain ⟨⟨hjson, hjson', hreordered⟩, harranged⟩ := h
  have hinner : d'.inner = d.arranged.inner :=
    innerIn_eq_of_arranged d [] hjson d' [] hjson' hreordered harranged
  cases d with
  | list place items =>
    obtain ⟨place', items', rfl, -⟩ := exists_list_of_reordered hreordered
    exact congrArg Text.plain hinner
  | map place entries =>
    obtain ⟨place', fs, -, rfl, -⟩ := exists_map_of_reordered (.of_isJson hjson) hreordered
    exact congrArg Text.plain hinner
  | special _ _ | group _ _ _ => cases hjson
  | _ =>
    obtain rfl := eq_of_reordered rfl hreordered
    rfl

end Data

end RuleLowering
