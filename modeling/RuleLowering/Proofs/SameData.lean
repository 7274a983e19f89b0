import Mathlib.Data.List.Nodup
import Mathlib.Data.List.Perm.Subperm
import RuleLowering.Proofs.SelfSame

/-!
# Documents that say the same

A value that says the same as another is of the same shape: a text if it is one, and then the same
text, a list of as many items, a mapping of as many entries. Where the keys of one mapping are
different names, the other one has these keys and no others, in whatever order.
-/

namespace RuleLowering

namespace Data

/-- The shapes that data may have. Numbers of all kinds are of one shape. -/
inductive Shape where
  | null
  | number
  | text
  | special
  | list
  | pair
  | set
  | map
  deriving DecidableEq

def shape : Data → Shape
  | .null => .null
  | .bool _ | .int _ | .float _ => .number
  | .str _ => .text
  | .special _ _ => .special
  | .list _ _ => .list
  | .group .pair _ _ => .pair
  | .group .set _ _ => .set
  | .map _ _ => .map

theorem shape_of_sameNumber {a b : Data} (h : sameNumber a b = true) :
    a.shape = .number ∧ b.shape = .number := by
  have hreach : ∀ d : Data, d.reach?.isSome → d.shape = .number := by
    intro d hd
    cases d <;> first | rfl | cases hd
  unfold sameNumber at h
  split at h
  · exact ⟨rfl, rfl⟩
  · split at h
    · rename_i r s hr hs
      exact ⟨hreach a (by rw [hr]; rfl), hreach b (by rw [hs]; rfl)⟩
    · cases h

/-- Values that say the same are of one shape. -/
theorem shape_eq_of_same {a b : Data} (h : same a b = true) : a.shape = b.shape := by
  unfold same at h
  split at h
  · rfl
  · rfl
  · rfl
  · rfl
  · rfl
  · rfl
  · rfl
  · obtain ⟨ha, hb⟩ := shape_of_sameNumber h
    rw [ha, hb]

/-- Only a text says the same as a text, and only if they are equal. -/
theorem same_str_left {t : Text} {d : Data} : same (.str t) d = true ↔ d = .str t := by
  constructor
  · intro h
    have hshape := shape_eq_of_same h
    cases d with
    | str s => exact congrArg Data.str (beq_iff_eq.mp h).symm
    | group how _ _ => cases how <;> cases hshape
    | _ => cases hshape
  · rintro rfl
    exact same_self _

theorem same_str_right {t : Text} {d : Data} : same d (.str t) = true ↔ d = .str t := by
  constructor
  · intro h
    have hshape := shape_eq_of_same h
    cases d with
    | str s => exact congrArg Data.str (beq_iff_eq.mp h)
    | group how _ _ => cases how <;> cases hshape
    | _ => cases hshape
  · rintro rfl
    exact same_self _

theorem eq_str_iff_of_same {a b : Data} {t : Text} (h : same a b = true) :
    a = .str t ↔ b = .str t := by
  constructor
  · rintro rfl
    exact same_str_left.mp h
  · rintro rfl
    exact same_str_right.mp h

theorem text?_eq_of_same {a b : Data} (h : same a b = true) : a.text? = b.text? :=
  Option.ext fun _ => by rw [text?_eq_some, text?_eq_some, eq_str_iff_of_same h]

theorem eq_null_of_same {d : Data} (h : same .null d = true) : d = .null := by
  have hshape := shape_eq_of_same h
  cases d with
  | null => rfl
  | group how _ _ => cases how <;> cases hshape
  | _ => cases hshape

theorem exists_list_of_shape {d : Data} (h : d.shape = .list) :
    ∃ place items, d = .list place items := by
  cases d with
  | list place items => exact ⟨place, items, rfl⟩
  | group how _ _ => cases how <;> cases h
  | _ => cases h

/-- A list says the same as a list only, item by item. -/
theorem exists_list_of_same {items : List Data} {d : Data} (h : same (.ofList items) d = true) :
    ∃ place items', d = .list place items' ∧ sameItems items items' = true := by
  obtain ⟨place, items', rfl⟩ := exists_list_of_shape (shape_eq_of_same h).symm
  exact ⟨place, items', rfl, h⟩

/-- Some entries hold, under each name of some fields, a value that says the same. -/
def Carries (entries : List (Data × Data)) (fields : List (String × Data)) : Prop :=
  ∀ name value, (name, value) ∈ fields →
    ∃ value', field? entries name = some value' ∧ same value value' = true

theorem field?_of_mem {entries : List (Data × Data)} {name : String} {value : Data}
    (hnodup : (entries.map Prod.fst).Nodup) (hmem : (.str (.plain name), value) ∈ entries) :
    field? entries name = some value := by
  induction entries with
  | nil => cases hmem
  | cons entry rest ih =>
    obtain ⟨key, first⟩ := entry
    obtain ⟨hkey, hnodup'⟩ := List.nodup_cons.mp hnodup
    rw [field?]
    rcases List.mem_cons.mp hmem with heq | hrest
    · obtain ⟨rfl, rfl⟩ := Prod.mk.inj heq
      exact if_pos rfl
    · have hne : key.text? ≠ some (.plain name) := by
        intro htext
        obtain rfl := text?_eq_some.mp htext
        have hin : Data.str (.plain name) ∈ rest.map Prod.fst := List.mem_map_of_mem hrest
        exact hkey hin
      rw [if_neg hne]
      exact ih hnodup' hrest

theorem entriesIn_iff {es fs : List (Data × Data)} :
    entriesIn es fs = true ↔ ∀ e ∈ es, ∃ f ∈ fs, same e.1 f.1 = true ∧ same e.2 f.2 = true := by
  induction es with
  | nil => simp [entriesIn]
  | cons e es ih => simp [entriesIn, ih]

/-- A mapping with different names as keys says the same as mappings only that carry its fields
under these names, and nothing else: an entry under another name would take the place of one. -/
theorem exists_map_of_same {fields : List (String × Data)} {d : Data}
    (h : same (.ofFields fields) d = true) (hnodup : (fields.map Prod.fst).Nodup) :
    ∃ place entries, d = .map place entries ∧ Carries entries fields := by
  have hshape := shape_eq_of_same h
  cases d with
  | map place entries =>
    obtain ⟨hlength, hentries⟩ := Bool.and_eq_true_iff.mp h
    have hfound : ∀ name value, (name, value) ∈ fields →
        ∃ value', (Data.str (.plain name), value') ∈ entries ∧ same value value' = true := by
      intro name value hmem
      obtain ⟨⟨key, value'⟩, hf, hkey, hvalue⟩ :=
        entriesIn_iff.mp hentries _ (List.mem_map_of_mem hmem)
      obtain rfl := same_str_left.mp hkey
      exact ⟨value', hf, hvalue⟩
    have hnames : (fields.map fun f => Data.str (.plain f.1)).Nodup := by
      have hinjective : Function.Injective fun name : String => Data.str (.plain name) :=
        fun _ _ heq => Text.plain.inj (Data.str.inj heq)
      have hmap := hnodup.map hinjective
      rwa [List.map_map] at hmap
    have hsubset : (fields.map fun f => Data.str (.plain f.1)) ⊆ entries.map Prod.fst := by
      intro key hkey
      obtain ⟨⟨name, value⟩, hmem, rfl⟩ := List.mem_map.mp hkey
      obtain ⟨value', hmem', -⟩ := hfound name value hmem
      exact List.mem_map_of_mem hmem'
    have hperm : (fields.map fun f => Data.str (.plain f.1)).Perm (entries.map Prod.fst) := by
      refine (List.subperm_of_subset hnames hsubset).perm_of_length_le (Nat.le_of_eq ?_)
      rw [List.length_map, List.length_map, ← beq_iff_eq.mp hlength, List.length_map]
    have hkeys : (entries.map Prod.fst).Nodup := hperm.nodup_iff.mp hnames
    refine ⟨place, entries, rfl, fun name value hmem => ?_⟩
    obtain ⟨value', hmem', hvalue⟩ := hfound name value hmem
    exact ⟨value', field?_of_mem hkeys hmem', hvalue⟩
  | group how _ _ => cases how <;> cases hshape
  | _ => cases hshape

theorem sameItems_eq_sameEach : ∀ xs ys : List Data, sameItems xs ys = sameEach same xs ys
  | [], [] | [], _ :: _ | _ :: _, [] => rfl
  | x :: xs, y :: ys => by rw [sameItems, sameEach, sameItems_eq_sameEach xs ys]

/-- Only in a pair do the parts tell whether a value can be looked up. -/
theorem unhashable?_of_ne_pair {d : Data} (h : d.shape ≠ .pair) :
    d.unhashable? = match d.shape with
      | .list => some "list"
      | .map => some "dict"
      | .set => some "set"
      | _ => none := by
  cases d with
  | group how place items =>
    cases how with
    | pair => exact absurd rfl h
    | set => rfl
  | _ => rfl

theorem unhashable?_of_shape {a b : Data} (h : a.shape = b.shape) (hpair : a.shape ≠ .pair) :
    a.unhashable? = b.unhashable? := by
  rw [unhashable?_of_ne_pair hpair, unhashable?_of_ne_pair (h ▸ hpair), h]

theorem exists_pair_of_shape {d : Data} (h : d.shape = .pair) :
    ∃ place items, d = .group .pair place items := by
  cases d with
  | group how place items =>
    cases how with
    | pair => exact ⟨place, items, rfl⟩
    | set => cases h
  | _ => cases h

mutual

/-- Values that say the same can both be looked up, or neither for the same part. -/
theorem unhashable?_of_same : ∀ a b : Data, same a b = true → a.unhashable? = b.unhashable?
  | .group .pair _ xs, b, h => by
    obtain ⟨place, ys, rfl⟩ := exists_pair_of_shape (shape_eq_of_same h).symm
    exact unhashableItem?_of_same xs ys h
  | .null, _, h | .bool _, _, h | .int _, _, h | .float _, _, h | .str _, _, h | .special _ _, _, h
  | .list _ _, _, h | .group .set _ _, _, h | .map _ _, _, h =>
    unhashable?_of_shape (shape_eq_of_same h) nofun

theorem unhashableItem?_of_same :
    ∀ xs ys : List Data, sameItems xs ys = true → unhashableItem? xs = unhashableItem? ys
  | [], [], _ => rfl
  | x :: xs, y :: ys, h => by
    obtain ⟨hx, hxs⟩ := Bool.and_eq_true_iff.mp h
    rw [unhashableItem?, unhashableItem?, unhashable?_of_same x y hx,
      unhashableItem?_of_same xs ys hxs]

end

end Data

end RuleLowering
