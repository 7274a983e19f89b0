import RuleLowering.Json.Writer
import RuleLowering.Proofs.SameData
import RuleLowering.Proofs.Sorted
import RuleLowering.Proofs.TextOrder

/-!
# Entries in the order of their names

JSON text gives the entries of a mapping in the order of their names. Where these are different
texts that order is one only: however the entries stood before, they end up in the same row.
-/
namespace RuleLowering

namespace Data

variable {α β : Type}

/-- Entries with different texts as keys. -/
structure NamedOnce (entries : List (Data × α)) : Prop where
  texts : ∀ e ∈ entries, ∃ t, e.1 = .str t
  once : (entries.map Prod.fst).Nodup

def nameBefore (a b : Data × α) : Bool :=
  match a.1, b.1 with
  | .str s, .str t => lessText s t
  | _, _ => false

def Ascending (entries : List (Data × α)) : Prop :=
  entries.Pairwise fun a b => nameBefore a b = true

instance (entries : List (Data × α)) : Decidable (Ascending entries) :=
  inferInstanceAs (Decidable (entries.Pairwise fun a b => nameBefore a b = true))

variable {entries out : List (Data × α)}

namespace NamedOnce

theorem of_perm (h : NamedOnce entries) (hperm : entries.Perm out) : NamedOnce out :=
  ⟨fun e he => h.texts e (hperm.mem_iff.mpr he), (hperm.map Prod.fst).nodup_iff.mp h.once⟩

/-- Only the keys count. -/
theorem of_keys {entries' : List (Data × β)} (h : NamedOnce entries)
    (hkeys : entries'.map Prod.fst = entries.map Prod.fst) : NamedOnce entries' := by
  refine ⟨fun e he => ?_, hkeys ▸ h.once⟩
  have hmem : e.1 ∈ entries.map Prod.fst := hkeys ▸ List.mem_map_of_mem he
  obtain ⟨e', he', hkey⟩ := List.mem_map.mp hmem
  exact hkey ▸ h.texts e' he'

end NamedOnce

/-- For the order, too, only the keys count. -/
theorem ascending_of_keys {entries' : List (Data × β)}
    (hkeys : entries'.map Prod.fst = entries.map Prod.fst) (h : Ascending entries) :
    Ascending entries' := by
  have hpairs : ∀ {γ : Type} (es : List (Data × γ)), Ascending es ↔
      (es.map Prod.fst).Pairwise fun k l => nameBefore (k, ()) (l, ()) = true := by
    intro γ es
    rw [List.pairwise_map]
    exact Iff.rfl
  rw [hpairs, hkeys, ← hpairs]
  exact h

theorem mem_of_field? {entries : List (Data × Data)} {name : String} {value : Data}
    (h : field? entries name = some value) : (.str (.plain name), value) ∈ entries := by
  induction entries with
  | nil => cases h
  | cons entry rest ih =>
    obtain ⟨key, first⟩ := entry
    rw [field?] at h
    split at h
    · rename_i hkey
      obtain rfl := text?_eq_some.mp hkey
      obtain rfl := Option.some.inj h
      exact List.mem_cons_self
    · exact .tail _ (ih h)

/-- Of a name the mapping has the value that stands in an entry. -/
theorem field?_eq_some_iff {entries : List (Data × Data)} (h : NamedOnce entries) {name : String}
    {value : Data} :
    field? entries name = some value ↔ (.str (.plain name), value) ∈ entries :=
  ⟨mem_of_field?, field?_of_mem h.once⟩

/-- The order of the entries does not count for what a mapping has under a name. -/
theorem field?_eq_of_perm {entries out : List (Data × Data)} (h : NamedOnce entries)
    (hperm : entries.Perm out) (name : String) : field? entries name = field? out name :=
  Option.ext fun value => by
    rw [field?_eq_some_iff h, field?_eq_some_iff (h.of_perm hperm), hperm.mem_iff]

/-- Entries with texts as keys are compared by these. -/
theorem compares_nameBefore :
    Compares (fun a b : Data × α => less? a.1 b.1) (fun e => ∃ t, e.1 = .str t)
      fun a b => nameBefore a b = true where
  answers := by
    rintro ⟨_, a⟩ ⟨_, b⟩ ⟨s, rfl⟩ ⟨t, rfl⟩
    have hless : less? (.str s) (.str t) = .ok (lessText s t) := by
      simp [less?, lessScalar?]
    dsimp only [nameBefore]
    rw [hless]
    cases lessText s t <;> simp
  asymm := by
    rintro ⟨_, a⟩ ⟨_, b⟩ ⟨s, rfl⟩ ⟨t, rfl⟩ hst hts
    exact List.lt_asymm (lessText_iff.mp hst) (lessText_iff.mp hts)
  through := by
    rintro ⟨_, a⟩ ⟨_, b⟩ ⟨_, c⟩ ⟨s, rfl⟩ ⟨t, rfl⟩ ⟨u, rfl⟩ hsu
    have hsu' := lessText_iff.mp hsu
    dsimp only [nameBefore]
    rw [lessText_iff, lessText_iff]
    rcases Text.codes_trichotomy s t with hst | rfl | hts
    · exact .inl hst
    · exact .inr hsu'
    · exact .inr (List.lt_trans hts hsu')

/-- Entries with different texts as keys are put in the order of these. -/
theorem exists_arranged (h : NamedOnce entries) :
    ∃ out, Json.arrange .byName entries = .ok out ∧ out.Perm entries ∧ Ascending out := by
  obtain ⟨out, hout, hperm, horder⟩ := compares_nameBefore.sorted_ok h.texts
  have hnamed := h.of_perm hperm.symm
  refine ⟨out, hout, hperm, ?_⟩
  have hdistinct : out.Pairwise fun a b => a.1 ≠ b.1 := List.pairwise_map.mp hnamed.once
  refine (hdistinct.and horder).imp_of_mem ?_
  rintro ⟨k, a⟩ ⟨l, b⟩ ha hb ⟨hne, hnot⟩
  obtain ⟨s, rfl⟩ := hnamed.texts _ ha
  obtain ⟨t, rfl⟩ := hnamed.texts _ hb
  rcases Text.codes_trichotomy s t with hst | rfl | hts
  · exact lessText_iff.mpr hst
  · exact absurd rfl hne
  · exact absurd (lessText_iff.mpr hts) hnot

/-- There is one row of given entries that is in the order of their names. -/
theorem arrange_eq (h : NamedOnce entries) (hperm : out.Perm entries) (horder : Ascending out) :
    Json.arrange .byName entries = .ok out := by
  obtain ⟨out', hout, hperm', horder'⟩ := exists_arranged h
  have hnamed := h.of_perm hperm'.symm
  have heq : out' = out := by
    refine List.Perm.eq_of_pairwise (fun a b ha hb hab hba => ?_) horder' horder
      (hperm'.trans hperm.symm)
    exact absurd hba (compares_nameBefore.asymm a b (hnamed.texts a ha)
      (hnamed.texts b (hperm'.mem_iff.mpr (hperm.mem_iff.mp hb))) hab)
  rw [hout, heq]

/-- However the entries stood before, they are put in the same row. -/
theorem arrange_eq_of_perm (h : NamedOnce entries) (hperm : entries.Perm out) :
    Json.arrange .byName entries = Json.arrange .byName out := by
  obtain ⟨row, hrow, hperm', horder⟩ := exists_arranged (h.of_perm hperm)
  rw [hrow, arrange_eq h (hperm'.trans hperm.symm) horder]

end Data

end RuleLowering
