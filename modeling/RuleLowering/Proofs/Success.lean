import Mathlib.Data.List.Forall2

/-!
# Success of computations that may fail

A chain of computations gives a result exactly when each link does. These facts take such a
chain apart without opening the monad.
-/
namespace RuleLowering

variable {ε α β : Type}

@[simp] theorem ok_bind (a : α) (next : α → Except ε β) : (Except.ok a >>= next) = next a := rfl

@[simp] theorem map_ok (f : α → β) (a : α) : f <$> (Except.ok a : Except ε α) = .ok (f a) := rfl

/-- A chain succeeds through a result of its first link. -/
theorem bind_eq_ok_iff {first : Except ε α} {next : α → Except ε β} {b : β} :
    (first >>= next) = .ok b ↔ ∃ a, first = .ok a ∧ next a = .ok b := by
  constructor
  · intro h
    cases first with
    | error fault => cases h
    | ok a => exact ⟨a, rfl, h⟩
  · rintro ⟨a, rfl, h⟩
    exact h

/-- A chain fails in its first link, or behind a result of it. -/
theorem bind_eq_error_iff {first : Except ε α} {next : α → Except ε β} {fault : ε} :
    (first >>= next) = .error fault ↔
      first = .error fault ∨ ∃ a, first = .ok a ∧ next a = .error fault := by
  cases first with
  | error fault' =>
    have herror : (Except.error fault' >>= next) = .error fault' := rfl
    simp [herror]
  | ok a => simp

theorem return_eq_ok_iff {a b : α} : (return a : Except ε α) = .ok b ↔ b = a :=
  ⟨fun h => (Except.ok.inj h).symm, fun h => h ▸ rfl⟩

theorem exists_ok_of_toBool {x : Except ε α} (h : x.toBool = true) : ∃ a, x = .ok a := by
  cases x with
  | ok a => exact ⟨a, rfl⟩
  | error fault => cases h

/-- A walk over a list succeeds exactly when each step does, and gives the results in order. -/
theorem mapM_eq_ok_iff {f : α → Except ε β} {items : List α} {results : List β} :
    items.mapM f = .ok results ↔ items.map f = results.map .ok := by
  induction items generalizing results with
  | nil => cases results <;> simp [pure, Except.pure]
  | cons a items ih =>
    rw [List.mapM_cons]
    simp only [bind_eq_ok_iff, return_eq_ok_iff, ih, List.map_cons]
    constructor
    · rintro ⟨b, hb, bs, hbs, rfl⟩
      rw [hb, hbs, List.map_cons]
    · intro h
      cases results with
      | nil => simp at h
      | cons b bs =>
        obtain ⟨hb, hbs⟩ := List.cons.inj h
        exact ⟨b, hb, bs, hbs, rfl⟩

/-- The results of a walk are those of its steps. -/
theorem mem_of_mapM_eq_ok {f : α → Except ε β} {items : List α} {results : List β}
    (h : items.mapM f = .ok results) (b : β) : b ∈ results ↔ ∃ a ∈ items, f a = .ok b := by
  have hmem : b ∈ results ↔ Except.ok b ∈ results.map (Except.ok (ε := ε)) := by simp
  rw [hmem, ← mapM_eq_ok_iff.mp h, List.mem_map]

/-- Where a walk succeeds each of its steps does. -/
theorem exists_ok_of_mapM {f : α → Except ε β} {items : List α} {results : List β}
    (h : items.mapM f = .ok results) : ∀ a ∈ items, ∃ b, f a = .ok b := by
  intro a ha
  have hmem : f a ∈ results.map .ok := mapM_eq_ok_iff.mp h ▸ List.mem_map_of_mem ha
  obtain ⟨b, -, hb⟩ := List.mem_map.mp hmem
  exact ⟨b, hb.symm⟩

/-- A walk succeeds if each of its steps does. -/
theorem exists_mapM_ok {f : α → Except ε β} {items : List α} (h : ∀ a ∈ items, ∃ b, f a = .ok b) :
    ∃ results, items.mapM f = .ok results := by
  induction items with
  | nil => exact ⟨[], rfl⟩
  | cons a items ih =>
    obtain ⟨⟨b, hb⟩, hrest⟩ := List.forall_mem_cons.mp h
    obtain ⟨bs, hbs⟩ := ih hrest
    exact ⟨b :: bs, by rw [List.mapM_cons, hb, ok_bind, hbs, ok_bind]; rfl⟩

/-- A walk over a list stops at the first step that fails, with the fault of that step. -/
theorem mapM_eq_error {f : α → Except ε β} {front rest : List α} {a : α} {fault : ε}
    (hfront : ∀ b ∈ front, ∃ c, f b = .ok c) (ha : f a = .error fault) :
    (front ++ a :: rest).mapM f = .error fault := by
  induction front with
  | nil =>
    rw [List.nil_append, List.mapM_cons, ha]
    rfl
  | cons b front ih =>
    obtain ⟨⟨c, hc⟩, hrest⟩ := List.forall_mem_cons.mp hfront
    rw [List.cons_append, List.mapM_cons, hc, ok_bind, ih hrest]
    rfl

/-- A computation that gives a fitting result under a condition, and a bad fault without it. -/
def Decides (x : Except ε α) (P : Prop) (Bad : ε → Prop) (Fit : α → Prop) : Prop :=
  P ∧ (∃ a, x = .ok a ∧ Fit a) ∨ ¬ P ∧ ∃ fault, x = .error fault ∧ Bad fault

namespace Decides

variable {x : Except ε α} {P Q : Prop} {Bad : ε → Prop} {Fit : α → Prop} {Fit' : β → Prop}

theorem of_ok {a : α} (hx : x = .ok a) (hP : P) (ha : Fit a) : Decides x P Bad Fit :=
  .inl ⟨hP, a, hx, ha⟩

theorem of_error {fault : ε} (hx : x = .error fault) (hP : ¬ P) (hfault : Bad fault) :
    Decides x P Bad Fit :=
  .inr ⟨hP, fault, hx, hfault⟩

/-- The condition decides whether there is a result. -/
theorem exists_ok_iff (h : Decides x P Bad Fit) : (∃ a, x = .ok a) ↔ P := by
  rcases h with ⟨hP, a, hx, -⟩ | ⟨hP, fault, hx, -⟩
  · exact ⟨fun _ => hP, fun _ => ⟨a, hx⟩⟩
  · refine ⟨?_, fun h => absurd h hP⟩
    rintro ⟨a, ha⟩
    cases ha.symm.trans hx

/-- Each result there is fits. -/
theorem fit (h : Decides x P Bad Fit) {a : α} (ha : x = .ok a) : Fit a := by
  rcases h with ⟨-, b, hb, hfit⟩ | ⟨-, fault, hx, -⟩
  · obtain rfl : b = a := Except.ok.inj (hb.symm.trans ha)
    exact hfit
  · cases ha.symm.trans hx

/-- Each fault there is is bad. -/
theorem bad (h : Decides x P Bad Fit) {fault : ε} (hfault : x = .error fault) : Bad fault := by
  rcases h with ⟨-, a, hx, -⟩ | ⟨-, fault', hx, hbad⟩
  · cases hfault.symm.trans hx
  · obtain rfl : fault' = fault := Except.error.inj (hx.symm.trans hfault)
    exact hbad

/-- What follows on a fitting result adds its own condition. -/
theorem bind {next : α → Except ε β} (h : Decides x P Bad Fit)
    (hnext : ∀ a, Fit a → Decides (next a) Q Bad Fit') :
    Decides (x >>= next) (P ∧ Q) Bad Fit' := by
  rcases h with ⟨hP, a, rfl, ha⟩ | ⟨hP, fault, rfl, hfault⟩
  · rcases hnext a ha with ⟨hQ, b, hb, hfit⟩ | ⟨hQ, fault, hb, hfault⟩
    · exact of_ok hb ⟨hP, hQ⟩ hfit
    · exact of_error hb (fun h => hQ h.2) hfault
  · exact of_error rfl (fun h => hP h.1) hfault

theorem mono {Fit'' : α → Prop} (h : Decides x P Bad Fit) (hiff : P ↔ Q)
    (hfit : ∀ a, Fit a → Fit'' a) : Decides x Q Bad Fit'' := by
  rcases h with ⟨hP, a, hx, ha⟩ | ⟨hP, fault, hx, hfault⟩
  · exact of_ok hx (hiff.mp hP) (hfit a ha)
  · exact of_error hx (fun hQ => hP (hiff.mpr hQ)) hfault

/-- A walk gives all results if each step gives one, and they fit item by item. -/
theorem mapM {f : α → Except ε β} {Good : α → Prop} {Fit : α → β → Prop} {items : List α}
    (h : ∀ a ∈ items, Decides (f a) (Good a) Bad (Fit a)) :
    Decides (items.mapM f) (∀ a ∈ items, Good a) Bad (List.Forall₂ Fit items) := by
  induction items with
  | nil => exact of_ok rfl (by simp) .nil
  | cons a items ih =>
    obtain ⟨ha, hrest⟩ := List.forall_mem_cons.mp h
    have hlater : ∀ b, Fit a b → Decides (items.mapM f >>= fun bs => return b :: bs)
        ((∀ a ∈ items, Good a) ∧ True) Bad (List.Forall₂ Fit (a :: items)) :=
      fun b hb => (ih hrest).bind fun bs hbs => of_ok (a := b :: bs) rfl trivial (.cons hb hbs)
    rw [List.mapM_cons]
    exact (ha.bind hlater).mono (by simp) fun _ h => h

end Decides

/-- A computation that gives a fitting result under a condition, and one known fault without it. -/
def Settles (x : Except ε α) (P : Prop) (fault : ε) (Fit : α → Prop) : Prop :=
  P ∧ (∃ a, x = .ok a ∧ Fit a) ∨ ¬ P ∧ x = .error fault

namespace Settles

variable {x : Except ε α} {P Q : Prop} {fault : ε} {Fit : α → Prop} {Fit' : β → Prop}

theorem iff_decides : Settles x P fault Fit ↔ Decides x P (· = fault) Fit := by
  simp [Settles, Decides]

theorem of_ok {a : α} (hx : x = .ok a) (hP : P) (ha : Fit a) : Settles x P fault Fit :=
  .inl ⟨hP, a, hx, ha⟩

theorem of_error (hx : x = .error fault) (hP : ¬ P) : Settles x P fault Fit :=
  .inr ⟨hP, hx⟩

/-- The condition decides whether there is a result. -/
theorem exists_ok_iff (h : Settles x P fault Fit) : (∃ a, x = .ok a) ↔ P :=
  (iff_decides.mp h).exists_ok_iff

/-- Each result there is fits. -/
theorem fit (h : Settles x P fault Fit) {a : α} (ha : x = .ok a) : Fit a :=
  (iff_decides.mp h).fit ha

/-- What follows on a fitting result adds its own condition. -/
theorem bind {next : α → Except ε β} (h : Settles x P fault Fit)
    (hnext : ∀ a, Fit a → Settles (next a) Q fault Fit') :
    Settles (x >>= next) (P ∧ Q) fault Fit' :=
  iff_decides.mpr ((iff_decides.mp h).bind fun a ha => iff_decides.mp (hnext a ha))

theorem mono {Fit'' : α → Prop} (h : Settles x P fault Fit) (hiff : P ↔ Q)
    (hfit : ∀ a, Fit a → Fit'' a) : Settles x Q fault Fit'' :=
  iff_decides.mpr ((iff_decides.mp h).mono hiff hfit)

/-- A walk gives all results if each step gives one. -/
theorem mapM {f : α → Except ε β} {Good : α → Prop} {items : List α}
    (h : ∀ a ∈ items, Settles (f a) (Good a) fault fun _ => True) :
    Settles (items.mapM f) (∀ a ∈ items, Good a) fault fun _ => True := by
  have heach : ∀ a ∈ items, Decides (f a) (Good a) (· = fault) fun _ => True :=
    fun a ha => iff_decides.mp (h a ha)
  exact iff_decides.mpr ((Decides.mapM heach).mono Iff.rfl fun _ _ => trivial)

end Settles

end RuleLowering
