import RuleLowering.Fault
import RuleLowering.Proofs.Success

/-!
# Computations that go alike

Two runs go alike if both give results, and these are related, or both fail, with faults of one
kind. Chains and walks go alike if their links do.
-/
namespace RuleLowering

variable {α β γ δ : Type}

/-- Both computations give results that are related, or both fail with faults of one kind. -/
inductive Alike (R : α → β → Prop) : Except Fault α → Except Fault β → Prop
  | ok {a : α} {b : β} : R a b → Alike R (.ok a) (.ok b)
  | error {f g : Fault} : f.kind = g.kind → Alike R (.error f) (.error g)

namespace Alike

variable {R : α → β → Prop} {S : γ → δ → Prop} {x : Except Fault α} {y : Except Fault β}

theorem mono {R' : α → β → Prop} (h : Alike R x y) (himp : ∀ a b, R a b → R' a b) :
    Alike R' x y := by
  cases h with
  | ok hab => exact .ok (himp _ _ hab)
  | error hkind => exact .error hkind

/-- A computation goes like itself if each result it may give is related to itself. -/
theorem refl {R : α → α → Prop} {x : Except Fault α} (h : ∀ a, x = .ok a → R a a) : Alike R x x := by
  cases x with
  | ok a => exact .ok (h a rfl)
  | error fault => exact .error rfl

/-- What goes on alike from related results goes alike. -/
theorem bind {next : α → Except Fault γ} {next' : β → Except Fault δ} (h : Alike R x y)
    (hnext : ∀ a b, R a b → Alike S (next a) (next' b)) : Alike S (x >>= next) (y >>= next') := by
  cases h with
  | ok hab => exact hnext _ _ hab
  | error hkind => exact .error hkind

/-- The last step gives a result. -/
theorem map {f : α → γ} {g : β → δ} (h : Alike R x y) (hmap : ∀ a b, R a b → S (f a) (g b)) :
    Alike S (x >>= fun a => .ok (f a)) (y >>= fun b => .ok (g b)) :=
  h.bind fun a b hab => .ok (hmap a b hab)

/-- Walks over related items go alike if their steps do. -/
theorem mapM {P : α → β → Prop} {f : α → Except Fault γ} {g : β → Except Fault δ}
    {as : List α} {bs : List β} (h : List.Forall₂ P as bs)
    (hstep : ∀ a b, P a b → Alike S (f a) (g b)) :
    Alike (List.Forall₂ S) (as.mapM f) (bs.mapM g) := by
  induction h with
  | nil => exact .ok .nil
  | cons hab _ ih =>
    rw [List.mapM_cons, List.mapM_cons]
    exact (hstep _ _ hab).bind fun c d hcd => ih.map fun cs ds hrest => .cons hcd hrest

/-- The related results are those that the runs give. -/
theorem with_results (h : Alike R x y) : Alike (fun a b => x = .ok a ∧ y = .ok b ∧ R a b) x y := by
  cases h with
  | ok hab => exact .ok ⟨rfl, rfl, hab⟩
  | error hkind => exact .error hkind

/-- If the first run gives a result, so does the second one. -/
theorem exists_ok (h : Alike R x y) {a : α} (ha : x = .ok a) : ∃ b, y = .ok b ∧ R a b := by
  cases h with
  | ok hab =>
    obtain rfl := Except.ok.inj ha
    exact ⟨_, rfl, hab⟩
  | error hkind => cases ha

end Alike

theorem Fault.kind_showing {f g : Fault} (h : f.kind = g.kind) {ds es : List Data}
    (hall : ds.all Data.isWritable = es.all Data.isWritable) :
    (f.showing ds).kind = (g.showing es).kind := by
  rw [Fault.showing, Fault.showing, hall]
  split
  · exact h
  · rfl

end RuleLowering
