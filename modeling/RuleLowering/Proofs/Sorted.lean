import RuleLowering.Proofs.Success
import RuleLowering.Sorting

/-!
# Sorting under a weak order

Sorting keeps the items, whatever the comparison says of them. Where a comparison answers on all
items, and answers by a relation that orders them up to ties, sorting succeeds with a permutation in
order. The run at the front is in order by itself, and each later item is put between those it does
not stand before and those that it does.
-/
namespace RuleLowering

variable {ε α : Type}

section Kept

variable {less : α → α → Except ε Bool} {items run rest out : List α}

theorem append_of_ascending {last : α} (h : ascending less last items = .ok (run, rest)) :
    run ++ rest = items := by
  induction items generalizing last run with
  | nil =>
    obtain ⟨rfl, rfl⟩ := Prod.mk.inj (Except.ok.inj h)
    rfl
  | cons x items ih =>
    obtain ⟨before, -, h⟩ := bind_eq_ok_iff.mp h
    split at h
    · obtain ⟨rfl, rfl⟩ := Prod.mk.inj (return_eq_ok_iff.mp h)
      rfl
    · obtain ⟨⟨run', rest'⟩, hrun, h⟩ := bind_eq_ok_iff.mp h
      obtain ⟨rfl, rfl⟩ := Prod.mk.inj (return_eq_ok_iff.mp h)
      rw [List.cons_append, ih hrun]

theorem append_of_descending {last : α} (h : descending less last items = .ok (run, rest)) :
    run ++ rest = items := by
  induction items generalizing last run with
  | nil =>
    obtain ⟨rfl, rfl⟩ := Prod.mk.inj (Except.ok.inj h)
    rfl
  | cons x items ih =>
    obtain ⟨before, -, h⟩ := bind_eq_ok_iff.mp h
    split at h
    · obtain ⟨⟨run', rest'⟩, hrun, h⟩ := bind_eq_ok_iff.mp h
      obtain ⟨rfl, rfl⟩ := Prod.mk.inj (return_eq_ok_iff.mp h)
      rw [List.cons_append, ih hrun]
    · obtain ⟨rfl, rfl⟩ := Prod.mk.inj (return_eq_ok_iff.mp h)
      rfl

theorem perm_of_firstRun (h : firstRun less items = .ok (run, rest)) :
    (run ++ rest).Perm items := by
  match items with
  | [] | [x] =>
    obtain ⟨rfl, rfl⟩ := Prod.mk.inj (Except.ok.inj h)
    exact .refl _
  | x :: y :: items =>
    obtain ⟨before, -, h⟩ := bind_eq_ok_iff.mp h
    split at h
    · obtain ⟨⟨run', rest'⟩, hrun, h⟩ := bind_eq_ok_iff.mp h
      obtain ⟨rfl, rfl⟩ := Prod.mk.inj (return_eq_ok_iff.mp h)
      rw [← append_of_descending hrun]
      exact (List.reverse_perm _).append_right rest
    · obtain ⟨⟨run', rest'⟩, hrun, h⟩ := bind_eq_ok_iff.mp h
      obtain ⟨rfl, rfl⟩ := Prod.mk.inj (return_eq_ok_iff.mp h)
      rw [← append_of_ascending hrun]
      exact .refl _

theorem perm_of_insertSorted {x : α} (h : insertSorted less items x = .ok out) :
    out.Perm (x :: items) := by
  obtain ⟨i, -, h⟩ := bind_eq_ok_iff.mp h
  obtain rfl := return_eq_ok_iff.mp h
  calc (items.take i ++ x :: items.drop i).Perm (x :: (items.take i ++ items.drop i)) :=
        List.perm_middle
    _ = x :: items := by rw [List.take_append_drop]

theorem perm_of_foldlM_insertSorted {front : List α}
    (h : items.foldlM (insertSorted less) front = .ok out) : out.Perm (front ++ items) := by
  induction items generalizing front with
  | nil =>
    obtain rfl := Except.ok.inj h
    rw [List.append_nil]
  | cons x items ih =>
    rw [List.foldlM_cons] at h
    obtain ⟨next, hnext, hout⟩ := bind_eq_ok_iff.mp h
    have hnext' : (next ++ items).Perm (x :: front ++ items) :=
      (perm_of_insertSorted hnext).append_right items
    exact (ih hout).trans (hnext'.trans List.perm_middle.symm)

/-- Under any order, sorting keeps the items if it succeeds. -/
theorem perm_of_sorted (h : sorted less items = .ok out) : out.Perm items := by
  obtain ⟨⟨run, rest⟩, hrun, hout⟩ := bind_eq_ok_iff.mp h
  exact (perm_of_foldlM_insertSorted hout).trans (perm_of_firstRun hrun)

end Kept

/-- On fitting items a comparison answers by a relation that is asymmetric and that leaves no item
unrelated to both of two that are related. -/
structure Compares (less : α → α → Except ε Bool) (Fit : α → Prop) (Before : α → α → Prop) :
    Prop where
  answers : ∀ a b, Fit a → Fit b →
    less a b = .ok true ∧ Before a b ∨ less a b = .ok false ∧ ¬ Before a b
  asymm : ∀ a b, Fit a → Fit b → Before a b → ¬ Before b a
  through : ∀ a b c, Fit a → Fit b → Fit c → Before a c → Before a b ∨ Before b c

/-- No item stands before an earlier one. -/
def InOrder (Before : α → α → Prop) (items : List α) : Prop :=
  items.Pairwise fun a b => ¬ Before b a

namespace Compares

variable {less : α → α → Except ε Bool} {Fit : α → Prop} {Before : α → α → Prop}

theorem trans (h : Compares less Fit Before) {a b c : α} (ha : Fit a) (hb : Fit b) (hc : Fit c)
    (hab : Before a b) (hbc : Before b c) : Before a c := by
  rcases h.through a c b ha hc hb hab with hac | hcb
  · exact hac
  · exact absurd hcb (h.asymm b c hb hc hbc)

theorem not_before_trans (h : Compares less Fit Before) {a b c : α} (ha : Fit a) (hb : Fit b)
    (hc : Fit c) (hab : ¬ Before a b) (hbc : ¬ Before b c) : ¬ Before a c := by
  intro hac
  rcases h.through a b c ha hb hc hac with hab' | hbc'
  · exact hab hab'
  · exact hbc hbc'

/-- An item that the next one does not stand before may be put in front. -/
theorem inOrder_cons_cons (h : Compares less Fit Before) {x y : α} {items : List α} (hx : Fit x)
    (hfit : ∀ a ∈ y :: items, Fit a) (hyx : ¬ Before y x) (horder : InOrder Before (y :: items)) :
    InOrder Before (x :: y :: items) := by
  refine List.pairwise_cons.mpr ⟨fun b hb => ?_, horder⟩
  rcases List.mem_cons.mp hb with rfl | hb
  · exact hyx
  · have hby : ¬ Before b y := (List.pairwise_cons.mp horder).1 b hb
    exact h.not_before_trans (hfit b (.tail y hb)) (hfit y List.mem_cons_self) hx hby hyx

/-- An item that the next one stands before may be put in front of a descending list. -/
theorem descends_cons_cons (h : Compares less Fit Before) {x y : α} {items : List α} (hx : Fit x)
    (hfit : ∀ a ∈ y :: items, Fit a) (hyx : Before y x)
    (horder : (y :: items).Pairwise fun a b => Before b a) :
    (x :: y :: items).Pairwise fun a b => Before b a := by
  refine List.pairwise_cons.mpr ⟨fun b hb => ?_, horder⟩
  rcases List.mem_cons.mp hb with rfl | hb
  · exact hyx
  · have hby : Before b y := (List.pairwise_cons.mp horder).1 b hb
    exact h.trans (hfit b (.tail y hb)) (hfit y List.mem_cons_self) hx hby hyx

/-- The ascending front of a list, behind an item that stands in front of all. -/
theorem ascending_ok (h : Compares less Fit Before) {last : α} {items : List α} (hlast : Fit last)
    (hitems : ∀ a ∈ items, Fit a) :
    ∃ run rest, ascending less last items = .ok (run, rest) ∧ run ++ rest = items
      ∧ InOrder Before (last :: run) := by
  induction items generalizing last with
  | nil => exact ⟨[], [], rfl, rfl, List.pairwise_singleton _ _⟩
  | cons x items ih =>
    obtain ⟨hx, hrest⟩ := List.forall_mem_cons.mp hitems
    rcases h.answers x last hx hlast with ⟨hless, -⟩ | ⟨hless, hbefore⟩
    · exact ⟨[], x :: items, by rw [ascending, hless]; rfl, rfl, List.pairwise_singleton _ _⟩
    · obtain ⟨run, rest, hrun, rfl, horder⟩ := ih hx hrest
      refine ⟨x :: run, rest, by rw [ascending, hless, hrun]; rfl, rfl, ?_⟩
      have hfit : ∀ a ∈ x :: run, Fit a := fun a ha => hitems a (List.mem_append_left rest ha)
      exact h.inOrder_cons_cons hlast hfit hbefore horder

/-- The descending front of a list, behind an item that all of it stands before. -/
theorem descending_ok (h : Compares less Fit Before) {last : α} {items : List α} (hlast : Fit last)
    (hitems : ∀ a ∈ items, Fit a) :
    ∃ run rest, descending less last items = .ok (run, rest) ∧ run ++ rest = items
      ∧ (last :: run).Pairwise fun a b => Before b a := by
  induction items generalizing last with
  | nil => exact ⟨[], [], rfl, rfl, List.pairwise_singleton _ _⟩
  | cons x items ih =>
    obtain ⟨hx, hrest⟩ := List.forall_mem_cons.mp hitems
    rcases h.answers x last hx hlast with ⟨hless, hbefore⟩ | ⟨hless, -⟩
    · obtain ⟨run, rest, hrun, rfl, horder⟩ := ih hx hrest
      refine ⟨x :: run, rest, by rw [descending, hless, ok_bind, if_pos rfl, hrun]; rfl, rfl, ?_⟩
      have hfit : ∀ a ∈ x :: run, Fit a := fun a ha => hitems a (List.mem_append_left rest ha)
      exact h.descends_cons_cons hlast hfit hbefore horder
    · exact ⟨[], x :: items, by rw [descending, hless]; rfl, rfl, List.pairwise_singleton _ _⟩

/-- The run at the front comes out in order, turned around if it descends. -/
theorem firstRun_ok (h : Compares less Fit Before) {items : List α} (hitems : ∀ a ∈ items, Fit a) :
    ∃ run rest, firstRun less items = .ok (run, rest) ∧ (run ++ rest).Perm items
      ∧ InOrder Before run := by
  match items with
  | [] => exact ⟨[], [], rfl, .nil, .nil⟩
  | [x] => exact ⟨[x], [], rfl, .refl _, List.pairwise_singleton _ _⟩
  | x :: y :: items =>
    obtain ⟨hx, hitems⟩ := List.forall_mem_cons.mp hitems
    obtain ⟨hy, hrest⟩ := List.forall_mem_cons.mp hitems
    rcases h.answers y x hy hx with ⟨hless, hbefore⟩ | ⟨hless, hbefore⟩
    · obtain ⟨run, rest, hrun, rfl, horder⟩ := h.descending_ok hy hrest
      have hfit : ∀ a ∈ y :: run, Fit a := fun a ha => hitems a (List.mem_append_left rest ha)
      have hdesc := h.descends_cons_cons hx hfit hbefore horder
      have hfit' : ∀ a ∈ x :: y :: run, Fit a := List.forall_mem_cons.mpr ⟨hx, hfit⟩
      refine ⟨(x :: y :: run).reverse, rest,
        by rw [firstRun, hless, ok_bind, if_pos rfl, hrun]; rfl,
        (List.reverse_perm _).append_right rest, List.pairwise_reverse.mpr ?_⟩
      exact hdesc.imp_of_mem fun ha hb hba => h.asymm _ _ (hfit' _ hb) (hfit' _ ha) hba
    · obtain ⟨run, rest, hrun, rfl, horder⟩ := h.ascending_ok hy hrest
      have hfit : ∀ a ∈ y :: run, Fit a := fun a ha => hitems a (List.mem_append_left rest ha)
      exact ⟨x :: y :: run, rest, by rw [firstRun, hless, hrun]; rfl, .refl _,
        h.inOrder_cons_cons hx hfit hbefore horder⟩

/-- An item that stands before one of a list in order stands before all later ones. -/
theorem before_of_le (h : Compares less Fit Before) {front : List α} {x : α} (hx : Fit x)
    (hfront : ∀ a ∈ front, Fit a) (horder : InOrder Before front) {i j : Nat}
    (hj : j < front.length) (hij : i ≤ j) (hbefore : Before x front[i]) : Before x front[j] := by
  rcases Nat.eq_or_lt_of_le hij with rfl | hlt
  · exact hbefore
  · have hnot : ¬ Before front[j] front[i] :=
      List.pairwise_iff_getElem.mp horder i j (by omega) hj hlt
    have hi : Fit front[i] := hfront _ (List.getElem_mem _)
    have hj' : Fit front[j] := hfront _ (List.getElem_mem _)
    exact (h.through x front[j] front[i] hx hj' hi hbefore).resolve_right hnot

/-- Halving ends at a place that divides the items an item does not stand before from those that
it does. What is known in front of the lower bound and from the upper one on is the invariant. -/
theorem placeBetween_ok (h : Compares less Fit Before) {front : List α} {x : α} (hx : Fit x)
    (hfront : ∀ a ∈ front, Fit a) (horder : InOrder Before front) {fuel low high : Nat}
    (hfuel : high - low < fuel) (hle : low ≤ high) (hhigh : high ≤ front.length)
    (hbelow : ∀ j (hj : j < front.length), j < low → ¬ Before x front[j])
    (habove : ∀ j (hj : j < front.length), high ≤ j → Before x front[j]) :
    ∃ i, placeBetween less front x fuel low high = .ok i ∧ i ≤ front.length
      ∧ (∀ j (hj : j < front.length), j < i → ¬ Before x front[j])
      ∧ ∀ j (hj : j < front.length), i ≤ j → Before x front[j] := by
  induction fuel generalizing low high with
  | zero => omega
  | succ fuel ih =>
    by_cases hlt : low < high
    · have hmiddle : low + (high - low) / 2 < front.length := by omega
      have hget := List.getElem?_eq_getElem hmiddle
      have hfit := hfront _ (List.getElem_mem hmiddle)
      rcases h.answers x _ hx hfit with ⟨hless, hbefore⟩ | ⟨hless, hnot⟩
      · have habove' : ∀ j (hj : j < front.length), low + (high - low) / 2 ≤ j →
            Before x front[j] :=
          fun j hj hij => h.before_of_le hx hfront horder hj hij hbefore
        obtain ⟨i, hi, hspec⟩ := ih (by omega) (by omega) (by omega) hbelow habove'
        refine ⟨i, ?_, hspec⟩
        simp only [placeBetween, hget, if_pos hlt, hless, ok_bind, if_true]
        exact hi
      · have hbelow' : ∀ j (hj : j < front.length), j < low + (high - low) / 2 + 1 →
            ¬ Before x front[j] :=
          fun j hj hij hbefore => hnot (h.before_of_le hx hfront horder hmiddle (by omega) hbefore)
        obtain ⟨i, hi, hspec⟩ := ih (by omega) (by omega) hhigh hbelow' habove
        refine ⟨i, ?_, hspec⟩
        simp only [placeBetween, hget, if_pos hlt, hless, ok_bind, Bool.false_eq_true, if_false]
        exact hi
    · have hplace : placeBetween less front x (fuel + 1) low high = .ok low := by
        simp only [placeBetween]
        split <;> simp [hlt]
      exact ⟨low, hplace, by omega, hbelow, fun j hj hij => habove j hj (by omega)⟩

/-- An item is put into a list in order so that the list stays in order. -/
theorem insertSorted_ok (h : Compares less Fit Before) {front : List α} {x : α} (hx : Fit x)
    (hfront : ∀ a ∈ front, Fit a) (horder : InOrder Before front) :
    ∃ out, insertSorted less front x = .ok out ∧ out.Perm (x :: front) ∧ InOrder Before out := by
  obtain ⟨i, hplace, -, hbelow, habove⟩ := h.placeBetween_ok hx hfront horder
    (Nat.lt_succ_self front.length) (Nat.zero_le _) (Nat.le_refl _) (fun j _ hj => by omega)
    (fun j hj hle => by omega)
  have hout : insertSorted less front x = .ok (front.take i ++ x :: front.drop i) := by
    rw [insertSorted, hplace]
    rfl
  refine ⟨_, hout, perm_of_insertSorted hout, ?_⟩
  have hparts : InOrder Before (front.take i ++ front.drop i) := by
    rwa [List.take_append_drop]
  obtain ⟨htake, hdrop, hacross⟩ := List.pairwise_append.mp hparts
  refine List.pairwise_append.mpr ⟨htake, List.pairwise_cons.mpr ⟨?_, hdrop⟩, ?_⟩
  · intro b hb hbx
    obtain ⟨j, hj, rfl⟩ := List.getElem_of_mem hb
    rw [List.getElem_drop] at hbx
    have hj' : i + j < front.length := by rw [List.length_drop] at hj; omega
    exact h.asymm _ x (hfront _ (List.getElem_mem hj')) hx hbx (habove _ hj' (by omega))
  · intro a ha b hb
    rcases List.mem_cons.mp hb with rfl | hb
    · obtain ⟨j, hj, rfl⟩ := List.getElem_of_mem ha
      rw [List.getElem_take]
      rw [List.length_take] at hj
      exact hbelow j (by omega) (by omega)
    · exact hacross a ha b hb

/-- Items are put into a list in order one after the other. -/
theorem foldlM_insertSorted_ok (h : Compares less Fit Before) {items front : List α}
    (hitems : ∀ a ∈ items, Fit a) (hfront : ∀ a ∈ front, Fit a) (horder : InOrder Before front) :
    ∃ out, items.foldlM (insertSorted less) front = .ok out ∧ out.Perm (front ++ items)
      ∧ InOrder Before out := by
  induction items generalizing front with
  | nil => exact ⟨front, rfl, by rw [List.append_nil], horder⟩
  | cons x items ih =>
    obtain ⟨hx, hrest⟩ := List.forall_mem_cons.mp hitems
    obtain ⟨next, hnext, hperm, horder'⟩ := h.insertSorted_ok hx hfront horder
    have hfit : ∀ a ∈ next, Fit a :=
      fun a ha => List.forall_mem_cons.mpr ⟨hx, hfront⟩ a (hperm.mem_iff.mp ha)
    obtain ⟨out, hout, hperm', horder''⟩ := ih hrest hfit horder'
    have hfront' : (next ++ items).Perm (x :: front ++ items) := hperm.append_right items
    exact ⟨out, by rw [List.foldlM_cons, hnext, ok_bind, hout],
      hperm'.trans (hfront'.trans List.perm_middle.symm), horder''⟩

/-- Sorting succeeds with the same items in order. -/
theorem sorted_ok (h : Compares less Fit Before) {items : List α} (hitems : ∀ a ∈ items, Fit a) :
    ∃ out, sorted less items = .ok out ∧ out.Perm items ∧ InOrder Before out := by
  obtain ⟨run, rest, hrun, hperm, horder⟩ := h.firstRun_ok hitems
  have hfit : ∀ a ∈ run ++ rest, Fit a := fun a ha => hitems a (hperm.mem_iff.mp ha)
  obtain ⟨out, hout, hperm', horder'⟩ := h.foldlM_insertSorted_ok
    (fun a ha => hfit a (List.mem_append_right run ha))
    (fun a ha => hfit a (List.mem_append_left rest ha)) horder
  exact ⟨out, by rw [sorted, hrun]; exact hout, hperm'.trans hperm, horder'⟩

end Compares

end RuleLowering
