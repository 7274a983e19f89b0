import RuleLowering.Placeholder
import RuleLowering.Proofs.JsonNumber
import RuleLowering.Proofs.Wording

/-!
# Fresh names

Each source of names counts its own calls: whatever is done with other sources in between, its
`k`-th call gives its stem, an underscore and `k`. A number holds no underscore, so the last one of
a name divides it, and a name tells both the stem and the number of its call.
-/
namespace RuleLowering.Placeholder

section Names

theorem glyphs_name (stem : Text) (k : Nat) :
    (name stem k).glyphs = stem.glyphs ++ .char '_' :: (toString k).toList.map .char := by
  simp [name]

theorem underscore_not_mem (k : Nat) : Glyph.char '_' ∉ (toString k).toList.map Glyph.char := by
  intro h
  obtain ⟨c, hc, heq⟩ := List.mem_map.mp h
  obtain rfl := Glyph.char.inj heq
  cases isDigit_of_mem_toString hc

/-- A name tells its stem and its number. -/
theorem name_eq_name_iff {stem stem' : Text} {k k' : Nat} :
    name stem k = name stem' k' ↔ stem = stem' ∧ k = k' := by
  constructor
  · intro h
    have hglyphs := congrArg Text.glyphs h
    rw [glyphs_name, glyphs_name] at hglyphs
    have hdigits := behind_last_inj hglyphs (underscore_not_mem k) (underscore_not_mem k')
    rw [hdigits] at hglyphs
    have hnumber : Nat.toDigits 10 k ++ [] = Nat.toDigits 10 k' ++ [] := by
      simpa using Text.map_char_injective hdigits
    exact ⟨Text.glyphs_injective (List.append_cancel_right hglyphs),
      (Json.toDigits_cancel (by simp) (by simp) hnumber).1⟩
  · rintro ⟨rfl, rfl⟩
    rfl

end Names

def Step.isMake : Step → Bool
  | .make _ => true
  | .draw _ => false

def made (steps : List Step) : Nat := steps.countP Step.isMake

@[simp] theorem made_cons_make (stem : Text) (steps : List Step) :
    made (.make stem :: steps) = made steps + 1 :=
  List.countP_cons_of_pos rfl

@[simp] theorem made_cons_draw (i : Nat) (steps : List Step) :
    made (.draw i :: steps) = made steps :=
  List.countP_cons_of_neg Bool.false_ne_true

/-- Step `i` is the `k`-th call of a source with the given stem: between the step that makes the
source and the call stand `k - 1` other calls of it, and any steps that belong to other sources. -/
def IsCall (steps : List Step) (i : Nat) (stem : Text) (k : Nat) : Prop :=
  ∃ before between later : List Step,
    steps = before ++ .make stem :: (between ++ .draw (made before) :: later)
      ∧ i = before.length + 1 + between.length ∧ k = between.count (.draw (made before)) + 1

section Runs

def sourcesAfter (sources : List Placeholder) (steps : List Step) : List Placeholder :=
  steps.foldl (fun sources s => (step sources s).2) sources

variable {sources : List Placeholder} {steps : List Step} {p : Placeholder} {j : Nat}

/-- A step changes a source only by drawing from it. -/
theorem getElem?_step (h : sources[j]? = some p) (s : Step) :
    (step sources s).2[j]? = some (if s = .draw j then p.draw.2 else p) := by
  cases s with
  | make stem =>
    have hlt : j < sources.length := (List.getElem?_eq_some_iff.mp h).1
    simp [step, List.getElem?_append_left hlt, h]
  | draw i =>
    by_cases hi : i = j
    · subst hi
      obtain ⟨hlt, rfl⟩ := List.getElem?_eq_some_iff.mp h
      simp [step, hlt]
    · cases hp : sources[i]? <;> simp [step, hp, hi, h]

/-- However steps follow one another, a source has counted those that draw from it. -/
theorem getElem?_sourcesAfter (h : sources[j]? = some p) (steps : List Step) :
    (sourcesAfter sources steps)[j]? =
      some { p with drawn := p.drawn + steps.count (.draw j) } := by
  induction steps generalizing sources p with
  | nil => exact h
  | cons s steps ih =>
    refine (ih (getElem?_step h s)).trans ?_
    by_cases hs : s = .draw j
    · simp only [hs, if_true, draw, List.count_cons_self]
      rw [Nat.add_assoc, Nat.add_comm 1]
    · simp [hs, List.count_cons_of_ne hs]

theorem length_sourcesAfter (sources : List Placeholder) (steps : List Step) :
    (sourcesAfter sources steps).length = sources.length + made steps := by
  induction steps generalizing sources with
  | nil => rfl
  | cons s steps ih =>
    refine (ih _).trans ?_
    cases s with
    | make stem =>
      simp only [step, List.length_append, List.length_singleton, made_cons_make]
      omega
    | draw i => cases hp : sources[i]? <;> simp [step, hp]

/-- A step is answered on the sources that the earlier ones leave. -/
theorem getElem?_run (sources : List Placeholder) (steps : List Step) (i : Nat) :
    (run sources steps)[i]? =
      steps[i]?.map fun s => (step (sourcesAfter sources (steps.take i)) s).1 := by
  induction steps generalizing sources i with
  | nil => rfl
  | cons s steps ih =>
    cases i with
    | zero => rfl
    | succ i => exact ih _ i

/-- Each source was made by one of the steps. -/
theorem exists_make (h : j < made steps) :
    ∃ (before : List Step) (stem : Text) (between : List Step),
      steps = before ++ .make stem :: between ∧ made before = j := by
  induction steps generalizing j with
  | nil => cases h
  | cons s steps ih =>
    cases s with
    | draw i =>
      obtain ⟨before, stem, between, rfl, hbefore⟩ := ih h
      exact ⟨.draw i :: before, stem, between, rfl, hbefore⟩
    | make stem =>
      cases j with
      | zero => exact ⟨[], stem, steps, rfl, rfl⟩
      | succ j =>
        rw [made_cons_make] at h
        obtain ⟨before, stem', between, rfl, rfl⟩ := ih (Nat.lt_of_succ_lt_succ h)
        exact ⟨.make stem :: before, stem', between, rfl, made_cons_make stem before⟩

end Runs

section Calls

variable {steps : List Step} {i j k : Nat} {stem : Text}

/-- A step that draws from a source made before is a call. -/
theorem exists_isCall (hstep : steps[i]? = some (.draw j)) (hj : j < made (steps.take i)) :
    ∃ stem k, IsCall steps i stem k := by
  obtain ⟨before, stem, between, htake, rfl⟩ := exists_make hj
  obtain ⟨hlt, hget⟩ := List.getElem?_eq_some_iff.mp hstep
  have hsteps : steps = (before ++ .make stem :: between)
      ++ .draw (made before) :: steps.drop (i + 1) := by
    rw [← htake, ← hget, ← List.drop_eq_getElem_cons hlt, List.take_append_drop]
  have hi : i = before.length + 1 + between.length := by
    have hlength := congrArg List.length htake
    rw [List.length_take_of_le (Nat.le_of_lt hlt)] at hlength
    simp at hlength
    omega
  exact ⟨stem, _, before, between, _, by simpa using hsteps, hi, rfl⟩

/-- Only calls are answered with names. -/
theorem exists_isCall_of_name {t : Text} (h : (run [] steps)[i]? = some (.name t)) :
    ∃ stem k, IsCall steps i stem k := by
  rw [getElem?_run] at h
  obtain ⟨s, hs, hanswer⟩ := Option.map_eq_some_iff.mp h
  cases s with
  | make stem => cases hanswer
  | draw j =>
    cases hp : (sourcesAfter [] (steps.take i))[j]? with
    | none => simp [step, hp] at hanswer
    | some p =>
      have hj := (List.getElem?_eq_some_iff.mp hp).1
      rw [length_sourcesAfter, List.length_nil, Nat.zero_add] at hj
      exact exists_isCall hs hj

/-- A call gives the name of its number. -/
theorem IsCall.answer (h : IsCall steps i stem k) :
    (run [] steps)[i]? = some (.name (name stem k)) := by
  obtain ⟨before, between, later, rfl, rfl, rfl⟩ := h
  have hnew : (sourcesAfter [] before ++ [⟨stem, 0⟩])[made before]? = some ⟨stem, 0⟩ := by
    have hlength := length_sourcesAfter [] before
    rw [List.length_nil, Nat.zero_add] at hlength
    rw [← hlength, List.getElem?_concat_length]
  have hsource : (sourcesAfter [] (before ++ .make stem :: between))[made before]? =
      some ⟨stem, between.count (.draw (made before))⟩ := by
    have hcounted := getElem?_sourcesAfter hnew between
    rw [Nat.zero_add] at hcounted
    simpa [sourcesAfter, step] using hcounted
  have hlength : (before ++ .make stem :: between).length = before.length + 1 + between.length := by
    simp
    omega
  have hsteps : before ++ .make stem :: (between ++ .draw (made before) :: later) =
      (before ++ .make stem :: between) ++ .draw (made before) :: later := by
    simp
  rw [hsteps, ← hlength, getElem?_run, List.take_left, List.getElem?_append_right (Nat.le_refl _),
    Nat.sub_self, List.getElem?_cons_zero, Option.map_some, step, hsource]
  rfl

end Calls

/-- However steps that make sources and steps that call them follow one another, the `k`-th call of
a source gives its stem with an underscore and `k`. Each step that calls a source made before is
such a call, no other step is answered with a name, and two calls are answered alike exactly if the
stems of their sources are equal and their numbers are. -/
theorem names_tell_calls (steps : List Step) :
    (∀ i stem k, IsCall steps i stem k → (run [] steps)[i]? = some (.name (name stem k)))
      ∧ (∀ i j, steps[i]? = some (.draw j) → j < made (steps.take i) →
        ∃ stem k, IsCall steps i stem k)
      ∧ (∀ i t, (run [] steps)[i]? = some (.name t) → ∃ stem k, IsCall steps i stem k)
      ∧ ∀ i i' stem stem' k k', IsCall steps i stem k → IsCall steps i' stem' k' →
        ((run [] steps)[i]? = (run [] steps)[i']? ↔ stem = stem' ∧ k = k') := by
  refine ⟨fun i stem k h => h.answer, fun i j => exists_isCall, fun i t => exists_isCall_of_name,
    fun i i' stem stem' k k' h h' => ?_⟩
  rw [h.answer, h'.answer, Option.some_inj, Answer.name.injEq, name_eq_name_iff]

/-- Three sources called in turn: the stem of the second is the first name of the others. -/
def nestedStems : List Step :=
  [.make "a", .make "a_1", .draw 0, .draw 1, .draw 0, .make "a", .draw 2]

/-- The first names of the first two differ, and the third begins with the name of the first. -/
theorem nestedStems_told :
    IsCall nestedStems 2 "a" 1 ∧ IsCall nestedStems 3 "a_1" 1 ∧ IsCall nestedStems 4 "a" 2
      ∧ IsCall nestedStems 6 "a" 1
      ∧ (run [] nestedStems)[2]? = some (.name "a_1")
      ∧ (run [] nestedStems)[3]? = some (.name "a_1_1")
      ∧ (run [] nestedStems)[4]? = some (.name "a_2")
      ∧ (run [] nestedStems)[2]? ≠ (run [] nestedStems)[3]?
      ∧ (run [] nestedStems)[2]? = (run [] nestedStems)[6]? := by
  have hfirst : IsCall nestedStems 2 "a" 1 := ⟨[], [.make "a_1"], _, rfl, rfl, rfl⟩
  have hsecond : IsCall nestedStems 3 "a_1" 1 := ⟨[.make "a"], [.draw 0], _, rfl, rfl, rfl⟩
  have hagain : IsCall nestedStems 4 "a" 2 :=
    ⟨[], [.make "a_1", .draw 0, .draw 1], _, rfl, rfl, rfl⟩
  have hthird : IsCall nestedStems 6 "a" 1 := ⟨nestedStems.take 5, [], [], rfl, rfl, rfl⟩
  obtain ⟨hanswer, -, -, htold⟩ := names_tell_calls nestedStems
  refine ⟨hfirst, hsecond, hagain, hthird, hanswer 2 _ _ hfirst, hanswer 3 _ _ hsecond,
    hanswer 4 _ _ hagain, fun h => ?_, (htold 2 6 _ _ _ _ hfirst hthird).mpr ⟨rfl, rfl⟩⟩
  have hstems := ((htold 2 3 _ _ _ _ hfirst hsecond).mp h).1
  exact absurd hstems (by decide)

end RuleLowering.Placeholder
