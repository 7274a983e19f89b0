import RuleLowering.Lowering.Identity
import RuleLowering.Proofs.Sorted
import RuleLowering.Proofs.TextOrder

/-!
# The list of identities

A rule has an identity when all its clauses have one arity and there is at least one. Identities
with texts as names are ordered by the code points of the name and then by arity, so the list of
them is ascending without a repetition and holds exactly those of the rules.
-/
namespace RuleLowering

theorem mem_insertAscending {n k : Nat} {ms : List Nat} :
    k ∈ insertAscending n ms ↔ k = n ∨ k ∈ ms := by
  induction ms with
  | nil => simp [insertAscending]
  | cons m ms ih =>
    rw [insertAscending]
    split
    · rw [List.mem_cons]
    · split
      · rename_i heq
        rw [heq, List.mem_cons]
        simp
      · rw [List.mem_cons, ih, List.mem_cons]
        exact or_left_comm

theorem pairwise_insertAscending {n : Nat} {ms : List Nat} (h : ms.Pairwise (· < ·)) :
    (insertAscending n ms).Pairwise (· < ·) := by
  induction ms with
  | nil => exact List.pairwise_singleton _ _
  | cons m ms ih =>
    obtain ⟨hm, hms⟩ := List.pairwise_cons.mp h
    rw [insertAscending]
    split
    · rename_i hlt
      refine List.pairwise_cons.mpr ⟨fun k hk => ?_, h⟩
      rcases List.mem_cons.mp hk with rfl | hk
      · exact hlt
      · exact Nat.lt_trans hlt (hm k hk)
    · split
      · exact h
      · refine List.pairwise_cons.mpr ⟨fun k hk => ?_, ih hms⟩
        rcases mem_insertAscending.mp hk with rfl | hk
        · omega
        · exact hm k hk

/-- The arities of some clauses are those of its members, in strictly ascending order. -/
theorem aritiesOf_spec (clauses : List Clause) :
    (aritiesOf clauses).Pairwise (· < ·)
      ∧ ∀ n, n ∈ aritiesOf clauses ↔ ∃ c ∈ clauses, c.arity = n := by
  suffices hfold : ∀ ns : List Nat, ns.Pairwise (· < ·) →
      (clauses.foldl (fun ns c => insertAscending c.arity ns) ns).Pairwise (· < ·)
        ∧ ∀ n, n ∈ clauses.foldl (fun ns c => insertAscending c.arity ns) ns ↔
          n ∈ ns ∨ ∃ c ∈ clauses, c.arity = n by
    simpa [aritiesOf] using hfold [] .nil
  induction clauses with
  | nil => simp
  | cons c clauses ih =>
    intro ns hns
    obtain ⟨hpairwise, hmem⟩ := ih (insertAscending c.arity ns) (pairwise_insertAscending hns)
    refine ⟨hpairwise, fun n => ?_⟩
    rw [List.foldl_cons, hmem, mem_insertAscending]
    simp only [List.mem_cons, exists_eq_or_imp, eq_comm (a := n)]
    rw [or_assoc, or_left_comm]

/-- One arity is left exactly if there are clauses and all have it. -/
theorem aritiesOf_eq_singleton {clauses : List Clause} {n : Nat} :
    aritiesOf clauses = [n] ↔ clauses ≠ [] ∧ ∀ c ∈ clauses, c.arity = n := by
  obtain ⟨hpairwise, hmem⟩ := aritiesOf_spec clauses
  constructor
  · intro h
    rw [h] at hmem
    constructor
    · rintro rfl
      simpa using hmem n
    · intro c hc
      exact List.mem_singleton.mp ((hmem c.arity).mpr ⟨c, hc, rfl⟩)
  · rintro ⟨hne, hall⟩
    obtain ⟨c, rest, rfl⟩ := List.exists_cons_of_ne_nil hne
    have hn : ∀ k, k ∈ aritiesOf (c :: rest) ↔ k = n := by
      intro k
      rw [hmem]
      constructor
      · rintro ⟨d, hd, rfl⟩
        exact hall d hd
      · rintro rfl
        exact ⟨c, List.mem_cons_self, hall c List.mem_cons_self⟩
    match harities : aritiesOf (c :: rest) with
    | [] =>
      rw [harities] at hn
      simpa using hn n
    | [k] =>
      rw [harities] at hn
      simpa using hn k
    | k :: l :: ks =>
      rw [harities] at hn hpairwise
      have hk : k = n := (hn k).mp (by simp)
      have hl : l = n := (hn l).mp (by simp)
      have hlt : k < l := (List.pairwise_cons.mp hpairwise).1 l List.mem_cons_self
      omega

/-- A rule has an identity exactly if it has clauses and they are of one arity. -/
theorem Rule.signature?_eq_ok {r : Rule} {s : Signature} :
    r.signature? = .ok s ↔
      r.clauses ≠ [] ∧ ∃ n : Nat, (∀ c ∈ r.clauses, c.arity = n) ∧ s = ⟨r.name, .int n⟩ := by
  constructor
  · intro h
    unfold Rule.signature? at h
    split at h
    · cases h
    · rename_i n hn
      obtain ⟨hne, hall⟩ := aritiesOf_eq_singleton.mp hn
      exact ⟨hne, n, hall, (Except.ok.inj h).symm⟩
    · cases h
  · rintro ⟨hne, n, hall, rfl⟩
    rw [Rule.signature?, aritiesOf_eq_singleton.mpr ⟨hne, hall⟩]

/-- The identity of a listed rule is its own, with a name that can be looked up. -/
theorem Rule.listed?_eq_ok {r : Rule} {s : Signature} :
    r.listed? = .ok s ↔ r.signature? = .ok s ∧ s.name.hashable = .ok () := by
  simp only [Rule.listed?, bind_eq_ok_iff, return_eq_ok_iff]
  constructor
  · rintro ⟨_, hs, _, hname, rfl⟩
    exact ⟨hs, hname⟩
  · rintro ⟨hs, hname⟩
    exact ⟨s, hs, (), hname, rfl⟩

section AddNew

variable {α : Type} {same : α → α → Bool}

/-- Puts an item behind some others, unless one of them says the same. -/
def addNew (same : α → α → Bool) (seen : List α) (x : α) : List α :=
  if seen.any (same · x) then seen else seen ++ [x]

/-- One step adds its item, where to say the same is to be equal. -/
theorem mem_addNew {seen : List α} {x : α} (hsame : ∀ a ∈ seen, same a x = true ↔ a = x) (y : α) :
    y ∈ addNew same seen x ↔ y ∈ seen ∨ y = x := by
  rw [addNew]
  split
  · rename_i hany
    obtain ⟨a, ha, hax⟩ := List.any_eq_true.mp hany
    have hx : x ∈ seen := (hsame a ha).mp hax ▸ ha
    constructor
    · exact .inl
    · rintro (hy | rfl)
      · exact hy
      · exact hx
  · rw [List.mem_append, List.mem_singleton]

/-- One step repeats nothing. -/
theorem nodup_addNew {seen : List α} {x : α} (hsame : ∀ a ∈ seen, same a x = true ↔ a = x)
    (hnodup : seen.Nodup) : (addNew same seen x).Nodup := by
  rw [addNew]
  split
  · exact hnodup
  · rename_i hany
    refine List.nodup_append.mpr ⟨hnodup, List.pairwise_singleton _ _, fun a ha b hb hab => hany ?_⟩
    have hax : a = x := hab.trans (List.mem_singleton.mp hb)
    exact List.any_eq_true.mpr ⟨a, ha, (hsame a ha).mpr hax⟩

/-- Some items are added each once to those that are there. -/
theorem foldl_addNew {Fit : α → Prop} (hsame : ∀ a b, Fit a → Fit b → (same a b = true ↔ a = b))
    {items seen : List α} (hseen : ∀ a ∈ seen, Fit a) (hitems : ∀ a ∈ items, Fit a)
    (hnodup : seen.Nodup) :
    (items.foldl (addNew same) seen).Nodup
      ∧ ∀ y, y ∈ items.foldl (addNew same) seen ↔ y ∈ seen ∨ y ∈ items := by
  induction items generalizing seen with
  | nil => simpa using hnodup
  | cons x items ih =>
    obtain ⟨hx, hrest⟩ := List.forall_mem_cons.mp hitems
    have hsame' : ∀ a ∈ seen, same a x = true ↔ a = x := fun a ha => hsame a x (hseen a ha) hx
    have hmem := mem_addNew hsame'
    have hfit : ∀ a ∈ addNew same seen x, Fit a := by
      intro a ha
      rcases (hmem a).mp ha with ha | rfl
      · exact hseen a ha
      · exact hx
    obtain ⟨hnodup', hmem'⟩ := ih hfit hrest (nodup_addNew hsame' hnodup)
    refine ⟨hnodup', fun y => ?_⟩
    rw [List.foldl_cons, hmem', hmem, List.mem_cons, or_assoc]

end AddNew

namespace Signature

/-- A text as the name and a whole number as the arity. -/
def Named (s : Signature) : Prop := ∃ t n, s = ⟨.str t, .int n⟩

/-- The name stands before, by code points, or the names are equal and the arity is less. -/
inductive Precedes : Signature → Signature → Prop
  | name {s t : Text} {m n : Int} :
    s.codes < t.codes → Precedes ⟨.str s, .int m⟩ ⟨.str t, .int n⟩
  | arity {t : Text} {m n : Int} : m < n → Precedes ⟨.str t, .int m⟩ ⟨.str t, .int n⟩

theorem precedes_iff {s t : Text} {m n : Int} :
    Precedes ⟨.str s, .int m⟩ ⟨.str t, .int n⟩ ↔ s.codes < t.codes ∨ s = t ∧ m < n := by
  constructor
  · rintro (h | h)
    · exact .inl h
    · exact .inr ⟨rfl, h⟩
  · rintro (h | ⟨rfl, h⟩)
    · exact .name h
    · exact .arity h

/-- Of two different named signatures one precedes the other. -/
theorem precedes_trichotomy {a b : Signature} (ha : a.Named) (hb : b.Named) :
    Precedes a b ∨ a = b ∨ Precedes b a := by
  obtain ⟨s, m, rfl⟩ := ha
  obtain ⟨t, n, rfl⟩ := hb
  rcases Text.codes_trichotomy s t with h | rfl | h
  · exact .inl (.name h)
  · rcases Int.lt_trichotomy m n with h | rfl | h
    · exact .inl (.arity h)
    · exact .inr (.inl rfl)
    · exact .inr (.inr (.arity h))
  · exact .inr (.inr (.name h))

/-- Named signatures say the same only if they are equal. -/
theorem same_iff {a b : Signature} (ha : a.Named) (hb : b.Named) : a.same b = true ↔ a = b := by
  obtain ⟨s, m, rfl⟩ := ha
  obtain ⟨t, n, rfl⟩ := hb
  have hname : Data.same (.str s) (.str t) = decide (s = t) := rfl
  have harity : Data.same (.int m) (.int n) = decide (m = n) := Binary64.Reach.equal_ofInt m n
  rw [Signature.same, hname, harity]
  simp

/-- On named signatures the order answers by precedence. -/
theorem less?_eq_ok {a b : Signature} (ha : a.Named) (hb : b.Named) :
    a.less? b = .ok true ∧ Precedes a b ∨ a.less? b = .ok false ∧ ¬ Precedes a b := by
  obtain ⟨s, m, rfl⟩ := ha
  obtain ⟨t, n, rfl⟩ := hb
  have harity : Data.less? (.int m) (.int n) = .ok (decide (m < n)) :=
    congrArg Except.ok (Binary64.Reach.less_ofInt m n)
  have hname : Data.less? (.str s) (.str t) = .ok (Data.lessText s t) := rfl
  have hsame : Data.same (.str s) (.str t) = decide (s = t) := rfl
  rw [less?, hsame, precedes_iff]
  by_cases hst : s = t
  · have hirrefl : ¬ s.codes < t.codes := by
      rw [hst]
      exact List.lt_irrefl _
    rw [if_pos (decide_eq_true hst), harity]
    by_cases hmn : m < n
    · exact .inl ⟨by rw [decide_eq_true hmn], .inr ⟨hst, hmn⟩⟩
    · exact .inr ⟨by rw [decide_eq_false hmn], fun h => h.elim hirrefl fun h => hmn h.2⟩
  · rw [if_neg (by simpa using hst), hname]
    by_cases hlt : s.codes < t.codes
    · exact .inl ⟨by rw [Data.lessText_iff.mpr hlt], .inl hlt⟩
    · have hfalse : Data.lessText s t = false := by
        rw [Bool.eq_false_iff, Ne, Data.lessText_iff]
        exact hlt
      exact .inr ⟨by rw [hfalse], fun h => h.elim hlt fun h => hst h.1⟩

theorem precedes_asymm {a b : Signature} (h : Precedes a b) : ¬ Precedes b a := by
  cases h with
  | name h =>
    rw [precedes_iff]
    rintro (h' | ⟨rfl, -⟩)
    · exact List.lt_asymm h h'
    · exact List.lt_irrefl _ h
  | arity h =>
    rw [precedes_iff]
    rintro (h' | ⟨-, h'⟩)
    · exact List.lt_irrefl _ h'
    · omega

theorem precedes_trans {a b c : Signature} (hab : Precedes a b) (hbc : Precedes b c) :
    Precedes a c := by
  cases hab with
  | name h =>
    cases hbc with
    | name h' => exact .name (List.lt_trans h h')
    | arity _ => exact .name h
  | arity h =>
    cases hbc with
    | name h' => exact .name h'
    | arity h' => exact .arity (by omega)

/-- The order of signatures is one that a list of named signatures can be sorted by. -/
theorem compares_less? : Compares less? Named Precedes where
  answers _ _ ha hb := less?_eq_ok ha hb
  asymm _ _ _ _ h := precedes_asymm h
  through a b c ha hb hc h := by
    rcases precedes_trichotomy ha hb with hab | rfl | hba
    · exact .inl hab
    · exact .inr h
    · exact .inr (precedes_trans hba h)

/-- Each named signature of a list is kept once. -/
theorem distinct_spec {items : List Signature} (hitems : ∀ s ∈ items, s.Named) :
    (distinct items).Nodup ∧ ∀ s, s ∈ distinct items ↔ s ∈ items := by
  have hfold : distinct items = items.foldl (addNew same) [] := rfl
  rw [hfold]
  simpa using foldl_addNew (fun _ _ ha hb => same_iff ha hb) (by simp) hitems .nil

/-- Different named signatures in order are in strict order. -/
theorem pairwise_precedes {items : List Signature} (hitems : ∀ s ∈ items, s.Named)
    (hnodup : items.Nodup) (horder : InOrder Precedes items) : items.Pairwise Precedes := by
  refine (hnodup.and horder).imp_of_mem ?_
  rintro a b ha hb ⟨hne, hnot⟩
  rcases precedes_trichotomy (hitems a ha) (hitems b hb) with h | h | h
  · exact h
  · exact absurd h hne
  · exact absurd h hnot

end Signature

/-- Every rule of a list has a text as its name. -/
def RulesNamed (forms : List Form) : Prop := ∀ r, .rule r ∈ forms → ∃ t, r.name = .str t

theorem Form.rule?_eq_some {f : Form} {r : Rule} : f.rule? = some r ↔ f = .rule r := by
  cases f <;> simp [Form.rule?]

theorem mem_rules {forms : List Form} {r : Rule} :
    r ∈ forms.filterMap Form.rule? ↔ .rule r ∈ forms := by
  simp [List.mem_filterMap, Form.rule?_eq_some]

theorem Rule.named_of_signature? {r : Rule} {s : Signature} (hname : ∃ t, r.name = .str t)
    (h : r.signature? = .ok s) : s.Named := by
  obtain ⟨t, ht⟩ := hname
  obtain ⟨-, n, -, rfl⟩ := Rule.signature?_eq_ok.mp h
  exact ⟨t, n, by rw [ht]⟩

/-- The list of identities holds those of all rules, each once, by name and then by arity. A list
is found only if every rule has an identity. -/
theorem signatures?_spec {forms : List Form} {rules : List Signature} (hnamed : RulesNamed forms)
    (h : signatures? forms = .ok rules) :
    (∀ r, .rule r ∈ forms → ∃ s, r.signature? = .ok s)
      ∧ (∀ s, s ∈ rules ↔ ∃ r, .rule r ∈ forms ∧ r.signature? = .ok s)
      ∧ rules.Pairwise Signature.Precedes := by
  obtain ⟨all, hall, hsorted⟩ := bind_eq_ok_iff.mp h
  have hrule : ∀ r, r ∈ forms.filterMap Form.rule? ↔ .rule r ∈ forms := fun r => mem_rules
  have hmem : ∀ s, s ∈ all ↔ ∃ r, .rule r ∈ forms ∧ r.signature? = .ok s := by
    intro s
    rw [mem_of_mapM_eq_ok hall]
    constructor
    · rintro ⟨r, hr, hs⟩
      exact ⟨r, (hrule r).mp hr, (Rule.listed?_eq_ok.mp hs).1⟩
    · rintro ⟨r, hr, hs⟩
      obtain ⟨t, n, rfl⟩ := Rule.named_of_signature? (hnamed r hr) hs
      exact ⟨r, (hrule r).mpr hr, Rule.listed?_eq_ok.mpr ⟨hs, Data.hashable_str t⟩⟩
  have hfit : ∀ s ∈ all, s.Named := by
    intro s hs
    obtain ⟨r, hr, hrs⟩ := (hmem s).mp hs
    exact Rule.named_of_signature? (hnamed r hr) hrs
  obtain ⟨hnodup, hdistinct⟩ := Signature.distinct_spec hfit
  obtain ⟨out, hout, hperm, horder⟩ :=
    Signature.compares_less?.sorted_ok fun s hs => hfit s ((hdistinct s).mp hs)
  obtain rfl : out = rules := Except.ok.inj (hout.symm.trans hsorted)
  have hmem' : ∀ s, s ∈ out ↔ s ∈ all := fun s => hperm.mem_iff.trans (hdistinct s)
  refine ⟨fun r hr => ?_, fun s => (hmem' s).trans (hmem s), ?_⟩
  · have hok : r.listed? ∈ all.map .ok := by
      rw [← mapM_eq_ok_iff.mp hall]
      exact List.mem_map_of_mem ((hrule r).mpr hr)
    obtain ⟨s, -, hs⟩ := List.mem_map.mp hok
    exact ⟨s, (Rule.listed?_eq_ok.mp hs.symm).1⟩
  · exact Signature.pairwise_precedes (fun s hs => hfit s ((hmem' s).mp hs))
      (hperm.nodup_iff.mpr hnodup) horder

end RuleLowering
