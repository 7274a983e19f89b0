import Mathlib.Algebra.Ring.Nat
import RuleLowering.Json.Reader
import RuleLowering.Proofs.JsonNumber
import RuleLowering.Proofs.SameData
import RuleLowering.Proofs.Writable

/-!
# The values of JSON texts

A JSON text holds words, numbers and texts, lists, and mappings with different texts as keys. No
container is met again inside itself, as each one read has the place where its text begins, behind
those around it. All whole numbers that are read can be written.
-/
namespace RuleLowering

namespace Data

mutual

/-- A value that a JSON text can hold, inside containers of the places around it. -/
def isJsonIn (around : List Place) : Data → Bool
  | .null | .bool _ | .int _ | .float _ | .str _ => true
  | .list place items => !place.isAmong around && allJson (place :: around) items
  | .map place entries =>
    !place.isAmong around && decide (entries.map (·.1.text?)).Nodup
      && entriesJson (place :: around) entries
  | .special _ _ | .group _ _ _ => false

def allJson (around : List Place) : List Data → Bool
  | [] => true
  | x :: xs => isJsonIn around x && allJson around xs

def entriesJson (around : List Place) : List (Data × Data) → Bool
  | [] => true
  | (k, v) :: es => k.text?.isSome && isJsonIn around v && entriesJson around es

end

def isJson (d : Data) : Bool := isJsonIn [] d

variable {around around' : List Place}

theorem allJson_iff {items : List Data} :
    allJson around items = true ↔ ∀ d ∈ items, isJsonIn around d = true := by
  induction items with
  | nil => simp [allJson]
  | cons d items ih => rw [allJson, Bool.and_eq_true, ih, List.forall_mem_cons]

theorem entriesJson_iff {entries : List (Data × Data)} :
    entriesJson around entries = true ↔
      ∀ e ∈ entries, (∃ t, e.1 = .str t) ∧ isJsonIn around e.2 = true := by
  have hkey : ∀ k : Data, k.text?.isSome = true ↔ ∃ t, k = .str t := by
    intro k
    simp only [Option.isSome_iff_exists, text?_eq_some]
  induction entries with
  | nil => simp [entriesJson]
  | cons e entries ih =>
    obtain ⟨k, v⟩ := e
    rw [entriesJson, Bool.and_eq_true, Bool.and_eq_true, hkey, List.forall_mem_cons]
    exact and_congr_right' ih

theorem isJsonIn_list {place : Place} {items : List Data} :
    isJsonIn around (.list place items) = true ↔ place.isAmong around = false
      ∧ ∀ d ∈ items, isJsonIn (place :: around) d = true := by
  rw [isJsonIn, Bool.and_eq_true, Bool.not_eq_true', allJson_iff]

theorem isJsonIn_map {place : Place} {entries : List (Data × Data)} :
    isJsonIn around (.map place entries) = true ↔ place.isAmong around = false
      ∧ (entries.map (·.1.text?)).Nodup
      ∧ ∀ e ∈ entries, (∃ t, e.1 = .str t) ∧ isJsonIn (place :: around) e.2 = true := by
  rw [isJsonIn, Bool.and_eq_true, Bool.and_eq_true, Bool.not_eq_true', decide_eq_true_iff,
    entriesJson_iff, and_assoc]

theorem isAmong_cons_mono (h : ∀ p : Place, p.isAmong around = true → p.isAmong around' = true)
    (place p : Place) (hp : p.isAmong (place :: around) = true) :
    p.isAmong (place :: around') = true := by
  have hp' := h p
  simp only [Place.isAmong, List.contains_cons, Bool.and_eq_true, Bool.or_eq_true] at hp hp' ⊢
  refine ⟨hp.1, hp.2.imp_right fun hmem => (hp' ⟨hp.1, hmem⟩).2⟩

mutual

/-- With fewer containers around it a value is none the less one of JSON. -/
theorem isJsonIn_mono : ∀ (d : Data) {around around' : List Place},
    (∀ p : Place, p.isAmong around = true → p.isAmong around' = true) →
    isJsonIn around' d = true → isJsonIn around d = true
  | .null, _, _, _, _ | .bool _, _, _, _, _ | .int _, _, _, _, _ | .float _, _, _, _, _
  | .str _, _, _, _, _ => rfl
  | .special _ _, _, _, _, hd | .group _ _ _, _, _, _, hd => by cases hd
  | .list place items, around, around', h, hd => by
    rw [isJsonIn_list] at hd ⊢
    refine ⟨Bool.eq_false_iff.mpr fun hp => Bool.eq_false_iff.mp hd.1 (h place hp), ?_⟩
    exact isJsonIn_mono_items items (isAmong_cons_mono h place) hd.2
  | .map place entries, around, around', h, hd => by
    rw [isJsonIn_map] at hd ⊢
    refine ⟨Bool.eq_false_iff.mpr fun hp => Bool.eq_false_iff.mp hd.1 (h place hp), hd.2.1, ?_⟩
    exact isJsonIn_mono_entries entries (isAmong_cons_mono h place) hd.2.2

theorem isJsonIn_mono_items : ∀ (items : List Data) {around around' : List Place},
    (∀ p : Place, p.isAmong around = true → p.isAmong around' = true) →
    (∀ d ∈ items, isJsonIn around' d = true) → ∀ d ∈ items, isJsonIn around d = true
  | [], _, _, _, _ => nofun
  | d :: items, _, _, h, hd => by
    obtain ⟨hfirst, hrest⟩ := List.forall_mem_cons.mp hd
    exact List.forall_mem_cons.mpr
      ⟨isJsonIn_mono d h hfirst, isJsonIn_mono_items items h hrest⟩

theorem isJsonIn_mono_entries : ∀ (entries : List (Data × Data)) {around around' : List Place},
    (∀ p : Place, p.isAmong around = true → p.isAmong around' = true) →
    (∀ e ∈ entries, (∃ t, e.1 = .str t) ∧ isJsonIn around' e.2 = true) →
    ∀ e ∈ entries, (∃ t, e.1 = .str t) ∧ isJsonIn around e.2 = true
  | [], _, _, _, _ => nofun
  | (k, v) :: entries, _, _, h, hd => by
    obtain ⟨hfirst, hrest⟩ := List.forall_mem_cons.mp hd
    exact List.forall_mem_cons.mpr
      ⟨⟨hfirst.1, isJsonIn_mono v h hfirst.2⟩, isJsonIn_mono_entries entries h hrest⟩

end

theorem isJson_of_isJsonIn {d : Data} (h : isJsonIn around d = true) : d.isJson = true :=
  @isJsonIn_mono d [] around (fun p hp => by simp [Place.isAmong] at hp) h

/-- The items of a list of JSON are values of JSON. -/
theorem isJson_of_mem_list {place : Place} {items : List Data}
    (h : isJson (.list place items) = true) {d : Data} (hd : d ∈ items) : d.isJson = true :=
  isJson_of_isJsonIn ((isJsonIn_list.mp h).2 d hd)

/-- A mapping of JSON has different texts as keys, and values of JSON. -/
theorem isJson_map {place : Place} {entries : List (Data × Data)}
    (h : isJson (.map place entries) = true) : (entries.map (·.1.text?)).Nodup
      ∧ ∀ e ∈ entries, (∃ t, e.1 = .str t) ∧ e.2.isJson = true := by
  obtain ⟨-, hkeys, hentries⟩ := isJsonIn_map.mp h
  exact ⟨hkeys, fun e he => ⟨(hentries e he).1, isJson_of_isJsonIn (hentries e he).2⟩⟩

theorem isJsonIn_cons_fresh {d : Data} :
    isJsonIn (.fresh :: around) d = true ↔ isJsonIn around d = true :=
  ⟨isJsonIn_mono d fun p hp => by rwa [Place.isAmong_cons_fresh],
    isJsonIn_mono d fun p hp => by rwa [Place.isAmong_cons_fresh] at hp⟩

/-- A built list is of JSON if its items are. -/
@[simp] theorem isJson_ofList {items : List Data} :
    isJson (.ofList items) = true ↔ ∀ d ∈ items, d.isJson = true := by
  rw [isJson, ofList, isJsonIn_list]
  simp only [isJsonIn_cons_fresh]
  exact and_iff_right rfl

/-- A built mapping with different names is of JSON if the values of its fields are. -/
theorem isJson_ofFields {fields : List (String × Data)} (hnames : (fields.map Prod.fst).Nodup) :
    isJson (.ofFields fields) = true ↔ ∀ f ∈ fields, f.2.isJson = true := by
  have hkeys : ((fields.map fun f => (Data.str f.1, f.2)).map (·.1.text?)).Nodup := by
    rw [List.map_map]
    have hinjective : Function.Injective fun name : String => some (Text.plain name) :=
      fun a b h => Text.plain.inj (Option.some.inj h)
    have hmap := hnames.map hinjective
    rwa [List.map_map] at hmap
  rw [isJson, ofFields, isJsonIn_map]
  simp only [isJsonIn_cons_fresh, List.forall_mem_map]
  constructor
  · rintro ⟨-, -, h⟩ f hf
    exact (h f hf).2
  · intro h
    exact ⟨rfl, hkeys, fun f hf => ⟨⟨_, rfl⟩, h f hf⟩⟩

end Data

namespace Json

open Data (isJsonIn isWritableIn)

/-- What a text holds: a value of JSON with writable numbers. -/
def Holds (around : List Place) (d : Data) : Prop :=
  isJsonIn around d = true ∧ isWritableIn around d = true

/-- No container that is read from some point on has a place among those around it. -/
def Ahead (document : Nat) (around : List Place) (read : Nat) : Prop :=
  ∀ n, read ≤ n → (Place.node document n).isAmong around = false

section Reading

variable {document : Nat} {around : List Place}

theorem Ahead.mono {m n : Nat} (h : Ahead document around m) (hmn : m ≤ n) :
    Ahead document around n :=
  fun k hk => h k (Nat.le_trans hmn hk)

/-- The items of a container are read behind its place. -/
theorem Ahead.inside {m n : Nat} (h : Ahead document around m) (hmn : m < n) :
    Ahead document (.node document m :: around) n := by
  intro k hk
  have hk' := h k (by omega)
  have hne : ¬ k = m := by omega
  simpa [Place.isAmong, hne] using hk'

theorem read_skip (i : Input) (n : Nat) : i.read ≤ (i.skip n).read := Nat.le_add_right _ _

theorem read_skipBlank (i : Input) : i.read ≤ i.skipBlank.read := read_skip i _

theorem read_readText {start : Nat} {acc : List Glyph} {read pending : Nat} {gs : List Glyph}
    {t : Text} {after : Input} (h : readText start acc read pending gs = .ok (t, after)) :
    read < after.read := by
  induction gs generalizing acc read pending with
  | nil => cases pending <;> cases h
  | cons g rest ih =>
    cases pending with
    | succ n => exact Nat.lt_of_succ_lt (ih h)
    | zero =>
      rw [readText] at h
      split at h
      · obtain ⟨-, rfl⟩ := Prod.mk.inj (Except.ok.inj h)
        exact Nat.lt_succ_self _
      · split at h
        · split at h
          · exact Nat.lt_of_succ_lt (ih h)
          · cases h
        · split at h
          · cases h
          · exact Nat.lt_of_succ_lt (ih h)

/-- Digits are worth less than the power of ten with as many zeros. -/
theorem digitsValue_lt {ds : List Char} (h : ∀ c ∈ ds, c.isDigit = true) :
    digitsValue ds < 10 ^ ds.length := by
  have hdigit : ∀ c : Char, c.isDigit = true → c.toNat - 48 < 10 := by
    intro c hc
    have hbounds : 48 ≤ c.toNat ∧ c.toNat ≤ 57 := by
      simpa [Char.isDigit, UInt32.le_iff_toNat_le] using hc
    omega
  have hfold : ∀ n, ds.foldl (fun n c => n * 10 + (c.toNat - 48)) n < (n + 1) * 10 ^ ds.length := by
    induction ds with
    | nil => simp
    | cons c ds ih =>
      obtain ⟨hc, hds⟩ := List.forall_mem_cons.mp h
      intro n
      have hc' := hdigit c hc
      calc ds.foldl (fun n c => n * 10 + (c.toNat - 48)) (n * 10 + (c.toNat - 48))
          < (n * 10 + (c.toNat - 48) + 1) * 10 ^ ds.length := ih hds _
        _ ≤ (n + 1) * 10 * 10 ^ ds.length := Nat.mul_le_mul_right _ (by omega)
        _ = (n + 1) * 10 ^ (c :: ds).length := by
          rw [List.length_cons, Nat.pow_succ, Nat.mul_assoc, Nat.mul_comm 10]
  have hzero := hfold 0
  rwa [Nat.zero_add, Nat.one_mul] at hzero

theorem isDigit_of_mem_leadingDigits {gs : List Glyph} :
    ∀ c ∈ leadingDigits gs, c.isDigit = true := by
  induction gs with
  | nil => exact List.forall_mem_nil _
  | cons g rest ih =>
    cases g with
    | half k => exact List.forall_mem_nil _
    | char c =>
      rw [leadingDigits]
      split
      · rename_i hc
        exact List.forall_mem_cons.mpr ⟨hc, ih⟩
      · exact List.forall_mem_nil _

theorem pow_le_pow10 {k m : Nat} (hk : k ≤ m) : 10 ^ k ≤ Binary64.pow10 m :=
  Nat.pow_le_pow_right (by decide) hk

theorem holds_int {n : Int} (hn : n.natAbs < Data.numberLimit) : Holds around (.int n) := by
  refine ⟨rfl, ?_⟩
  rw [isWritableIn]
  exact decide_eq_true hn

/-- A number that is read can be written. -/
theorem holds_readNumber {i after : Input} {d : Data} (h : readNumber i = .ok (d, after)) :
    Holds around d ∧ i.read ≤ after.read := by
  unfold readNumber at h
  extract_lets negative s whole afterWhole fraction afterFraction signLength fractionLength exponent
    taken n power x at h
  have hwhole : ∀ c ∈ whole, c.isDigit = true := by
    simp only [whole]
    clear_value s
    split
    · simp
    · exact isDigit_of_mem_leadingDigits
  have hn : ¬ Data.digitLimit < whole.length → n.natAbs < Data.numberLimit := by
    intro hlong
    rw [Int.natAbs_natCast]
    exact Nat.lt_of_lt_of_le (digitsValue_lt hwhole) (pow_le_pow10 (Nat.not_lt.mp hlong))
  split_ifs at h with hempty hint hlong hnegative
  · obtain ⟨rfl, rfl⟩ := Prod.mk.inj (Except.ok.inj h)
    exact ⟨holds_int ((Int.natAbs_neg n).symm ▸ hn hlong), read_skip i _⟩
  · obtain ⟨rfl, rfl⟩ := Prod.mk.inj (Except.ok.inj h)
    exact ⟨holds_int (hn hlong), read_skip i _⟩
  · obtain ⟨rfl, rfl⟩ := Prod.mk.inj (Except.ok.inj h)
    exact ⟨⟨rfl, rfl⟩, read_skip i _⟩

theorem holds_readWord {i after : Input} {d : Data} (h : readWord i = .ok (d, after)) :
    Holds around d ∧ i.read ≤ after.read := by
  unfold readWord at h
  split at h
  · rename_i word value hfind
    obtain ⟨rfl, rfl⟩ := Prod.mk.inj (Except.ok.inj h)
    refine ⟨?_, read_skip i _⟩
    have hwords : ∀ w ∈ words, Holds around w.2 := by
      simp [words, Holds, isJsonIn, isWritableIn]
    exact hwords _ (List.mem_of_find?_eq_some hfind)
  · exact holds_readNumber h

theorem holds_list {place : Place} {items : List Data} (hplace : place.isAmong around = false)
    (h : ∀ d ∈ items, Holds (place :: around) d) : Holds around (.list place items) := by
  refine ⟨Data.isJsonIn_list.mpr ⟨hplace, fun d hd => (h d hd).1⟩, ?_⟩
  rw [isWritableIn, Data.allWritable_iff.mpr fun d hd => (h d hd).2, Bool.or_true]

/-- Entries of a mapping of JSON: different texts as keys, and values of JSON. -/
def HoldsEntries (around : List Place) (entries : List (Data × Data)) : Prop :=
  (entries.map (·.1.text?)).Nodup ∧ ∀ e ∈ entries, (∃ t, e.1 = .str t) ∧ Holds around e.2

theorem holds_map {place : Place} {entries : List (Data × Data)}
    (hplace : place.isAmong around = false) (h : HoldsEntries (place :: around) entries) :
    Holds around (.map place entries) := by
  obtain ⟨hkeys, hentries⟩ := h
  refine ⟨Data.isJsonIn_map.mpr
    ⟨hplace, hkeys, fun e he => ⟨(hentries e he).1, (hentries e he).2.1⟩⟩, ?_⟩
  have hwritable : Data.entriesWritable (place :: around) entries = true := by
    refine Data.entriesWritable_iff.mpr fun e he => ?_
    obtain ⟨⟨t, ht⟩, hvalue⟩ := hentries e he
    exact ⟨by rw [ht]; rfl, hvalue.2⟩
  rw [isWritableIn, hwritable, Bool.or_true]

theorem mem_put {entries : List (Data × Data)} {t : Text} {value : Data} {e : Data × Data}
    (h : e ∈ Data.put entries (.str t) value) : e ∈ entries ∨ e = (.str t, value) := by
  induction entries with
  | nil => exact .inr (List.mem_singleton.mp h)
  | cons first rest ih =>
    rw [Data.put] at h
    split at h
    · rename_i hsame
      rcases List.mem_cons.mp h with rfl | h
      · exact .inr (Prod.ext (Data.same_str_right.mp hsame) rfl)
      · exact .inl (.tail first h)
    · rcases List.mem_cons.mp h with rfl | h
      · exact .inl List.mem_cons_self
      · exact (ih h).imp_left (.tail first)

theorem nodup_put {entries : List (Data × Data)} (t : Text) (value : Data)
    (h : (entries.map (·.1.text?)).Nodup) :
    ((Data.put entries (.str t) value).map (·.1.text?)).Nodup := by
  induction entries with
  | nil => exact List.pairwise_singleton _ _
  | cons e rest ih =>
    obtain ⟨hfirst, hrest⟩ := List.nodup_cons.mp h
    rw [Data.put]
    split
    · exact h
    · rename_i hsame
      refine List.nodup_cons.mpr ⟨fun hmem => ?_, ih hrest⟩
      obtain ⟨e', he', hkey⟩ := List.mem_map.mp hmem
      rcases mem_put he' with hmem' | rfl
      · exact hfirst (hkey ▸ List.mem_map_of_mem hmem')
      · exact hsame (Data.same_str_right.mpr (Data.text?_eq_some.mp hkey.symm))

/-- Entries of JSON stay so when one more is put to them. -/
theorem holdsEntries_put {entries : List (Data × Data)} (t : Text) {value : Data}
    (h : HoldsEntries around entries) (hvalue : Holds around value) :
    HoldsEntries around (Data.put entries (.str t) value) := by
  refine ⟨nodup_put t value h.1, fun e he => ?_⟩
  rcases mem_put he with he | rfl
  · exact h.2 e he
  · exact ⟨⟨t, rfl⟩, hvalue⟩

mutual

/-- What is read is of JSON, and behind the place where reading began. -/
theorem holds_readValue (document : Nat) : ∀ (fuel : Nat) (i : Input) (around : List Place)
    (d : Data) (after : Input), Ahead document around i.read →
    readValue document fuel i = .ok (d, after) → Holds around d ∧ i.read ≤ after.read
  | 0, _, _, _, _, _, h => by cases h
  | fuel + 1, i, around, d, after, hahead, h => by
    have hplace : (Place.node document i.read).isAmong around = false := hahead _ (Nat.le_refl _)
    have hopen : i.read < (i.skip 1).skipBlank.read :=
      Nat.lt_of_lt_of_le (Nat.lt_succ_self _) (read_skipBlank (i.skip 1))
    have hclose : i.read ≤ ((i.skip 1).skipBlank.skip 1).read := by
      have hskip := read_skip (i.skip 1).skipBlank 1
      omega
    have hinside : Ahead document (.node document i.read :: around) (i.skip 1).skipBlank.read :=
      hahead.inside hopen
    rw [readValue] at h
    split at h
    · obtain ⟨⟨t, next⟩, htext, h⟩ := bind_eq_ok_iff.mp h
      obtain ⟨rfl, rfl⟩ := Prod.mk.inj (return_eq_ok_iff.mp h)
      have hnext := read_readText htext
      exact ⟨⟨rfl, rfl⟩, by omega⟩
    · dsimp only at h
      split at h
      · obtain ⟨rfl, rfl⟩ := Prod.mk.inj (return_eq_ok_iff.mp h)
        exact ⟨holds_list hplace nofun, hclose⟩
      · obtain ⟨⟨items, next⟩, hitems, h⟩ := bind_eq_ok_iff.mp h
        obtain ⟨rfl, rfl⟩ := Prod.mk.inj (return_eq_ok_iff.mp h)
        obtain ⟨hholds, hnext⟩ := holds_readItems document fuel _ _ items _ hinside hitems
        exact ⟨holds_list hplace hholds, by omega⟩
    · dsimp only at h
      split at h
      · obtain ⟨rfl, rfl⟩ := Prod.mk.inj (return_eq_ok_iff.mp h)
        exact ⟨holds_map hplace ⟨.nil, nofun⟩, hclose⟩
      · obtain ⟨⟨entries, next⟩, hentries, h⟩ := bind_eq_ok_iff.mp h
        obtain ⟨rfl, rfl⟩ := Prod.mk.inj (return_eq_ok_iff.mp h)
        obtain ⟨hholds, hnext⟩ := holds_readEntries document fuel _ _ [] entries _ hinside
          ⟨.nil, nofun⟩ hentries
        exact ⟨holds_map hplace hholds, by omega⟩
    · exact holds_readWord h

theorem holds_readItems (document : Nat) : ∀ (fuel : Nat) (i : Input) (around : List Place)
    (items : List Data) (after : Input), Ahead document around i.read →
    readItems document fuel i = .ok (items, after) →
    (∀ d ∈ items, Holds around d) ∧ i.read ≤ after.read
  | 0, _, _, _, _, _, h => by cases h
  | fuel + 1, i, around, items, after, hahead, h => by
    rw [readItems] at h
    obtain ⟨⟨x, next⟩, hx, h⟩ := bind_eq_ok_iff.mp h
    obtain ⟨hfirst, hnext⟩ := holds_readValue document fuel i around x next hahead hx
    have hblank := read_skipBlank next
    dsimp only at h
    split at h
    · obtain ⟨rfl, rfl⟩ := Prod.mk.inj (return_eq_ok_iff.mp h)
      have hskip := read_skip next.skipBlank 1
      exact ⟨List.forall_mem_singleton.mpr hfirst, by omega⟩
    · obtain ⟨⟨xs, last⟩, hxs, h⟩ := bind_eq_ok_iff.mp h
      obtain ⟨rfl, rfl⟩ := Prod.mk.inj (return_eq_ok_iff.mp h)
      have hskip := read_skip next.skipBlank 1
      have hblank' := read_skipBlank (next.skipBlank.skip 1)
      obtain ⟨hrest, hlast⟩ := holds_readItems document fuel _ around xs _
        (hahead.mono (by omega)) hxs
      exact ⟨List.forall_mem_cons.mpr ⟨hfirst, hrest⟩, by omega⟩
    · cases h

theorem holds_readEntries (document : Nat) : ∀ (fuel : Nat) (i : Input) (around : List Place)
    (before entries : List (Data × Data)) (after : Input), Ahead document around i.read →
    HoldsEntries around before → readEntries document fuel i before = .ok (entries, after) →
    HoldsEntries around entries ∧ i.read ≤ after.read
  | 0, _, _, _, _, _, _, _, h => by cases h
  | fuel + 1, i, around, before, entries, after, hahead, hbefore, h => by
    rw [readEntries] at h
    split at h
    · obtain ⟨⟨name, next⟩, hname, h⟩ := bind_eq_ok_iff.mp h
      have hnext := read_readText hname
      have hblank := read_skipBlank next
      dsimp only at h
      split at h
      · obtain ⟨⟨value, behind⟩, hread, h⟩ := bind_eq_ok_iff.mp h
        have hcolon := read_skip next.skipBlank 1
        have hblank' := read_skipBlank (next.skipBlank.skip 1)
        obtain ⟨hvalue, hbehind⟩ := holds_readValue document fuel _ around value behind
          (hahead.mono (by omega)) hread
        have hput := holdsEntries_put name hbefore hvalue
        have hlast := read_skipBlank behind
        have hskip := read_skip behind.skipBlank 1
        dsimp only at h
        split at h
        · obtain ⟨rfl, rfl⟩ := Prod.mk.inj (return_eq_ok_iff.mp h)
          exact ⟨hput, by omega⟩
        · have hgo := read_skipBlank (behind.skipBlank.skip 1)
          obtain ⟨hentries, hafter⟩ := holds_readEntries document fuel _ around _ entries after
            (hahead.mono (by omega)) hput h
          exact ⟨hentries, by omega⟩
        · cases h
      · cases h
    · cases h

end

end Reading

/-- What a JSON text holds is a value of JSON with writable numbers. -/
theorem isJson_of_read {document : Nat} {text : Text} {d : Data}
    (h : Json.read document text = .ok d) : d.isJson = true ∧ d.isWritable = true := by
  rw [Json.read] at h
  have hok : ∀ {x : Except Stop Data}, x.mapError (Stop.fault text.glyphs) = .ok d → x = .ok d := by
    intro x hx
    cases x with
    | ok a => exact congrArg Except.ok (Except.ok.inj hx)
    | error stop => cases hx
  replace h := hok h
  split at h
  · cases h
  · obtain ⟨⟨x, after⟩, hx, h⟩ := bind_eq_ok_iff.mp h
    have hholds := holds_readValue document _ _ [] x after (fun n _ => by simp [Place.isAmong]) hx
    dsimp only at h
    split at h
    · obtain rfl := return_eq_ok_iff.mp h
      exact hholds.1
    · cases h

end Json

end RuleLowering
