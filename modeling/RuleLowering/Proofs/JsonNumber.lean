import RuleLowering.Json.Reader
import RuleLowering.Json.Writer

/-!
# Whole numbers read back

A whole number is written as its sign and its decimal digits, without a zero in front of others.
What stands behind a value in a text is neither a digit nor a point nor the letter of an exponent,
so the reader stops behind the last digit, with the number that was written. Whatever else stands
behind it, a text tells the number at its front, unless the text goes on with a digit.
-/
namespace RuleLowering.Json

/-- What can stand behind a value: the end of the text, a comma or a closing bracket. -/
inductive Ends : List Glyph → Prop
  | nil : Ends []
  | comma (rest : List Glyph) : Ends (.char ',' :: rest)
  | bracket (rest : List Glyph) : Ends (.char ']' :: rest)
  | brace (rest : List Glyph) : Ends (.char '\x7d' :: rest)

section Ends

variable {rest : List Glyph}

theorem leadingDigits_of_ends (h : Ends rest) : leadingDigits rest = [] := by
  cases h <;> rfl

theorem fractionDigits_of_ends (h : Ends rest) : fractionDigits rest = [] := by
  cases h <;> rfl

theorem exponentPart?_of_ends (h : Ends rest) : exponentPart? rest = none := by
  cases h <;> rfl

end Ends

theorem exists_toDigits_eq_cons (n : Nat) :
    ∃ d ds, Nat.toDigits 10 n = d :: ds ∧ d.isDigit = true := by
  obtain ⟨d, ds, hcons⟩ := List.exists_cons_of_ne_nil
    (Nat.toDigits_ne_nil : Nat.toDigits 10 n ≠ [])
  have hmem : d ∈ Nat.toDigits 10 n := by
    rw [hcons]
    exact List.mem_cons_self
  exact ⟨d, ds, hcons, Nat.isDigit_of_mem_toDigits (by decide) (by decide) hmem⟩

/-- The digits at the front are all those before what ends a value. -/
theorem leadingDigits_append {ds : List Char} {rest : List Glyph} (hds : ∀ c ∈ ds, c.isDigit = true)
    (hrest : Ends rest) : leadingDigits (ds.map .char ++ rest) = ds := by
  induction ds with
  | nil => exact leadingDigits_of_ends hrest
  | cons c ds ih =>
    rw [List.map_cons, List.cons_append, leadingDigits, if_pos (hds c List.mem_cons_self),
      ih fun d hd => hds d (.tail c hd)]

/-- A positive number has no zero in front. -/
theorem head?_toDigits_ne_zero {n : Nat} (hn : 0 < n) : (Nat.toDigits 10 n).head? ≠ some '0' := by
  induction n using Nat.strongRecOn with
  | ind n ih =>
    by_cases hbase : n < 10
    · rw [Nat.toDigits_of_lt_base hbase]
      have hdigit : ∀ d < 10, 0 < d → d.digitChar ≠ '0' := by decide
      simpa using hdigit n hbase hn
    · have hquotient : 0 < n / 10 := Nat.div_pos (by omega) (by omega)
      have hhead := ih (n / 10) (by omega) hquotient
      obtain ⟨d, ds, hdigits, -⟩ := exists_toDigits_eq_cons (n / 10)
      rw [Nat.toDigits_of_base_le (by omega) (by omega), hdigits]
      rwa [hdigits] at hhead

theorem digitsValue_toDigits (n : Nat) : digitsValue (Nat.toDigits 10 n) = n := by
  have hvalue : digitsValue (Nat.toDigits 10 n) = Nat.ofDigitChars 10 (Nat.toDigits 10 n) 0 := by
    rw [digitsValue, Nat.ofDigitChars]
    congr 1
    funext m c
    rw [Nat.mul_comm]
    rfl
  rw [hvalue, Nat.ofDigitChars_toDigits (by omega) (by omega)]

theorem length_toDigits_le {n k : Nat} (hk : 0 < k) (hn : n < Binary64.pow10 k) :
    (Nat.toDigits 10 n).length ≤ k :=
  (Nat.length_toDigits_le_iff (by omega) hk).mpr hn

/-- The digits of a number behind its sign are read as the number. -/
theorem readNumber_toDigits (negative : Bool) {n : Nat} (hn : n < Data.numberLimit)
    {rest : List Glyph} (hrest : Ends rest) (read : Nat) :
    let text := (if negative then ['-'] else []) ++ Nat.toDigits 10 n
    readNumber ⟨text.map .char ++ rest, read⟩ =
      .ok (.int (if negative then -n else n), ⟨rest, read + text.length⟩) := by
  intro text
  obtain ⟨d, ds, hcons, hd⟩ := exists_toDigits_eq_cons n
  have hdigits : ∀ c ∈ Nat.toDigits 10 n, c.isDigit = true := fun c hc =>
    Nat.isDigit_of_mem_toDigits (by decide) (by decide) hc
  unfold readNumber
  extract_lets isNegative s whole afterWhole fraction afterFraction signLength fractionLength
    exponent taken value power x
  have hnegative : isNegative = negative := by
    cases negative with
    | true => rfl
    | false =>
      have hne : d ≠ '-' := by
        rintro rfl
        cases hd
      simp [isNegative, text, hcons, hne]
  have hs : s = (Nat.toDigits 10 n).map .char ++ rest := by
    simp only [s, hnegative, text]
    cases negative <;> rfl
  clear_value s
  have hwhole : whole = Nat.toDigits 10 n := by
    simp only [whole]
    split
    · rw [hcons, List.map_cons, List.cons_append] at hs
      have hzero : d = '0' := (Glyph.char.inj (List.cons.inj hs).1).symm
      rcases Nat.eq_zero_or_pos n with rfl | hpos
      · rfl
      · have hhead := head?_toDigits_ne_zero hpos
        rw [hcons, hzero] at hhead
        exact absurd rfl hhead
    · rw [hs]
      exact leadingDigits_append hdigits hrest
  have hafter : afterWhole = rest := by
    simp only [afterWhole, hwhole, hs]
    exact List.drop_left' (by simp)
  have hfraction : fraction = [] := by
    simp only [fraction, hafter]
    exact fractionDigits_of_ends hrest
  have hexponent : exponent = none := by
    simp only [exponent, afterFraction, hfraction, hafter]
    exact exponentPart?_of_ends hrest
  have htaken : taken = text.length := by
    simp only [taken, signLength, fractionLength, hexponent, hfraction, hnegative, hwhole, text]
    cases negative <;> simp
    omega
  have hlimit : ¬ Data.digitLimit < (Nat.toDigits 10 n).length :=
    Nat.not_lt.mpr (length_toDigits_le (by decide) hn)
  have hvalue : value = n := by
    simp only [value, hwhole, digitsValue_toDigits]
  have hskip : (Input.mk (text.map .char ++ rest) read).skip taken =
      ⟨rest, read + text.length⟩ := by
    rw [htaken, Input.skip]
    congr 1
    exact List.drop_left' (by simp)
  simp [hfraction, hexponent, hlimit, hskip, hnegative, hwhole, hvalue]

/-- The words do not begin as a number does. -/
theorem find?_words_of_digit {d : Char} (hd : d.isDigit = true) (negative : Bool)
    (rest : List Glyph) :
    words.find? (·.1.isPrefixOf ((if negative then ['-'] else []).map .char ++ .char d :: rest)) =
      none := by
  have hne : d ≠ 'n' ∧ d ≠ 't' ∧ d ≠ 'f' ∧ d ≠ 'N' ∧ d ≠ 'I' ∧ d ≠ '-' := by
    refine ⟨?_, ?_, ?_, ?_, ?_, ?_⟩ <;> (rintro rfl; cases hd)
  obtain ⟨hn, ht, hf, hN, hI, hminus⟩ := hne
  cases negative <;> simp [words, Text.glyphs, List.isPrefixOf, hn, ht, hf, hN, hI, hminus, Ne.symm]

/-- The text of a whole number is its sign with the digits of its absolute value. -/
theorem toList_toString (n : Int) :
    (toString n).toList =
      (if decide (n < 0) then ['-'] else []) ++ Nat.toDigits 10 n.natAbs := by
  cases n with
  | ofNat m => exact Nat.toList_repr
  | negSucc m =>
    have htext : (toString (Int.negSucc m)).toList = ("-" ++ Nat.repr (m + 1)).toList := rfl
    rw [htext, String.toList_append, Nat.toList_repr,
      if_pos (decide_eq_true (Int.negSucc_lt_zero m))]
    rfl

section Cancel

variable {r r' : List Char}

/-- Characters of one kind end where another kind begins. -/
theorem front_cancel {p : Char → Bool} {s t : List Char} (hs : ∀ c ∈ s, p c = true)
    (ht : ∀ c ∈ t, p c = true) (hr : ∀ c ∈ r.head?, p c = false)
    (hr' : ∀ c ∈ r'.head?, p c = false) (h : s ++ r = t ++ r') : s = t ∧ r = r' := by
  have hempty : ∀ r : List Char, (∀ c ∈ r.head?, p c = false) → r.takeWhile p = [] := by
    intro r hr
    cases r with
    | nil => rfl
    | cons c rest => exact List.takeWhile_cons_of_neg (Bool.eq_false_iff.mp (hr c rfl))
  have hfront := congrArg (List.takeWhile p) h
  rw [List.takeWhile_append_of_pos hs, List.takeWhile_append_of_pos ht, hempty r hr,
    hempty r' hr', List.append_nil, List.append_nil] at hfront
  rw [hfront] at h
  exact ⟨hfront, List.append_cancel_left h⟩

/-- A number ends behind its last digit. -/
theorem toDigits_cancel {m n : Nat} (hr : ∀ c ∈ r.head?, c.isDigit = false)
    (hr' : ∀ c ∈ r'.head?, c.isDigit = false)
    (h : Nat.toDigits 10 m ++ r = Nat.toDigits 10 n ++ r') : m = n ∧ r = r' := by
  have hall : ∀ n, ∀ c ∈ Nat.toDigits 10 n, c.isDigit = true := fun n c hc =>
    Nat.isDigit_of_mem_toDigits (by decide) (by decide) hc
  obtain ⟨hdigits, hrest⟩ := front_cancel (hall m) (hall n) hr hr' h
  refine ⟨?_, hrest⟩
  calc
    m = Nat.ofDigitChars 10 (Nat.toDigits 10 m) 0 := Nat.ofDigitChars_ten_toDigits.symm
    _ = Nat.ofDigitChars 10 (Nat.toDigits 10 n) 0 := by rw [hdigits]
    _ = n := Nat.ofDigitChars_ten_toDigits

theorem minus_ne_toDigits (n : Nat) (s : List Char) : '-' :: s ≠ Nat.toDigits 10 n ++ r := by
  obtain ⟨d, ds, hcons, hd⟩ := exists_toDigits_eq_cons n
  rw [hcons]
  intro h
  obtain rfl : '-' = d := (List.cons.inj h).1
  cases hd

/-- A number with a sign ends there as well. -/
theorem toString_cancel {m n : Int} (hr : ∀ c ∈ r.head?, c.isDigit = false)
    (hr' : ∀ c ∈ r'.head?, c.isDigit = false)
    (h : (toString m).toList ++ r = (toString n).toList ++ r') : m = n ∧ r = r' := by
  rw [toList_toString, toList_toString] at h
  by_cases hm : m < 0
  · by_cases hn : n < 0
    · rw [if_pos (decide_eq_true hm), if_pos (decide_eq_true hn)] at h
      obtain ⟨habs, hrest⟩ := toDigits_cancel hr hr' (List.cons.inj h).2
      exact ⟨by omega, hrest⟩
    · rw [if_pos (decide_eq_true hm), if_neg (by simpa using hn)] at h
      exact absurd h (minus_ne_toDigits n.natAbs _)
  · by_cases hn : n < 0
    · rw [if_neg (by simpa using hm), if_pos (decide_eq_true hn)] at h
      exact absurd h.symm (minus_ne_toDigits m.natAbs _)
    · rw [if_neg (by simpa using hm), if_neg (by simpa using hn)] at h
      obtain ⟨habs, hrest⟩ := toDigits_cancel hr hr' h
      exact ⟨by omega, hrest⟩

end Cancel

/-- A whole number is read back. -/
theorem readWord_toString {n : Int} (hn : (Data.int n).isWritable = true) {rest : List Glyph}
    (hrest : Ends rest) (read : Nat) :
    readWord ⟨(toString n).toList.map .char ++ rest, read⟩ =
      .ok (.int n, ⟨rest, read + (toString n).toList.length⟩) := by
  have hlimit : n.natAbs < Data.numberLimit := by
    simpa [Data.isWritable, Data.isWritableIn] using hn
  have hnumber := readNumber_toDigits (decide (n < 0)) hlimit hrest read
  obtain ⟨d, ds, hcons, hd⟩ := exists_toDigits_eq_cons n.natAbs
  have hwords := find?_words_of_digit hd (decide (n < 0)) (ds.map .char ++ rest)
  have hsign : (if decide (n < 0) then -(n.natAbs : Int) else n.natAbs) = n := by
    split
    · rename_i hneg
      have hneg' := of_decide_eq_true hneg
      omega
    · rename_i hpos
      have hpos' : ¬ n < 0 := fun h => hpos (decide_eq_true h)
      omega
  rw [hsign, ← toList_toString] at hnumber
  have htext : (toString n).toList.map Glyph.char ++ rest =
      (if decide (n < 0) then ['-'] else []).map .char ++ .char d :: (ds.map .char ++ rest) := by
    rw [toList_toString, hcons, List.map_append, List.append_assoc]
    rfl
  rw [← htext] at hwords
  rw [readWord, hwords]
  exact hnumber

end RuleLowering.Json
