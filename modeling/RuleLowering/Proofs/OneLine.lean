import RuleLowering.Fault
import RuleLowering.Proofs.JsonNumber
import RuleLowering.Proofs.StringLiteral
import RuleLowering.Proofs.Wording

/-!
# Data displayed on one line

Only a text that is displayed as itself can have line feeds in it. Everything else, texts inside
containers included, is displayed without any.
-/
namespace RuleLowering

def OneLine (s : String) : Prop := '\n' ∉ s.toList

instance (s : String) : Decidable (OneLine s) := inferInstanceAs (Decidable ('\n' ∉ s.toList))

namespace OneLine

@[simp] theorem append_iff {s t : String} : OneLine (s ++ t) ↔ OneLine s ∧ OneLine t := by
  simp [OneLine]

@[simp] theorem ofList_iff {cs : List Char} : OneLine (String.ofList cs) ↔ '\n' ∉ cs := by
  simp [OneLine]

@[simp] theorem ite_iff {c : Prop} [Decidable c] {s t : String} :
    OneLine (if c then s else t) ↔ if c then OneLine s else OneLine t := by
  split <;> rfl

/-- A list of strings without line feeds is displayed without any. -/
theorem joinWith {texts : List String} (h : ∀ s ∈ texts, OneLine s) :
    OneLine (Data.joinWith ", " texts) := by
  fun_induction Data.joinWith ", " texts with
  | case1 => exact List.not_mem_nil
  | case2 s => exact h s List.mem_cons_self
  | case3 s rest _ ih =>
    obtain ⟨hs, hrest⟩ := List.forall_mem_cons.mp h
    exact append_iff.mpr ⟨append_iff.mpr ⟨hs, by decide⟩, ih hrest⟩

section Numbers

open Binary64 (Layout)

theorem not_mem_toDigits (n : Nat) : '\n' ∉ Nat.toDigits 10 n := by
  intro h
  cases Nat.isDigit_of_mem_toDigits (by decide) (by decide) h

@[simp] theorem nat (n : Nat) : OneLine (Nat.repr n) := by
  rw [OneLine, Nat.toList_repr]
  exact not_mem_toDigits n

@[simp] theorem int (n : Int) : OneLine (Int.repr n) := by
  have htext := Json.toList_toString n
  rw [Int.toString_eq_repr] at htext
  rw [OneLine, htext]
  split <;> simp [not_mem_toDigits]

@[simp] theorem padLeft_iff {width : Nat} {s : String} :
    OneLine (Binary64.padLeft width s) ↔ OneLine s := by
  simp [Binary64.padLeft]

@[simp] theorem paddedTo (width n : Nat) : OneLine (RuleLowering.paddedTo width n) := by
  simp [RuleLowering.paddedTo]

/-- Digits with a point, zeros or an exponent stand on one line. -/
theorem decimal (l : Layout) (digits : Nat) (k : Int) : OneLine (l.decimal digits k) := by
  have hdigits : '\n' ∉ (toString digits).toList := by simpa using not_mem_toDigits digits
  have htake : ∀ n, '\n' ∉ (toString digits).toList.take n := fun n h =>
    hdigits (List.mem_of_mem_take h)
  have hdrop : ∀ n, '\n' ∉ (toString digits).toList.drop n := fun n h =>
    hdigits (List.mem_of_mem_drop h)
  unfold Layout.decimal
  generalize (toString digits).toList = ds at *
  dsimp only
  split
  · split <;> simp +decide [htake, hdrop 1, -List.drop_one]
  · split
    · simp +decide [hdigits]
    · split
      · simp +decide [hdigits]
      · simp +decide [htake, hdrop]

@[simp] theorem float (x : Binary64) : OneLine (Data.numberLayout.write x) := by
  unfold Layout.write
  split <;> simp +decide [decimal]

end Numbers

section Times

@[simp] theorem day (d : Day) : OneLine d.text := by
  simp +decide [Day.text]

theorem offsetText (seconds : Int) : OneLine (Moment.offsetText seconds) := by
  simp +decide [Moment.offsetText]

@[simp] theorem moment (m : Moment) : OneLine m.text := by
  have hoffset : OneLine ((m.offset.map Moment.offsetText).getD "") := by
    cases m.offset with
    | none => decide
    | some seconds => exact offsetText seconds
  simp +decide [Moment.text, hoffset]

theorem distanceText (seconds : Int) : OneLine (Data.distanceText seconds) := by
  have hparts : ∀ s ∈ (if seconds.fdiv 86400 = 0 then []
        else ["days=" ++ toString (seconds.fdiv 86400)])
      ++ (if seconds.fmod 86400 = 0 then []
        else ["seconds=" ++ toString (seconds.fmod 86400)]), OneLine s := by
    intro s hs
    rcases List.mem_append.mp hs with hs | hs <;> split at hs <;> simp at hs <;> subst hs <;>
      simp +decide
  unfold Data.distanceText
  dsimp only
  generalize ((if seconds.fdiv 86400 = 0 then [] else ["days=" ++ toString (seconds.fdiv 86400)])
    ++ if seconds.fmod 86400 = 0 then []
      else ["seconds=" ++ toString (seconds.fmod 86400)]) = parts at *
  simp +decide [joinWith hparts]

end Times

section Characters

open Text (hex hexDigit showChar codeOf quoteFor)

theorem not_mem_hex (width n : Nat) : '\n' ∉ hex width n := by
  intro h
  obtain ⟨d, hd, heq⟩ := Source.mem_hex h
  have hdigits : ∀ d < 16, '\n' ≠ hexDigit d := by decide
  exact hdigits d hd heq

theorem not_mem_codeOf (n : Nat) : '\n' ∉ codeOf n := by
  unfold codeOf
  split
  · simp [not_mem_hex]
  · split <;> simp [not_mem_hex]

theorem quoteFor_ne (s : List Char) : '\n' ≠ quoteFor s := by
  unfold quoteFor
  split <;> decide

/-- A line feed is shown by its letter. -/
theorem not_mem_showChar {quote : Char} (hquote : '\n' ≠ quote) (c : Char) :
    '\n' ∉ showChar quote c := by
  unfold showChar
  split
  · rename_i h
    rcases h with rfl | rfl <;> simp [hquote]
  · split
    · decide
    · rename_i hc
      split
      · decide
      · split
        · decide
        · split
          · simpa using Ne.symm hc
          · exact not_mem_codeOf _

theorem not_mem_write {char : Char → List Char} {half : Half → List Char}
    (hchar : ∀ c, '\n' ∉ char c) (hhalf : ∀ h, '\n' ∉ half h) (t : Text) :
    '\n' ∉ t.write char half := by
  induction t with
  | plain s => simp [Text.write, hchar]
  | broken front h rest ih => simp [Text.write, hchar, hhalf, ih]

@[simp] theorem shown (t : Text) : OneLine (Text.shown t) := by
  have hquote := quoteFor_ne (t.glyphs.filterMap Glyph.char?)
  have hwrite := not_mem_write (not_mem_showChar hquote) (fun h => not_mem_codeOf h.unit) t
  unfold Text.shown
  dsimp only
  rw [ofList_iff]
  simp [hquote, hwrite]

theorem not_mem_byteText {quote : Char} (hquote : '\n' ≠ quote) (b : UInt8) :
    '\n' ∉ Data.byteText quote b := by
  unfold Data.byteText
  dsimp only
  generalize Char.ofNat b.toNat = c
  split
  · rename_i h
    rcases h with rfl | rfl <;> simp [hquote]
  · split
    · decide
    · rename_i hc
      split
      · decide
      · split
        · decide
        · split
          · simpa using Ne.symm hc
          · simp [not_mem_hex]

theorem bytesText (content : List UInt8) : OneLine (Data.bytesText content) := by
  have hquote := quoteFor_ne (content.map fun b => Char.ofNat b.toNat)
  unfold Data.bytesText
  dsimp only
  rw [ofList_iff]
  simp [hquote, not_mem_byteText hquote]

end Characters

section Values

/-- Numbers and further texts between parentheses, as the fields of a date. -/
theorem fields {head : String} (hhead : OneLine head) (ns : List Nat) {tail : List String}
    (htail : ∀ s ∈ tail, OneLine s) :
    OneLine (head ++ Data.joinWith ", " (ns.map toString ++ tail) ++ ")") := by
  have hall : ∀ s ∈ ns.map toString ++ tail, OneLine s := by
    intro s hs
    rcases List.mem_append.mp hs with hs | hs
    · obtain ⟨n, -, rfl⟩ := List.mem_map.mp hs
      exact nat n
    · exact htail s hs
  exact append_iff.mpr
    ⟨append_iff.mpr ⟨hhead, joinWith hall⟩, by decide⟩

theorem specialInner (x : Special) : OneLine (Data.specialInner x) := by
  cases x with
  | day d =>
    have hhead : OneLine "datetime.date(" := by decide
    have h := fields hhead [d.year, d.month, d.day] (List.forall_mem_nil OneLine)
    rwa [List.append_nil] at h
  | moment m =>
    refine fields (by decide) _ fun s hs => ?_
    split at hs
    · cases hs
    · cases List.mem_singleton.mp hs
      decide
    · cases List.mem_singleton.mp hs
      exact append_iff.mpr ⟨append_iff.mpr ⟨by decide, distanceText _⟩, by decide⟩
  | bytes content => exact bytesText content

mutual
/-- A value inside a container stands on one line. -/
theorem innerIn (around : List Place) : ∀ d : Data, OneLine (d.innerIn around)
  | .null => by simp +decide [Data.innerIn]
  | .bool b => by cases b <;> simp +decide [Data.innerIn]
  | .int n => int n
  | .float x => float x
  | .str t => shown t
  | .special _ x => specialInner x
  | .list place items => by
    have h := joinWith (innerItems (place :: around) items)
    simp +decide [Data.innerIn, h]
  | .group .pair place items => by
    have h := joinWith (innerItems (place :: around) items)
    simp +decide [Data.innerIn, h]
  | .group .set place items => by
    have h := joinWith (innerItems (place :: around) items)
    simp +decide [Data.innerIn, h]
  | .map place entries => by
    have h := joinWith (innerEntries (place :: around) entries)
    simp +decide [Data.innerIn, h]

theorem innerItems (around : List Place) :
    ∀ items : List Data, ∀ s ∈ Data.innerItems around items, OneLine s
  | [] => by simp [Data.innerItems]
  | x :: xs => List.forall_mem_cons.mpr ⟨innerIn around x, innerItems around xs⟩

theorem innerEntries (around : List Place) :
    ∀ entries : List (Data × Data), ∀ s ∈ Data.innerEntries around entries, OneLine s
  | [] => by simp [Data.innerEntries]
  | (k, v) :: es => by
    have hk := innerIn around k
    have hv := innerIn around v
    refine List.forall_mem_cons.mpr ⟨?_, innerEntries around es⟩
    simp +decide [hk, hv]
end

end Values

end OneLine

/-- Only a text is displayed with line feeds: its own ones. -/
theorem Data.display_of_not_text {d : Data} (h : ∀ t, d ≠ .str t) :
    ∃ s, d.display = .plain s ∧ OneLine s := by
  cases d with
  | str t => exact absurd rfl (h t)
  | special place x =>
    cases x with
    | day d => exact ⟨_, rfl, OneLine.day d⟩
    | moment m => exact ⟨_, rfl, OneLine.moment m⟩
    | bytes content => exact ⟨_, rfl, OneLine.innerIn [] _⟩
  | _ => exact ⟨_, rfl, OneLine.innerIn [] _⟩

end RuleLowering
