import RuleLowering.Proofs.JsonText
import RuleLowering.Source.Token

/-!
# Printed strings as literals

A string is printed as its JSON text. Read as a literal of the printed language it comes back where
it is made of printable ASCII and the five control characters that have a letter in both languages.
Every other character is printed as `u` behind a backslash with four digits, and to that language an
escaped `u` is just the letter, so such a character turns into the letter and its digits.
-/
namespace RuleLowering.Source

open Text (controlLetter? escapeChar escapeUnit hex hexDigit units)

section Literals

/-- The characters that a letter behind a backslash gives, where that is not the letter itself. -/
def controlOf? : Char → Option Char
  | 'b' => some '\x08'
  | 'd' => some '\x7f'
  | 'e' => some '\x1b'
  | 'f' => some '\x0c'
  | 'n' => some '\n'
  | 'r' => some '\r'
  | 's' => some ' '
  | 't' => some '\t'
  | 'v' => some '\x0b'
  | _ => none

def isOctal (c : Char) : Bool := '0' ≤ c && c ≤ '7'

def numberIn (base : Nat) (digits : List Nat) : Nat := digits.foldl (fun n d => n * base + d) 0

/-- A character by hexadecimal digits, two of them or any number in braces, and the number of
characters that give it. -/
def hexEscape? : List Char → Option (Char × Nat)
  | '\x7b' :: rest =>
    let digits := rest.takeWhile fun c => (Json.hexValue? c).isSome
    let code := numberIn 16 (digits.filterMap Json.hexValue?)
    if digits ≠ [] ∧ rest[digits.length]? = some '\x7d' ∧ code.isValidChar then
      some (Char.ofNat code, digits.length + 2)
    else none
  | a :: b :: _ =>
    match Json.hexValue? a, Json.hexValue? b with
    | some m, some n => some (Char.ofNat (numberIn 16 [m, n]), 2)
    | _, _ => none
  | _ => none

/-- The character that an escape gives, and the number of characters it takes behind the
backslash. -/
def escape? : List Char → Option (Char × Nat)
  | [] => none
  | c :: rest =>
    if c = 'x' then (hexEscape? rest).map fun e => (e.1, e.2 + 1)
    else if isOctal c then
      let digits := ((c :: rest).take 3).takeWhile isOctal
      some (Char.ofNat (numberIn 8 (digits.map (·.toNat - '0'.toNat))), digits.length)
    else some ((controlOf? c).getD c, 1)

/-- Reads up to the closing quote. `pending` is the number of characters that belong to an escape
already read. -/
def readLiteral (pending : Nat) : List Char → Option (List Char × List Char)
  | [] => none
  | c :: rest =>
    match pending with
    | n + 1 => readLiteral n rest
    | 0 =>
      if c = '\x22' then some ([], rest)
      else if c = '\x5c' then
        match escape? rest with
        | some (d, n) => (readLiteral n rest).map fun r => (d :: r.1, r.2)
        | none => none
      else (readLiteral 0 rest).map fun r => (c :: r.1, r.2)

/-- The string that a text is a literal of. -/
def literal? : List Char → Option (List Char)
  | '\x22' :: rest =>
    match readLiteral 0 rest with
    | some (value, []) => some value
    | _ => none
  | _ => none

end Literals

/-- A character that is printable in ASCII or has a letter in both languages. -/
def isShared (c : Char) : Bool :=
  ' ' ≤ c && c ≤ '~' || ['\n', '\r', '\t', '\x08', '\x0c'].contains c

def denoted (c : Char) : List Char :=
  if isShared c then [c] else (units c).flatMap fun u => 'u' :: hex 4 u

section Reading

theorem isSome_controlLetter? (c : Char) :
    (controlLetter? c).isSome = ['\n', '\r', '\t', '\x08', '\x0c'].contains c := by
  grind [controlLetter?]

/-- Characters that are neither quotes nor backslashes are read as they stand. -/
theorem readLiteral_append {s : List Char} (hs : ∀ c ∈ s, c ≠ '\x22' ∧ c ≠ '\x5c')
    (rest : List Char) :
    readLiteral 0 (s ++ rest) = (readLiteral 0 rest).map fun r => (s ++ r.1, r.2) := by
  induction s with
  | nil => simp
  | cons c s ih =>
    obtain ⟨⟨hquote, hbackslash⟩, hrest⟩ := List.forall_mem_cons.mp hs
    rw [List.cons_append, readLiteral, if_neg hquote, if_neg hbackslash, ih hrest, Option.map_map]
    rfl

/-- An escape of one letter. -/
theorem readLiteral_letter {letter c : Char} {rest : List Char}
    (h : escape? (letter :: rest) = some (c, 1)) :
    readLiteral 0 ('\x5c' :: letter :: rest) =
      (readLiteral 0 rest).map fun r => (c :: r.1, r.2) := by
  rw [readLiteral, if_neg (by decide), if_pos rfl, h]
  rfl

theorem mem_hex {width n : Nat} {c : Char} (h : c ∈ hex width n) : ∃ d < 16, c = hexDigit d := by
  induction width generalizing n with
  | zero => cases h
  | succ width ih =>
    rcases List.mem_append.mp h with h | h
    · exact ih h
    · exact ⟨n % 16, Nat.mod_lt n (by decide), List.mem_singleton.mp h⟩

/-- The escape of a unit is read as its letter and digits. -/
theorem readLiteral_escapeUnit (u : Nat) (rest : List Char) :
    readLiteral 0 (escapeUnit u ++ rest) =
      (readLiteral 0 rest).map fun r => ('u' :: hex 4 u ++ r.1, r.2) := by
  have hdigits : ∀ d < 16, hexDigit d ≠ '\x22' ∧ hexDigit d ≠ '\x5c' := by decide
  have hhex : ∀ c ∈ hex 4 u, c ≠ '\x22' ∧ c ≠ '\x5c' := by
    intro c hc
    obtain ⟨d, hd, rfl⟩ := mem_hex hc
    exact hdigits d hd
  rw [escapeUnit, List.cons_append, List.cons_append, readLiteral_letter rfl,
    readLiteral_append hhex, Option.map_map]
  rfl

theorem readLiteral_units (us : List Nat) (rest : List Char) :
    readLiteral 0 (us.flatMap escapeUnit ++ rest) =
      (readLiteral 0 rest).map fun r => ((us.flatMap fun u => 'u' :: hex 4 u) ++ r.1, r.2) := by
  induction us with
  | nil => simp
  | cons u us ih =>
    rw [List.flatMap_cons, List.append_assoc, readLiteral_escapeUnit, ih, Option.map_map]
    simp [Function.comp_def]

/-- A printed character is read as what it denotes. -/
theorem readLiteral_escapeChar (c : Char) (rest : List Char) :
    readLiteral 0 (escapeChar c ++ rest) =
      (readLiteral 0 rest).map fun r => (denoted c ++ r.1, r.2) := by
  have hletter := isSome_controlLetter? c
  rw [escapeChar]
  split
  · rename_i hquoted
    rcases hquoted with rfl | rfl
    · exact readLiteral_letter rfl
    · exact readLiteral_letter rfl
  · rename_i hquoted
    split
    · rename_i hprintable
      have hshared : isShared c = true := by simp [isShared, hprintable.1, hprintable.2]
      rw [readLiteral_append (by simpa using not_or.mp hquoted), denoted, if_pos hshared]
    · rename_i hprintable
      have hprintable' : (decide (' ' ≤ c) && decide (c ≤ '~')) = false := by
        simpa using hprintable
      split
      · rename_i letter hcontrol
        have hshared : isShared c = true := by
          rw [isShared, ← hletter, hcontrol, Option.isSome_some, Bool.or_true]
        rw [denoted, if_pos hshared]
        rcases Text.controlLetter?_cases hcontrol with
          ⟨rfl, rfl⟩ | ⟨rfl, rfl⟩ | ⟨rfl, rfl⟩ | ⟨rfl, rfl⟩ | ⟨rfl, rfl⟩ <;>
          exact readLiteral_letter rfl
      · rename_i hcontrol
        have hshared : isShared c = false := by
          rw [isShared, ← hletter, hcontrol, hprintable']
          rfl
        rw [denoted, hshared]
        exact readLiteral_units (units c) rest

/-- The text of a string is read up to its closing quote. -/
theorem readLiteral_escape (s rest : List Char) :
    readLiteral 0 (Text.escape s ++ '\x22' :: rest) = some (s.flatMap denoted, rest) := by
  induction s with
  | nil => rfl
  | cons c s ih =>
    rw [Text.escape_cons, List.append_assoc, readLiteral_escapeChar, ih]
    rfl

end Reading

section Denoted

/-- A character that is not shared turns into five at least. -/
theorem length_denoted (c : Char) : 1 ≤ (denoted c).length
    ∧ ((denoted c).length = 1 → isShared c = true) := by
  rw [denoted]
  split
  · rename_i h
    exact ⟨by simp, fun _ => h⟩
  · have hlength : 5 ≤ ((units c).flatMap fun u => 'u' :: hex 4 u).length := by
      rw [units]
      split <;> simp
    exact ⟨by omega, fun h => by omega⟩

theorem length_le_flatMap_denoted (s : List Char) : s.length ≤ (s.flatMap denoted).length := by
  induction s with
  | nil => simp
  | cons c s ih =>
    have hc := (length_denoted c).1
    rw [List.flatMap_cons, List.length_append, List.length_cons]
    omega

/-- Only strings of shared characters denote themselves. -/
theorem flatMap_denoted_eq_self_iff (s : List Char) :
    s.flatMap denoted = s ↔ ∀ c ∈ s, isShared c = true := by
  induction s with
  | nil => simp
  | cons c s ih =>
    rw [List.flatMap_cons, List.forall_mem_cons, ← ih]
    constructor
    · intro h
      have hlength := congrArg List.length h
      rw [List.length_append, List.length_cons] at hlength
      have hrest := length_le_flatMap_denoted s
      have hfirst := length_denoted c
      have hshared : isShared c = true := hfirst.2 (by omega)
      rw [denoted, if_pos hshared] at h
      exact ⟨hshared, (List.cons.inj h).2⟩
    · rintro ⟨hshared, hrest⟩
      rw [denoted, if_pos hshared, hrest]
      rfl

end Denoted

/-- Read as a literal the text of a string gives each shared character as it is and for each other
one the letter `u` and the digits of its units. So it gives the string exactly if all characters of
the string are printable ASCII, line feeds, carriage returns, tabs, backspaces or form feeds. -/
theorem literal?_printed_iff (s : String) :
    string (.str s) = .ok (Text.escaped s)
      ∧ literal? (Text.escaped s).toList = some (s.toList.flatMap denoted)
      ∧ (literal? (Text.escaped s).toList = some s.toList ↔
        ∀ c ∈ s.toList, isShared c = true) := by
  have hread : literal? (Text.escaped s).toList = some (s.toList.flatMap denoted) := by
    have hquotes : (Text.escaped s).toList = '\x22' :: (Text.escape s.toList ++ ['\x22']) := by
      simp
    simp only [hquotes, literal?, readLiteral_escape]
  refine ⟨rfl, hread, ?_⟩
  rw [hread, Option.some_inj, flatMap_denoted_eq_self_iff]

/-- A letter with an accent is printed by its code and read as five characters. -/
theorem accent_misread :
    string (.str "caf\u00e9") = .ok "\"caf\\u00e9\""
      ∧ literal? "\"caf\\u00e9\"".toList = some "cafu00e9".toList
      ∧ literal? "\"caf\\u00e9\"".toList ≠ some "caf\u00e9".toList := by
  exact ⟨rfl, by decide, by decide⟩

end RuleLowering.Source
