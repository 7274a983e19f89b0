import RuleLowering.Proofs.AtomToken
import RuleLowering.Proofs.JsonNumber

/-!
# Printed terms told apart

Where one of the closing marks stands behind a printed item, the text determines both the item and
the place where it ends: a name in quotes or without, a string, a number, and from them rows of
items and whole values. So two values with the same text are equal, whatever characters their
strings hold, but for the places where their containers were read.
-/
namespace RuleLowering

open RuleLowering.Expr (comma)

namespace Data

/-- Null, truth values, whole numbers, strings, lists, and mappings from strings, nested in any
way. -/
inductive Ordinary : Data → Prop
  | null : Ordinary .null
  | bool (b : Bool) : Ordinary (.bool b)
  | int (n : Int) : Ordinary (.int n)
  | str (s : String) : Ordinary (.str s)
  | list (place : Place) {items : List Data} : (∀ d ∈ items, Ordinary d) →
    Ordinary (.list place items)
  | map (place : Place) {entries : List (Data × Data)} :
    (∀ e ∈ entries, ∃ s : String, e.1 = .str s) → (∀ e ∈ entries, Ordinary e.2) →
    Ordinary (.map place entries)

mutual
/-- The data itself, wherever its containers were read. -/
def placeless : Data → Data
  | .list _ items => .list .fresh (placelessItems items)
  | .group how _ items => .group how .fresh (placelessItems items)
  | .map _ entries => .map .fresh (placelessEntries entries)
  | .special _ x => .special .fresh x
  | d => d
termination_by structural d => d

def placelessItems : List Data → List Data
  | [] => []
  | x :: xs => placeless x :: placelessItems xs
termination_by structural xs => xs

def placelessEntries : List (Data × Data) → List (Data × Data)
  | [] => []
  | (k, v) :: es => (placeless k, placeless v) :: placelessEntries es
termination_by structural es => es
end

theorem placelessItems_eq_map (items : List Data) : placelessItems items = items.map placeless := by
  induction items with
  | nil => rfl
  | cons x items ih => rw [placelessItems, ih, List.map_cons]

theorem placelessEntries_eq_map (entries : List (Data × Data)) :
    placelessEntries entries = entries.map fun e => (e.1.placeless, e.2.placeless) := by
  induction entries with
  | nil => rfl
  | cons e entries ih => rw [placelessEntries, ih, List.map_cons]

/-- Strings between commas, character by character. -/
theorem toList_joinWith (texts : List String) :
    (joinWith ", " texts).toList = comma.intercalate (texts.map String.toList) := by
  induction texts with
  | nil => rfl
  | cons text texts ih =>
    cases texts with
    | nil => simp [joinWith]
    | cons next texts =>
      rw [toList_joinWith_cons, ih, List.map_cons, List.map_cons, List.map_cons,
        List.intercalate_cons_cons]
      simp [comma]

end Data

namespace Source

/-- The marks that stand behind a printed item. None of them can go on with a name or a number. -/
def marks : List Char := ['(', ')', ']', '\x7d', ',', '/']

def Marked (r : List Char) : Prop := ∃ c rest, r = c :: rest ∧ c ∈ marks

theorem marked_cons {c : Char} (hc : c ∈ marks) (rest : List Char) : Marked (c :: rest) :=
  ⟨c, rest, rfl, hc⟩

/-- Characters of a kind that no mark is of do not go on with what stands there. -/
theorem Marked.fails {p : Char → Bool} (hp : marks.any p = false) {r : List Char} (hr : Marked r) :
    ∀ c ∈ r.head?, p c = false := by
  obtain ⟨mark, rest, rfl, hmark⟩ := hr
  intro c hc
  obtain rfl : mark = c := Option.some.inj hc
  exact Bool.eq_false_iff.mpr (List.any_eq_false.mp hp mark hmark)

def isNumeral (c : Char) : Bool := c.isDigit || c == '-'

theorem isNumeral_of_mem {n : Int} : ∀ c ∈ (toString n).toList, isNumeral c = true := by
  intro c hc
  rw [Json.toList_toString, List.mem_append] at hc
  rcases hc with hsign | hdigit
  · split at hsign
    · rw [List.mem_singleton.mp hsign]
      rfl
    · cases hsign
  · rw [isNumeral, Nat.isDigit_of_mem_toDigits (by decide) (by decide) hdigit, Bool.true_or]

/-- The characters of names that are printed without quotes. -/
def isBareChar (c : Char) : Bool := isAtomChar c || c == '\n'

theorem isBareChar_of_isBare {s : List Char} (h : isBare s = true) :
    ∀ c ∈ s, isBareChar c = true := by
  have hname : ∀ c ∈ chopLine s, isBareChar c = true := by
    intro c hc
    rw [isBareChar, (isBare_iff.mp h).all c hc, Bool.true_or]
  rcases chopLine_cases s with hs | hs
  · rwa [← hs] at hname
  · rw [hs]
    exact List.forall_mem_append.mpr ⟨hname, List.forall_mem_singleton.mpr rfl⟩

theorem exists_cons_of_isBare {s : List Char} (h : isBare s = true) :
    ∃ c rest, s = c :: rest ∧ isLower c = true := by
  obtain ⟨c, rest, hname, hc⟩ := (isBare_iff.mp h).first
  rcases chopLine_cases s with hs | hs
  · exact ⟨c, rest, hs.trans hname, hc⟩
  · exact ⟨c, rest ++ ['\n'], by rw [hs, hname, List.cons_append], hc⟩

section Words

variable {r r' : List Char}

/-- A string ends at its closing quote. -/
theorem string_cancel {s t : String}
    (h : (Text.escaped s).toList ++ r = (Text.escaped t).toList ++ r') : s = t ∧ r = r' := by
  have hread : ∀ (s : String) (r : List Char), ∃ after,
      Json.readText 0 [] 0 0 (((Text.escaped s).toList ++ r).map Glyph.char).tail =
        .ok (.plain s, ⟨r.map .char, after⟩) := by
    intro s r
    obtain ⟨after, hafter⟩ := Json.readText_escape_quote 0 0 [] s.toList (r.map .char)
    refine ⟨after, ?_⟩
    simpa [Text.ofGlyphs_map_char] using hafter
  obtain ⟨after, hs⟩ := hread s r
  obtain ⟨after', ht⟩ := hread t r'
  rw [h, ht] at hs
  obtain ⟨hname, hrest⟩ := Prod.mk.inj (Except.ok.inj hs)
  exact ⟨(Text.plain.inj hname).symm,
    (Text.map_char_injective (congrArg Json.Input.rest hrest)).symm⟩

/-- A number ends behind its last digit. -/
theorem int_cancel {m n : Int} (hr : Marked r) (hr' : Marked r')
    (h : (toString m).toList ++ r = (toString n).toList ++ r') : m = n ∧ r = r' :=
  Json.toString_cancel (hr.fails rfl) (hr'.fails rfl) h

/-- A quoted name ends at its closing quote. -/
theorem quoted_cancel {s t : List Char}
    (h : s.flatMap quoteChar ++ '\x27' :: r = t.flatMap quoteChar ++ '\x27' :: r') :
    s = t ∧ r = r' := by
  have hread : ∀ s r : List Char,
      readQuoted false ((s.flatMap quoteChar ++ '\x27' :: r).map .char) =
        some (s.map .char, r.map .char) := by
    intro s r
    rw [List.map_append, map_char_flatMap_quoteChar]
    exact readQuoted_flatMap (s.map .char) (r.map .char)
  have hpair := hread s r
  rw [h, hread t r'] at hpair
  obtain ⟨hname, hrest⟩ := Prod.mk.inj (Option.some.inj hpair)
  exact ⟨(Text.map_char_injective hname).symm, (Text.map_char_injective hrest).symm⟩

/-- No name without quotes begins with one. -/
theorem bare_ne_quoted {s t : List Char} (hs : isBare s = true) : s ++ r ≠ '\x27' :: t := by
  obtain ⟨c, rest, rfl, hc⟩ := exists_cons_of_isBare hs
  intro h
  obtain rfl : c = '\x27' := (List.cons.inj h).1
  cases hc

theorem atomChars_of_not_isBare {s : List Char} (h : isBare s = false) (r : List Char) :
    atomChars s ++ r = '\x27' :: (s.flatMap quoteChar ++ '\x27' :: r) := by
  simp [atomChars, h]

/-- A printed name begins with a letter or a quote. -/
theorem exists_cons_atomChars (s : List Char) :
    ∃ c rest, atomChars s = c :: rest ∧ c ∉ marks := by
  cases hs : isBare s with
  | true =>
    obtain ⟨c, rest, hcons, hc⟩ := exists_cons_of_isBare hs
    have hmarks : marks.any isLower = false := rfl
    have hschars : atomChars s = s := if_pos hs
    rw [hschars]
    exact ⟨c, rest, hcons, fun hmark => List.any_eq_false.mp hmarks c hmark hc⟩
  | false =>
    have hschars := atomChars_of_not_isBare hs []
    rw [List.append_nil] at hschars
    exact ⟨_, _, hschars, by decide⟩

/-- A name ends at its closing quote, or before the mark behind it. -/
theorem atom_cancel {s t : List Char} (hr : Marked r) (hr' : Marked r')
    (h : atomChars s ++ r = atomChars t ++ r') : s = t ∧ r = r' := by
  cases hs : isBare s with
  | true =>
    have hschars : atomChars s = s := if_pos hs
    rw [hschars] at h
    cases ht : isBare t with
    | true =>
      have htchars : atomChars t = t := if_pos ht
      rw [htchars] at h
      exact Json.front_cancel (p := isBareChar) (isBareChar_of_isBare hs)
        (isBareChar_of_isBare ht) (hr.fails rfl) (hr'.fails rfl) h
    | false =>
      rw [atomChars_of_not_isBare ht] at h
      exact absurd h (bare_ne_quoted hs)
  | false =>
    rw [atomChars_of_not_isBare hs] at h
    cases ht : isBare t with
    | true =>
      have htchars : atomChars t = t := if_pos ht
      rw [htchars] at h
      exact absurd h.symm (bare_ne_quoted ht)
    | false =>
      rw [atomChars_of_not_isBare ht] at h
      exact quoted_cancel (List.cons.inj h).2

end Words

section Rows

variable {α β : Type} (key : α → β) {write : α → List Char} {close : Char} {r r' : List Char}

theorem intercalate_cons (x : List Char) (xs : List (List Char)) :
    comma.intercalate (x :: xs) = x ++ xs.flatMap (comma ++ ·) := by
  induction xs generalizing x with
  | nil => simp
  | cons y xs ih =>
    rw [List.intercalate_cons_cons, ih, List.flatMap_cons, List.append_assoc, List.append_assoc]

def laterItems (write : α → List Char) (xs : List α) : List Char :=
  (xs.map write).flatMap (comma ++ ·)

theorem laterItems_cons (x : α) (xs : List α) (r : List Char) :
    laterItems write (x :: xs) ++ r = ',' :: ' ' :: (write x ++ (laterItems write xs ++ r)) := by
  simp [laterItems, comma]

theorem marked_laterItems (hclose : close ∈ marks) (xs : List α) (r : List Char) :
    Marked (laterItems write xs ++ close :: r) := by
  cases xs with
  | nil => exact marked_cons hclose r
  | cons x xs =>
    rw [laterItems_cons]
    exact marked_cons (by decide) _

/-- Of an item what `key` keeps can be told from what is written, and where the item ends. -/
def Cancels (key : α → β) (write : α → List Char) (x y : α) : Prop :=
  ∀ ⦃r r' : List Char⦄, Marked r → Marked r' → write x ++ r = write y ++ r' → key x = key y ∧ r = r'

theorem laterItems_cancel (hclose : close ∈ marks) (hcomma : close ≠ ',') {xs ys : List α}
    (hitems : ∀ x ∈ xs, ∀ y ∈ ys, Cancels key write x y)
    (h : laterItems write xs ++ close :: r = laterItems write ys ++ close :: r') :
    xs.map key = ys.map key ∧ r = r' := by
  induction xs generalizing ys with
  | nil =>
    cases ys with
    | nil => exact ⟨rfl, (List.cons.inj h).2⟩
    | cons y ys =>
      rw [laterItems_cons] at h
      exact absurd (List.cons.inj h).1 hcomma
  | cons x xs ih =>
    cases ys with
    | nil =>
      rw [laterItems_cons] at h
      exact absurd (List.cons.inj h).1.symm hcomma
    | cons y ys =>
      rw [laterItems_cons, laterItems_cons] at h
      obtain ⟨hkey, hrest⟩ := hitems x List.mem_cons_self y List.mem_cons_self
        (marked_laterItems hclose xs r) (marked_laterItems hclose ys r')
        (List.cons.inj (List.cons.inj h).2).2
      obtain ⟨hkeys, hend⟩ := ih (fun a ha b hb => hitems a (.tail x ha) b (.tail y hb)) hrest
      exact ⟨congrArg₂ List.cons hkey hkeys, hend⟩

/-- A row ends at its closing bracket, with as many items as were written, each of them told by its
text. -/
theorem row_cancel (hclose : close ∈ marks) (hcomma : close ≠ ',') {xs ys : List α}
    (hfirst : ∀ x, x ∈ xs ∨ x ∈ ys → ∃ c rest, write x = c :: rest ∧ c ≠ close)
    (hitems : ∀ x ∈ xs, ∀ y ∈ ys, Cancels key write x y)
    (h : comma.intercalate (xs.map write) ++ close :: r =
      comma.intercalate (ys.map write) ++ close :: r') :
    xs.map key = ys.map key ∧ r = r' := by
  have hopen : ∀ x, x ∈ xs ∨ x ∈ ys → ∀ s s' : List Char, write x ++ s ≠ close :: s' := by
    intro x hx s s' heq
    obtain ⟨c, rest, hwrite, hc⟩ := hfirst x hx
    rw [hwrite] at heq
    exact hc (List.cons.inj heq).1
  have hrow : ∀ (x : α) (xs : List α) (r : List Char),
      comma.intercalate ((x :: xs).map write) ++ r = write x ++ (laterItems write xs ++ r) := by
    intro x xs r
    rw [List.map_cons, intercalate_cons, List.append_assoc]
    rfl
  cases xs with
  | nil =>
    cases ys with
    | nil => exact ⟨rfl, (List.cons.inj h).2⟩
    | cons y ys =>
      rw [hrow] at h
      exact absurd h.symm (hopen y (.inr List.mem_cons_self) _ _)
  | cons x xs =>
    cases ys with
    | nil =>
      rw [hrow] at h
      exact absurd h (hopen x (.inl List.mem_cons_self) _ _)
    | cons y ys =>
      rw [hrow, hrow] at h
      obtain ⟨hkey, hrest⟩ := hitems x List.mem_cons_self y List.mem_cons_self
        (marked_laterItems hclose xs r) (marked_laterItems hclose ys r') h
      obtain ⟨hkeys, hend⟩ := laterItems_cancel key hclose hcomma
        (fun a ha b hb => hitems a (.tail x ha) b (.tail y hb)) hrest
      exact ⟨congrArg₂ List.cons hkey hkeys, hend⟩

end Rows

section Terms

open Data (Ordinary placeless)

def entryChars (e : Data × Data) : List Char :=
  (term e.1).toList ++ (" => ".toList ++ (term e.2).toList)

theorem termItems_eq_map (items : List Data) : termItems items = items.map term := by
  induction items with
  | nil => rfl
  | cons x items ih => rw [termItems, ih, List.map_cons]

theorem termEntries_eq_map (entries : List (Data × Data)) :
    termEntries entries = entries.map fun e => term e.1 ++ " => " ++ term e.2 := by
  induction entries with
  | nil => rfl
  | cons e entries ih => rw [termEntries, ih, List.map_cons]

theorem toList_term_list (place : Place) (items : List Data) :
    (term (.list place items)).toList =
      '[' :: (comma.intercalate (items.map fun d => (term d).toList) ++ [']']) := by
  rw [term, termItems_eq_map, String.toList_append, String.toList_append, Data.toList_joinWith,
    List.map_map]
  rfl

theorem toList_term_map (place : Place) (entries : List (Data × Data)) :
    (term (.map place entries)).toList =
      '#' :: '\x7b' :: (comma.intercalate (entries.map entryChars) ++ ['\x7d']) := by
  have hentries : (entries.map fun e => term e.1 ++ " => " ++ term e.2).map String.toList =
      entries.map entryChars := by
    rw [List.map_map]
    refine List.map_congr_left fun e _ => ?_
    simp [entryChars]
  rw [term, termEntries_eq_map, String.toList_append, String.toList_append, Data.toList_joinWith,
    hentries]
  rfl

def leadKind (c : Char) : String :=
  if isNumeral c then "int"
  else if c = 'u' then "NoneType"
  else if c = 't' ∨ c = 'f' then "bool"
  else if c = '\x22' then "str"
  else if c = '[' then "list"
  else "dict"

/-- A printed value begins with a character of its own kind. -/
theorem exists_lead {d : Data} (hd : d.Ordinary) :
    ∃ c rest, (term d).toList = c :: rest ∧ leadKind c = d.kindName ∧ c ∉ marks := by
  cases hd with
  | null => exact ⟨'u', _, rfl, rfl, by decide⟩
  | bool b =>
    cases b with
    | true => exact ⟨'t', _, rfl, rfl, by decide⟩
    | false => exact ⟨'f', _, rfl, rfl, by decide⟩
  | int n =>
    have hne : (toString n).toList ≠ [] := by
      obtain ⟨d, ds, hdigits, -⟩ := Json.exists_toDigits_eq_cons n.natAbs
      rw [Json.toList_toString, hdigits]
      simp
    obtain ⟨c, rest, htext⟩ := List.exists_cons_of_ne_nil hne
    have hc : isNumeral c = true := isNumeral_of_mem c (htext ▸ List.mem_cons_self)
    have hmarks : marks.any isNumeral = false := rfl
    exact ⟨c, rest, htext, if_pos hc, fun hmark => List.any_eq_false.mp hmarks c hmark hc⟩
  | str s => exact ⟨'\x22', Text.escape s.toList ++ ['\x22'], by simp [term], rfl, by decide⟩
  | list place => exact ⟨'[', _, toList_term_list place _, rfl, by decide⟩
  | map place => exact ⟨'#', _, toList_term_map place _, rfl, by decide⟩

variable {d e : Data} {r r' : List Char}

theorem kindName_eq_of_term (hd : d.Ordinary) (he : e.Ordinary)
    (h : (term d).toList ++ r = (term e).toList ++ r') : d.kindName = e.kindName := by
  obtain ⟨c, rest, hdtext, hdkind, -⟩ := exists_lead hd
  obtain ⟨c', rest', hetext, hekind, -⟩ := exists_lead he
  rw [hdtext, hetext] at h
  rw [← hdkind, ← hekind, (List.cons.inj h).1]

theorem first_ne_mark (hd : d.Ordinary) {close : Char} (hclose : close ∈ marks) :
    ∃ c rest, (term d).toList = c :: rest ∧ c ≠ close := by
  obtain ⟨c, rest, htext, -, hc⟩ := exists_lead hd
  exact ⟨c, rest, htext, fun heq => hc (heq ▸ hclose)⟩

theorem toList_term_str (s : String) : (term (.str s)).toList = (Text.escaped s).toList := rfl

theorem entry_first {e : Data × Data} (he : ∃ s : String, e.1 = .str s) :
    ∃ c rest, entryChars e = c :: rest ∧ c ≠ '\x7d' := by
  obtain ⟨s, hs⟩ := he
  rw [entryChars, hs, toList_term_str, Text.escaped_plain, String.toList_ofList]
  exact ⟨'\x22', _, rfl, by decide⟩

/-- An entry tells its name by the quotes and its value as such. -/
theorem entry_cancel {e f : Data × Data} (he : ∃ s : String, e.1 = .str s)
    (hf : ∃ s : String, f.1 = .str s)
    (hvalue : Cancels placeless (fun d => (term d).toList) e.2 f.2) :
    Cancels (fun e : Data × Data => (e.1.placeless, e.2.placeless)) entryChars e f := by
  obtain ⟨k, v⟩ := e
  obtain ⟨k', v'⟩ := f
  obtain ⟨s, rfl⟩ := he
  obtain ⟨t, rfl⟩ := hf
  intro r r' hr hr' h
  simp only [entryChars, List.append_assoc] at h
  obtain ⟨rfl, hrest⟩ := string_cancel h
  obtain ⟨hv, hend⟩ := hvalue hr hr' (List.append_cancel_left hrest)
  exact ⟨congrArg (Prod.mk _) hv, hend⟩

/-- A printed value tells what it is and where it ends. -/
theorem term_cancel (hd : d.Ordinary) (he : e.Ordinary) :
    Cancels placeless (fun d => (term d).toList) d e := by
  intro r r' hr hr' h
  dsimp only at h
  have hkind := kindName_eq_of_term hd he h
  induction hd generalizing e r r' with
  | null =>
    cases he with
    | null => exact ⟨rfl, List.append_cancel_left h⟩
    | _ => simp [Data.kindName] at hkind
  | bool b =>
    cases he with
    | bool b' =>
      cases b <;> cases b' <;> first | exact ⟨rfl, List.append_cancel_left h⟩ | cases h
    | _ => simp [Data.kindName] at hkind
  | int n =>
    cases he with
    | int m =>
      obtain ⟨rfl, hrest⟩ := int_cancel hr hr' h
      exact ⟨rfl, hrest⟩
    | _ => simp [Data.kindName] at hkind
  | str s =>
    cases he with
    | str t =>
      obtain ⟨rfl, hrest⟩ := string_cancel h
      exact ⟨rfl, hrest⟩
    | _ => simp [Data.kindName] at hkind
  | @list place items hitems ih =>
    cases he with
    | @list place' items' hitems' =>
      rw [toList_term_list, toList_term_list] at h
      simp only [List.cons_append, List.append_assoc, List.nil_append, List.cons.injEq,
        true_and] at h
      obtain ⟨hkeys, hrest⟩ := row_cancel placeless (by decide) (by decide)
        (fun x hx => first_ne_mark (hx.elim (hitems x) (hitems' x)) (by decide))
        (fun x hx y hy => fun s s' hs hs' hxy => ih x hx (hitems' y hy) hs hs' hxy
          (kindName_eq_of_term (hitems x hx) (hitems' y hy) hxy)) h
      refine ⟨?_, hrest⟩
      rw [placeless, placeless, Data.placelessItems_eq_map, Data.placelessItems_eq_map, hkeys]
    | _ => simp [Data.kindName] at hkind
  | @map place entries hnames hvalues ih =>
    cases he with
    | @map place' entries' hnames' hvalues' =>
      rw [toList_term_map, toList_term_map] at h
      simp only [List.cons_append, List.append_assoc, List.nil_append, List.cons.injEq,
        true_and] at h
      obtain ⟨hkeys, hrest⟩ := row_cancel
        (fun e : Data × Data => (e.1.placeless, e.2.placeless)) (by decide) (by decide)
        (fun e he => entry_first (he.elim (hnames e) (hnames' e)))
        (fun x hx y hy => entry_cancel (hnames x hx) (hnames' y hy)
          (fun s s' hs hs' hxy => ih x hx (hvalues' y hy) hs hs' hxy
            (kindName_eq_of_term (hvalues x hx) (hvalues' y hy) hxy))) h
      refine ⟨?_, hrest⟩
      rw [placeless, placeless, Data.placelessEntries_eq_map, Data.placelessEntries_eq_map, hkeys]
    | _ => simp [Data.kindName] at hkind

/-- The text of a value does not depend on where the value was read. -/
theorem term_placeless (hd : d.Ordinary) : term d.placeless = term d := by
  induction hd with
  | null | bool | int | str => rfl
  | @list place items hitems ih =>
    have htexts : (items.map placeless).map term = items.map term := by
      rw [List.map_map]
      exact List.map_congr_left ih
    rw [placeless, Data.placelessItems_eq_map, term, term, termItems_eq_map, termItems_eq_map,
      htexts]
  | @map place entries hnames hvalues ih =>
    have htexts : termEntries (Data.placelessEntries entries) = termEntries entries := by
      rw [Data.placelessEntries_eq_map, termEntries_eq_map, termEntries_eq_map, List.map_map]
      refine List.map_congr_left fun e he => ?_
      obtain ⟨s, hs⟩ := hnames e he
      have hname : e.1.placeless = e.1 := by
        rw [hs]
        rfl
      rw [Function.comp_apply, hname, ih e he]
    rw [placeless, term, term, htexts]

end Terms

end Source

end RuleLowering
