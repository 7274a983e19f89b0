import RuleLowering.Proofs.JsonNumber
import RuleLowering.Proofs.Success
import RuleLowering.Source.Printer

/-!
# Printed operations

Expressions made of variables, bare atoms, whole numbers, tuples, lists and three infix operators.
They print as plain characters: names and numbers as they are, rows in brackets, and an operation as
its operands with the operator between them and nothing around them.
-/
namespace RuleLowering

open Source (isAtomChar isLower)

def isVariableStart (c : Char) : Bool := 'A' ≤ c && c ≤ 'Z' || c == '_'

/-- A name: a first character of some kind, then letters, digits, underscores and at signs. -/
structure IsName (start : Char → Bool) (s : List Char) : Prop where
  first : ∃ c rest, s = c :: rest ∧ start c = true
  all : ∀ c ∈ s, isAtomChar c = true

def operators : List String := ["+", "-", "*"]

namespace Expr

/-- An expression made of variables, bare atoms, numbers that are not negative, tuples, lists and
operations of sum, difference and product, nested in any way. -/
inductive Simple : Expr → Prop
  | var {name : String} (pos : Data) : IsName isVariableStart name.toList →
    Simple (.var (.str name) pos)
  | atom {name : String} (pos : Data) : IsName isLower name.toList → Simple (.atom (.str name) pos)
  | literal (n : Nat) (pos : Data) : Simple (.literal (.int n) pos)
  | tuple {elements : List Expr} (pos : Data) : (∀ e ∈ elements, Simple e) →
    Simple (.tuple elements pos)
  | list {elements : List Expr} (pos : Data) : (∀ e ∈ elements, Simple e) →
    Simple (.list elements pos)
  | operation {operator : String} {left right : Expr} (pos : Data) : operator ∈ operators →
    Simple left → Simple right → Simple (.operation (.str operator) left right pos)

/-- What stands between the items of a row. -/
def comma : List Char := [',', ' ']

mutual
def chars : Expr → List Char
  | var d _ | atom d _ | literal d _ => d.display.chars
  | tuple elements _ => '\x7b' :: comma.intercalate (charsEach elements) ++ ['\x7d']
  | list elements _ => '[' :: comma.intercalate (charsEach elements) ++ [']']
  | operation operator left right _ =>
    chars left ++ ' ' :: operator.display.chars ++ ' ' :: chars right
  | _ => []
termination_by structural e => e

def charsEach : List Expr → List (List Char)
  | [] => []
  | e :: es => chars e :: charsEach es
termination_by structural es => es
end

theorem charsEach_eq_map (es : List Expr) : charsEach es = es.map chars := by
  induction es with
  | nil => rfl
  | cons e es ih => rw [charsEach, ih, List.map_cons]

end Expr

@[simp] theorem Text.chars_plain (s : String) : (Text.plain s).chars = s.toList := by
  have hchar : (fun g : Glyph => g.char?.getD '\ufffd') ∘ Glyph.char = id := rfl
  simp [Text.chars, Text.glyphs, hchar]

/-- Strings between separators, character by character. -/
theorem Text.join_map_plain (separator : String) (strings : List (List Char)) :
    Text.join separator (strings.map fun s => .plain (String.ofList s)) =
      .plain (String.ofList (separator.toList.intercalate strings)) := by
  induction strings with
  | nil => rfl
  | cons s strings ih =>
    cases strings with
    | nil => simp [Text.join]
    | cons t strings =>
      have hjoin : Text.join separator ((s :: t :: strings).map fun s => .plain (String.ofList s)) =
          .plain (String.ofList s ++ separator) ++
            Text.join separator ((t :: strings).map fun s => .plain (String.ofList s)) := rfl
      rw [hjoin, ih, Text.plain_append_plain, List.intercalate_cons_cons, String.ofList_append,
        String.ofList_append, String.ofList_toList]

/-- Texts are joined without a fault. -/
theorem Data.joinTexts_str (separator : String) (texts : List Text) :
    Data.joinTexts separator (texts.map .str) = .ok (.join separator texts) := by
  have hnone : (texts.map Data.str).findIdx? (·.text?.isNone) = none := by
    rw [List.findIdx?_eq_none_iff]
    intro d hd
    obtain ⟨t, -, rfl⟩ := List.mem_map.mp hd
    rfl
  have hfilter : (texts.map Data.str).filterMap Data.text? = texts := by
    rw [List.filterMap_map]
    exact List.filterMap_some
  rw [Data.joinTexts, hnone, hfilter]

namespace IsName

variable {start : Char → Bool} {s : List Char}

theorem ne_nil (h : IsName start s) : s ≠ [] := by
  obtain ⟨c, rest, rfl, -⟩ := h.first
  exact List.cons_ne_nil c rest

/-- A name ends in no line feed. -/
theorem chopLine_eq (h : IsName start s) : Source.chopLine s = s := by
  rw [Source.chopLine, if_neg]
  intro hlast
  have hfeed : isAtomChar '\n' = true := h.all _ (List.mem_of_getLast? hlast)
  exact absurd hfeed (by decide)

/-- A name in lower case is printed as it is. -/
theorem atomChars_eq (h : IsName isLower s) : Source.atomChars s = s := by
  obtain ⟨c, rest, rfl, hc⟩ := h.first
  have hbare : Source.isBare (c :: rest) = true := by
    rw [Source.isBare, h.chopLine_eq]
    simp only [hc, Bool.true_and, List.all_eq_true]
    exact fun d hd => h.all d (.tail c hd)
  rw [Source.atomChars, if_pos hbare]

end IsName

namespace Source

/-- What the parts of a row print as, if each one prints as its characters. -/
theorem expressions_eq_ok {es : List Expr} {ps : List Printed}
    (heach : ∀ e ∈ es, ∀ p, expression e = .ok p → p = .str (String.ofList e.chars))
    (h : expressions es = .ok ps) :
    ps = (es.map fun e => Text.plain (String.ofList e.chars)).map .str := by
  induction es generalizing ps with
  | nil =>
    cases h
    rfl
  | cons e es ih =>
    obtain ⟨p, hp, hrest⟩ := bind_eq_ok_iff.mp h
    obtain ⟨qs, hqs, hcons⟩ := bind_eq_ok_iff.mp hrest
    obtain rfl := Except.ok.inj hcons
    rw [heach e List.mem_cons_self p hp, ih (fun d hd => heach d (.tail e hd)) hqs]
    rfl

/-- A row prints as its characters between two brackets. -/
theorem row_eq_ok {es : List Expr} (front back : String) {p : Printed}
    (heach : ∀ e ∈ es, ∀ p, expression e = .ok p → p = .str (String.ofList e.chars))
    (h : (do
      let ps ← expressions es
      let row ← Data.joinTexts ", " ps
      text (front ++ row ++ back)) = .ok p) :
    p = .str (String.ofList
      (front.toList ++ Expr.comma.intercalate (es.map Expr.chars) ++ back.toList)) := by
  obtain ⟨ps, hps, hrest⟩ := bind_eq_ok_iff.mp h
  rw [expressions_eq_ok heach hps, Data.joinTexts_str] at hrest
  have hmap : (es.map fun e => Text.plain (String.ofList e.chars)) =
      (es.map Expr.chars).map fun s => .plain (String.ofList s) := by
    rw [List.map_map]
    rfl
  have htext : p = .str (.plain front ++ Text.join ", "
      ((es.map Expr.chars).map fun s => .plain (String.ofList s)) ++ .plain back) := by
    rw [← hmap]
    exact (Except.ok.inj hrest).symm
  rw [htext, Text.join_map_plain, Text.plain_append_plain, Text.plain_append_plain,
    String.ofList_append, String.ofList_append, String.ofList_toList, String.ofList_toList]
  rfl

/-- A simple expression prints as its characters, if it prints at all. -/
theorem expression_eq_ok {e : Expr} {p : Printed} (he : e.Simple) (h : expression e = .ok p) :
    p = .str (String.ofList e.chars) := by
  induction he generalizing p with
  | @var name pos hname =>
    obtain rfl := Except.ok.inj h
    simp [Expr.chars]
  | @atom name pos hname =>
    have hatom : p = .str (.plain (String.ofList (atomChars name.toList))) :=
      (Except.ok.inj h).symm
    rw [hatom, hname.atomChars_eq]
    simp [Expr.chars]
  | literal n pos =>
    have hprint : expression (.literal (.int n) pos) =
        if (Data.int n).isWritable then text (Data.int n).inner else .error .numberTooLong := rfl
    rw [hprint] at h
    split at h
    · have htext : p = .str (.plain (toString (n : Int))) := (Except.ok.inj h).symm
      have hdisplay : (Data.int n).display = .plain (toString (n : Int)) := rfl
      rw [htext, Expr.chars, hdisplay, Text.chars_plain, String.ofList_toList]
    · cases h
  | tuple pos hes ih =>
    rw [Expr.chars, Expr.charsEach_eq_map]
    exact row_eq_ok "\x7b" "\x7d" (fun e he p => ih e he) h
  | list pos hes ih =>
    rw [Expr.chars, Expr.charsEach_eq_map]
    exact row_eq_ok "[" "]" (fun e he p => ih e he) h
  | @operation operator left right pos ho hleft hright ihleft ihright =>
    simp only [expression, bind_eq_ok_iff] at h
    obtain ⟨l, hl, lt, hlt, o, hshown, r, hr, rt, hrt, hp⟩ := h
    rw [ihleft hl] at hlt
    rw [ihright hr] at hrt
    obtain rfl := Except.ok.inj hlt
    obtain rfl := Except.ok.inj hshown
    obtain rfl := Except.ok.inj hrt
    obtain rfl := Except.ok.inj hp
    have hchars :
        String.ofList left.chars ++ " " ++ operator ++ " " ++ String.ofList right.chars =
          String.ofList (Expr.operation (.str operator) left right pos).chars := by
      apply String.toList_inj.mp
      simp [Expr.chars]
    exact congrArg (fun s => Data.str (.plain s)) hchars

end Source

end RuleLowering
