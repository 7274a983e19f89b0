import RuleLowering.Proofs.Printed

/-!
# Grouping in printed operations

Operations are printed without brackets around them, so their text does not tell how they are
nested. It tells everything else: a reader that takes operations from the left finds, for each
simple expression, the one of the same text in which no operation is a right operand. Two simple
expressions have one text exactly if these agree.
-/
namespace RuleLowering

open Source (isAtomChar isLower)

namespace Expr

def isOperation : Expr → Bool
  | operation .. => true
  | _ => false

mutual
/-- An expression with its positions taken out and its operations put together anew. -/
def rebuilt (join : Data → Expr → Expr → Expr) : Expr → Expr
  | absent => absent
  | var name _ => .var name 0
  | atom name _ => .atom name 0
  | literal value _ => .literal value 0
  | tuple elements _ => .tuple (rebuiltEach join elements) 0
  | list elements _ => .list (rebuiltEach join elements) 0
  | operation operator left right _ => join operator (rebuilt join left) (rebuilt join right)
  | remote owner function _ => .remote (rebuilt join owner) (rebuilt join function) 0
  | call function arguments _ => .call (rebuilt join function) (rebuiltEach join arguments) 0
  | binding pattern body _ => .binding (rebuilt join pattern) (rebuilt join body) 0
  | generator pattern body _ => .generator (rebuilt join pattern) (rebuilt join body) 0
  | binaryGenerator pattern body _ => .binaryGenerator (rebuilt join pattern) (rebuilt join body) 0
  | quote body _ => .quote (rebuilt join body) 0
  | foreign term _ => .foreign term 0
termination_by structural e => e

def rebuiltEach (join : Data → Expr → Expr → Expr) : List Expr → List Expr
  | [] => []
  | e :: es => rebuilt join e :: rebuiltEach join es
termination_by structural es => es
end

def bare (operator : Data) (left right : Expr) : Expr := .operation operator left right 0

/-- An operation with its right operand taken apart: what stands leftmost in it becomes the right
operand, and the rest follows from the left. -/
def graft (operator : Data) (left : Expr) : Expr → Expr
  | operation next a b pos => .operation next (graft operator left a) b pos
  | e => .operation operator left e 0

def unplaced : Expr → Expr := rebuilt bare

/-- An expression without its positions and with all its operations grouped from the left. -/
def regrouped : Expr → Expr := rebuilt graft

mutual
/-- No right operand is itself an operation, at any depth. -/
def isLeftGrouped : Expr → Bool
  | tuple xs _ | list xs _ => areLeftGrouped xs
  | operation _ a b _ => !isOperation b && isLeftGrouped a && isLeftGrouped b
  | remote a b _ | binding a b _ | generator a b _ | binaryGenerator a b _ =>
    isLeftGrouped a && isLeftGrouped b
  | call f xs _ => isLeftGrouped f && areLeftGrouped xs
  | quote a _ => isLeftGrouped a
  | absent | var .. | atom .. | literal .. | foreign .. => true
termination_by structural e => e

def areLeftGrouped : List Expr → Bool
  | [] => true
  | x :: xs => isLeftGrouped x && areLeftGrouped xs
termination_by structural xs => xs
end

theorem rebuiltEach_eq_map (join : Data → Expr → Expr → Expr) (es : List Expr) :
    rebuiltEach join es = es.map (rebuilt join) := by
  induction es with
  | nil => rfl
  | cons e es ih => rw [rebuiltEach, ih, List.map_cons]

theorem graft_of_not_isOperation (operator : Data) (left : Expr) {e : Expr}
    (he : e.isOperation = false) : graft operator left e = bare operator left e := by
  cases e <;> first | rfl | cases he

/-- It is the same to graft onto an operation as to graft twice. -/
theorem graft_graft (o o' : Data) (a b : Expr) :
    ∀ e : Expr, graft o' (graft o a b) e = graft o a (graft o' b e)
  | operation _ x _ _ => by rw [graft, graft, graft, graft_graft o o' a b x]
  | absent | var .. | atom .. | literal .. | tuple .. | list .. | remote .. | call .. | binding ..
  | generator .. | binaryGenerator .. | quote .. | foreign .. => rfl

/-- What is grafted stands behind the operator. -/
theorem chars_graft (o : Data) (a : Expr) :
    ∀ e : Expr, (graft o a e).chars = a.chars ++ ' ' :: o.display.chars ++ ' ' :: e.chars
  | operation p x y _ => by simp [graft, chars, chars_graft o a x]
  | absent | var .. | atom .. | literal .. | tuple .. | list .. | remote .. | call .. | binding ..
  | generator .. | binaryGenerator .. | quote .. | foreign .. => rfl

mutual

/-- To regroup operations leaves the characters as they are. -/
theorem chars_rebuilt_graft : ∀ e : Expr, (rebuilt graft e).chars = e.chars
  | operation o a b _ => by
    rw [rebuilt, chars_graft, chars_rebuilt_graft a, chars_rebuilt_graft b, chars]
  | tuple es _ | list es _ => by simp only [rebuilt, chars, charsEach_rebuiltEach_graft es]
  | absent | var .. | atom .. | literal .. | remote .. | call .. | binding .. | generator ..
  | binaryGenerator .. | quote .. | foreign .. => rfl

theorem charsEach_rebuiltEach_graft :
    ∀ es : List Expr, charsEach (rebuiltEach graft es) = charsEach es
  | [] => rfl
  | e :: es => by
    rw [rebuiltEach, charsEach, charsEach, chars_rebuilt_graft e, charsEach_rebuiltEach_graft es]

end

/-- The characters of an expression do not tell how its operations are grouped. -/
theorem chars_regrouped (e : Expr) : e.regrouped.chars = e.chars := chars_rebuilt_graft e

mutual

/-- Where no right operand is an operation there is nothing to graft. -/
theorem rebuilt_graft_eq : ∀ e : Expr, e.isLeftGrouped = true → rebuilt graft e = rebuilt bare e
  | operation o a b _, h => by
    simp only [isLeftGrouped, Bool.and_eq_true] at h
    obtain ⟨⟨hflat, ha⟩, hb⟩ := h
    have hflat' : (rebuilt bare b).isOperation = false := by
      cases b <;> first | rfl | cases hflat
    rw [rebuilt, rebuilt, rebuilt_graft_eq a ha, rebuilt_graft_eq b hb,
      graft_of_not_isOperation o _ hflat']
  | tuple es _, h | list es _, h => by simp only [rebuilt, rebuiltEach_graft_eq es h]
  | remote a b _, h | binding a b _, h | generator a b _, h | binaryGenerator a b _, h => by
    simp only [isLeftGrouped, Bool.and_eq_true] at h
    simp only [rebuilt, rebuilt_graft_eq a h.1, rebuilt_graft_eq b h.2]
  | call f xs _, h => by
    simp only [isLeftGrouped, Bool.and_eq_true] at h
    simp only [rebuilt, rebuilt_graft_eq f h.1, rebuiltEach_graft_eq xs h.2]
  | quote a _, h => by simp only [rebuilt, rebuilt_graft_eq a h]
  | absent, _ | var .., _ | atom .., _ | literal .., _ | foreign .., _ => rfl

theorem rebuiltEach_graft_eq :
    ∀ es : List Expr, areLeftGrouped es = true → rebuiltEach graft es = rebuiltEach bare es
  | [], _ => rfl
  | e :: es, h => by
    simp only [areLeftGrouped, Bool.and_eq_true] at h
    rw [rebuiltEach, rebuiltEach, rebuilt_graft_eq e h.1, rebuiltEach_graft_eq es h.2]

end

/-- Such an expression is regrouped as it is. -/
theorem regrouped_of_isLeftGrouped {e : Expr} (h : e.isLeftGrouped = true) :
    e.regrouped = e.unplaced :=
  rebuilt_graft_eq e h

end Expr

namespace Source

/-- A row that is being read. -/
structure Row where
  /-- The items in front of the last comma. -/
  items : List Expr
  /-- What has been read behind it, and the operator behind that. -/
  front : Option Expr
  operator : Option Data

namespace Row

def empty : Row := ⟨[], none, none⟩

def join (row : Row) (e : Expr) : Row :=
  match row.front, row.operator with
  | some left, some operator => ⟨row.items, some (.graft operator left e), none⟩
  | _, _ => ⟨row.items, some e, none⟩

def all (row : Row) : List Expr := row.items ++ row.front.toList

/-- To read the operands of an operation one after the other is to read it regrouped. -/
theorem join_join (row : Row) (operator : Data) (a b : Expr) :
    join { row.join a with operator := some operator } b = row.join (.graft operator a b) := by
  obtain ⟨items, front, next⟩ := row
  cases front with
  | none => rfl
  | some left =>
    cases next with
    | none => rfl
    | some next => simp only [join, Expr.graft_graft]

end Row

def leaf (word : List Char) : Expr :=
  match word with
  | [] => .absent
  | c :: _ =>
    if c.isDigit then .literal (.int (Json.digitsValue word)) 0
    else if isLower c then .atom (.str (String.ofList word)) 0
    else .var (.str (String.ofList word)) 0

section Words

variable {c : Char}

theorem isAtomChar_of_isDigit (h : c.isDigit = true) : isAtomChar c = true := by
  simp only [Char.isDigit, Bool.and_eq_true, decide_eq_true_eq, ge_iff_le,
    UInt32.le_iff_toNat_le] at h
  simp only [isAtomChar, Char.le_def, UInt32.le_iff_toNat_le, Bool.or_eq_true, Bool.and_eq_true,
    decide_eq_true_eq]
  exact .inl (.inl (.inr h))

theorem not_isDigit_of_isLower (h : isLower c = true) : c.isDigit = false := by
  simp [isLower, Char.isDigit, Char.le_def, UInt32.le_iff_toNat_le] at *
  omega

theorem not_isDigit_of_isVariableStart (h : isVariableStart c = true) :
    c.isDigit = false ∧ isLower c = false := by
  rw [isVariableStart, Bool.or_eq_true, beq_iff_eq] at h
  rcases h with h | rfl
  · simp [isLower, Char.isDigit, Char.le_def, UInt32.le_iff_toNat_le] at *
    omega
  · decide

theorem leaf_variable {s : List Char} (h : IsName isVariableStart s) :
    leaf s = .var (.str (String.ofList s)) 0 := by
  obtain ⟨c, rest, rfl, hc⟩ := h.first
  obtain ⟨hdigit, hlower⟩ := not_isDigit_of_isVariableStart hc
  simp [leaf, hdigit, hlower]

theorem leaf_atom {s : List Char} (h : IsName isLower s) :
    leaf s = .atom (.str (String.ofList s)) 0 := by
  obtain ⟨c, rest, rfl, hc⟩ := h.first
  simp [leaf, not_isDigit_of_isLower hc, hc]

theorem leaf_digits (n : Nat) : leaf (Nat.toDigits 10 n) = .literal (.int n) 0 := by
  obtain ⟨d, ds, hdigits, hd⟩ := Json.exists_toDigits_eq_cons n
  have hvalue := Json.digitsValue_toDigits n
  rw [hdigits] at hvalue ⊢
  simp [leaf, hd, hvalue]

end Words

/-- A reader of printed expressions, which takes one character at a time. -/
structure Reader where
  /-- The last characters, as far as they belong to one word. -/
  word : List Char
  row : Row
  /-- The rows around, from the inside out. -/
  outer : List Row

namespace Reader

def flush (r : Reader) : Reader :=
  if r.word.isEmpty then r else ⟨[], r.row.join (leaf r.word), r.outer⟩

def close (node : List Expr → Expr) (r : Reader) : Reader :=
  match r.outer with
  | [] => r
  | row :: outer => ⟨[], row.join (node r.row.all), outer⟩

def mark (r : Reader) (c : Char) : Reader :=
  if c = ' ' then r
  else if c = ',' then ⟨[], ⟨r.row.all, none, none⟩, r.outer⟩
  else if c = '\x7b' ∨ c = '[' then ⟨[], .empty, r.row :: r.outer⟩
  else if c = '\x7d' then r.close (.tuple · 0)
  else if c = ']' then r.close (.list · 0)
  else { r with row := { r.row with operator := some (.str (String.singleton c)) } }

def step (r : Reader) (c : Char) : Reader :=
  if isAtomChar c then { r with word := r.word ++ [c] } else r.flush.mark c

def read (r : Reader) (s : List Char) : Reader := s.foldl step r

theorem read_cons (r : Reader) (c : Char) (s : List Char) : r.read (c :: s) = (r.step c).read s :=
  rfl

theorem read_append (r : Reader) (s t : List Char) : r.read (s ++ t) = (r.read s).read t :=
  List.foldl_append

theorem step_of_not_isAtomChar (r : Reader) {c : Char} (hc : isAtomChar c = false) :
    r.step c = r.flush.mark c := by
  rw [step, hc]
  rfl

/-- Characters of words are kept. -/
theorem read_word (word : List Char) (row : Row) (outer : List Row) {s : List Char}
    (hs : ∀ c ∈ s, isAtomChar c = true) : read ⟨word, row, outer⟩ s = ⟨word ++ s, row, outer⟩ := by
  induction s generalizing word with
  | nil => simp [read]
  | cons c s ih =>
    obtain ⟨hc, hs⟩ := List.forall_mem_cons.mp hs
    rw [read_cons, step, hc]
    simpa using ih (word ++ [c]) hs

/-- The reader takes the characters of an expression for the expression regrouped, in any row. Behind
an operator the expression is grafted onto the row, which is where a grouping is lost. -/
def Takes (e : Expr) : Prop :=
  ∀ row outer, (read ⟨[], row, outer⟩ e.chars).flush = ⟨[], row.join e.regrouped, outer⟩

/-- A word is taken for the expression that it is. -/
theorem takes_word {e : Expr} {s : List Char} (hchars : e.chars = s) (hne : s ≠ [])
    (hs : ∀ c ∈ s, isAtomChar c = true) (hleaf : leaf s = e.regrouped) : Takes e := by
  intro row outer
  rw [hchars, read_word [] row outer hs, List.nil_append, flush, if_neg (by simpa using hne), hleaf]

/-- Behind an expression the reader goes on as behind the expression regrouped. -/
theorem Takes.read_append {e : Expr} (h : Takes e) (row : Row) (outer : List Row) {c : Char}
    (hc : isAtomChar c = false) (s : List Char) :
    read ⟨[], row, outer⟩ (e.chars ++ c :: s) =
      (mark ⟨[], row.join e.regrouped, outer⟩ c).read s := by
  rw [Reader.read_append, read_cons, step_of_not_isAtomChar _ hc, h]

/-- A row is read item by item. -/
theorem read_row {es : List Expr} (hes : ∀ e ∈ es, Takes e) (items : List Expr)
    (outer : List Row) :
    ∃ row : Row, (read ⟨[], ⟨items, none, none⟩, outer⟩
        (Expr.comma.intercalate (es.map Expr.chars))).flush = ⟨[], row, outer⟩
      ∧ row.all = items ++ es.map Expr.regrouped := by
  induction es generalizing items with
  | nil => exact ⟨⟨items, none, none⟩, rfl, rfl⟩
  | cons e es ih =>
    obtain ⟨he, hrest⟩ := List.forall_mem_cons.mp hes
    cases es with
    | nil =>
      refine ⟨Row.join ⟨items, none, none⟩ e.regrouped, ?_, rfl⟩
      simpa using he ⟨items, none, none⟩ outer
    | cons e' es =>
      obtain ⟨row, hrow, hall⟩ := ih hrest (items ++ [e.regrouped])
      refine ⟨row, ?_, by simpa using hall⟩
      rw [List.map_cons, List.map_cons, List.intercalate_cons_cons, List.append_assoc,
        ← List.map_cons]
      exact (congrArg flush (he.read_append _ _ (by decide) _)).trans hrow

/-- A row in brackets is taken for the expression that the brackets make of it. -/
theorem read_brackets {es : List Expr} (hes : ∀ e ∈ es, Takes e) (row : Row) (outer : List Row)
    (front back : Char) (node : List Expr → Expr)
    (hfront : step ⟨[], row, outer⟩ front = ⟨[], .empty, row :: outer⟩)
    (hback : isAtomChar back = false) (hclose : ∀ r, mark r back = r.close node) :
    (read ⟨[], row, outer⟩
      (front :: Expr.comma.intercalate (es.map Expr.chars) ++ [back])).flush =
        ⟨[], row.join (node (es.map Expr.regrouped)), outer⟩ := by
  obtain ⟨inside, hinside, hall⟩ := read_row hes [] (row :: outer)
  rw [List.cons_append, read_cons, hfront, Reader.read_append, Row.empty, read_cons,
    step_of_not_isAtomChar _ hback, hinside, hclose, close, hall, List.nil_append]
  rfl

/-- An operator is one character, which the reader keeps as such. -/
theorem exists_mark_of_mem_operators {operator : String} (h : operator ∈ operators) :
    ∃ c, operator = String.singleton c ∧ isAtomChar c = false
      ∧ ∀ row outer, mark ⟨[], row, outer⟩ c =
        ⟨[], { row with operator := some (.str (String.singleton c)) }, outer⟩ := by
  simp only [operators, List.mem_cons, List.not_mem_nil, or_false] at h
  rcases h with rfl | rfl | rfl
  · exact ⟨'+', rfl, by decide, fun _ _ => rfl⟩
  · exact ⟨'-', rfl, by decide, fun _ _ => rfl⟩
  · exact ⟨'*', rfl, by decide, fun _ _ => rfl⟩

/-- Every simple expression is read back, regrouped. -/
theorem takes_of_simple {e : Expr} (he : e.Simple) : Takes e := by
  induction he with
  | @var name pos hname =>
    have hchars : (Expr.var (.str name) pos).chars = name.toList := Text.chars_plain name
    apply takes_word hchars hname.ne_nil hname.all
    rw [leaf_variable hname, String.ofList_toList]
    rfl
  | @atom name pos hname =>
    have hchars : (Expr.atom (.str name) pos).chars = name.toList := Text.chars_plain name
    apply takes_word hchars hname.ne_nil hname.all
    rw [leaf_atom hname, String.ofList_toList]
    rfl
  | literal n pos =>
    have hchars : (Expr.literal (.int n) pos).chars = Nat.toDigits 10 n := by
      have hdisplay : (Data.int n).display = .plain (toString (n : Int)) := rfl
      rw [Expr.chars, hdisplay, Text.chars_plain, Json.toList_toString]
      simp
    apply takes_word hchars Nat.toDigits_ne_nil
    · intro c hc
      exact isAtomChar_of_isDigit (Nat.isDigit_of_mem_toDigits (by decide) (by decide) hc)
    · exact leaf_digits n
  | tuple pos hes ih =>
    intro row outer
    rw [Expr.chars, Expr.charsEach_eq_map, Expr.regrouped, Expr.rebuilt, Expr.rebuiltEach_eq_map]
    exact read_brackets ih row outer '\x7b' '\x7d' (.tuple · 0) rfl (by decide) fun _ => rfl
  | list pos hes ih =>
    intro row outer
    rw [Expr.chars, Expr.charsEach_eq_map, Expr.regrouped, Expr.rebuilt, Expr.rebuiltEach_eq_map]
    exact read_brackets ih row outer '[' ']' (.list · 0) rfl (by decide) fun _ => rfl
  | @operation operator left right pos ho hleft hright ihleft ihright =>
    intro row outer
    obtain ⟨c, rfl, hc, hmark⟩ := exists_mark_of_mem_operators ho
    have hchars : (Expr.operation (.str (String.singleton c)) left right pos).chars =
        left.chars ++ ' ' :: c :: ' ' :: right.chars := by
      simp [Expr.chars]
    have hspace : ∀ row, mark ⟨[], row, outer⟩ ' ' = ⟨[], row, outer⟩ := fun _ => rfl
    have hblank : ∀ row, step ⟨[], row, outer⟩ ' ' = ⟨[], row, outer⟩ := fun _ => rfl
    have hstep : ∀ row, step ⟨[], row, outer⟩ c =
        ⟨[], { row with operator := some (.str (String.singleton c)) }, outer⟩ := by
      intro row
      rw [step_of_not_isAtomChar _ hc]
      exact hmark row outer
    rw [hchars, ihleft.read_append row outer (by decide), hspace, read_cons, hstep, read_cons,
      hblank, ihright, Row.join_join]
    rfl

end Reader

def reading (s : List Char) : List Expr := (Reader.read ⟨[], .empty, []⟩ s).flush.row.all

/-- The text of a simple expression is read as the expression, regrouped. -/
theorem reading_chars {e : Expr} (he : e.Simple) : reading e.chars = [e.regrouped] := by
  rw [reading, Reader.takes_of_simple he]
  rfl

/-- Two simple expressions that print have one text exactly if they differ in nothing but positions
and the grouping of their operations. So where no right operand is itself an operation the text
tells the expression, up to positions; elsewhere it does not. -/
theorem printed_eq_iff_regrouped_eq {e e' : Expr} {p p' : Printed} (he : e.Simple)
    (he' : e'.Simple) (h : expression e = .ok p) (h' : expression e' = .ok p') :
    (p = p' ↔ e.regrouped = e'.regrouped)
      ∧ (e.isLeftGrouped = true → e'.isLeftGrouped = true →
        (p = p' ↔ e.unplaced = e'.unplaced)) := by
  have hiff : p = p' ↔ e.regrouped = e'.regrouped := by
    rw [expression_eq_ok he h, expression_eq_ok he' h']
    constructor
    · intro htext
      have hchars : e.chars = e'.chars :=
        String.ofList_injective (Text.plain.inj (Data.str.inj htext))
      have hreading := reading_chars he
      rw [hchars, reading_chars he'] at hreading
      exact (List.singleton_inj.mp hreading).symm
    · intro hregrouped
      rw [← Expr.chars_regrouped e, hregrouped, Expr.chars_regrouped]
  refine ⟨hiff, fun hgrouped hgrouped' => ?_⟩
  rw [hiff, Expr.regrouped_of_isLeftGrouped hgrouped, Expr.regrouped_of_isLeftGrouped hgrouped']

def productOfSum : Expr :=
  .operation (.str "*") (.operation (.str "+") (.var (.str "A") 1) (.var (.str "B") 1) 1)
    (.var (.str "C") 1) 1

def sumWithProduct : Expr :=
  .operation (.str "+") (.var (.str "A") 1)
    (.operation (.str "*") (.var (.str "B") 1) (.var (.str "C") 1) 1) 1

theorem simple_letter {name : String} (h : name ∈ ["A", "B", "C"]) (pos : Data) :
    (Expr.var (.str name) pos).Simple := by
  simp only [List.mem_cons, List.not_mem_nil, or_false] at h
  rcases h with rfl | rfl | rfl <;>
    exact .var pos ⟨⟨_, _, rfl, by decide⟩, List.all_eq_true.mp (by decide)⟩

theorem simple_productOfSum : productOfSum.Simple :=
  .operation 1 (by decide)
    (.operation 1 (by decide) (simple_letter (by decide) 1) (simple_letter (by decide) 1))
    (simple_letter (by decide) 1)

theorem simple_sumWithProduct : sumWithProduct.Simple :=
  .operation 1 (by decide) (simple_letter (by decide) 1)
    (.operation 1 (by decide) (simple_letter (by decide) 1) (simple_letter (by decide) 1))

/-- They have one text, and so they are equal when regrouped, of which only the second has need. -/
theorem productOfSum_sumWithProduct_regrouped :
    productOfSum.Simple ∧ sumWithProduct.Simple ∧ ∃ p, expression productOfSum = .ok p
      ∧ expression sumWithProduct = .ok p ∧ productOfSum.regrouped = sumWithProduct.regrouped
      ∧ productOfSum.isLeftGrouped = true ∧ sumWithProduct.isLeftGrouped = false := by
  have h : expression productOfSum = .ok (.str "A + B * C") := rfl
  have h' : expression sumWithProduct = .ok (.str "A + B * C") := rfl
  have hiff := (printed_eq_iff_regrouped_eq simple_productOfSum simple_sumWithProduct h h').1
  exact ⟨simple_productOfSum, simple_sumWithProduct, _, h, h', hiff.mp rfl, rfl, rfl⟩

/-- Two different trees print as `A + B * C`. -/
theorem grouping_lost :
    productOfSum.Simple ∧ sumWithProduct.Simple
      ∧ expression productOfSum = .ok (.str "A + B * C")
      ∧ expression sumWithProduct = .ok (.str "A + B * C")
      ∧ productOfSum.unplaced ≠ sumWithProduct.unplaced := by
  refine ⟨simple_productOfSum, simple_sumWithProduct, rfl, rfl, ?_⟩
  intro h
  injection h with hoperator
  exact absurd (Text.plain.inj (Data.str.inj hoperator)) (by decide)

end Source

end RuleLowering
