import RuleLowering.Form.Basic

/-!
# Equality of forms

Two forms are the same when they are of one variant and each field is the same.
-/
namespace RuleLowering

/-- Pairwise the same by a test of members; lists of different lengths are not. -/
def sameEach {α : Type} (same : α → α → Bool) : List α → List α → Bool
  | [], [] => true
  | x :: xs, y :: ys => same x y && sameEach same xs ys
  | _, _ => false

theorem sameEach_self {α : Type} {same : α → α → Bool} {xs : List α}
    (h : ∀ x ∈ xs, same x x = true) : sameEach same xs xs = true := by
  induction xs with
  | nil => rfl
  | cons x xs ih =>
    simp only [List.mem_cons, forall_eq_or_imp] at h
    simp [sameEach, h.1, ih h.2]

/-- Items are the same one by one if what becomes of them is. -/
theorem sameEach_of_map {α β : Type} {same : α → α → Bool} {same' : β → β → Bool} {f g : α → β}
    {xs ys : List α}
    (hsame : ∀ x ∈ xs, ∀ y ∈ ys, same' (f x) (g y) = true → same x y = true)
    (h : sameEach same' (xs.map f) (ys.map g) = true) : sameEach same xs ys = true := by
  induction xs generalizing ys with
  | nil => cases ys <;> first | rfl | cases h
  | cons x xs ih =>
    cases ys with
    | nil => cases h
    | cons y ys =>
      simp only [List.map_cons, sameEach, Bool.and_eq_true] at h ⊢
      exact ⟨hsame x List.mem_cons_self y List.mem_cons_self h.1,
        ih (fun a ha b hb => hsame a (.tail x ha) b (.tail y hb)) h.2⟩

/-- Lists are equal if they are the same by a test that only equal members pass. -/
theorem eq_of_sameEach {α : Type} {same : α → α → Bool} {xs ys : List α}
    (hsame : ∀ x ∈ xs, ∀ y ∈ ys, same x y = true → x = y) (h : sameEach same xs ys = true) :
    xs = ys := by
  induction xs generalizing ys with
  | nil => cases ys <;> first | rfl | cases h
  | cons x xs ih =>
    cases ys with
    | nil => cases h
    | cons y ys =>
      simp only [sameEach, Bool.and_eq_true] at h
      rw [hsame x List.mem_cons_self y List.mem_cons_self h.1,
        ih (fun a ha b hb => hsame a (.tail x ha) b (.tail y hb)) h.2]

theorem Expr.sameAll_eq_sameEach : ∀ xs ys : List Expr, sameAll xs ys = sameEach same xs ys
  | [], [] | [], _ :: _ | _ :: _, [] => rfl
  | x :: xs, y :: ys => by rw [sameAll, sameEach, sameAll_eq_sameEach xs ys]

namespace ModuleDecl

/-- Absent parameters differ from an empty list of them. -/
def sameParameters : Option (List Data) → Option (List Data) → Bool
  | none, none => true
  | some xs, some ys => sameEach Data.same xs ys
  | _, _ => false

def same (a b : ModuleDecl) : Bool :=
  a.name.same b.name && sameParameters a.parameters b.parameters && a.pos.same b.pos

end ModuleDecl

def FileMark.same (a b : FileMark) : Bool :=
  a.file.same b.file && a.line.same b.line && a.pos.same b.pos

def Export.same (a b : Export) : Bool :=
  sameEach Signature.same a.functions b.functions && a.pos.same b.pos

def Attribute.same (a b : Attribute) : Bool :=
  a.name.same b.name && a.value.same b.value && a.pos.same b.pos

def Function.same (a b : Function) : Bool :=
  a.name.same b.name && sameEach Clause.same a.clauses b.clauses && a.pos.same b.pos

def Rule.same (a b : Rule) : Bool :=
  a.name.same b.name && sameEach Clause.same a.clauses b.clauses && a.pos.same b.pos

/-- A violation is not the same as its name in the words of another tool. -/
def Descriptor.same : Descriptor → Descriptor → Bool
  | .violation v, .violation w => v == w
  | .foreign d, .foreign e => d.same e
  | _, _ => false

def Marker.same (a b : Marker) : Bool :=
  a.origin.same b.origin && a.descriptor.same b.descriptor && a.pos.same b.pos

def Form.same : Form → Form → Bool
  | .attr a, .attr b => a.same b
  | .module a, .module b => a.same b
  | .file a, .file b => a.same b
  | .exports a, .exports b => a.same b
  | .function a, .function b => a.same b
  | .rule a, .rule b => a.same b
  | .marker a, .marker b => a.same b
  | .eof p, .eof q => p.same q
  | _, _ => false

end RuleLowering
