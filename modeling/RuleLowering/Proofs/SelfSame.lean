import RuleLowering.Form.Same

/-!
# Everything is the same as itself

The equality of data compares numbers by value and mappings and sets without regard to order. It
follows two trees down together, so that a tree says the same as itself by induction on it: in a
mapping or a set each member finds itself among the others.
-/
namespace RuleLowering

namespace Data

theorem sameSpecial_self (x : Special) : sameSpecial x x = true := by
  cases x <;> simp [sameSpecial]

mutual

/-- A value says the same as itself. -/
@[simp] theorem same_self : ∀ d : Data, same d d = true
  | .null => rfl
  | .bool b => by simp [same, sameNumber, reach?]
  | .int n => by simp [same, sameNumber, reach?]
  | .float x => by simp [same, sameNumber]
  | .str t => by simp [same]
  | .special _ x => sameSpecial_self x
  | .list _ items => sameItems_self items
  | .group .pair _ items => sameItems_self items
  | .group .set _ items => by simp [same, allIn_of_subset items items fun _ h => h]
  | .map _ entries => by simp [same, entriesIn_of_subset entries entries fun _ h => h]

theorem sameItems_self : ∀ items : List Data, sameItems items items = true
  | [] => rfl
  | x :: xs => by simp [sameItems, same_self x, sameItems_self xs]

theorem allIn_of_subset : ∀ xs ys : List Data, (∀ x ∈ xs, x ∈ ys) → allIn xs ys = true
  | [], _, _ => rfl
  | x :: xs, ys, h => by
    have hx : ys.any (same x) = true :=
      List.any_eq_true.mpr ⟨x, h x List.mem_cons_self, same_self x⟩
    rw [allIn, hx, allIn_of_subset xs ys fun a ha => h a (.tail x ha)]
    rfl

theorem entriesIn_of_subset :
    ∀ es fs : List (Data × Data), (∀ e ∈ es, e ∈ fs) → entriesIn es fs = true
  | [], _, _ => rfl
  | (k, v) :: es, fs, h => by
    have he : fs.any (fun e => same k e.1 && same v e.2) = true :=
      List.any_eq_true.mpr ⟨(k, v), h _ List.mem_cons_self, by simp [same_self k, same_self v]⟩
    rw [entriesIn, he, entriesIn_of_subset es fs fun a ha => h a (.tail _ ha)]
    rfl

end

end Data

namespace Expr

mutual

/-- An expression is the same as itself. -/
@[simp] theorem same_self : ∀ e : Expr, same e e = true
  | absent => rfl
  | var _ _ | atom _ _ | literal _ _ | foreign _ _ => by simp [same]
  | tuple elements _ | list elements _ => by simp [same, sameAll_self elements]
  | operation _ left right _ => by simp [same, same_self left, same_self right]
  | remote owner function _ => by simp [same, same_self owner, same_self function]
  | call function arguments _ => by simp [same, same_self function, sameAll_self arguments]
  | binding pattern body _ | generator pattern body _ | binaryGenerator pattern body _ => by
    simp [same, same_self pattern, same_self body]
  | quote body _ => by simp [same, same_self body]

@[simp] theorem sameAll_self : ∀ es : List Expr, sameAll es es = true
  | [] => rfl
  | e :: es => by simp [sameAll, same_self e, sameAll_self es]

end

end Expr

@[simp] theorem Signature.same_self (s : Signature) : s.same s = true := by
  simp [Signature.same]

@[simp] theorem Clause.same_self (c : Clause) : c.same c = true := by
  simp [Clause.same]

/-- A form is the same as itself. -/
@[simp] theorem Form.same_self (f : Form) : f.same f = true := by
  have heach : ∀ cs : List Clause, sameEach Clause.same cs cs = true :=
    fun cs => sameEach_self fun c _ => c.same_self
  cases f with
  | attr a => simp [Form.same, Attribute.same]
  | module m =>
    have hparameters : ModuleDecl.sameParameters m.parameters m.parameters = true := by
      cases m.parameters with
      | none => rfl
      | some xs => exact sameEach_self fun x _ => x.same_self
    simp [Form.same, ModuleDecl.same, hparameters]
  | file f => simp [Form.same, FileMark.same]
  | exports e =>
    have hfunctions : sameEach Signature.same e.functions e.functions = true :=
      sameEach_self fun s _ => s.same_self
    simp [Form.same, Export.same, hfunctions]
  | function f => simp [Form.same, Function.same, heach]
  | rule r => simp [Form.same, Rule.same, heach]
  | marker m =>
    have hdescriptor : m.descriptor.same m.descriptor = true := by
      cases m.descriptor <;> simp [Descriptor.same]
    simp [Form.same, Marker.same, hdescriptor]
  | eof pos => simp [Form.same]

end RuleLowering
