import RuleLowering.Proofs.Splice

/-!
# What lowering emits

Each form of a lowered module is one of the input that is no rule, or takes the place of a rule, or
is generated. What must hold of all forms of a lowered module is shown for these in turn.
-/
namespace RuleLowering

/-- Where a form of a lowered module comes from. -/
inductive Emitted (o : Options) (forms : List Form) : Form → Prop
  | kept {f : Form} : f ∈ forms → f.isRule = false → Emitted o forms f
  | rewritten {r : Rule} : .rule r ∈ forms → Emitted o forms (.function (r.rewritten o))
  | reported (v : Violation) (pos : Data) :
    Emitted o forms (.marker ⟨.str o.origin, .violation v, pos⟩)
  | mark (m : FileMark) : Emitted o forms (.file m)
  | exports (rules : List Signature) : Emitted o forms (.exports (o.exportList rules))
  | introspection (rules : List Signature) :
    Emitted o forms (.function (o.introspectionFunction rules))

/-- A rule reports generators over binaries only, under the origin of the options. -/
theorem Rule.mem_reported {o : Options} {r : Rule} {m : Marker} (h : m ∈ r.reported o) :
    ∃ pos, m = ⟨.str o.origin, .violation .binaryGenerator, pos⟩ := by
  obtain ⟨c, -, hc⟩ := List.mem_flatMap.mp h
  obtain ⟨e, -, he⟩ := List.mem_flatMap.mp hc
  cases e with
  | binaryGenerator pattern body pos => exact ⟨pos, List.mem_singleton.mp he⟩
  | _ => cases he

theorem emitted_of_mem_rewritten {o : Options} {forms : List Form} {g : Form}
    (h : g ∈ rewritten o forms) : Emitted o forms g := by
  obtain ⟨f, hf, hg⟩ := List.mem_flatMap.mp h
  cases hrule : f.isRule with
  | true =>
    obtain ⟨r, rfl⟩ := Form.isRule_iff.mp hrule
    rcases List.mem_cons.mp hg with rfl | hg
    · exact .rewritten hf
    · obtain ⟨m, hm, rfl⟩ := List.mem_map.mp hg
      obtain ⟨pos, rfl⟩ := Rule.mem_reported hm
      exact .reported .binaryGenerator pos
  | false =>
    rw [Form.image_of_not_isRule hrule, List.mem_singleton] at hg
    exact hg ▸ .kept hf hrule

namespace ModuleScan

/-- The scan reports a declaration with parameters only, under the given origin. -/
theorem mem_markers {s : ModuleScan} {origin : Text} {m : Marker} (h : m ∈ s.markers origin) :
    ∃ pos, m = ⟨.str origin, .violation .parameterizedModule, pos⟩ := by
  unfold markers at h
  split at h
  · split at h
    · exact ⟨_, List.mem_singleton.mp h⟩
    · cases h
  · cases h

end ModuleScan

open ModuleScan (scan)

/-- Each form of a lowered module is kept, takes the place of a rule, or is generated. -/
theorem emitted_of_mem_lowered {o : Options} {forms out : List Form} {f : Form}
    (h : lower o forms = .ok out) (hf : f ∈ out) : Emitted o forms f := by
  obtain ⟨-, rules, -, rfl⟩ := lower_eq_ok.mp h
  have hflat : f ∈ (scan forms).leading ∨ f ∈ (scan forms).header
      ∨ f ∈ rewritten o (scan forms).body → Emitted o forms f := by
    intro hpart
    apply emitted_of_mem_rewritten
    rw [ModuleScan.rewritten_parts, List.mem_append, List.mem_append]
    exact hpart
  simp only [List.mem_append] at hf
  rcases hf with (((hf | hf) | hf) | hf) | hf
  · exact hflat (.inl hf)
  · simp only [ModuleScan.exportBlock, List.mem_append, List.mem_map, List.mem_cons,
      List.not_mem_nil, or_false] at hf
    rcases hf with ⟨m, hm, rfl⟩ | rfl | rfl | rfl
    · obtain ⟨pos, rfl⟩ := ModuleScan.mem_markers hm
      exact .reported .parameterizedModule pos
    · exact .mark _
    · exact .exports rules
    · exact .mark _
  · exact hflat (.inr (.inl hf))
  · simp only [ModuleScan.introspectionBlock, List.mem_cons, List.not_mem_nil, or_false] at hf
    rcases hf with rfl | rfl | rfl
    · exact .mark _
    · exact .introspection rules
    · exact .mark _
  · exact hflat (.inr (.inr hf))

/-- No rule is left in a lowered module. -/
theorem not_isRule_of_mem_lowered {o : Options} {forms out : List Form} {f : Form}
    (h : lower o forms = .ok out) (hf : f ∈ out) : f.isRule = false := by
  cases emitted_of_mem_lowered h hf with
  | kept _ hrule => exact hrule
  | _ => rfl

end RuleLowering
