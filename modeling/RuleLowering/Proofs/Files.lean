import RuleLowering.CommandLine.Disk
import RuleLowering.Proofs.Success

/-!
# Files read after they are written

A path is walked through folders, and to write a file makes no folder vanish: what can be reached
before can be reached after. The file itself is stored under the names that lead to it. So a path
that has been written to reads as what was written, and all other places are as they were.
-/
namespace RuleLowering.CommandLine.Disk

variable {d d' : Disk} {path content : String} {here place root : Place} {name : String}
  {ns : List String}

/-- A name that leads one level down. -/
structure IsPlain (name : String) : Prop where
  ne_empty : name ≠ ""
  ne_here : name ≠ "."
  ne_above : name ≠ ".."
  noSlash : '/' ∉ name.toList

theorem next_of_isPlain (here : Place) (h : IsPlain name) : next here name = here ++ [name] := by
  rw [next, if_neg (by simp [h.ne_empty, h.ne_here]), if_neg h.ne_above]

theorem foldl_next_of_isPlain (here : Place) (h : ∀ n ∈ ns, IsPlain n) :
    ns.foldl next here = here ++ ns := by
  induction ns generalizing here with
  | nil => simp
  | cons n ns ih =>
    obtain ⟨hn, hns⟩ := List.forall_mem_cons.mp h
    rw [List.foldl_cons, next_of_isPlain here hn, ih _ hns, List.append_assoc,
      List.singleton_append]

section Walk

theorem entryAt_eq_folder :
    d.entryAt place = .folder ↔ d.file? place = none ∧ d.isFolder place = true := by
  rw [entryAt]
  cases d.file? place with
  | some content => simp
  | none => cases d.isFolder place <;> simp

theorem entryAt_eq_text : d.entryAt place = .text content ↔ d.file? place = some content := by
  rw [entryAt]
  cases d.file? place with
  | some content' => simp
  | none => cases d.isFolder place <;> simp

/-- One step of a walk leads on from a folder. -/
theorem walk_cons_eq_ok :
    d.walk here (name :: ns) = .ok place ↔ d.entryAt here = .folder
      ∧ name.utf8ByteSize ≤ nameLimit ∧ d.walk (next here name) ns = .ok place := by
  rw [walk]
  split
  · rename_i hfolder
    split
    · rename_i hlong
      have hnot : ¬ name.utf8ByteSize ≤ nameLimit := by omega
      simp [hnot]
    · rename_i hshort
      simp [hfolder, Nat.not_lt.mp hshort]
  · rename_i htext
    simp [htext]
  · rename_i hfolder _
    exact iff_of_false nofun fun h => hfolder h.1

/-- A walk ends where its names lead. -/
theorem foldl_next_of_walk (h : d.walk here ns = .ok place) : ns.foldl next here = place := by
  induction ns generalizing here with
  | nil => exact Except.ok.inj h
  | cons n ns ih => exact ih (walk_cons_eq_ok.mp h).2.2

/-- A walk is still possible where all folders of before are there. -/
theorem walk_mono (hfolder : ∀ q, d.entryAt q = .folder → d'.entryAt q = .folder)
    (h : d.walk here ns = .ok place) : d'.walk here ns = .ok place := by
  induction ns generalizing here with
  | nil => exact h
  | cons n ns ih =>
    obtain ⟨hhere, hsize, hrest⟩ := walk_cons_eq_ok.mp h
    exact walk_cons_eq_ok.mpr ⟨hfolder _ hhere, hsize, ih hrest⟩

theorem locate_eq_ok :
    d.locate path = .ok place ↔ path ≠ "" ∧ '\x00' ∉ path.toList
      ∧ path.utf8ByteSize ≤ pathLimit ∧ d.walk (start path) (names path) = .ok place := by
  rw [locate]
  by_cases hempty : path = ""
  · simp [hempty]
  · by_cases hbroken : '\x00' ∈ path.toList
    · simp [hempty, hbroken]
    · by_cases hlong : pathLimit < path.utf8ByteSize
      · have hnot : ¬ path.utf8ByteSize ≤ pathLimit := by omega
        simp [hempty, hbroken, hlong, hnot]
      · simp [hempty, hbroken, hlong, Nat.not_lt.mp hlong]

/-- A path leads to its place. -/
theorem placeOf_of_locate (h : d.locate path = .ok place) : placeOf path = place :=
  foldl_next_of_walk (locate_eq_ok.mp h).2.2.2

theorem locate_mono (hfolder : ∀ q, d.entryAt q = .folder → d'.entryAt q = .folder)
    (h : d.locate path = .ok place) : d'.locate path = .ok place := by
  obtain ⟨hempty, hbroken, hlong, hwalk⟩ := locate_eq_ok.mp h
  exact locate_eq_ok.mpr ⟨hempty, hbroken, hlong, walk_mono hfolder hwalk⟩

/-- A file is written where a path leads to a file or to nothing. -/
theorem locate_of_target (h : d.target path = .ok place) : d.locate path = .ok place
    ∧ ((∃ content, d.entryAt place = .text content) ∨ d.entryAt place = .nothing) := by
  rw [target] at h
  split at h
  · cases h
  · cases h
  · rename_i q hq
    split at h
    · rename_i content hcontent
      obtain rfl := Except.ok.inj h
      exact ⟨hq, .inl ⟨content, hcontent⟩⟩
    · rename_i hnothing
      obtain rfl := Except.ok.inj h
      exact ⟨hq, .inr hnothing⟩
    · cases h

end Walk

section Names

/-- A place made of plain names below the root or the working folder, with folders on the way. -/
inductive Reached (d : Disk) (root : Place) : Place → Prop
  | root : Reached d root root
  | inside {here : Place} {name : String} : Reached d root here → d.entryAt here = .folder →
    IsPlain name → Reached d root (here ++ [name])

theorem Reached.exists_names (h : Reached d root place) :
    ∃ ns, place = root ++ ns ∧ ∀ n ∈ ns, IsPlain n := by
  induction h with
  | root => exact ⟨[], by simp, nofun⟩
  | @inside here name _ _ hname ih =>
    obtain ⟨ns, rfl, hns⟩ := ih
    refine ⟨ns ++ [name], List.append_assoc _ _ _, fun n hn => ?_⟩
    rcases List.mem_append.mp hn with hn | hn
    · exact hns n hn
    · exact List.mem_singleton.mp hn ▸ hname

/-- Each step of a walk leads to a place that can be reached. -/
theorem Reached.next (hroot : root = [] ∨ root = ["/"]) (h : Reached d root here)
    (hfolder : d.entryAt here = .folder) (hname : '/' ∉ name.toList) :
    Reached d root (Disk.next here name) := by
  rw [Disk.next]
  split
  · exact h
  · rename_i hne
    obtain ⟨hempty, hhere⟩ := not_or.mp hne
    split
    · split
      · exact h
      · rename_i hslash
        cases h with
        | root =>
          rcases hroot with rfl | rfl
          · exact .root
          · exact absurd rfl hslash
        | @inside above name habove _ _ =>
          rw [List.dropLast_concat]
          exact habove
    · rename_i habove
      exact .inside h hfolder ⟨hempty, hhere, habove, hname⟩

theorem reached_of_walk (hroot : root = [] ∨ root = ["/"]) (h : Reached d root here)
    (hns : ∀ n ∈ ns, '/' ∉ n.toList) (hwalk : d.walk here ns = .ok place) :
    Reached d root place := by
  induction ns generalizing here with
  | nil => exact Except.ok.inj hwalk ▸ h
  | cons n ns ih =>
    obtain ⟨hn, hns⟩ := List.forall_mem_cons.mp hns
    obtain ⟨hhere, -, hrest⟩ := walk_cons_eq_ok.mp hwalk
    exact ih (h.next hroot hhere hn) hns hrest

theorem not_mem_of_mem_splitOn {c : Char} {s word : List Char} (h : word ∈ s.splitOn c) :
    c ∉ word := by
  induction s generalizing word with
  | nil =>
    rw [List.splitOn_nil, List.mem_singleton] at h
    simp [h]
  | cons x s ih =>
    rw [List.splitOn_cons_eq_if_modifyHead] at h
    split at h
    · rcases List.mem_cons.mp h with rfl | h
      · simp
      · exact ih h
    · rename_i hne
      obtain ⟨first, words, hwords⟩ := List.exists_cons_of_ne_nil (List.splitOn_ne_nil c s)
      rw [hwords] at h ih
      rcases List.mem_cons.mp h with rfl | h
      · have hfirst := ih List.mem_cons_self
        simp at hne
        simp [hfirst, Ne.symm hne]
      · exact ih (.tail first h)

/-- No name along a path has a slash in it. -/
theorem noSlash_of_mem_names (h : name ∈ names path) : '/' ∉ name.toList := by
  obtain ⟨word, hword, rfl⟩ := List.mem_map.mp h
  rw [String.toList_ofList]
  exact not_mem_of_mem_splitOn hword

theorem start_cases (path : String) : start path = [] ∨ start path = ["/"] := by
  rw [start]
  split <;> simp

/-- The path made of some names leads along them. -/
theorem names_intercalate (hne : ns ≠ []) (hns : ∀ n ∈ ns, '/' ∉ n.toList) :
    names ("/".intercalate ns) = ns := by
  have hwords : ∀ word ∈ ns.map String.toList, '/' ∉ word := List.forall_mem_map.mpr hns
  have hslash : "/".toList = ['/'] := rfl
  rw [names, String.toList_intercalate, hslash,
    List.splitOn_intercalate '/' hwords (by simpa using hne), List.map_map]
  have hid : String.ofList ∘ String.toList = id := funext fun s => String.ofList_toList
  rw [hid, List.map_id]

/-- A path that begins with a plain name starts in the working folder. -/
theorem start_intercalate {n : String} (hn : IsPlain n) :
    start ("/".intercalate (n :: ns)) = [] := by
  have hne : n.toList ≠ [] := fun h => hn.ne_empty (String.toList_eq_nil_iff.mp h)
  obtain ⟨c, cs, hcons⟩ := List.exists_cons_of_ne_nil hne
  have hc : c ≠ '/' := by
    rintro rfl
    exact hn.noSlash (hcons ▸ List.mem_cons_self)
  rw [start, if_neg]
  cases ns <;> simp [String.toList_intercalate, hcons, hc]

/-- A place that has been reached is that of the path made of its names. -/
theorem placeOf_intercalate (hroot : root = [] ∨ root = ["/"]) (hne : ns ≠ [])
    (hns : ∀ n ∈ ns, IsPlain n) : placeOf ("/".intercalate (root ++ ns)) = root ++ ns := by
  have hslash : ∀ n ∈ ns, '/' ∉ n.toList := fun n hn => (hns n hn).noSlash
  rcases hroot with rfl | rfl
  · obtain ⟨n, rest, rfl⟩ := List.exists_cons_of_ne_nil hne
    have hstart : start ("/".intercalate (n :: rest)) = [] :=
      start_intercalate (hns n List.mem_cons_self)
    rw [placeOf, List.nil_append, names_intercalate hne hslash, hstart,
      foldl_next_of_isPlain [] hns]
    rfl
  · have hpath : "/".intercalate (["/"] ++ ns) = "/".intercalate ("" :: "" :: ns) := by
      obtain ⟨n, rest, rfl⟩ := List.exists_cons_of_ne_nil hne
      apply String.toList_inj.mp
      simp [String.toList_intercalate]
    have hnames : names ("/".intercalate ("" :: "" :: ns)) = "" :: "" :: ns :=
      names_intercalate (List.cons_ne_nil _ _) (by simpa using hslash)
    have hstart : start ("/".intercalate ("" :: "" :: ns)) = ["/"] := by
      rw [start, if_pos]
      simp [String.toList_intercalate]
    have hempty : ∀ here : Place, next here "" = here := fun here => by simp [next]
    rw [hpath, placeOf, hnames, hstart, List.foldl_cons, List.foldl_cons, hempty, hempty,
      foldl_next_of_isPlain _ hns]

end Names

section Put

/-- A file put at a place is found there: the place is that of a file, or of the path made of its
names. -/
def Storable (d : Disk) (place : Place) : Prop :=
  (d.file? place).isSome = true ∨ placeOf ("/".intercalate place) = place

theorem placeOf_rewritten (f : String × String) (place : Place) (content : String) :
    placeOf (if placeOf f.1 = place then (f.1, content) else f).1 = placeOf f.1 := by
  split <;> rfl

theorem file?_put_self (h : d.Storable place) (content : String) :
    (d.put place content).file? place = some content := by
  rw [put]
  split
  · rename_i hsome
    rw [file?, Option.isSome_map, Option.isSome_iff_exists] at hsome
    obtain ⟨f, hf⟩ := hsome
    have hplace : placeOf f.1 = place := by simpa using List.find?_some hf
    simp only [file?, List.find?_map, Function.comp_def, placeOf_rewritten, hf, Option.map_some,
      if_pos hplace]
  · rename_i hnone
    have hfind : d.files.find? (placeOf ·.1 == place) = none := by
      simpa [file?] using hnone
    have hplace := h.resolve_left hnone
    simp [file?, List.find?_append, hfind, hplace]

theorem file?_put_of_ne (h : d.Storable place) (content : String) {q : Place} (hq : q ≠ place) :
    (d.put place content).file? q = d.file? q := by
  rw [put]
  split
  · simp only [file?, List.find?_map, Function.comp_def, placeOf_rewritten]
    cases hfind : d.files.find? (placeOf ·.1 == q) with
    | none => rfl
    | some f =>
      have hplace : placeOf f.1 = q := by simpa using List.find?_some hfind
      simp [hplace, hq]
  · rename_i hnone
    have hplace := h.resolve_left hnone
    simp [file?, List.find?_append, hplace, Ne.symm hq]

/-- No folder vanishes when a file is put somewhere. -/
theorem isFolder_put {q : Place} (content : String) (h : d.isFolder q = true) :
    (d.put place content).isFolder q = true := by
  rw [put]
  split
  · simp only [isFolder, List.any_map, Function.comp_def, placeOf_rewritten] at h ⊢
    exact h
  · simp only [isFolder, List.any_append, Bool.or_eq_true] at h ⊢
    tauto

theorem names_ne_nil (path : String) : names path ≠ [] := by
  simp [names, List.splitOn_ne_nil]

/-- A file can be put at a place that a path leads to. -/
theorem storable_of_target (h : d.target path = .ok place) : d.Storable place := by
  obtain ⟨hlocate, hentry⟩ := locate_of_target h
  rcases hentry with ⟨content, hcontent⟩ | hnothing
  · exact .inl (Option.isSome_iff_exists.mpr ⟨content, entryAt_eq_text.mp hcontent⟩)
  · obtain ⟨-, -, -, hwalk⟩ := locate_eq_ok.mp hlocate
    have hreached := reached_of_walk (start_cases path) .root
      (fun n hn => noSlash_of_mem_names hn) hwalk
    obtain ⟨ns, rfl, hns⟩ := hreached.exists_names
    refine .inr (placeOf_intercalate (start_cases path) ?_ hns)
    rintro rfl
    obtain ⟨n, rest, hcons⟩ := List.exists_cons_of_ne_nil (names_ne_nil path)
    rw [hcons] at hwalk
    have hstart := (walk_cons_eq_ok.mp hwalk).1
    rw [List.append_nil, hstart] at hnothing
    cases hnothing

/-- Where a path can be written to there is no folder, and so all folders stay. -/
theorem entryAt_put_of_folder (h : d.target path = .ok place) (content : String) {q : Place}
    (hq : d.entryAt q = .folder) : (d.put place content).entryAt q = .folder := by
  have hne : q ≠ place := by
    rintro rfl
    rcases (locate_of_target h).2 with ⟨content', hcontent⟩ | hnothing
    · cases hq.symm.trans hcontent
    · cases hq.symm.trans hnothing
  obtain ⟨hfile, hfolder⟩ := entryAt_eq_folder.mp hq
  exact entryAt_eq_folder.mpr
    ⟨(file?_put_of_ne (storable_of_target h) content hne).trans hfile, isFolder_put content hfolder⟩

/-- A path that a file has been put at reads as what was put there, and every other place has the
file that it had. -/
theorem read_put (h : d.target path = .ok place) (content : String) :
    (d.put place content).read path = .ok content
      ∧ ∀ q, q ≠ placeOf path → (d.put place content).file? q = d.file? q := by
  have hstorable := storable_of_target h
  have hlocate := (locate_of_target h).1
  constructor
  · have hafter := locate_mono (fun q hq => entryAt_put_of_folder h content hq) hlocate
    have hentry : (d.put place content).entry path = .text content := by
      rw [entry, hafter]
      exact entryAt_eq_text.mpr (file?_put_self hstorable content)
    rw [read, hentry]
  · intro q hq
    rw [placeOf_of_locate hlocate] at hq
    exact file?_put_of_ne hstorable content hq

end Put

end RuleLowering.CommandLine.Disk
