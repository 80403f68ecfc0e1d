/-
  FormIntake — which files a policy takes.

  * `HasExtension filename ext`: the last dot of the name and what follows it.
  * `allows_iff`: a file is allowed if its extension, in small letters, is listed.
  * `totalSize_eq`: the total is the sum of the sizes, up to the largest size.
  * `check_eq_ok_iff`: a form is taken if every file is allowed and the total is
    within the bound.
-/
import FormIntake.Upload.Policy
import Mathlib.Algebra.GroupWithZero.Nat
import Mathlib.Algebra.Order.BigOperators.Group.List
import Mathlib.Algebra.Order.Group.Nat
import Mathlib.Data.List.Perm.Subperm
import Mathlib.Data.List.TakeWhile

namespace FormIntake

namespace UploadPolicy

/-- The extension of a name: its last dot and what follows it. -/
def HasExtension (filename : String) (ext : List Char) : Prop :=
  ∃ stem tail, filename.toList = stem ++ '.' :: tail ∧ '.' ∉ tail ∧ ext = '.' :: tail

variable {p : UploadPolicy} {filename : String} {ext cs : List Char} {form : Form}

/-! ## Extensions -/

theorem extension?_split {stem tail : List Char} (h : '.' ∉ tail) :
    extension? (stem ++ '.' :: tail) = some ('.' :: tail) := by
  have hreverse : (stem ++ '.' :: tail).reverse = tail.reverse ++ '.' :: stem.reverse := by simp
  have hnot : ∀ c ∈ tail.reverse, (c != '.') = true := by
    intro c hc
    have : c ≠ '.' := fun heq => h (heq ▸ List.mem_reverse.1 hc)
    simpa using this
  rw [extension?, hreverse, List.dropWhile_append_of_pos hnot, List.takeWhile_append_of_pos hnot]
  simp

theorem extension?_of_notMem (h : '.' ∉ cs) : extension? cs = none := by
  have hnil : cs.reverse.dropWhile (· != '.') = [] := by
    rw [List.dropWhile_eq_nil_iff]
    intro c hc
    have : c ≠ '.' := fun heq => h (heq ▸ List.mem_reverse.1 hc)
    simpa using this
  rw [extension?, hnil]

/-- A name with a dot is cut at its last one. -/
theorem exists_split_of_mem (h : '.' ∈ cs) : ∃ stem tail, cs = stem ++ '.' :: tail ∧ '.' ∉ tail := by
  obtain ⟨tail, stem, hsplit, htail⟩ := List.eq_append_cons_of_mem (List.mem_reverse.2 h)
  refine ⟨stem.reverse, tail.reverse, ?_, by simpa using htail⟩
  rw [← List.reverse_reverse cs, hsplit]
  simp

theorem extension?_eq_some_iff :
    extension? filename.toList = some ext ↔ HasExtension filename ext := by
  constructor
  · intro h
    have hdot : '.' ∈ filename.toList := by
      by_contra hnot
      rw [extension?_of_notMem hnot] at h
      cases h
    obtain ⟨stem, tail, hname, hnot⟩ := exists_split_of_mem hdot
    rw [hname, extension?_split hnot] at h
    cases h
    exact ⟨_, _, hname, hnot, rfl⟩
  · rintro ⟨stem, tail, hsplit, htail, rfl⟩
    rw [hsplit]
    exact extension?_split htail

/-- **A file is allowed if its extension is listed, whatever the case of its
    letters.** -/
theorem allows_iff : p.allows filename = true ↔
    ∃ ext, HasExtension filename ext ∧ Text.lower ext ∈ p.extensions := by
  rw [allows, Option.any_eq_true]
  simp only [extension?_eq_some_iff, List.contains_iff_mem]

/-! ## Sizes -/

theorem foldl_add_eq (uploads : List Response) {total : Nat} (h : total ≤ Size.largest) :
    uploads.foldl (fun total r => Size.add total r.content.length) total =
      min (total + (uploads.map (·.content.length)).sum) Size.largest := by
  induction uploads generalizing total with
  | nil => simp [Nat.min_eq_left h]
  | cons r uploads ih =>
    have hnext : Size.add total r.content.length ≤ Size.largest := Nat.min_le_right ..
    rw [List.foldl_cons, ih hnext, List.map_cons, List.sum_cons, Size.add]
    omega

/-- The total is the sum of the sizes, up to the largest size. -/
theorem totalSize_eq (uploads : List Response) :
    totalSize uploads = min (uploads.map (·.content.length)).sum Size.largest := by
  rw [totalSize, foldl_add_eq uploads (Nat.zero_le _), Nat.zero_add]

/-- Some of the responses are together no larger than all of them. -/
theorem sum_content_le {rs ss : List Response} (h : rs.Subperm ss) :
    (rs.map (·.content.length)).sum ≤ (ss.map (·.content.length)).sum := by
  obtain ⟨ts, hperm, hsub⟩ := h
  calc (rs.map (·.content.length)).sum
      = (ts.map (·.content.length)).sum := (hperm.map _).sum_eq.symm
    _ ≤ (ss.map (·.content.length)).sum := (hsub.map _).sum_le_sum fun _ _ => Nat.zero_le _

/-- No file is refused for its name. -/
theorem find?_uploads_eq_none_iff :
    (form.uploads.map fun r => r.filename.getD "").find? (fun name => !p.allows name) = none ↔
      ∀ r ∈ form.uploads, p.allows (r.filename.getD "") = true := by
  simp

/-- **A form is taken if every file is allowed and all of them together are within
    the bound.** -/
theorem check_eq_ok_iff : p.check form = .ok () ↔
    (∀ r ∈ form.uploads, p.allows (r.filename.getD "") = true) ∧
      totalSize form.uploads ≤ p.maxTotal := by
  rw [← find?_uploads_eq_none_iff, check]
  split
  · next name hname => simp [hname]
  · next hname =>
    split
    · next hlt => simp [Nat.not_le.2 hlt]
    · next hle => simp [hname, Nat.le_of_not_lt hle]

end UploadPolicy

end FormIntake
