/-
  FormIntake — which uploaded files are kept, and under which names.

  `lastPerField` keeps the files that no later one for the same field replaces
  (`mem_lastPerField_iff`), so no two of them are for one field.

  One of the numbered names is always free, since there are more of them than names
  taken (`exists_firstFree`).  So `withDistinctNames` keeps each file, under its
  name or a number in front of it (`forall₂_renamed`), and no two files have one
  name (`nodup_withDistinctNames`).
-/
import FormIntake.Upload.Basic
import Mathlib.Data.List.Nodup
import Mathlib.Data.List.Perm.Subperm

namespace FormIntake.Upload

variable {u v : Upload} {us : List Upload} {taken : List String} {name : String}

/-! ## One file for each field -/

theorem lastPerField_cons (u : Upload) (us : List Upload) :
    lastPerField (u :: us) =
      if ∃ v ∈ us, v.fieldId = u.fieldId then lastPerField us else u :: lastPerField us := by
  rw [lastPerField]
  simp only [List.any_eq_true, beq_iff_eq]

/-- **The files kept are those that no later one for the same field replaces.** -/
theorem mem_lastPerField_iff : u ∈ lastPerField us ↔
    ∃ front back, us = front ++ u :: back ∧ ∀ v ∈ back, v.fieldId ≠ u.fieldId := by
  induction us with
  | nil => simp [lastPerField]
  | cons w us ih =>
    have hlater : u ∈ lastPerField us → ∃ front back, w :: us = front ++ u :: back ∧
        ∀ v ∈ back, v.fieldId ≠ u.fieldId := by
      intro hu
      obtain ⟨front, back, rfl, hback⟩ := ih.1 hu
      exact ⟨w :: front, back, rfl, hback⟩
    rw [lastPerField_cons]
    constructor
    · intro hu
      split at hu
      · exact hlater hu
      · next hlast =>
        rcases List.mem_cons.1 hu with rfl | hu
        · exact ⟨[], us, rfl, fun v hv heq => hlast ⟨v, hv, heq⟩⟩
        · exact hlater hu
    · rintro ⟨front, back, hsplit, hback⟩
      cases front with
      | nil =>
        cases hsplit
        rw [if_neg fun ⟨v, hv, heq⟩ => hback v hv heq]
        exact List.mem_cons_self
      | cons w' front =>
        cases hsplit
        have hu := ih.2 ⟨front, back, rfl, hback⟩
        split
        · exact hu
        · exact List.mem_cons_of_mem _ hu

theorem mem_of_mem_lastPerField (h : u ∈ lastPerField us) : u ∈ us := by
  obtain ⟨front, back, rfl, -⟩ := mem_lastPerField_iff.1 h
  simp

theorem nodup_lastPerField (us : List Upload) : ((lastPerField us).map (·.fieldId)).Nodup := by
  induction us with
  | nil => exact List.nodup_nil
  | cons u us ih =>
    rw [lastPerField_cons]
    split
    · exact ih
    · next hlast =>
      rw [List.map_cons, List.nodup_cons]
      refine ⟨fun hmem => ?_, ih⟩
      obtain ⟨v, hv, heq⟩ := List.mem_map.1 hmem
      exact hlast ⟨v, mem_of_mem_lastPerField hv, heq⟩

/-- Files for different fields are all kept. -/
theorem lastPerField_eq_self (h : (us.map (·.fieldId)).Nodup) : lastPerField us = us := by
  induction us with
  | nil => rfl
  | cons u us ih =>
    rw [List.map_cons, List.nodup_cons] at h
    rw [lastPerField_cons, ih h.2, if_neg]
    rintro ⟨v, hv, heq⟩
    exact h.1 (List.mem_map.2 ⟨v, hv, heq⟩)

/-! ## Free names -/

theorem toList_numbered (k : Nat) (name : String) :
    (numbered k name).toList = Text.digits k ++ '-' :: name.toList := String.toList_ofList

/-- A number in front brings nothing into a name but digits and a hyphen. -/
theorem notMem_numbered {c : Char} (hdigit : c.isDigit = false) (hhyphen : c ≠ '-')
    (h : c ∉ name.toList) (k : Nat) : c ∉ (numbered k name).toList := by
  rw [toList_numbered, List.mem_append, List.mem_cons]
  rintro (hc | hc | hc)
  · exact Text.notMem_digits hdigit k hc
  · exact hhyphen hc
  · exact h hc

theorem numbered_injective (name : String) : Function.Injective fun k => numbered k name := by
  intro j k h
  have hlist := congrArg String.toList h
  simp only [toList_numbered] at hlist
  have hdigits := List.append_cancel_right hlist
  calc j = Text.value (Text.digits j) := (Text.value_digits j).symm
    _ = Text.value (Text.digits k) := by rw [hdigits]
    _ = k := Text.value_digits k

/-- Among one more names than are taken, one is free. -/
theorem exists_numbered_notMem (taken : List String) (name : String) :
    ∃ k < taken.length + 1, numbered (k + 1) name ∉ taken := by
  by_contra hall
  have hsub : (List.range (taken.length + 1)).map (fun k => numbered (k + 1) name) ⊆ taken := by
    intro n hn
    obtain ⟨k, hk, rfl⟩ := List.mem_map.1 hn
    exact Classical.not_not.1 fun hfree => hall ⟨k, List.mem_range.1 hk, hfree⟩
  have hinjective : Function.Injective fun k => numbered (k + 1) name :=
    fun j k h => Nat.succ.inj (numbered_injective name h)
  have hnodup := (List.nodup_range (n := taken.length + 1)).map hinjective
  have hle := (List.subperm_of_subset hnodup hsub).length_le
  rw [List.length_map, List.length_range] at hle
  omega

/-- The free name is the one with the least number. -/
theorem exists_firstFree (taken : List String) (name : String) :
    ∃ k, 0 < k ∧ firstFree taken name = numbered k name ∧ numbered k name ∉ taken ∧
      ∀ j, 0 < j → j < k → numbered j name ∈ taken := by
  have hfind : firstFree taken name = (((List.range (taken.length + 1)).find?
      fun k => !taken.contains (numbered (k + 1) name)).map fun k => numbered (k + 1) name).getD name := by
    rw [firstFree, List.find?_map]
    rfl
  cases hk : (List.range (taken.length + 1)).find? fun k => !taken.contains (numbered (k + 1) name) with
  | none =>
    obtain ⟨k, hlt, hfree⟩ := exists_numbered_notMem taken name
    rw [List.find?_range_eq_none] at hk
    exact absurd (hk k hlt) (by simpa using hfree)
  | some k =>
    rw [hk] at hfind
    obtain ⟨hfree, -, hleast⟩ := List.find?_range_eq_some.1 hk
    refine ⟨k + 1, by omega, hfind, by simpa using hfree, fun j hpos hj => ?_⟩
    obtain ⟨i, rfl⟩ : ∃ i, j = i + 1 := ⟨j - 1, by omega⟩
    simpa using hleast i (by omega)

theorem freeName_of_mem (h : name ∈ taken) : freeName taken name = firstFree taken name := by
  rw [freeName, if_pos (by simpa using h)]

theorem freeName_of_notMem (h : name ∉ taken) : freeName taken name = name := by
  rw [freeName, if_neg (by simpa using h)]

theorem freeName_notMem (taken : List String) (name : String) : freeName taken name ∉ taken := by
  by_cases h : name ∈ taken
  · obtain ⟨k, -, heq, hfree, -⟩ := exists_firstFree taken name
    rw [freeName_of_mem h, heq]
    exact hfree
  · rw [freeName_of_notMem h]
    exact h

/-! ## One name for each file -/

/-- The same file under the same name or one with a number in front. -/
structure Renamed (u v : Upload) : Prop where
  fieldId : v.fieldId = u.fieldId
  content : v.content = u.content
  filename : v.filename = u.filename ∨ ∃ k, 0 < k ∧ v.filename = numbered k u.filename

theorem renamed_freeName (taken : List String) (u : Upload) :
    Renamed u { u with filename := freeName taken u.filename } where
  fieldId := rfl
  content := rfl
  filename := by
    by_cases h : u.filename ∈ taken
    · obtain ⟨k, hpos, heq, -, -⟩ := exists_firstFree taken u.filename
      exact Or.inr ⟨k, hpos, (freeName_of_mem h).trans heq⟩
    · exact Or.inl (freeName_of_notMem h)

/-- What stands in the second list stands in relation to something in the first. -/
theorem exists_of_mem_forall₂ {α β : Type} {R : α → β → Prop} {xs : List α} {ys : List β} {y : β}
    (h : List.Forall₂ R xs ys) (hy : y ∈ ys) : ∃ x ∈ xs, R x y := by
  induction h with
  | nil => cases hy
  | @cons x z xs ys hxz _ ih =>
    rcases List.mem_cons.1 hy with rfl | hy
    · exact ⟨x, List.mem_cons_self, hxz⟩
    · obtain ⟨w, hw, hwy⟩ := ih hy
      exact ⟨w, List.mem_cons_of_mem _ hw, hwy⟩

theorem exists_of_forall₂_of_mem {α β : Type} {R : α → β → Prop} {xs : List α} {ys : List β} {x : α}
    (h : List.Forall₂ R xs ys) (hx : x ∈ xs) : ∃ y ∈ ys, R x y :=
  exists_of_mem_forall₂ (List.Forall₂.flip (R := flip R) h) hx

/-- **Nothing but names is changed, and these only by a number in front.** -/
theorem forall₂_renamed (us : List Upload) : List.Forall₂ Renamed us (withDistinctNames us) := by
  induction us with
  | nil => exact .nil
  | cons u us ih => exact .cons (renamed_freeName _ u) ih

/-- **No two files have one name.** -/
theorem nodup_withDistinctNames (us : List Upload) :
    ((withDistinctNames us).map (·.filename)).Nodup := by
  induction us with
  | nil => exact List.nodup_nil
  | cons u us ih =>
    rw [withDistinctNames, List.map_cons, List.nodup_cons]
    exact ⟨freeName_notMem _ _, ih⟩

theorem exists_renamed_of_mem (h : v ∈ withDistinctNames us) : ∃ u ∈ us, Renamed u v :=
  exists_of_mem_forall₂ (forall₂_renamed us) h

end FormIntake.Upload
