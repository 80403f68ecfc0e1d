/-
  FormIntake — the last file of each field, found by places.

  One walk over the files notes for each field the place of the last file so far
  (`lastPlaces`); a second walk keeps the files at the places noted (`keepLast`).  After
  each file the place noted for a field is the last one so far (`getElem?_lastPlaces`), so
  what is kept is what `lastPerField` keeps (`keepLast_eq`).

  * `keepLast_survivors`: which files are kept, in which order, and how that goes with a second
    time and with further files.
-/
import FormIntake.Proofs.Upload.Naming
import Mathlib.Data.List.Induction

namespace FormIntake.Upload

variable {u : Upload} {us : List Upload} {id : String} {i : Nat}

/-- The ids of the fields that the files are for. -/
def fieldIds (us : List Upload) : List String := us.map (·.fieldId)

theorem mem_fieldIds_iff : id ∈ fieldIds us ↔ ∃ v ∈ us, v.fieldId = id := List.mem_map

/-! ## The places -/

/-- The place of the last file for each field.  A later place takes that of an earlier one. -/
def lastPlaces (us : List Upload) : Std.HashMap String Nat :=
  us.zipIdx.foldl (fun places (u, i) => places.insert u.fieldId i) ∅

/-- The places that are the last for some field, in no particular order. -/
def keptPlaces (us : List Upload) : Std.HashSet Nat :=
  .ofList ((lastPlaces us).toList.map (·.2))

/-- The files at the last places. -/
def keepLast (us : List Upload) : List Upload :=
  us.zipIdx.filterMap fun (u, i) => if (keptPlaces us).contains i then some u else none

/-- The file at the place is for the field, and no later one is. -/
structure LastAt (us : List Upload) (id : String) (i : Nat) : Prop where
  here : ∃ u, us[i]? = some u ∧ u.fieldId = id
  later : id ∉ fieldIds (us.drop (i + 1))

theorem LastAt.lt (h : LastAt us id i) : i < us.length := by
  obtain ⟨u, hu, -⟩ := h.here
  exact (List.getElem?_eq_some_iff.1 hu).1

/-- A further file is the last one for its field. -/
theorem lastAt_concat_self (us : List Upload) (u : Upload) :
    LastAt (us ++ [u]) u.fieldId i ↔ i = us.length := by
  constructor
  · intro h
    have hlt := h.lt
    rw [List.length_append, List.length_singleton] at hlt
    refine Nat.eq_of_lt_succ_of_not_lt hlt fun hi => h.later ?_
    rw [List.drop_append_of_le_length hi]
    exact mem_fieldIds_iff.2 ⟨u, by simp, rfl⟩
  · rintro rfl
    exact ⟨⟨u, List.getElem?_concat_length, rfl⟩, by simp [fieldIds]⟩

/-- For other fields it changes nothing. -/
theorem lastAt_concat_of_ne (hid : u.fieldId ≠ id) :
    LastAt (us ++ [u]) id i ↔ LastAt us id i := by
  have hlater : i < us.length →
      (id ∈ fieldIds ((us ++ [u]).drop (i + 1)) ↔ id ∈ fieldIds (us.drop (i + 1))) := by
    intro hi
    rw [List.drop_append_of_le_length hi, fieldIds, List.map_append, List.mem_append, fieldIds]
    exact or_iff_left (by simpa using hid.symm)
  constructor
  · intro h
    obtain ⟨w, hw, hwid⟩ := h.here
    have hlt := h.lt
    rw [List.length_append, List.length_singleton] at hlt
    rcases Nat.lt_succ_iff_lt_or_eq.1 hlt with hi | rfl
    · exact ⟨⟨w, (List.getElem?_append_left hi).symm.trans hw, hwid⟩, mt (hlater hi).2 h.later⟩
    · rw [List.getElem?_concat_length, Option.some_inj] at hw
      exact absurd (hw ▸ hwid) hid
  · intro h
    obtain ⟨w, hw, hwid⟩ := h.here
    exact ⟨⟨w, (List.getElem?_append_left h.lt).trans hw, hwid⟩, mt (hlater h.lt).1 h.later⟩

theorem lastPlaces_concat (us : List Upload) (u : Upload) :
    lastPlaces (us ++ [u]) = (lastPlaces us).insert u.fieldId us.length := by
  rw [lastPlaces, List.zipIdx_append, List.foldl_append, Nat.zero_add]
  rfl

/-- **After each file the place noted for a field is the last one so far.** -/
theorem getElem?_lastPlaces : (lastPlaces us)[id]? = some i ↔ LastAt us id i := by
  induction us using List.reverseRecOn with
  | nil =>
    refine iff_of_false (by simp [lastPlaces]) fun h => ?_
    exact absurd h.lt (Nat.not_lt_zero i)
  | append_singleton us u ih =>
    rw [lastPlaces_concat, Std.HashMap.getElem?_insert]
    by_cases hid : u.fieldId = id
    · subst hid
      rw [if_pos (beq_self_eq_true _), lastAt_concat_self, Option.some_inj, eq_comm]
    · rw [if_neg (by simpa using hid), lastAt_concat_of_ne hid, ih]

theorem contains_keptPlaces : (keptPlaces us).contains i = true ↔ ∃ id, LastAt us id i := by
  rw [keptPlaces, Std.HashSet.contains_ofList, List.contains_iff_mem, List.mem_map]
  constructor
  · rintro ⟨⟨id, _⟩, hmem, rfl⟩
    exact ⟨id, getElem?_lastPlaces.1 (Std.HashMap.mem_toList_iff_getElem?_eq_some.1 hmem)⟩
  · rintro ⟨id, hlast⟩
    have hplace := getElem?_lastPlaces.2 hlast
    exact ⟨(id, i), Std.HashMap.mem_toList_iff_getElem?_eq_some.2 hplace, rfl⟩

/-! ## The files -/

/-- The files, in their order, that no file behind them is for the same field as. -/
def survivors (us : List Upload) : List Upload :=
  us.zipIdx.filterMap fun (u, i) => if u.fieldId ∈ fieldIds (us.drop (i + 1)) then none else some u

/-- A place is kept if no later file is for the field of the one there. -/
theorem contains_keptPlaces_iff (hu : us[i]? = some u) :
    (keptPlaces us).contains i = true ↔ u.fieldId ∉ fieldIds (us.drop (i + 1)) := by
  rw [contains_keptPlaces]
  constructor
  · rintro ⟨_, ⟨w, hw, rfl⟩, hlater⟩
    obtain rfl : u = w := Option.some.inj (hu.symm.trans hw)
    exact hlater
  · intro hlater
    exact ⟨u.fieldId, ⟨u, hu, rfl⟩, hlater⟩

theorem keepLast_eq_survivors (us : List Upload) : keepLast us = survivors us := by
  refine List.filterMap_congr fun ⟨u, i⟩ hmem => ?_
  have hiff := contains_keptPlaces_iff (List.mk_mem_zipIdx_iff_getElem?.1 hmem)
  dsimp only
  by_cases hlater : u.fieldId ∈ fieldIds (us.drop (i + 1))
  · rw [if_neg (fun h => hiff.1 h hlater), if_pos hlater]
  · rw [if_pos (hiff.2 hlater), if_neg hlater]

theorem survivors_cons (u : Upload) (us : List Upload) :
    survivors (u :: us) = if u.fieldId ∈ fieldIds us then survivors us else u :: survivors us := by
  have hrest : (us.zipIdx 1).filterMap (fun (w, i) =>
      if w.fieldId ∈ fieldIds ((u :: us).drop (i + 1)) then none else some w) = survivors us := by
    rw [List.zipIdx_succ, List.filterMap_map]
    rfl
  rw [survivors, List.zipIdx_cons, List.filterMap_cons, hrest]
  by_cases hlater : u.fieldId ∈ fieldIds us
  · simp [hlater]
  · simp [hlater]

theorem lastPerField_eq_survivors (us : List Upload) : lastPerField us = survivors us := by
  induction us with
  | nil => rfl
  | cons u us ih => rw [lastPerField_cons, survivors_cons, ih]; simp [mem_fieldIds_iff]

theorem keepLast_eq (us : List Upload) : keepLast us = lastPerField us :=
  (keepLast_eq_survivors us).trans (lastPerField_eq_survivors us).symm

/-! ## What is kept -/

theorem lastPerField_sublist (us : List Upload) : (lastPerField us).Sublist us := by
  induction us with
  | nil => exact .slnil
  | cons u us ih =>
    rw [lastPerField_cons]
    split
    · exact ih.cons u
    · exact ih.cons_cons u

/-- No field loses its last file. -/
theorem mem_fieldIds_lastPerField : id ∈ fieldIds (lastPerField us) ↔ id ∈ fieldIds us := by
  induction us with
  | nil => rfl
  | cons u us ih =>
    rw [lastPerField_cons]
    split
    · next hlater =>
      rw [ih, fieldIds, fieldIds, List.map_cons, List.mem_cons]
      constructor
      · exact Or.inr
      · rintro (rfl | hid)
        exacts [mem_fieldIds_iff.2 hlater, hid]
    · rw [fieldIds, List.map_cons, List.mem_cons, fieldIds, List.map_cons, List.mem_cons]
      exact or_congr_right ih

/-- Of files followed by others those are kept that no file of the others replaces. -/
theorem lastPerField_append (xs ys : List Upload) : lastPerField (xs ++ ys) =
    (lastPerField xs).filter (fun u => u.fieldId ∉ fieldIds ys) ++ lastPerField ys := by
  induction xs with
  | nil => rfl
  | cons u xs ih =>
    have hsplit : (∃ v ∈ xs ++ ys, v.fieldId = u.fieldId) ↔
        (∃ v ∈ xs, v.fieldId = u.fieldId) ∨ u.fieldId ∈ fieldIds ys := by
      rw [mem_fieldIds_iff]
      simp only [List.mem_append, or_and_right, exists_or]
    rw [List.cons_append, lastPerField_cons, lastPerField_cons, ih]
    by_cases hxs : ∃ v ∈ xs, v.fieldId = u.fieldId
    · rw [if_pos (hsplit.2 (Or.inl hxs)), if_pos hxs]
    · rw [if_neg hxs]
      by_cases hys : u.fieldId ∈ fieldIds ys
      · rw [if_pos (hsplit.2 (Or.inr hys)), List.filter_cons_of_neg (by simpa using hys)]
      · rw [if_neg fun h => (hsplit.1 h).elim hxs hys, List.filter_cons_of_pos (by simpa using hys),
          List.cons_append]

/-- **The files at the last places are the last file of each field.**  Kept, in their order and
    unchanged, are the files that no later one is for the same field as.  So no two of them are
    for one field, no field loses all its files, a second time changes nothing, and of files
    followed by others those are kept that the others do not replace, and then what is kept of
    the others. -/
theorem keepLast_survivors (us : List Upload) :
    keepLast us = lastPerField us ∧ keepLast us = survivors us ∧ (keepLast us).Sublist us ∧
      (fieldIds (keepLast us)).Nodup ∧
      (∀ id, id ∈ fieldIds (keepLast us) ↔ id ∈ fieldIds us) ∧
      keepLast (keepLast us) = keepLast us ∧
      ∀ xs ys, keepLast (xs ++ ys) =
        (keepLast xs).filter (fun u => u.fieldId ∉ fieldIds ys) ++ keepLast ys := by
  have hkeep : keepLast = lastPerField := funext keepLast_eq
  rw [hkeep]
  exact ⟨rfl, lastPerField_eq_survivors us, lastPerField_sublist us, nodup_lastPerField us,
    fun _ => mem_fieldIds_lastPerField, lastPerField_eq_self (nodup_lastPerField us),
    lastPerField_append⟩

end FormIntake.Upload
