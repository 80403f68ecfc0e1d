/-
  FormIntake — values without repeated keys.

  A value is `Distinct` if no object in it repeats a key, at any depth.  Settled values are
  distinct (`distinct_settle`), and settling changes no other property of a value: it fits
  where the value did (`fits_settle`), and a distinct value is settled (`settle_eq_self`).

  `doubles` lists the doubles of a value: what holds of these can be asked of each of them
  alone (`Fits.of_doubles`).
-/
import FormIntake.Proofs.Json.Document

namespace FormIntake.Json

variable {α : Type} {p q : Double → Prop} {depth : Nat} {v : Json}

/-- No object repeats a key. -/
inductive Distinct : Json → Prop
  | null : Distinct null
  | bool {b} : Distinct (bool b)
  | number {n} : Distinct (number n)
  | text {s} : Distinct (text s)
  | array {items} : (∀ v ∈ items, Distinct v) → Distinct (array items)
  | object {members} : (members.map Prod.fst).Nodup → (∀ m ∈ members, Distinct m.2) →
      Distinct (object members)

/-! ## Members with their keys -/

theorem put_of_notMem {key : String} {ms : List (String × α)} (h : key ∉ ms.map Prod.fst) (v : α) :
    put key v ms = ms ++ [(key, v)] := by
  induction ms with
  | nil => rfl
  | cons m ms ih =>
    rw [List.map_cons, List.mem_cons, not_or] at h
    rw [put, if_neg (Ne.symm h.1), ih h.2, List.cons_append]

/-- A key keeps its place, and a new one is the last. -/
theorem keys_put (key : String) (v : α) (ms : List (String × α)) :
    (put key v ms).map Prod.fst =
      if key ∈ ms.map Prod.fst then ms.map Prod.fst else ms.map Prod.fst ++ [key] := by
  split
  · next h =>
    induction ms with
    | nil => cases h
    | cons m ms ih =>
      rw [put]
      split
      · next hkey => rw [List.map_cons, List.map_cons, hkey]
      · next hkey =>
        rw [List.map_cons, List.mem_cons, or_iff_right (Ne.symm hkey)] at h
        rw [List.map_cons, List.map_cons, ih h]
  · next h => rw [put_of_notMem h, List.map_append, List.map_singleton]

theorem nodup_keys_put {key : String} {v : α} {ms : List (String × α)}
    (h : (ms.map Prod.fst).Nodup) : ((put key v ms).map Prod.fst).Nodup := by
  rw [keys_put]
  split
  · exact h
  · next hkey =>
    refine List.nodup_append.2 ⟨h, by simp, fun k hk k' hk' => ?_⟩
    cases List.mem_singleton.1 hk'
    rintro rfl
    exact hkey hk

theorem mem_put {key : String} {v : α} {ms : List (String × α)} {m : String × α}
    (h : m ∈ put key v ms) : m = (key, v) ∨ m ∈ ms := by
  induction ms with
  | nil => exact .inl (List.mem_singleton.1 h)
  | cons n ms ih =>
    rw [put] at h
    split at h
    · exact (List.mem_cons.1 h).imp_right (List.mem_cons_of_mem n)
    · rcases List.mem_cons.1 h with rfl | h
      · exact .inr List.mem_cons_self
      · exact (ih h).imp_right (List.mem_cons_of_mem n)

/-! ## Settling -/

theorem settleItems_eq (vs : List Json) : settleItems vs = vs.map settle := by
  induction vs with
  | nil => rfl
  | cons v vs ih => rw [settleItems, ih, List.map_cons]

theorem nodup_keys_settleMembers {done : List (String × Json)} (h : (done.map Prod.fst).Nodup)
    (ms : List (String × Json)) : ((settleMembers done ms).map Prod.fst).Nodup := by
  induction ms generalizing done with
  | nil => exact h
  | cons m ms ih => exact ih (nodup_keys_put h)

/-- What holds of the members before and of the settled ones holds of all. -/
theorem forall_settleMembers {P : Json → Prop} {done ms : List (String × Json)}
    (hdone : ∀ m ∈ done, P m.2) (hms : ∀ m ∈ ms, P m.2.settle) :
    ∀ m ∈ settleMembers done ms, P m.2 := by
  induction ms generalizing done with
  | nil => exact hdone
  | cons m ms ih =>
    obtain ⟨hm, hms⟩ := List.forall_mem_cons.1 hms
    refine ih (fun n hn => ?_) hms
    rcases mem_put hn with rfl | hn
    · exact hm
    · exact hdone n hn

/-- Members with keys of their own are appended as they are. -/
theorem settleMembers_of_nodup {done ms : List (String × Json)}
    (hkeys : ((done ++ ms).map Prod.fst).Nodup) (hms : ∀ m ∈ ms, m.2.settle = m.2) :
    settleMembers done ms = done ++ ms := by
  induction ms generalizing done with
  | nil => rw [settleMembers, List.append_nil]
  | cons m ms ih =>
    obtain ⟨hm, hms⟩ := List.forall_mem_cons.1 hms
    have hnew : m.1 ∉ done.map Prod.fst := by
      rw [List.map_append, List.map_cons, List.nodup_append] at hkeys
      exact fun hmem => hkeys.2.2 m.1 hmem m.1 List.mem_cons_self rfl
    have hsplit : done ++ m :: ms = (done ++ [m]) ++ ms := by simp
    rw [hsplit] at hkeys ⊢
    rw [settleMembers, hm, put_of_notMem hnew]
    exact ih hkeys hms

/-- **Settled values are distinct.** -/
theorem distinct_settle (v : Json) : Distinct v.settle := by
  match v with
  | .null => exact .null
  | .bool _ => exact .bool
  | .number _ => exact .number
  | .text _ => exact .text
  | .array items =>
    rw [settle, settleItems_eq]
    refine .array fun w hw => ?_
    obtain ⟨v, hv, rfl⟩ := List.mem_map.1 hw
    exact distinct_settle v
  | .object members =>
    rw [settle]
    have hkeys : (([] : List (String × Json)).map Prod.fst).Nodup := List.nodup_nil
    refine .object (nodup_keys_settleMembers hkeys members) ?_
    exact forall_settleMembers (by simp) fun m hm => distinct_settle m.2
termination_by sizeOf v
decreasing_by
  · have := List.sizeOf_lt_of_mem hv
    simp
    omega
  · have := List.sizeOf_lt_of_mem hm
    obtain ⟨key, v⟩ := m
    simp at this ⊢
    omega

/-- **Distinct values are settled.** -/
theorem settle_eq_self (h : Distinct v) : v.settle = v := by
  induction h with
  | null | bool | number | text => rfl
  | array _ ih => rw [settle, settleItems_eq, List.map_congr_left ih, List.map_id']
  | @object members hkeys _ ih =>
    rw [settle, settleMembers_of_nodup (by rwa [List.nil_append]) ih, List.nil_append]

theorem fits_settle (h : Fits p depth v) : Fits p depth v.settle := by
  induction h with
  | null => exact .null
  | bool => exact .bool
  | number hn => exact .number hn
  | text => exact .text
  | array _ ih =>
    rw [settle, settleItems_eq]
    exact .array (List.forall_mem_map.2 ih)
  | object _ ih =>
    rw [settle]
    exact .object (forall_settleMembers (by simp) ih)

theorem settle_ne_null (h : v ≠ null) : v.settle ≠ null := by
  cases v with
  | null => exact absurd rfl h
  | bool | number | text => exact h
  | array | object => simp [settle]

/-! ## Doubles of a value -/

mutual

/-- The doubles in a value. -/
def doubles : Json → List Double
  | number (.real d) => [d]
  | array items => itemDoubles items
  | object members => memberDoubles members
  | _ => []

/-- The doubles in the items of an array. -/
def itemDoubles : List Json → List Double
  | [] => []
  | v :: rest => doubles v ++ itemDoubles rest

/-- The doubles in the members of an object. -/
def memberDoubles : List (String × Json) → List Double
  | [] => []
  | (_, v) :: rest => doubles v ++ memberDoubles rest

end

theorem mem_itemDoubles {vs : List Json} {d : Double} (hv : v ∈ vs) (hd : d ∈ v.doubles) :
    d ∈ itemDoubles vs := by
  induction vs with
  | nil => cases hv
  | cons w vs ih =>
    rw [itemDoubles, List.mem_append]
    rcases List.mem_cons.1 hv with rfl | hv
    · exact .inl hd
    · exact .inr (ih hv)

theorem mem_memberDoubles {ms : List (String × Json)} {m : String × Json} {d : Double} (hm : m ∈ ms)
    (hd : d ∈ m.2.doubles) : d ∈ memberDoubles ms := by
  induction ms with
  | nil => cases hm
  | cons n ms ih =>
    rw [memberDoubles, List.mem_append]
    rcases List.mem_cons.1 hm with rfl | hm
    · exact .inl hd
    · exact .inr (ih hm)

/-- **Another property of the doubles can be asked of each of them.** -/
theorem Fits.of_doubles (h : Fits p depth v) (hq : ∀ d ∈ v.doubles, q d) : Fits q depth v := by
  induction h with
  | null => exact .null
  | bool => exact .bool
  | @number _ n hn =>
    refine .number ?_
    cases n with
    | int i => exact hn
    | real d => exact hq d (by simp [doubles])
  | text => exact .text
  | array _ ih =>
    refine .array fun v hv => ih v hv fun d hd => hq d ?_
    rw [doubles]
    exact mem_itemDoubles hv hd
  | object _ ih =>
    refine .object fun m hm => ih m hm fun d hd => hq d ?_
    rw [doubles]
    exact mem_memberDoubles hm hd

end FormIntake.Json
