/-
  FormIntake — pieces of records, written and read back.

  Each writer of `Json` is undone by its reader, and what it writes fits.
-/
import FormIntake.Json.Record
import FormIntake.Proofs.Json.Document
import FormIntake.Size

namespace FormIntake.Json

variable {α β γ : Type} {p : Double → Prop} {depth : Nat}

/-! ## Fields by their keys -/

theorem fieldOf?_map (f : α → β) (names : List String) (ms : List (String × α)) :
    fieldOf? names (ms.map fun m => (m.1, f m.2)) = (fieldOf? names ms).map (Option.map f) := by
  have hfilter : (ms.map fun m => (m.1, f m.2)).filter (fun m => names.contains m.1) =
      (ms.filter fun m => names.contains m.1).map fun m => (m.1, f m.2) := List.filter_map
  rw [fieldOf?, fieldOf?, hfilter]
  cases ms.filter fun m => names.contains m.1 with
  | nil => rfl
  | cons m rest => cases rest <;> rfl

theorem mem_of_fieldOf? {names : List String} {ms : List (String × α)} {v : α}
    (h : fieldOf? names ms = some (some v)) : ∃ m ∈ ms, m.2 = v := by
  unfold fieldOf? at h
  split at h
  · cases h
  · next m hfilter =>
    cases h
    have hm : m ∈ ms.filter fun m => names.contains m.1 := hfilter ▸ List.mem_singleton_self m
    exact ⟨m, (List.mem_filter.1 hm).1, rfl⟩
  · cases h

/-! ## Reading back -/

theorem natural?_ofNat {max n : Nat} (h : n ≤ max) : natural? max (ofNat n) = some n := by
  rw [ofNat, natural?, if_pos ⟨Int.natCast_nonneg n, Int.ofNat_le.2 h⟩, Int.toNat_natCast]

theorem double?_ofDouble (d : Double) : double? (ofDouble d) = some d := rfl

theorem optional?_ofOption {read : Json → Option α} {write : α → Json} {o : Option α}
    (hread : ∀ v, o = some v → read (write v) = some v) (hnull : ∀ v, write v ≠ null) :
    optional? read (ofOption write o) = some o := by
  cases o with
  | none => rfl
  | some v =>
    rw [ofOption, optional?.eq_2 _ _ (hnull v), hread v rfl]
    rfl

theorem mapM_map_of {read : β → Option γ} {f : α → β} {g : α → γ} {xs : List α}
    (h : ∀ x ∈ xs, read (f x) = some (g x)) : (xs.map f).mapM read = some (xs.map g) := by
  induction xs with
  | nil => rfl
  | cons x xs ih =>
    obtain ⟨hx, hxs⟩ := List.forall_mem_cons.1 h
    rw [List.map_cons, List.mapM_cons, hx, ih hxs]
    rfl

theorem list?_array {read : Json → Option α} {write : α → Json} {xs : List α}
    (h : ∀ x ∈ xs, read (write x) = some x) : list? read (array (xs.map write)) = some xs := by
  rw [list?, mapM_map_of h, List.map_id']

theorem list?_ofTexts (ss : List String) : list? text? (ofTexts ss) = some ss :=
  list?_array fun _ _ => rfl

/-! ## Fitting -/

theorem Fits.mono {d d' : Nat} {v : Json} (h : Fits p d v) (hle : d ≤ d') : Fits p d' v := by
  induction h generalizing d' with
  | null => exact .null
  | bool => exact .bool
  | number hn => exact .number hn
  | text => exact .text
  | @array d _ _ ih =>
    obtain ⟨k, rfl⟩ : ∃ k, d' = k + 1 := ⟨d' - 1, by omega⟩
    exact .array fun v hv => ih v hv (by omega)
  | @object d _ _ ih =>
    obtain ⟨k, rfl⟩ : ∃ k, d' = k + 1 := ⟨d' - 1, by omega⟩
    exact .object fun m hm => ih m hm (by omega)

theorem fits_ofNat {n : Nat} (h : n ≤ Size.largest) : Fits p depth (ofNat n) := by
  refine .number ⟨?_, Int.ofNat_le.2 h⟩
  rw [leastInt]
  omega

theorem fits_ofDouble {d : Double} (h : p d) : Fits p depth (ofDouble d) := .number h

theorem fits_ofOption {write : α → Json} {o : Option α}
    (h : ∀ v, o = some v → Fits p depth (write v)) : Fits p depth (ofOption write o) := by
  cases o with
  | none => exact .null
  | some v => exact h v rfl

theorem fits_array {write : α → Json} {xs : List α} (h : ∀ x ∈ xs, Fits p depth (write x)) :
    Fits p (depth + 1) (array (xs.map write)) := by
  refine .array fun v hv => ?_
  obtain ⟨x, hx, rfl⟩ := List.mem_map.1 hv
  exact h x hx

theorem fits_ofTexts (ss : List String) : Fits p (depth + 1) (ofTexts ss) :=
  fits_array fun _ _ => .text

end FormIntake.Json
