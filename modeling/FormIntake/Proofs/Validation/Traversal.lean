/-
  FormIntake — checks made one after the other on a list.

  A row of checks goes through if every check does (`mapM_eq_ok_iff`), and it
  fails as the first check that fails (`mapM_eq_error_iff`).  Checks that undo a
  function undo it item by item (`mapM_eq_ok_iff_eq_map`).
-/
import FormIntake.Validation.Require
import Mathlib.Data.List.Forall2

namespace FormIntake.Validation

variable {ε α β : Type} {f : α → Except ε β} {x : α} {y : β} {xs : List α} {ys : List β} {e : ε}

/-- What follows a check is reached if the check goes through. -/
theorem check_bind_eq_ok {z : Except ε Unit} {g : Unit → Except ε β} :
    (z >>= g) = .ok y ↔ z = .ok () ∧ g () = .ok y := by
  rw [bind_eq_ok]
  constructor
  · rintro ⟨⟨⟩, h⟩
    exact h
  · intro h
    exact ⟨(), h⟩

theorem mapM_cons_of_ok (h : f x = .ok y) : (x :: xs).mapM f = (xs.mapM f).map (y :: ·) := by
  rw [List.mapM_cons, h]
  cases xs.mapM f <;> rfl

theorem mapM_cons_of_error (h : f x = .error e) : (x :: xs).mapM f = .error e := by
  rw [List.mapM_cons, h]
  rfl

theorem map_eq_ok_iff {z : Except ε α} {g : α → β} : z.map g = .ok y ↔ ∃ a, z = .ok a ∧ g a = y := by
  cases z <;> simp [Except.map]

theorem map_eq_error_iff {z : Except ε α} {g : α → β} : z.map g = .error e ↔ z = .error e := by
  cases z <;> simp [Except.map]

theorem mapM_eq_ok_iff : xs.mapM f = .ok ys ↔ List.Forall₂ (fun x y => f x = .ok y) xs ys := by
  induction xs generalizing ys with
  | nil => cases ys <;> simp [pure, Except.pure]
  | cons x xs ih =>
    cases hx : f x with
    | error e =>
      rw [mapM_cons_of_error hx]
      cases ys <;> simp [hx]
    | ok y =>
      rw [mapM_cons_of_ok hx, map_eq_ok_iff]
      cases ys with
      | nil => simp
      | cons y' ys =>
        rw [List.forall₂_cons, hx, ← ih]
        constructor
        · rintro ⟨zs, hzs, heq⟩
          cases heq
          exact ⟨rfl, hzs⟩
        · rintro ⟨heq, hys⟩
          cases heq
          exact ⟨ys, hys, rfl⟩

/-- **A row of checks fails as the first of them that fails.** -/
theorem mapM_eq_error_iff : xs.mapM f = .error e ↔
    ∃ front x back, xs = front ++ x :: back ∧ (∀ z ∈ front, ∃ y, f z = .ok y) ∧ f x = .error e := by
  induction xs with
  | nil => simp [pure, Except.pure]
  | cons x xs ih =>
    cases hx : f x with
    | error e' =>
      rw [mapM_cons_of_error hx]
      constructor
      · intro h
        cases h
        exact ⟨[], x, xs, rfl, by simp, hx⟩
      · rintro ⟨front, z, back, heq, hfront, hz⟩
        cases front with
        | nil =>
          cases heq
          rw [hx] at hz
          exact congrArg _ (Except.error.inj hz)
        | cons w front =>
          cases heq
          obtain ⟨y, hy⟩ := hfront x List.mem_cons_self
          rw [hx] at hy
          cases hy
    | ok y =>
      rw [mapM_cons_of_ok hx, map_eq_error_iff, ih]
      constructor
      · rintro ⟨front, z, back, rfl, hfront, hz⟩
        refine ⟨x :: front, z, back, rfl, ?_, hz⟩
        intro w hw
        rcases List.mem_cons.1 hw with rfl | hw
        · exact ⟨y, hx⟩
        · exact hfront w hw
      · rintro ⟨front, z, back, heq, hfront, hz⟩
        cases front with
        | nil =>
          cases heq
          rw [hx] at hz
          cases hz
        | cons w front =>
          cases heq
          exact ⟨front, z, back, rfl, fun v hv => hfront v (List.mem_cons_of_mem _ hv), hz⟩

theorem mapM_congr {g : α → Except ε β} (h : ∀ x ∈ xs, f x = g x) : xs.mapM f = xs.mapM g := by
  induction xs with
  | nil => rfl
  | cons x xs ih =>
    rw [List.forall_mem_cons] at h
    rw [List.mapM_cons, List.mapM_cons, h.1, ih h.2]

/-- A reader that undoes `g` on each item undoes it on all of them. -/
theorem mapM_eq_ok_iff_eq_map {g : β → α} (h : ∀ x y, f x = .ok y ↔ x = g y) :
    xs.mapM f = .ok ys ↔ xs = ys.map g := by
  have hrel : (fun x y => f x = .ok y) = fun x y => x = g y := by
    funext x y
    exact propext (h x y)
  calc xs.mapM f = .ok ys
      ↔ List.Forall₂ (fun x y => x = g y) xs ys := by rw [mapM_eq_ok_iff, hrel]
    _ ↔ List.Forall₂ (· = ·) xs (ys.map g) := List.forall₂_map_right_iff.symm
    _ ↔ xs = ys.map g := by rw [List.forall₂_eq_eq_eq]

end FormIntake.Validation
