/-
  FormIntake — what is charged while a part arrives.

  Appending a payload in two pieces is appending it at once (`append_append`): an
  append that goes through leaves to the next one exactly what is left of the
  limits.  A refusal is one for a limit, and more bytes do not lift it
  (`exists_error_of_append_error`, `exists_error_of_checkHeaderBlock_error`).

  `Reader.opened` is what opening a part comes to, without the stream it is
  opened on; `openPart` is opened in no proof but those of its two equations.
-/
import FormIntake.Multipart.Stream
import Mathlib.Data.List.Infix

namespace FormIntake

namespace Size

theorem add_add (a b c : Nat) : add (add a b) c = add a (b + c) := by
  simp only [add]; omega

/-- A sum of sizes is never more than the ordinary one. -/
theorem add_le (a b : Nat) : add a b ≤ a + b := Nat.min_le_left ..

theorem add_mono {a b c : Nat} (h : b ≤ c) : add a b ≤ add a c := by
  simp only [add]; omega

end Size

namespace Multipart

namespace OpenPart

variable {limits : SizeLimits} {total total' : Nat} {p q : OpenPart} {a : Bytes} {e : Error}

@[simp] theorem append_nil : append limits total p [] = .ok (p, total) := rfl

theorem append_of_ne_nil (ha : a ≠ []) :
    append limits total p a =
      if p.limit < Size.add p.size a.length then .error (p.tooLarge (Size.add p.size a.length))
      else if limits.request < Size.add total a.length then
        .error (.totalTooLarge (Size.add total a.length) limits.request)
      else .ok (p.push a, Size.add total a.length) := by
  rw [append, if_neg (by simpa using ha)]

theorem isLimit_tooLarge (p : OpenPart) (n : Nat) : (p.tooLarge n).isLimit = true := by
  unfold tooLarge; split <;> rfl

/-- An append is refused for a limit, and is refused with more bytes as well. -/
theorem exists_error_of_append_error (h : append limits total p a = .error e) (b : Bytes) :
    e.isLimit = true ∧ ∃ e', append limits total p (a ++ b) = .error e' ∧ e'.isLimit = true := by
  have ha : a ≠ [] := by rintro rfl; cases h
  have hsize : Size.add p.size a.length ≤ Size.add p.size (a ++ b).length :=
    Size.add_mono (by simp)
  have htotal : Size.add total a.length ≤ Size.add total (a ++ b).length :=
    Size.add_mono (by simp)
  rw [append_of_ne_nil ha] at h
  rw [append_of_ne_nil (by simp [ha])]
  split at h
  · next hlt =>
    injection h with h
    rw [if_pos (lt_of_lt_of_le hlt hsize)]
    exact ⟨h ▸ isLimit_tooLarge .., _, rfl, isLimit_tooLarge ..⟩
  · split at h
    · next hlt =>
      injection h with h
      subst h
      refine ⟨rfl, ?_⟩
      split
      · exact ⟨_, rfl, isLimit_tooLarge ..⟩
      · exact ⟨_, if_pos (lt_of_lt_of_le hlt htotal), rfl⟩
    · cases h

/-- **A payload may be appended in pieces.** -/
theorem append_append (h : append limits total p a = .ok (q, total')) (b : Bytes) :
    append limits total p (a ++ b) = append limits total' q b := by
  by_cases ha : a = []
  · subst ha; cases h; rfl
  by_cases hb : b = []
  · subst hb; rw [List.append_nil, h, append_nil]
  rw [append_of_ne_nil ha] at h
  split at h
  · cases h
  split at h
  · cases h
  cases h
  have hpush : (p.push a).push b = p.push (a ++ b) := by
    simp [push, Nat.add_assoc]
  have hsize : Size.add (p.push a).size b.length = Size.add p.size (a ++ b).length := by
    rw [List.length_append, push, Size.add, Size.add, Nat.add_assoc]
  have htotal : Size.add (Size.add total a.length) b.length = Size.add total (a ++ b).length := by
    rw [Size.add_add, List.length_append]
  rw [append_of_ne_nil hb, append_of_ne_nil (by simp [ha]), hpush, hsize, htotal]
  rfl

/-- **An append goes through if the payload and the request stay within their
    limits.**  To append nothing always does. -/
theorem append_eq_ok_iff : append limits total p a = .ok (q, total') ↔
    (a = [] ∧ q = p ∧ total' = total) ∨
      (Size.add p.size a.length ≤ p.limit ∧ Size.add total a.length ≤ limits.request ∧ a ≠ [] ∧
        q = p.push a ∧ total' = Size.add total a.length) := by
  by_cases ha : a = []
  · subst ha
    simp [eq_comm]
  · rw [append_of_ne_nil ha]
    split
    · next hlt => simp [ha, Nat.not_le.2 hlt]
    · next hsize =>
      split
      · next hlt => simp [ha, Nat.not_le.2 hlt]
      · next htotal =>
        simp [ha, Nat.le_of_not_lt hsize, Nat.le_of_not_lt htotal, eq_comm]

/-- An append that goes through puts its bytes behind the payload so far. -/
theorem close_of_append (h : append limits total p a = .ok (q, total')) :
    q.close = ⟨p.name, p.filename, p.contentType, p.data ++ a⟩ := by
  rcases append_eq_ok_iff.1 h with ⟨rfl, rfl, -⟩ | ⟨-, -, -, rfl, -⟩
  · simp [close]
  · simp only [close, data_push]
    rfl

/-- An append that goes through charges its bytes to the request. -/
theorem total_of_append {n : Nat} (h : append limits total p a = .ok (q, total'))
    (htotal : total = min n Size.largest) : total' = min (n + a.length) Size.largest := by
  rcases append_eq_ok_iff.1 h with ⟨rfl, -, rfl⟩ | ⟨-, -, -, -, rfl⟩
  · exact htotal
  · simp only [Size.add]; omega

theorem total_le_of_append (h : append limits total p a = .ok (q, total'))
    (htotal : total ≤ limits.request) : total' ≤ limits.request := by
  rcases append_eq_ok_iff.1 h with ⟨-, -, rfl⟩ | ⟨-, hle, -, -, rfl⟩
  exacts [htotal, hle]

/-- An append within the limits goes through. -/
theorem append_of_le (hsize : p.size + a.length ≤ p.limit)
    (htotal : total + a.length ≤ limits.request) :
    ∃ q total', append limits total p a = .ok (q, total') ∧ total' ≤ total + a.length := by
  by_cases ha : a = []
  · subst ha
    exact ⟨p, total, rfl, by simp⟩
  · have hs : Size.add p.size a.length ≤ p.limit := (Size.add_le _ _).trans hsize
    have ht : Size.add total a.length ≤ limits.request := (Size.add_le _ _).trans htotal
    rw [append_of_ne_nil ha, if_neg (Nat.not_lt.2 hs), if_neg (Nat.not_lt.2 ht)]
    exact ⟨_, _, rfl, Size.add_le _ _⟩

end OpenPart

/-! ## Header blocks -/

/-- What a request has been charged: bytes and parts. -/
structure Charged where
  total : Nat := 0
  parts : Nat := 0
  deriving DecidableEq, Repr

/-- What has been charged on a stream. -/
def Stream.charged (s : Stream) : Charged := ⟨s.total, s.parts⟩

namespace Reader

variable {r : Reader} {s : Stream} {c c' : Charged} {total size size' : Nat} {headers : Headers}
  {p : OpenPart} {e : Error}

/-- The part that a header block of `size` bytes opens, and what has been charged
    with it. -/
def opened (r : Reader) (c : Charged) (headers : Headers) (size : Nat) :
    Except Error (OpenPart × Charged) :=
  match r.checkHeaderBlock c.total size with
  | .error e => .error e
  | .ok () =>
    let c : Charged := ⟨Size.add c.total size, Size.add c.parts 1⟩
    if r.limits.parts < c.parts then .error (.tooManyParts c.parts r.limits.parts)
    else match headers.disposition with
      | none => .error .missingDisposition
      | some v => (readDisposition v).map fun d =>
          (OpenPart.start r.limits d.name d.filename headers.contentType, c)

/-- A header block is refused for a limit, and a longer one is refused as well. -/
theorem exists_error_of_checkHeaderBlock_error (h : r.checkHeaderBlock total size = .error e)
    (hle : size ≤ size') :
    e.isLimit = true ∧ ∃ e', r.checkHeaderBlock total size' = .error e' ∧ e'.isLimit = true := by
  have htotal : Size.add total size ≤ Size.add total size' := Size.add_mono hle
  unfold checkHeaderBlock at h ⊢
  split at h
  · next hlt =>
    injection h with h
    rw [if_pos (lt_of_lt_of_le hlt hle)]
    exact ⟨h ▸ rfl, _, rfl, rfl⟩
  · split at h
    · next hlt =>
      injection h with h
      subst h
      refine ⟨rfl, ?_⟩
      split
      · exact ⟨_, rfl, rfl⟩
      · exact ⟨_, if_pos (lt_of_lt_of_le hlt htotal), rfl⟩
    · cases h

theorem checkHeaderBlock_eq_ok_iff : r.checkHeaderBlock total size = .ok () ↔
    size ≤ maxHeaderBytes ∧ Size.add total size ≤ r.limits.request := by
  rw [checkHeaderBlock]
  split
  · next hlt => simp [Nat.not_le.2 hlt]
  · next hle =>
    split
    · next hlt => simp [Nat.not_le.2 hlt]
    · next hle' => simp [Nat.le_of_not_lt hle, Nat.le_of_not_lt hle']

/-- **A part is opened if its header block and its number are within the limits and
    it says which field it belongs to.** -/
theorem opened_eq_ok_iff : r.opened c headers size = .ok (p, c') ↔
    (size ≤ maxHeaderBytes ∧ Size.add c.total size ≤ r.limits.request) ∧
      Size.add c.parts 1 ≤ r.limits.parts ∧ c' = ⟨Size.add c.total size, Size.add c.parts 1⟩ ∧
      ∃ v d, headers.disposition = some v ∧ readDisposition v = .ok d ∧
        p = OpenPart.start r.limits d.name d.filename headers.contentType := by
  rw [← checkHeaderBlock_eq_ok_iff, opened]
  cases r.checkHeaderBlock c.total size with
  | error e => simp
  | ok u =>
    by_cases hparts : r.limits.parts < Size.add c.parts 1
    · simp [hparts, Nat.not_le.2 hparts]
    · cases hv : headers.disposition with
      | none => simp [hparts]
      | some v =>
        cases hd : readDisposition v with
        | error e => simp [hparts, hd, Except.map]
        | ok d =>
          simp only [hparts, if_false, hd, Except.map, Except.ok.injEq, Prod.mk.injEq,
            Nat.le_of_not_lt hparts, true_and, Option.some.injEq]
          constructor
          · rintro ⟨rfl, rfl⟩
            exact ⟨rfl, v, d, rfl, hd, rfl⟩
          · rintro ⟨rfl, v', d', rfl, hd', rfl⟩
            rw [hd] at hd'
            cases hd'
            exact ⟨rfl, rfl⟩

theorem opened_of_check_error (h : r.checkHeaderBlock c.total size = .error e) :
    r.opened c headers size = .error e := by
  rw [opened, h]

/-- What a block opens is what the stream goes on with, or why it stops. -/
theorem openPart_eq (s : Stream) (headers : Headers) (size : Nat) :
    match r.opened s.charged headers size with
    | .ok (p, c) => r.openPart s headers size =
        .more none { s.drop size with phase := .inside p, total := c.total, parts := c.parts }
    | .error e => ∃ t, r.openPart s headers size = .fail e t := by
  simp only [opened, openPart, Stream.charged]
  cases r.checkHeaderBlock s.total size with
  | error e => exact ⟨_, rfl⟩
  | ok u =>
    by_cases hparts : r.limits.parts < Size.add s.parts 1
    · simp only [hparts, if_true]
      exact ⟨_, rfl⟩
    · simp only [hparts, if_false]
      cases headers.disposition with
      | none => exact ⟨_, rfl⟩
      | some v =>
        dsimp only
        cases readDisposition v with
        | error e => exact ⟨_, rfl⟩
        | ok d => rfl

theorem openPart_of_opened_ok (h : r.opened s.charged headers size = .ok (p, c)) :
    r.openPart s headers size =
      .more none { s.drop size with phase := .inside p, total := c.total, parts := c.parts } := by
  have := openPart_eq (r := r) s headers size
  rwa [h] at this

theorem openPart_of_opened_error (h : r.opened s.charged headers size = .error e) :
    ∃ t, r.openPart s headers size = .fail e t := by
  have := openPart_eq (r := r) s headers size
  rwa [h] at this

end Reader

end Multipart

end FormIntake
