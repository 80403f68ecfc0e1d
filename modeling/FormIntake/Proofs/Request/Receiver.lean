/-
  FormIntake — receiving a request is reading its body and making up the form.

  `takeAll_eq_ok_iff`: what has been collected when a receiver stops is what the
  parts of the body come to, although they are collected call by call and the
  receiver stops at the closing delimiter.  `takeAll_append` says that it does
  stop there.

  `receive_assembles`: for a body that begins with a delimiter, the forms that are
  received are those that its parts make up, and what stands behind the closing
  delimiter makes no difference.
-/
import FormIntake.Proofs.Multipart.Ending
import FormIntake.Proofs.Request.Parts
import FormIntake.Proofs.Validation.Traversal

namespace FormIntake

namespace Request

open Multipart Multipart.Reader Validation

namespace Intake

variable {r : Reader} {n m : Nat} {s t : Stream} {c c' : Collected} {parts : List Part}
  {chunk : Bytes} {front chunks : List Bytes} {rest : List Chunk} {e : Multipart.Error} {i j : Intake}

/-! ## One chunk -/

theorem takeAll_of_advance_error (h : r.advance false (s.push chunk) = (.error e, t)) :
    takeAll r n ⟨s, c⟩ (.ok chunk :: rest) = (.error (.ofMultipart e), n + 1) := by
  simp [takeAll, take, advance, h]

theorem takeAll_of_advance_ok (h : r.advance false (s.push chunk) = (.ok parts, t)) :
    takeAll r n ⟨s, c⟩ (.ok chunk :: rest) =
      match c.acceptAll parts with
      | .error e => (.error e, n + 1)
      | .ok c' =>
        if t.phase = .closed then (.ok ⟨t, c'⟩, n + 1) else takeAll r (n + 1) ⟨t, c'⟩ rest := by
  rw [takeAll, take, advance, h]
  cases hc : c.acceptAll parts <;> simp [hc, Except.map, Stream.isClosed]

/-! ## All chunks -/

/-- **What has been collected in the end is what the parts come to.** -/
theorem takeAll_eq_ok_iff : (∃ i, (takeAll r n ⟨s, c⟩ (chunks.map .ok)).1 = .ok i ∧ i.collected = c') ↔
    ∃ parts, (r.feed s chunks).1 = .ok parts ∧ c.acceptAll parts = .ok c' := by
  induction chunks generalizing s c n with
  | nil =>
    rw [List.map_nil, takeAll, feed, advance]
    rcases r.advance true s with ⟨e | parts, t⟩
    · simp
    · cases hc : c.acceptAll parts <;> simp [Except.map, hc]
  | cons chunk rest ih =>
    rw [List.map_cons]
    rcases hadv : r.advance false (s.push chunk) with ⟨e | parts, t⟩
    · rw [takeAll_of_advance_error hadv, feed_of_error hadv]
      simp
    · rw [takeAll_of_advance_ok hadv, feed_of_ok hadv]
      have hsplit : ∀ qs, c.acceptAll (parts ++ qs) =
          (c.acceptAll parts).bind fun c => c.acceptAll qs := Collected.acceptAll_append c parts
      cases hc : c.acceptAll parts with
      | error e =>
        -- the parts of this call are refused, and so are these and more
        rw [hc] at hsplit
        constructor
        · rintro ⟨i, hi, -⟩
          cases hi
        · rintro ⟨ps, hps, hacc⟩
          rcases hfeed : r.feed t rest with ⟨e' | qs, u⟩
          · rw [hfeed] at hps; cases hps
          · rw [hfeed] at hps
            cases hps
            rw [hsplit] at hacc
            cases hacc
      | ok c₁ =>
        have hrest : (∃ ps, (after parts (r.feed t rest)).1 = .ok ps ∧ c.acceptAll ps = .ok c') ↔
            ∃ qs, (r.feed t rest).1 = .ok qs ∧ c₁.acceptAll qs = .ok c' := by
          rw [hc] at hsplit
          rcases r.feed t rest with ⟨e' | qs, u⟩
          · simp [after, Except.map]
          · simp [after, Except.map, hsplit, Except.bind]
        rw [hrest]
        dsimp only
        split
        · next hclosed =>
          rw [feed_closed hclosed]
          simp [Collected.acceptAll, pure, Except.pure]
        · exact ih

/-- **Nothing behind the chunk that settles the body is looked at.** -/
theorem takeAll_append (hlf : Bytes.lf ∉ r.marker)
    (hbegins : s.phase = .preamble → Begins r.marker (s.buffer ++ front.flatten)) (hne : front ≠ [])
    (hsettles : Settles (r.advance false (s.push front.flatten))) (rest : List Chunk) :
    takeAll r n ⟨s, c⟩ (front.map .ok ++ rest) = takeAll r n ⟨s, c⟩ (front.map .ok) := by
  induction front generalizing s c n with
  | nil => exact absurd rfl hne
  | cons chunk front ih =>
    rw [List.map_cons, List.cons_append]
    rcases hadv : r.advance false (s.push chunk) with ⟨e | parts, t⟩
    · rw [takeAll_of_advance_error hadv, takeAll_of_advance_error hadv]
    · rw [takeAll_of_advance_ok hadv, takeAll_of_advance_ok hadv]
      cases c.acceptAll parts with
      | error e => rfl
      | ok c₁ =>
        dsimp only
        split
        · rfl
        · next hopen =>
          have hnil : front ≠ [] := by
            rintro rfl
            rw [List.flatten_cons, List.flatten_nil, List.append_nil, hadv] at hsettles
            exact hopen (hsettles parts rfl)
          have halike := advance_cons hlf (begins_push hbegins) hadv false front
          exact ih (begins_of_advance hlf hbegins hadv) hnil (hsettles.of_alike halike)

/-- Where all goes well, the chunks that are taken are bytes, and the others are
    not looked at. -/
theorem exists_bytes_of_takeAll {chunks : List Chunk} (h : takeAll r n i chunks = (.ok j, m)) :
    ∃ (bytes : List Bytes) (rest : List Chunk), chunks = bytes.map .ok ++ rest ∧ m = n + bytes.length ∧
      takeAll r n i (bytes.map .ok) = (.ok j, m) := by
  induction chunks generalizing i n with
  | nil =>
    rw [takeAll] at h
    exact ⟨[], [], rfl, (Prod.mk.inj h).2.symm, h⟩
  | cons chunk rest ih =>
    rw [takeAll] at h
    cases htake : i.take r chunk with
    | error e => rw [htake] at h; cases h
    | ok i' =>
      obtain ⟨b, rfl⟩ : ∃ b, chunk = .ok b := by
        cases chunk with
        | error reason => cases htake
        | ok b => exact ⟨b, rfl⟩
      rw [htake] at h
      dsimp only at h
      split at h
      · next hclosed =>
        cases h
        refine ⟨[b], rest, rfl, rfl, ?_⟩
        rw [List.map_cons, takeAll, htake]
        exact if_pos hclosed
      · next hopen =>
        obtain ⟨bytes, rest', rfl, rfl, hbytes⟩ := ih h
        refine ⟨b :: bytes, rest', rfl, by rw [List.length_cons]; omega, ?_⟩
        rw [List.map_cons, takeAll, htake]
        exact (if_neg hopen).trans hbytes

end Intake

namespace Receiver

variable {r : Receiver} {form : Form} {taken : Nat}

/-- A receiver holds the body to the limits that it is made with. -/
theorem limits_of_new {h : Headers} {limits : SizeLimits} (hnew : new h limits = .ok r) :
    r.reader.limits = limits := by
  rw [new, check_bind_eq_ok] at hnew
  cases htype : h.contentType? with
  | none => rw [htype] at hnew; cases hnew.2
  | some contentType =>
    rw [htype] at hnew
    obtain ⟨boundary, -, hreceiver⟩ := bind_eq_ok.1 hnew.2
    cases hreceiver
    rfl

/-- A receiver takes a request if it is fresh and the declared length is within the
    limit. -/
theorem refusal?_eq_none (hfresh : r.used = false)
    (hdeclared : ∀ n, r.declared = some n → n ≤ r.reader.limits.request) : r.refusal? = none := by
  rw [refusal?, hfresh, if_neg (by simp)]
  cases hn : r.declared with
  | none => rfl
  | some n => exact if_neg (Nat.not_lt.2 (hdeclared n hn))

theorem receive_of_refusal?_none {chunks : List Chunk} (h : r.refusal? = none) :
    r.receive chunks =
      ((Intake.takeAll r.reader 0 {} chunks).1.bind fun i => i.collected.form,
        (Intake.takeAll r.reader 0 {} chunks).2) := by
  rw [receive, h]

/-- A form is received if the parts that the chunks bring make it up. -/
theorem receive_eq_ok_iff {chunks : List Bytes} (h : r.refusal? = none) :
    (r.receive (chunks.map .ok)).1 = .ok form ↔
      ∃ parts, (r.reader.feed {} chunks).1 = .ok parts ∧ MakesUp parts form := by
  have hbind : (r.receive (chunks.map .ok)).1 = .ok form ↔ ∃ c,
      (∃ i, (Intake.takeAll r.reader 0 {} (chunks.map .ok)).1 = .ok i ∧ i.collected = c) ∧
        c.form = .ok form := by
    rw [receive_of_refusal?_none h]
    cases (Intake.takeAll r.reader 0 {} (chunks.map .ok)).1 <;> simp [Except.bind]
  rw [hbind]
  simp only [Intake.takeAll_eq_ok_iff, ← Collected.exists_acceptAll_form_iff]
  constructor
  · rintro ⟨c, ⟨parts, hparts, hc⟩, hform⟩
    exact ⟨parts, hparts, c, hc, hform⟩
  · rintro ⟨parts, hparts, c, hc, hform⟩
    exact ⟨c, ⟨parts, hparts, hc⟩, hform⟩

/-- **A form that is received is made up of the parts that the chunks taken
    bring.** -/
theorem exists_feed_of_receive {chunks : List Chunk} (h : r.receive chunks = (.ok form, taken)) :
    ∃ (bytes : List Bytes) (parts : List Part), chunks.take taken = bytes.map .ok ∧
      (r.reader.feed {} bytes).1 = .ok parts ∧ MakesUp parts form := by
  have hnone : r.refusal? = none := by
    cases hrefusal : r.refusal? with
    | none => rfl
    | some e => rw [receive, hrefusal] at h; cases h
  rw [receive_of_refusal?_none hnone] at h
  obtain ⟨hform, rfl⟩ := Prod.mk.inj h
  rcases htake : Intake.takeAll r.reader 0 {} chunks with ⟨e | i, taken⟩
  · rw [htake] at hform; cases hform
  · obtain ⟨bytes, rest, rfl, rfl, hbytes⟩ := Intake.exists_bytes_of_takeAll htake
    have hreceive : (r.receive (bytes.map .ok)).1 = .ok form := by
      rw [receive_of_refusal?_none hnone, hbytes]
      rwa [htake] at hform
    obtain ⟨parts, hparts, hmakes⟩ := (receive_eq_ok_iff hnone).1 hreceive
    refine ⟨bytes, parts, ?_, hparts, hmakes⟩
    exact List.take_left' (by simp)

/-- **A request that begins with a delimiter is received if its body can be read and
    its parts make up a form**, however it is cut into chunks.  Of a body that does
    not break off nothing behind is looked at. -/
theorem receive_assembles (r : Receiver) (chunks : List Bytes) (hr : r.reader.OneLine)
    (hfresh : r.used = false)
    (hdeclared : ∀ n, r.declared = some n → n ≤ r.reader.limits.request)
    (hopens : Opens r.reader.marker chunks.flatten) :
    (∀ form, (r.receive (chunks.map .ok)).1 = .ok form ↔
      ∃ parts, r.reader.readAll chunks.flatten = .ok parts ∧ MakesUp parts form) ∧
    (∀ chunks' : List Bytes, chunks'.flatten = chunks.flatten → ∀ form,
      (r.receive (chunks'.map .ok)).1 = .ok form ↔ (r.receive (chunks.map .ok)).1 = .ok form) ∧
    (r.reader.readAll chunks.flatten ≠ .error .unexpectedEnd →
      ∀ rest : List Chunk, r.receive (chunks.map .ok ++ rest) = r.receive (chunks.map .ok)) := by
  have hnone := refusal?_eq_none hfresh hdeclared
  have hiff : ∀ chunks' : List Bytes, chunks'.flatten = chunks.flatten → ∀ form,
      (r.receive (chunks'.map .ok)).1 = .ok form ↔
        ∃ parts, r.reader.readAll chunks.flatten = .ok parts ∧ MakesUp parts form := by
    intro chunks' hcut form
    rw [receive_eq_ok_iff hnone]
    simp only [feed_eq_ok_iff hr (hcut.symm ▸ hopens), hcut]
  refine ⟨hiff chunks rfl, fun chunks' hcut form => ?_, fun hread rest => ?_⟩
  · rw [hiff chunks' hcut form, hiff chunks rfl form]
  · have hne : chunks ≠ [] := by
      rintro rfl
      have := hopens.length_le
      simp at this
    have heq := Intake.takeAll_append (n := 0) (s := {}) (c := {}) hr.unbroken.lf
      (fun _ => hopens.begins) hne (settles_of_readAll hread) rest
    rw [receive_of_refusal?_none hnone, receive_of_refusal?_none hnone, heq]

/-- A file and the response it is for, cut inside a delimiter; that the connection
    breaks behind the closing delimiter is not seen. -/
theorem receive_assembles_cut :
    let r : Receiver := { reader := ⟨"b", {}⟩, declared := some 200 }
    let cuts : List Bytes := [
      Bytes.ofText "--b\r\nContent-Disposition: form-data; name=f; filename=a.txt\r\n\r\nhi\r\n-",
      Bytes.ofText "-b\r\nContent-Disposition: form-data; name=body\r\n\r\n",
      Bytes.ofText "\x7b\"responses\":[\x7b\"_id\":\"f\",\"fieldType\":\"attachment\"\x7d]\x7d",
      Bytes.ofText "\r\n--b--"]
    ∃ form, (r.receive (cuts.map .ok ++ [.ok [], .error "closed"])).1 = .ok form ∧
      form.responses.map (fun r => (r.id, r.filename, r.content)) =
        [("f", some "a.txt", Bytes.ofText "hi")] := by
  intro r cuts
  have hr : r.reader.OneLine := ⟨by decide, by decide⟩
  have hopens : Opens r.reader.marker cuts.flatten := Or.inl (by decide)
  have hdeclared : ∀ n, r.declared = some n → n ≤ r.reader.limits.request := by
    rintro n ⟨⟩
    decide
  obtain ⟨hform, -, hbehind⟩ := receive_assembles r cuts hr rfl hdeclared hopens
  let file : Part := ⟨"f", some "a.txt", none, Bytes.ofText "hi"⟩
  let body : Part := ⟨"body", none, none, Bytes.ofText
    "\x7b\"responses\":[\x7b\"_id\":\"f\",\"fieldType\":\"attachment\"\x7d]\x7d"⟩
  have hread : r.reader.readAll cuts.flatten = .ok [file, body] := by decide +kernel
  obtain ⟨rs, hrs⟩ : ∃ rs, submission? body = some rs :=
    Option.isSome_iff_exists.1 (by decide +kernel)
  have hlast : bodies [file, body] = [] ++ [body] := rfl
  have hreadable : ∀ p ∈ bodies [file, body], ∃ rs, submission? p = some rs := by
    intro p hp
    rw [List.mem_singleton.1 hp]
    exact ⟨rs, hrs⟩
  have hmakes := MakesUp.intro hreadable hlast hrs
  have hok := (hform _).2 ⟨_, hread, hmakes⟩
  rw [← hbehind (by rw [hread]; simp) [.ok [], .error "closed"]] at hok
  have hget : rs = (submission? body).getD [] := by rw [hrs]; rfl
  rw [hget] at hok
  exact ⟨_, hok, by decide +kernel⟩

end Receiver

end Request

end FormIntake
