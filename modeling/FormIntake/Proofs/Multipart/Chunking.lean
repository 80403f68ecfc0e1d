/-
  FormIntake — a body that arrives in chunks.

  `Reader.feed` makes one call for each chunk and one more at the end, and stops
  at the first error (`feed_eq_run`).  `feed_cases` follows it chunk by chunk:
  either no call fails, and the outcome is that of one call for the whole body, or
  the first call that fails does so for what it would be if the chunks up to there
  had arrived as one.

  `feed_agrees`: for a body that begins with a delimiter, chunks make no
  difference to the parts, nor to a refusal for a limit.  They do make one to a
  body that breaks off or is no text where a limit has been passed already: the
  reader holds what has arrived to the limits and does not wait for the rest
  (`feed_refused_early`).
-/
import FormIntake.Proofs.Multipart.Arrival
import FormIntake.Proofs.Multipart.Calls

namespace FormIntake.Multipart

namespace Reader

/-- Feed a stream with chunks: a call for each, and one more when all of them
    have arrived. -/
def feed (r : Reader) (s : Stream) : List Bytes → Except Error (List Part) × Stream
  | [] => r.advance true s
  | chunk :: rest =>
    match r.advance false (s.push chunk) with
    | (.ok parts, t) => after parts (r.feed t rest)
    | (.error e, t) => (.error e, t)

/-- The bytes that have arrived are refused for a limit, whatever follows. -/
def Overflows (r : Reader) (arrived : Bytes) : Prop :=
  ∃ e, (r.advance false { buffer := arrived }).1 = .error e ∧ e.isLimit = true

/-- No call fails for the chunks, those up to it having arrived as one. -/
def Takes (r : Reader) (s : Stream) (chunks : List Bytes) : Prop :=
  ∀ front, front ≠ [] → front <+: chunks →
    ∃ parts, (r.advance false (s.push front.flatten)).1 = .ok parts

variable {r : Reader} {s t : Stream} {parts : List Part} {chunk : Bytes}
  {chunks rest : List Bytes} {e : Error}

theorem feed_of_ok (h : r.advance false (s.push chunk) = (.ok parts, t)) :
    r.feed s (chunk :: rest) = after parts (r.feed t rest) := by
  rw [feed, h]

theorem feed_of_error (h : r.advance false (s.push chunk) = (.error e, t)) :
    r.feed s (chunk :: rest) = (.error e, t) := by
  rw [feed, h]

/-- Chunks are fed by a run of calls. -/
theorem feed_eq_run (r : Reader) (s : Stream) (chunks : List Bytes) :
    r.feed s chunks = r.run s (chunks.map (⟨·, false⟩) ++ [⟨[], true⟩]) := by
  induction chunks generalizing s with
  | nil =>
    have hempty : s.push [] = s := by simp [Stream.push]
    change r.advance true s = r.run s [⟨[], true⟩]
    rcases hadv : r.advance true (s.push []) with ⟨e | parts, t⟩
    · rw [run_of_error (c := ⟨[], true⟩) hadv, ← hadv, hempty]
    · rw [run_of_ok (c := ⟨[], true⟩) hadv, run, after_ok, List.append_nil, ← hadv, hempty]
  | cons chunk rest ih =>
    rcases hadv : r.advance false (s.push chunk) with ⟨e | parts, t⟩
    · rw [feed_of_error hadv]
      exact (run_of_error (c := ⟨chunk, false⟩) hadv).symm
    · rw [feed_of_ok hadv, ih]
      exact (run_of_ok (c := ⟨chunk, false⟩) hadv).symm

theorem push_push (s : Stream) (x y : Bytes) : (s.push x).push y = s.push (x ++ y) := by
  simp [Stream.push]

/-! ## Chunk by chunk -/

/-- A call that does not get to a delimiter at the front of the body drops
    nothing. -/
theorem eq_of_advance (hlf : Bytes.lf ∉ r.marker)
    (hbegins : s.phase = .preamble → Begins r.marker s.buffer)
    (h : r.advance false s = (.ok parts, t)) (ht : t.phase = .preamble) : t = s := by
  have hs : s.phase = .preamble :=
    Classical.not_not.1 fun hs => phase_ne_preamble_of_advance hs h ht
  cases hfind : findDelimiter r.marker true s.buffer with
  | some n =>
    rw [advance_preamble_some hs hfind] at h
    exact absurd ht (phase_ne_preamble_of_advance (by simp) h)
  | none =>
    rw [advance_preamble_none hs hfind, if_neg (by simp), spare_eq_zero hlf (hbegins hs) hfind] at h
    cases h
    rfl

/-- A call for the first chunk and one for those up to another end like one call
    for all of them. -/
theorem advance_cons (hlf : Bytes.lf ∉ r.marker)
    (hbegins : s.phase = .preamble → Begins r.marker (s.push chunk).buffer)
    (h : r.advance false (s.push chunk) = (.ok parts, t)) (atEnd : Bool) (front : List Bytes) :
    Alike (r.advance atEnd (s.push (chunk :: front).flatten))
      (after parts (r.advance atEnd (t.push front.flatten))) := by
  rw [List.flatten_cons, ← push_push]
  exact advance_push hlf hbegins h

theorem Takes.cons (hlf : Bytes.lf ∉ r.marker)
    (hbegins : s.phase = .preamble → Begins r.marker (s.push chunk).buffer)
    (h : r.advance false (s.push chunk) = (.ok parts, t)) (ht : r.Takes t rest) :
    r.Takes s (chunk :: rest) := by
  intro front hne hfront
  obtain ⟨c, front, rfl⟩ := List.exists_cons_of_ne_nil hne
  obtain ⟨rfl, hrest⟩ := List.cons_prefix_cons.1 hfront
  by_cases hnil : front = []
  · subst hnil
    exact ⟨parts, by simp [h]⟩
  · obtain ⟨qs, hqs⟩ := ht front hnil hrest
    exact ⟨parts ++ qs, by rw [(advance_cons hlf hbegins h false front).result, after, hqs]; rfl⟩

/-- The first chunk of a body that begins with a delimiter is the front of one. -/
theorem begins_push (hbegins : s.phase = .preamble →
      Begins r.marker (s.buffer ++ (chunk :: rest).flatten)) :
    s.phase = .preamble → Begins r.marker (s.push chunk).buffer := by
  intro hs
  have := hbegins hs
  rw [List.flatten_cons, ← List.append_assoc] at this
  exact this.of_append

/-- A body that begins with a delimiter does so still after a call in the
    preamble. -/
theorem begins_of_advance (hlf : Bytes.lf ∉ r.marker)
    (hbegins : s.phase = .preamble → Begins r.marker (s.buffer ++ (chunk :: rest).flatten))
    (h : r.advance false (s.push chunk) = (.ok parts, t)) :
    t.phase = .preamble → Begins r.marker (t.buffer ++ rest.flatten) := by
  intro ht
  obtain rfl := eq_of_advance hlf (begins_push hbegins) h ht
  rw [Stream.push, List.append_assoc]
  exact hbegins ht

/-- **Either no call fails and the outcome is that of one call, or the first
    call that fails does so as if the chunks up to it had arrived as one.** -/
theorem feed_cases (hlf : Bytes.lf ∉ r.marker)
    (hbegins : s.phase = .preamble → Begins r.marker (s.buffer ++ chunks.flatten)) :
    (r.Takes s chunks ∧ Alike (r.advance true (s.push chunks.flatten)) (r.feed s chunks)) ∨
      ∃ front chunk back e, chunks = front ++ chunk :: back ∧ r.Takes s front ∧
        (r.advance false (s.push (front ++ [chunk]).flatten)).1 = .error e ∧
        (r.feed s chunks).1 = .error e := by
  induction chunks generalizing s with
  | nil =>
    refine Or.inl ⟨fun front hne h => absurd (List.prefix_nil.1 h) hne, ?_⟩
    rw [List.flatten_nil, Stream.push, List.append_nil]
    exact .refl _
  | cons chunk rest ih =>
    have hchunk := begins_push hbegins
    rcases hadv : r.advance false (s.push chunk) with ⟨e | parts, t⟩
    · have htakes : r.Takes s [] := fun front hne h => absurd (List.prefix_nil.1 h) hne
      refine Or.inr ⟨[], chunk, rest, e, rfl, htakes, ?_, ?_⟩
      · simp [hadv]
      · rw [feed_of_error hadv]
    · have hcons := advance_cons hlf hchunk hadv
      rw [feed_of_ok hadv]
      rcases ih (begins_of_advance hlf hbegins hadv) with ⟨htakes, halike⟩ | ⟨front, c, back, e, rfl, htakes, herr, hfeed⟩
      · exact Or.inl ⟨htakes.cons hlf hchunk hadv, (hcons true rest).trans (halike.after parts)⟩
      · refine Or.inr ⟨chunk :: front, c, back, e, rfl, htakes.cons hlf hchunk hadv, ?_, ?_⟩
        · rw [List.cons_append, (hcons false _).result, after, herr]; rfl
        · rw [after, hfeed]; rfl

/-! ## Bodies that begin with a delimiter -/

/-- What is refused early is refused with all bytes. -/
theorem foretells_of_front {front : List Bytes} (atEnd : Bool) (hlf : Bytes.lf ∉ r.marker)
    (hbegins : Begins r.marker chunks.flatten) (hfront : front <+: chunks)
    (h : (r.advance false { buffer := front.flatten }).1 = .error e) :
    ∃ e', (r.advance atEnd { buffer := chunks.flatten }).1 = .error e' ∧ e.Foretells atEnd e' := by
  obtain ⟨back, rfl⟩ := hfront
  rw [List.flatten_append] at hbegins ⊢
  have hadv : r.advance false { buffer := front.flatten } =
      (.error e, (r.advance false { buffer := front.flatten }).2) := Prod.ext h rfl
  exact exists_error_of_advance_error hlf (fun _ => hbegins.of_append) hadv

theorem not_overflows_nil (r : Reader) : ¬ r.Overflows [] := by
  rintro ⟨e, he, -⟩
  rw [advance_preamble_none rfl rfl] at he
  cases he

/-- A run of calls ends like one call and no limit is passed early, or it is
    refused for what foretells the refusal of one call. -/
theorem feed_readAll_cases (hlf : Bytes.lf ∉ r.marker)
    (hbegins : Begins r.marker chunks.flatten) :
    (Alike (r.advance true { buffer := chunks.flatten }) (r.feed {} chunks) ∧
      ∀ front, front <+: chunks → ¬ r.Overflows front.flatten) ∨
    ∃ e e', (r.feed {} chunks).1 = .error e ∧ r.readAll chunks.flatten = .error e' ∧
      e.Foretells true e' ∧
      (e.isLimit = true ↔ ∃ front, front <+: chunks ∧ r.Overflows front.flatten) := by
  have hempty : ∀ x : Bytes, ({} : Stream).push x = { buffer := x } := fun _ => rfl
  rcases feed_cases (r := r) (s := {}) hlf fun _ => hbegins with
    ⟨htakes, halike⟩ | ⟨front, chunk, back, e, rfl, htakes, hfront, hfeed⟩
  · refine Or.inl ⟨halike, ?_⟩
    rintro front hfront ⟨e, he, hlimit⟩
    by_cases hnil : front = []
    · subst hnil
      exact not_overflows_nil r ⟨e, he, hlimit⟩
    · obtain ⟨parts, hparts⟩ := htakes front hnil hfront
      rw [hempty, he] at hparts
      cases hparts
  · rw [hempty] at hfront
    have hpre : front ++ [chunk] <+: front ++ chunk :: back := ⟨back, by simp⟩
    obtain ⟨e', hread, hforetells⟩ := foretells_of_front true hlf hbegins hpre hfront
    refine Or.inr ⟨e, e', hfeed, hread, hforetells, ?_⟩
    constructor
    · exact fun hlimit => ⟨_, hpre, e, hfront, hlimit⟩
    · rintro ⟨other, hother, e'', he'', hlimit⟩
      -- a run that overflows earlier would not have come this far
      rcases List.prefix_or_prefix_of_prefix hother hpre with h | h
      · rcases List.prefix_concat_iff.1 h with rfl | h
        · rw [hfront] at he''
          cases he''
          exact hlimit
        · by_cases hnil : other = []
          · subst hnil
            exact absurd ⟨e'', he'', hlimit⟩ (not_overflows_nil r)
          · obtain ⟨parts, hparts⟩ := htakes other hnil h
            rw [hempty, he''] at hparts
            cases hparts
      · obtain ⟨back', hback'⟩ := hother
        rw [← hback', List.flatten_append] at hbegins
        obtain ⟨e₁, he₁, hforetells'⟩ := foretells_of_front false hlf hbegins.of_append h hfront
        rw [he''] at he₁
        cases he₁
        exact hforetells'.isLimit hlimit

/-- **Chunks make no difference to a body that begins with a delimiter**, except
    that a limit passed by the bytes that have arrived is not held back for the
    end of the body or for bytes that are no text. -/
theorem feed_agrees {body : Bytes} (hr : r.OneLine) (hcut : chunks.flatten = body)
    (hopens : Opens r.marker body) :
    (∀ parts, (r.feed {} chunks).1 = .ok parts ↔ r.readAll body = .ok parts) ∧
    (∀ parts, r.readAll body = .ok parts → (r.feed {} chunks).2.phase = .closed ∧
      (r.feed {} chunks).2.total = (r.advance true { buffer := body }).2.total) ∧
    (∀ e, r.readAll body = .error e → e.isLimit = true →
      ∃ e', (r.feed {} chunks).1 = .error e' ∧ e'.isLimit = true) ∧
    (∀ e, r.readAll body = .error e → e.isLimit = false →
      (∀ front, front <+: chunks → ¬ r.Overflows front.flatten) → (r.feed {} chunks).1 = .error e) ∧
    (∀ e, r.readAll body = .error e → e.isLimit = false →
      (∃ front, front <+: chunks ∧ r.Overflows front.flatten) →
      (e = .unexpectedEnd ∨ e = .invalidHeaderText) ∧
        ∃ e', (r.feed {} chunks).1 = .error e' ∧ e'.isLimit = true) := by
  subst hcut
  rcases feed_readAll_cases hr.unbroken.lf hopens.begins with
    ⟨halike, hnone⟩ | ⟨e₀, e₁, hfeed, hread, hforetells, hover⟩
  · have hresult : (r.feed {} chunks).1 = r.readAll chunks.flatten := halike.result.symm
    rw [hresult]
    refine ⟨fun _ => .rfl, fun parts hparts => ?_, fun e he hlimit => ⟨e, he, hlimit⟩,
      fun e he _ _ => he, fun e _ _ ⟨front, hfront, h⟩ => absurd h (hnone front hfront)⟩
    have hagree := halike.stream parts hparts
    have hclosed := phase_of_advance (Prod.ext hparts rfl)
    exact ⟨hagree.phase ▸ hclosed, hagree.total.symm⟩
  · rw [hfeed, hread]
    refine ⟨fun _ => ?_, ?_, ?_, ?_, ?_⟩
    · constructor <;> intro h <;> cases h
    · intro _ h
      cases h
    · rintro e h hlimit
      cases h
      exact ⟨e₀, rfl, hforetells.isLimit hlimit⟩
    · rintro e h - hnone
      cases h
      have hlimit : e₀.isLimit = false :=
        Bool.eq_false_iff.2 fun h => (hover.1 h).elim fun front h => hnone front h.1 h.2
      rw [hforetells.eq hlimit]
    · rintro e h hlimit hsome
      cases h
      have hlimit₀ := hover.2 hsome
      refine ⟨?_, e₀, rfl, hlimit₀⟩
      rcases hforetells with rfl | ⟨-, h | h | ⟨-, h⟩⟩
      · rw [hlimit] at hlimit₀; cases hlimit₀
      · rw [hlimit] at h; cases h
      · exact Or.inr h
      · exact Or.inl h

/-- A body cut inside its delimiters and inside a line end of its payload. -/
theorem feed_agrees_cut :
    let r : Reader := ⟨"b", {}⟩
    let cuts : List Bytes := [Bytes.ofText "-", Bytes.ofText "-b\r",
      Bytes.ofText "\nContent-Disposition: form-data; name=\"a\"\r\n\r\nhi\r", [],
      Bytes.ofText "\n--\r\n-", Bytes.ofText "-b-", Bytes.ofText "-"]
    r.OneLine ∧ Opens r.marker cuts.flatten ∧
      (r.feed {} cuts).1 = .ok [⟨"a", none, none, Bytes.ofText "hi\r\n--"⟩] := by
  intro r cuts
  have hr : r.OneLine := ⟨by decide, by decide⟩
  have hopens : Opens r.marker cuts.flatten := Or.inl (by decide)
  exact ⟨hr, hopens, ((feed_agrees hr rfl hopens).1 _).2 (by decide +kernel)⟩

/-- Bytes that are over the limit of the request are refused when they arrive;
    the body as a whole is refused because it breaks off. -/
theorem feed_refused_early :
    let r : Reader := ⟨"b", { field := 4, attachment := 4, request := 4, parts := 1 }⟩
    let body : Bytes := Bytes.ofText "--b\r\n"
    r.OneLine ∧ Opens r.marker body ∧ body.length ≤ Size.largest ∧
      r.readAll body = .error .unexpectedEnd ∧ Error.unexpectedEnd.isLimit = false ∧
      (r.feed {} [body]).1 = .error (.totalTooLarge 5 4) := by
  refine ⟨⟨by decide, by decide⟩, Or.inl (by decide), by decide, by decide +kernel, rfl,
    by decide +kernel⟩

end Reader

end FormIntake.Multipart
