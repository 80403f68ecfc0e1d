/-
  FormIntake — where a run leaves the preamble.

  `Reader.start?` is the offset of the delimiter at which a run of calls leaves
  the preamble; `feed_of_start?_none` and `feed_of_start?_some` say what it has to
  do with the run.

  A call that finds no delimiter keeps the end of the buffer only, and the next
  call takes the front of what was kept for the start of a line.  So a run leaves
  the preamble at the first delimiter or at the first place where a marker was
  cut off from its line (`start?_eq_some_iff`), and chunks make no difference
  exactly if every such cut lies behind a delimiter (`start_agrees`).
-/
import FormIntake.Proofs.Multipart.Chunking

namespace FormIntake.Multipart

namespace Reader

/-- The offset in the buffer and the chunks at which a run that is in the preamble
    leaves it. -/
def start? (r : Reader) (s : Stream) : List Bytes → Option Nat
  | [] =>
    match r.step true s with
    | .more _ t => some (s.buffer.length - t.buffer.length)
    | _ => none
  | chunk :: rest =>
    let s := s.push chunk
    match r.step false s with
    | .more _ t => some (s.buffer.length - t.buffer.length)
    | .stop t => (r.start? t rest).map (s.buffer.length - t.buffer.length + ·)
    | .fail .. => none

/-- A call drops the bytes up to this offset, and a marker stands here that is
    followed like that of a delimiter. -/
structure CutAt (r : Reader) (buffer : Bytes) (chunks : List Bytes) (n : Nat) : Prop where
  opens : Opens r.marker ((buffer ++ chunks.flatten).drop n)
  cut : ∃ front, front ≠ [] ∧ front <+: chunks ∧
    buffer.length + front.flatten.length = n + r.keep

/-- A run may leave the preamble here. -/
def StartsAt (r : Reader) (buffer : Bytes) (chunks : List Bytes) (n : Nat) : Prop :=
  DelimiterAt r.marker true (buffer ++ chunks.flatten) n ∨ r.CutAt buffer chunks n

variable {r : Reader} {s t : Stream} {buffer chunk : Bytes} {chunks rest : List Bytes} {n : Nat}

/-! ## The start of a run, call by call -/

theorem start?_nil (hs : s.phase = .preamble) :
    r.start? s [] = findDelimiter r.marker true s.buffer := by
  rw [start?, step_preamble hs, skipPreamble]
  cases h : findDelimiter r.marker true s.buffer with
  | none => rfl
  | some n =>
    have := findDelimiter_lt h
    simp only [Stream.drop, List.length_drop, Option.some.injEq]
    omega

theorem start?_cons_some (hs : s.phase = .preamble)
    (h : findDelimiter r.marker true (s.push chunk).buffer = some n) :
    r.start? s (chunk :: rest) = some n := by
  have := findDelimiter_lt h
  rw [start?, step_preamble (show (s.push chunk).phase = .preamble from hs), skipPreamble, h]
  simp only [Stream.drop, List.length_drop, Option.some.injEq]
  omega

theorem start?_cons_none (hs : s.phase = .preamble)
    (h : findDelimiter r.marker true (s.push chunk).buffer = none) :
    r.start? s (chunk :: rest) =
      (r.start? ((s.push chunk).drop (r.spare (s.push chunk))) rest).map
        (r.spare (s.push chunk) + ·) := by
  have hspare : r.spare (s.push chunk) ≤ (s.push chunk).buffer.length := Nat.sub_le ..
  have hdropped : (s.push chunk).buffer.length -
      ((s.push chunk).buffer.drop (r.spare (s.push chunk))).length = r.spare (s.push chunk) := by
    rw [List.length_drop]; omega
  rw [start?, step_preamble (show (s.push chunk).phase = .preamble from hs), skipPreamble, h]
  dsimp only
  rw [if_neg (by simp)]
  dsimp only [Stream.drop]
  rw [hdropped]

/-! ## Where a run may start -/

theorem startsAt_nil_iff : r.StartsAt buffer [] n ↔ DelimiterAt r.marker true buffer n := by
  rw [StartsAt, List.flatten_nil, List.append_nil]
  refine or_iff_left ?_
  rintro ⟨-, front, hne, hfront, -⟩
  exact hne (List.prefix_nil.1 hfront)

/-- The next call finds what it finds before any cut to come. -/
theorem not_startsAt_of_lt {m : Nat} (hlf : Bytes.lf ∉ r.marker)
    (h : findDelimiter r.marker true (buffer ++ chunk) = some n) (hm : m < n) :
    ¬ r.StartsAt buffer (chunk :: rest) m := by
  obtain ⟨hat, hleast⟩ := (findDelimiter_eq_some_iff hlf).1 h
  have hlen := hat.length_le
  rintro (hat' | ⟨hopens, front, hne, hfront, hcut⟩)
  · rw [List.flatten_cons, ← List.append_assoc] at hat'
    exact hleast m hm (hat'.of_append (by omega))
  · obtain ⟨c, front, rfl⟩ := List.exists_cons_of_ne_nil hne
    obtain ⟨rfl, -⟩ := List.cons_prefix_cons.1 hfront
    rw [List.flatten_cons, ← List.append_assoc] at hopens
    rw [List.flatten_cons, List.length_append, keep] at hcut
    rw [List.length_append] at hlen
    exact not_delimiterAt_of_dashes (dashes_isPrefix hopens) hm (by omega) (hat.append _)

section Dropped

/-! A call that finds nothing drops `front` and keeps `back`. -/

variable {front back : Bytes} (hlf : Bytes.lf ∉ r.marker)
  (h : findDelimiter r.marker true (buffer ++ chunk) = none)
  (hsplit : buffer ++ chunk = front ++ back)
  (hfront : front.length = (buffer ++ chunk).length - r.keep)

include hlf h hfront in
theorem not_startsAt_of_lt_front {m : Nat} (hm : m < front.length) :
    ¬ r.StartsAt buffer (chunk :: rest) m := by
  rw [keep] at hfront
  rintro (hat | ⟨-, f, hne, hf, hcut⟩)
  · rw [List.flatten_cons, ← List.append_assoc] at hat
    have := lt_of_delimiterAt_append hlf h hat
    omega
  · obtain ⟨c, f, rfl⟩ := List.exists_cons_of_ne_nil hne
    obtain ⟨rfl, -⟩ := List.cons_prefix_cons.1 hf
    rw [List.flatten_cons, List.length_append, keep] at hcut
    rw [List.length_append] at hfront
    omega

include hlf h hsplit hfront in
/-- A run starts where it starts in the bytes that are kept. -/
theorem startsAt_cons_iff :
    r.StartsAt buffer (chunk :: rest) (front.length + n) ↔ r.StartsAt back rest n := by
  have hwhole : buffer ++ (chunk :: rest).flatten = front ++ (back ++ rest.flatten) := by
    rw [List.flatten_cons, ← List.append_assoc, hsplit, List.append_assoc]
  have hdrop : (front ++ (back ++ rest.flatten)).drop (front.length + n) =
      (back ++ rest.flatten).drop n := List.drop_length_add_append ..
  have hlength : buffer.length + chunk.length = front.length + back.length := by
    rw [← List.length_append, hsplit, List.length_append]
  rw [List.length_append, keep] at hfront
  constructor
  · rintro (hat | ⟨hopens, f, hne, hf, hcut⟩)
    · have hshort : (buffer ++ chunk).length < front.length + n + r.marker.length + 2 := by
        rw [List.flatten_cons, ← List.append_assoc] at hat
        exact lt_of_delimiterAt_append hlf h hat
      rw [List.length_append] at hshort
      rw [hwhole] at hat
      rcases delimiterAt_true_iff.1 hat with ⟨hzero, hopens⟩ | hat
      · obtain ⟨hnil, rfl⟩ : front.length = 0 ∧ n = 0 := by omega
        rw [List.length_eq_zero_iff.1 hnil] at hopens
        exact Or.inl ⟨Or.inl ⟨rfl, rfl⟩, hopens⟩
      · have := hat.two_le
        refine Or.inl (delimiterAt_true_iff.2 (Or.inr ?_))
        exact (delimiterAt_append_left front (by omega)).1 hat
    · obtain ⟨c, f, rfl⟩ := List.exists_cons_of_ne_nil hne
      obtain ⟨rfl, htail⟩ := List.cons_prefix_cons.1 hf
      rw [hwhole, hdrop] at hopens
      rw [List.flatten_cons, List.length_append] at hcut
      by_cases hnil : f = []
      · subst hnil
        rw [List.flatten_nil, List.length_nil, keep] at hcut
        obtain rfl : n = 0 := by omega
        exact Or.inl ⟨Or.inl ⟨rfl, rfl⟩, hopens⟩
      · exact Or.inr ⟨hopens, f, hnil, htail, by omega⟩
  · rintro (hat | ⟨hopens, f, hne, hf, hcut⟩)
    · rcases delimiterAt_true_iff.1 hat with ⟨rfl, hopens⟩ | hat
      · rw [← List.drop_zero (l := back ++ rest.flatten), ← hdrop, ← hwhole] at hopens
        by_cases hnil : front.length = 0
        · exact Or.inl ⟨Or.inl ⟨rfl, by omega⟩, hopens⟩
        · refine Or.inr ⟨hopens, [chunk], by simp, by simp, ?_⟩
          rw [List.flatten_singleton, keep]
          omega
      · refine Or.inl (delimiterAt_true_iff.2 (Or.inr ?_))
        rw [hwhole]
        exact (delimiterAt_append_left front hat.two_le).2 hat
    · refine Or.inr ⟨by rwa [hwhole, hdrop], chunk :: f, by simp, ?_, ?_⟩
      · exact List.cons_prefix_cons.2 ⟨rfl, hf⟩
      · rw [List.flatten_cons, List.length_append]
        omega

end Dropped

/-- **A run leaves the preamble at the first place where it may.** -/
theorem start?_eq_some_iff (hlf : Bytes.lf ∉ r.marker) (hs : s.phase = .preamble) :
    r.start? s chunks = some n ↔
      r.StartsAt s.buffer chunks n ∧ ∀ m < n, ¬ r.StartsAt s.buffer chunks m := by
  induction chunks generalizing s n with
  | nil =>
    simp only [start?_nil hs, findDelimiter_eq_some_iff hlf, startsAt_nil_iff]
  | cons chunk rest ih =>
    cases hfind : findDelimiter r.marker true (s.push chunk).buffer with
    | some k =>
      have hk : r.StartsAt s.buffer (chunk :: rest) k := by
        have := ((findDelimiter_eq_some_iff hlf).1 hfind).1.append rest.flatten
        rw [Stream.push, List.append_assoc] at this
        exact Or.inl this
      have hleast : ∀ m < k, ¬ r.StartsAt s.buffer (chunk :: rest) m :=
        fun m hm => not_startsAt_of_lt hlf hfind hm
      rw [start?_cons_some hs hfind]
      constructor
      · rintro ⟨⟩
        exact ⟨hk, hleast⟩
      · rintro ⟨hn, hleast'⟩
        rcases Nat.lt_trichotomy k n with h | rfl | h
        · exact absurd hk (hleast' k h)
        · rfl
        · exact absurd hn (hleast n h)
    | none =>
      set front := (s.push chunk).buffer.take (r.spare (s.push chunk)) with hfrontdef
      set u := (s.push chunk).drop (r.spare (s.push chunk)) with hu
      have hsplit : s.buffer ++ chunk = front ++ u.buffer := (List.take_append_drop ..).symm
      have hfront : front.length = r.spare (s.push chunk) := by
        rw [hfrontdef, List.length_take]
        exact Nat.min_eq_left (Nat.sub_le ..)
      have hkept : ∀ k, r.StartsAt s.buffer (chunk :: rest) (front.length + k) ↔
          r.StartsAt u.buffer rest k := fun k => startsAt_cons_iff hlf hfind hsplit hfront
      have hdropped : ∀ m < front.length, ¬ r.StartsAt s.buffer (chunk :: rest) m :=
        fun m hm => not_startsAt_of_lt_front hlf hfind hfront hm
      rw [start?_cons_none hs hfind, ← hu, ← hfront, Option.map_eq_some_iff]
      constructor
      · rintro ⟨k, hk, rfl⟩
        obtain ⟨hstart, hleast⟩ := (ih (s := u) hs).1 hk
        refine ⟨(hkept k).2 hstart, fun m hm hm' => ?_⟩
        by_cases hlt : m < front.length
        · exact hdropped m hlt hm'
        · obtain ⟨j, rfl⟩ := Nat.exists_eq_add_of_le (Nat.le_of_not_lt hlt)
          exact hleast j (by omega) ((hkept j).1 hm')
      · rintro ⟨hn, hleast⟩
        by_cases hlt : n < front.length
        · exact absurd hn (hdropped n hlt)
        · obtain ⟨k, rfl⟩ := Nat.exists_eq_add_of_le (Nat.le_of_not_lt hlt)
          refine ⟨k, (ih (s := u) hs).2 ⟨(hkept k).1 hn, fun j hj hj' => ?_⟩, rfl⟩
          exact hleast (front.length + j) (by omega) ((hkept j).2 hj')

theorem start?_eq_none_iff (hlf : Bytes.lf ∉ r.marker) (hs : s.phase = .preamble) :
    r.start? s chunks = none ↔ ∀ n, ¬ r.StartsAt s.buffer chunks n := by
  constructor
  · intro h n
    -- the least place would have been found
    induction n using Nat.strongRecOn with
    | ind n ih =>
      intro hn
      rw [(start?_eq_some_iff hlf hs).2 ⟨hn, ih⟩] at h
      cases h
  · intro h
    cases hstart : r.start? s chunks with
    | none => rfl
    | some n => exact absurd ((start?_eq_some_iff hlf hs).1 hstart).1 (h n)

/-! ## The start and the run -/

/-- A run without a start does nothing. -/
theorem feed_of_start?_none (hs : s.phase = .preamble) (h : r.start? s chunks = none) :
    ∃ t, r.feed s chunks = (.error .unexpectedEnd, t) ∧ t.phase = .preamble ∧
      t.parts = s.parts ∧ t.total = s.total := by
  induction chunks generalizing s with
  | nil =>
    rw [start?_nil hs] at h
    exact ⟨s, advance_preamble_none hs h, hs, rfl, rfl⟩
  | cons chunk rest ih =>
    cases hfind : findDelimiter r.marker true (s.push chunk).buffer with
    | some n => rw [start?_cons_some hs hfind] at h; cases h
    | none =>
      rw [start?_cons_none hs hfind, Option.map_eq_none_iff] at h
      rw [feed_of_ok (advance_preamble_none (s := s.push chunk) hs hfind), after_nil]
      exact ih hs h

/-- A run goes on from its start as if the bytes in front of it had not been
    there. -/
theorem feed_of_start?_some (hs : s.phase = .preamble) (h : r.start? s chunks = some n) :
    ∃ front rest t, chunks = front ++ rest ∧
      t = { s with phase := .between, buffer := (s.buffer ++ front.flatten).drop n } ∧
      (r.feed s chunks = r.feed t ([] :: rest) ∨ (rest = [] ∧ r.feed s chunks = r.feed t [])) := by
  induction chunks generalizing s n with
  | nil =>
    rw [start?_nil hs] at h
    refine ⟨[], [], _, rfl, rfl, Or.inr ⟨rfl, ?_⟩⟩
    rw [feed, feed, advance_preamble_some hs h]
    simp [Stream.drop]
  | cons chunk rest ih =>
    cases hfind : findDelimiter r.marker true (s.push chunk).buffer with
    | some k =>
      rw [start?_cons_some hs hfind] at h
      cases h
      refine ⟨[chunk], rest, _, rfl, rfl, Or.inl ?_⟩
      rw [feed, feed, advance_preamble_some (s := s.push chunk) hs hfind]
      simp [Stream.push, Stream.drop]
    | none =>
      rw [start?_cons_none hs hfind, Option.map_eq_some_iff] at h
      obtain ⟨k, hk, rfl⟩ := h
      obtain ⟨front, rest, t, rfl, ht, hfeed⟩ := ih (s := (s.push chunk).drop _) hs hk
      refine ⟨chunk :: front, rest, t, rfl, ?_, ?_⟩
      · have hle : r.spare (s.push chunk) ≤ (s.buffer ++ chunk).length := Nat.sub_le ..
        rw [ht, List.flatten_cons, ← List.append_assoc, ← List.drop_drop,
          List.drop_append_of_le_length hle]
        rfl
      · rw [feed_of_ok (advance_preamble_none (s := s.push chunk) hs hfind), after_nil]
        exact hfeed

/-- **The start of a run does not depend on chunks exactly if no marker is cut off
    from its line in front of the first delimiter.**  A run goes on from its start as if
    the bytes in front of it had not been there, and without a start it does nothing. -/
theorem start_agrees {body : Bytes} (hr : r.OneLine) (hcut : chunks.flatten = body) :
    (∀ n, r.start? { buffer := body } [] = some n ↔
      DelimiterAt r.marker true body n ∧ ∀ m < n, ¬ DelimiterAt r.marker true body m) ∧
    (∀ n, r.start? {} chunks = some n ↔
      r.StartsAt [] chunks n ∧ ∀ m < n, ¬ r.StartsAt [] chunks m) ∧
    (r.start? {} chunks = r.start? { buffer := body } [] ↔
      ∀ n, r.CutAt [] chunks n → ∃ m ≤ n, DelimiterAt r.marker true body m) ∧
    (∀ n, r.start? {} chunks = some n → ∃ front rest t, chunks = front ++ rest ∧
      t = { phase := .between, buffer := front.flatten.drop n } ∧
      (r.feed {} chunks = r.feed t ([] :: rest) ∨ (rest = [] ∧ r.feed {} chunks = r.feed t []))) ∧
    ((∀ n, ¬ r.StartsAt [] chunks n) → ∃ t,
      r.feed {} chunks = (.error .unexpectedEnd, t) ∧ t.phase = .preamble ∧ t.parts = 0) := by
  subst hcut
  have hlf := hr.unbroken.lf
  have hwhole : ∀ n, r.start? { buffer := chunks.flatten } [] = some n ↔
      DelimiterAt r.marker true chunks.flatten n ∧
        ∀ m < n, ¬ DelimiterAt r.marker true chunks.flatten m := by
    intro n
    rw [start?_nil rfl, findDelimiter_eq_some_iff hlf]
  have hsome : ∀ n, r.start? {} chunks = some n ↔
      r.StartsAt [] chunks n ∧ ∀ m < n, ¬ r.StartsAt [] chunks m :=
    fun n => start?_eq_some_iff hlf rfl
  have hnone : r.start? {} chunks = none ↔ ∀ n, ¬ r.StartsAt [] chunks n :=
    start?_eq_none_iff hlf rfl
  refine ⟨hwhole, hsome, ⟨fun heq n hn => ?_, fun hcuts => ?_⟩,
    fun n hstart => feed_of_start?_some rfl hstart, fun hstarts => ?_⟩
  · cases hstart : r.start? {} chunks with
    | none => exact absurd (Or.inr hn) (hnone.1 hstart n)
    | some k =>
      refine ⟨k, Nat.le_of_not_lt fun hlt => ?_, ((hwhole k).1 (heq ▸ hstart)).1⟩
      exact ((hsome k).1 hstart).2 n hlt (Or.inr hn)
  · cases hstart : r.start? { buffer := chunks.flatten } [] with
    | none =>
      rw [start?_nil rfl, findDelimiter_eq_none_iff hlf] at hstart
      refine hnone.2 fun n hn => ?_
      rcases hn with hn | hn
      · exact hstart n hn
      · obtain ⟨m, -, hm⟩ := hcuts n hn
        exact hstart m hm
    | some n =>
      obtain ⟨hn, hleast⟩ := (hwhole n).1 hstart
      refine (hsome n).2 ⟨Or.inl hn, fun m hm hm' => ?_⟩
      rcases hm' with hm' | hm'
      · exact hleast m hm hm'
      · obtain ⟨k, hk, hk'⟩ := hcuts m hm'
        exact hleast k (by omega) hk'
  · obtain ⟨t, hfeed, hphase, hparts, -⟩ := feed_of_start?_none rfl (hnone.2 hstarts)
    exact ⟨t, hfeed, hphase, hparts⟩

/-- A preamble that is cut inside the delimiter behind it. -/
theorem start_agrees_cut :
    let r : Reader := ⟨"b", {}⟩
    let cuts : List Bytes := [Bytes.ofText "x\r\n-", Bytes.ofText "-b-", Bytes.ofText "-"]
    r.OneLine ∧ r.start? {} cuts = some 3 ∧
      ∀ n, r.CutAt [] cuts n → ∃ m ≤ n, DelimiterAt r.marker true cuts.flatten m := by
  intro r cuts
  have hr : r.OneLine := ⟨by decide, by decide⟩
  have hstart : r.start? {} cuts = r.start? { buffer := cuts.flatten } [] := by decide +kernel
  exact ⟨hr, by decide +kernel, (start_agrees hr rfl).2.2.1.1 hstart⟩

/-- The bytes in front of a marker are dropped between two calls, and a body
    without delimiter is read to its end. -/
theorem start_of_cut_line :
    let r : Reader := ⟨"b", {}⟩
    let body : Bytes := Bytes.ofText "x--b--zz"
    r.OneLine ∧ r.readAll body = .error .unexpectedEnd ∧ r.start? { buffer := body } [] = none ∧
      r.start? {} [body] = some 1 ∧ (r.feed {} [body]).1 = .ok [] ∧
      (r.feed {} [body]).2.phase = .closed := by
  refine ⟨⟨by decide, by decide⟩, by decide +kernel, by decide +kernel, by decide +kernel,
    by decide +kernel, by decide +kernel⟩

end Reader

end FormIntake.Multipart
