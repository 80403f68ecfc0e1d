/-
  FormIntake — which delimiter `findDelimiter` finds.

  `DelimiterAt` says what a delimiter at an offset is: the offset starts a line,
  and the marker stands there with a line end or two hyphens behind it.  For a
  marker without line feed, skipping the bytes of an occurrence skips no
  delimiter, so the scan finds the least such offset (`findDelimiter_eq_some_iff`).
  From there on the scan is opened in no proof.

  A delimiter found stays where it is when more bytes arrive
  (`findDelimiter_append`), and one that the new bytes complete begins near the
  end of the old ones (`lt_of_delimiterAt_append`).
-/
import FormIntake.Multipart.Delimiter
import Mathlib.Data.List.Infix

namespace FormIntake.Multipart

variable {marker data more : Bytes} {atStart : Bool} {n : Nat}

/-! ## Delimiters by their place -/

/-- The data begins with the marker and what makes it a delimiter. -/
def Opens (marker data : Bytes) : Prop :=
  marker ++ Bytes.crlf <+: data ∨ marker ++ Bytes.dashes <+: data

/-- The data is the front of a body that begins with a delimiter. -/
def Begins (marker data : Bytes) : Prop := ∃ more, Opens marker (data ++ more)

/-- The offset is the start of a line. -/
def LineStart (atStart : Bool) (data : Bytes) (n : Nat) : Prop :=
  (atStart = true ∧ n = 0) ∨ Bytes.crlf <:+ data.take n

/-- A delimiter stands at the offset. -/
structure DelimiterAt (marker : Bytes) (atStart : Bool) (data : Bytes) (n : Nat) : Prop where
  lineStart : LineStart atStart data n
  opens : Opens marker (data.drop n)

/-- The marker neither begins nor ends a line end, nor has one inside. -/
structure Unbroken (marker : Bytes) : Prop where
  cr : Bytes.cr ∉ marker
  lf : Bytes.lf ∉ marker

theorem Opens.length_le (h : Opens marker data) : marker.length + 2 ≤ data.length := by
  rcases h with h | h <;> simpa [Bytes.crlf, Bytes.dashes] using h.length_le

theorem Opens.append (h : Opens marker data) (more : Bytes) : Opens marker (data ++ more) :=
  h.imp (fun h => h.trans (List.prefix_append ..)) fun h => h.trans (List.prefix_append ..)

theorem Opens.of_append (h : Opens marker (data ++ more)) (hlen : marker.length + 2 ≤ data.length) :
    Opens marker data := by
  have hfront : ∀ w : Bytes, w <+: data ++ more → w.length = marker.length + 2 → w <+: data :=
    fun w h hw => List.prefix_of_prefix_length_le h (List.prefix_append ..) (hw ▸ hlen)
  rcases h with h | h
  · exact Or.inl (hfront _ h (by simp [Bytes.crlf]))
  · exact Or.inr (hfront _ h (by simp [Bytes.dashes]))

theorem Opens.marker_isPrefix (h : Opens marker data) : marker <+: data := by
  rcases h with h | h <;> exact (List.prefix_append ..).trans h

theorem Opens.begins (h : Opens marker data) : Begins marker data := ⟨[], by rwa [List.append_nil]⟩

theorem Begins.of_append (h : Begins marker (data ++ more)) : Begins marker data := by
  obtain ⟨rest, h⟩ := h
  exact ⟨more ++ rest, by rwa [← List.append_assoc]⟩

theorem opens_iff : Opens marker data ↔
    marker <+: data ∧ endsDelimiter (data.drop marker.length) = true := by
  constructor
  · intro h
    refine ⟨h.marker_isPrefix, ?_⟩
    rcases h with ⟨rest, rfl⟩ | ⟨rest, rfl⟩ <;> simp [endsDelimiter]
  · rintro ⟨⟨rest, rfl⟩, h⟩
    simp only [endsDelimiter, List.drop_left, Bool.or_eq_true, List.isPrefixOf_iff_prefix] at h
    exact h.imp (List.prefix_append_right_inj _).2 (List.prefix_append_right_inj _).2

theorem lineStart_append (hn : n ≤ data.length) :
    LineStart atStart (data ++ more) n ↔ LineStart atStart data n := by
  rw [LineStart, LineStart, List.take_append_of_le_length hn]

theorem DelimiterAt.length_le (h : DelimiterAt marker atStart data n) :
    n + marker.length + 2 ≤ data.length := by
  have := h.opens.length_le
  rw [List.length_drop] at this
  omega

theorem DelimiterAt.append (h : DelimiterAt marker atStart data n) (more : Bytes) :
    DelimiterAt marker atStart (data ++ more) n := by
  have := h.length_le
  refine ⟨(lineStart_append (by omega)).2 h.lineStart, ?_⟩
  rw [List.drop_append_of_le_length (by omega)]
  exact h.opens.append more

theorem DelimiterAt.of_append (h : DelimiterAt marker atStart (data ++ more) n)
    (hlen : n + marker.length + 2 ≤ data.length) : DelimiterAt marker atStart data n := by
  refine ⟨(lineStart_append (by omega)).1 h.lineStart, ?_⟩
  have hopens := h.opens
  rw [List.drop_append_of_le_length (by omega)] at hopens
  exact hopens.of_append (by rw [List.length_drop]; omega)

/-- Where the front of the data starts no line, a line end stands before every
    delimiter. -/
theorem DelimiterAt.two_le (h : DelimiterAt marker false data n) : 2 ≤ n := by
  rcases h.lineStart with ⟨h, -⟩ | h
  · cases h
  · have := h.length_le
    simp only [Bytes.crlf, List.length_cons, List.length_nil, List.length_take] at this
    omega

/-- A delimiter behind the front of the data stands behind a line end. -/
theorem DelimiterAt.exists_split (h : DelimiterAt marker atStart data n) (hn : 0 < n) :
    ∃ front back, data = front ++ Bytes.crlf ++ back ∧ Opens marker back ∧
      n = front.length + 2 := by
  have hlen := h.length_le
  obtain ⟨front, hfront⟩ : Bytes.crlf <:+ data.take n :=
    h.lineStart.resolve_left fun h => by omega
  have hn : n = front.length + 2 := by
    have := congrArg List.length hfront
    rw [List.length_append, List.length_take] at this
    simp only [Bytes.crlf, List.length_cons, List.length_nil] at this
    omega
  exact ⟨front, data.drop n, by rw [hfront, List.take_append_drop], h.opens, hn⟩

theorem delimiterAt_split (front : Bytes) {back : Bytes} (h : Opens marker back) :
    DelimiterAt marker atStart (front ++ Bytes.crlf ++ back) (front.length + 2) := by
  have hlen : front.length + 2 = (front ++ Bytes.crlf).length := by simp [Bytes.crlf]
  rw [hlen]
  exact ⟨Or.inr (by rw [List.take_left]; exact List.suffix_append ..), by rwa [List.drop_left]⟩

/-- At the front a delimiter needs no line end before it. -/
theorem delimiterAt_true_iff : DelimiterAt marker true data n ↔
    (n = 0 ∧ Opens marker data) ∨ DelimiterAt marker false data n := by
  constructor
  · rintro ⟨⟨-, rfl⟩ | hl, ho⟩
    · exact Or.inl ⟨rfl, ho⟩
    · exact Or.inr ⟨Or.inr hl, ho⟩
  · rintro (⟨rfl, ho⟩ | ⟨hl, ho⟩)
    · exact ⟨Or.inl ⟨rfl, rfl⟩, ho⟩
    · exact ⟨Or.inr (hl.resolve_left (by simp)), ho⟩

/-- Two hyphens leave no room for the line end in front of a delimiter. -/
theorem not_delimiterAt_of_dashes {m : Nat} (hdashes : Bytes.dashes <+: data.drop m) (hm : m < n)
    (hn : n ≤ m + 2) : ¬ DelimiterAt marker atStart data n := by
  intro hat
  obtain ⟨front, back, rfl, -, hfront⟩ := hat.exists_split (by omega)
  obtain ⟨k, rfl, hk⟩ : ∃ k, m = front.length + k ∧ k < 2 := ⟨m - front.length, by omega, by omega⟩
  rw [List.append_assoc, List.drop_length_add_append] at hdashes
  obtain rfl | rfl : k = 0 ∨ k = 1 := by omega
  · simp [Bytes.dashes, Bytes.crlf, Bytes.cr] at hdashes
  · simp [Bytes.dashes, Bytes.crlf, Bytes.lf] at hdashes

/-! ## The scan -/

theorem crlf_suffix_concat {before : Bytes} {b : UInt8} :
    Bytes.crlf <:+ before ++ [b] ↔ before.getLast? = some Bytes.cr ∧ b = Bytes.lf := by
  rw [show Bytes.crlf = [Bytes.cr] ++ [Bytes.lf] from rfl, List.suffix_concat_iff]
  simp only [List.append_eq_nil_iff, reduceCtorEq, false_and, false_or]
  constructor
  · rintro ⟨t, ht, hs⟩
    obtain ⟨rfl, hb⟩ := List.append_inj' ht rfl
    obtain ⟨front, rfl⟩ := hs
    exact ⟨by simp, (List.singleton_inj.1 hb).symm⟩
  · rintro ⟨hlast, rfl⟩
    obtain ⟨front, rfl⟩ := List.getLast?_eq_some_iff.1 hlast
    exact ⟨_, rfl, List.suffix_append ..⟩

theorem lf_notMem_of_marker {b : UInt8} (hlf : Bytes.lf ∉ marker) (hpos : 0 < marker.length - 1)
    (h : marker <+: b :: data) :
    b ≠ Bytes.lf ∧ Bytes.lf ∉ data.take (marker.length - 1) := by
  cases marker with
  | nil => simp at hpos
  | cons c rest =>
    obtain ⟨rfl, hrest⟩ := List.cons_prefix_cons.1 h
    rw [List.mem_cons, not_or] at hlf
    rw [List.length_cons, Nat.add_sub_cancel, ← List.prefix_iff_eq_take.1 hrest]
    exact ⟨Ne.symm hlf.1, hlf.2⟩

/-- Whatever the scan finds is a delimiter, also for a marker with line ends inside. -/
theorem delimiterAt_of_findDelimiterFrom (before data : Bytes) {lineStart afterCr : Bool}
    {skip : Nat} (hls : lineStart = true → LineStart atStart (before ++ data) before.length)
    (hcr : afterCr = true → before.getLast? = some Bytes.cr)
    (h : findDelimiterFrom marker lineStart afterCr skip before.length data = some n) :
    DelimiterAt marker atStart (before ++ data) n := by
  induction data generalizing before lineStart afterCr skip with
  | nil => cases h
  | cons b rest ih =>
    simp only [findDelimiterFrom] at h
    split at h
    · next hfound =>
      cases h
      simp only [Bool.and_eq_true, List.isPrefixOf_iff_prefix] at hfound
      refine ⟨hls hfound.1.2, ?_⟩
      rw [List.drop_left]
      exact opens_iff.2 ⟨hfound.1.1.2, hfound.2⟩
    · have hsplit : before ++ b :: rest = before ++ [b] ++ rest := by simp
      rw [show before.length + 1 = (before ++ [b]).length by simp] at h
      rw [hsplit]
      refine ih (before ++ [b]) (fun hline => ?_) (fun hb => ?_) h
      · simp only [Bool.and_eq_true, beq_iff_eq] at hline
        refine Or.inr ?_
        rw [List.take_left]
        exact crlf_suffix_concat.2 ⟨hcr hline.1, hline.2⟩
      · simpa using hb

theorem delimiterAt_of_findDelimiter (h : findDelimiter marker atStart data = some n) :
    DelimiterAt marker atStart data n := by
  have hscan : findDelimiterFrom marker atStart false 0 ([] : Bytes).length data = some n := h
  exact delimiterAt_of_findDelimiterFrom [] data (fun hstart => Or.inl ⟨hstart, rfl⟩) (by simp) hscan

/-- The scan from the end of `before` on: the flags tell what `before` ends
    with, and within an occurrence passed there is no line feed. -/
theorem findDelimiterFrom_eq_some_iff (hlf : Bytes.lf ∉ marker) (before data : Bytes)
    (lineStart afterCr : Bool) (skip : Nat)
    (hls : lineStart = true ↔ LineStart atStart (before ++ data) before.length)
    (hcr : afterCr = true ↔ before.getLast? = some Bytes.cr)
    (hskip : 0 < skip → lineStart = false ∧ Bytes.lf ∉ data.take skip) :
    findDelimiterFrom marker lineStart afterCr skip before.length data = some n ↔
      before.length ≤ n ∧ DelimiterAt marker atStart (before ++ data) n ∧
        ∀ m, before.length ≤ m → m < n → ¬ DelimiterAt marker atStart (before ++ data) m := by
  induction data generalizing before lineStart afterCr skip with
  | nil =>
    simp only [findDelimiterFrom, reduceCtorEq, false_iff]
    rintro ⟨hn, hat, -⟩
    have := hat.length_le
    rw [List.append_nil] at this
    omega
  | cons b rest ih =>
    have hhere : DelimiterAt marker atStart (before ++ b :: rest) before.length ↔
        (skip == 0 && marker.isPrefixOf (b :: rest) && lineStart &&
          endsDelimiter ((b :: rest).drop marker.length)) = true := by
      simp only [Bool.and_eq_true, beq_iff_eq, List.isPrefixOf_iff_prefix]
      constructor
      · rintro ⟨hl, ho⟩
        rw [List.drop_left] at ho
        obtain ⟨hp, he⟩ := opens_iff.1 ho
        refine ⟨⟨⟨?_, hp⟩, hls.2 hl⟩, he⟩
        rcases Nat.eq_zero_or_pos skip with h | h
        · exact h
        · rw [hls.2 hl] at hskip; cases (hskip h).1
      · rintro ⟨⟨⟨-, hp⟩, hl⟩, he⟩
        exact ⟨hls.1 hl, by rw [List.drop_left]; exact opens_iff.2 ⟨hp, he⟩⟩
    simp only [findDelimiterFrom]
    split
    · next hfound =>
      constructor
      · intro h
        obtain rfl := Option.some.inj h
        exact ⟨le_rfl, hhere.2 hfound, fun m h1 h2 => absurd h2 (by omega)⟩
      · rintro ⟨hn, -, hleast⟩
        rcases Nat.eq_or_lt_of_le hn with h | h
        · rw [h]
        · exact absurd (hhere.2 hfound) (hleast _ le_rfl h)
    · next hfound =>
      have hnot := mt hhere.1 hfound
      have hsplit : before ++ b :: rest = (before ++ [b]) ++ rest := by simp
      have hlen : before.length + 1 = (before ++ [b]).length := by simp
      rw [hlen, ih (before ++ [b]) _ _ _, ← hsplit]
      · constructor
        · rintro ⟨hn, hat, hleast⟩
          refine ⟨by omega, hat, fun m h1 h2 => ?_⟩
          rcases Nat.eq_or_lt_of_le h1 with rfl | h
          · exact hnot
          · exact hleast m (by omega) h2
        · rintro ⟨hn, hat, hleast⟩
          refine ⟨?_, hat, fun m h1 h2 => hleast m (by omega) h2⟩
          rcases Nat.eq_or_lt_of_le hn with rfl | h
          · exact absurd hat hnot
          · omega
      · rw [LineStart, List.take_left, crlf_suffix_concat, ← hcr]
        simp
      · simp
      · -- what is skipped next is the rest of an occurrence of the marker
        intro hpos
        have hb : b ≠ Bytes.lf ∧ Bytes.lf ∉ rest.take
            (if skip == 0 && marker.isPrefixOf (b :: rest) then marker.length - 1
              else skip - 1) := by
          split at hpos
          · next hocc =>
            rw [if_pos hocc]
            simp only [Bool.and_eq_true, List.isPrefixOf_iff_prefix] at hocc
            exact lf_notMem_of_marker hlf hpos hocc.2
          · next hocc =>
            rw [if_neg hocc]
            obtain ⟨k, rfl⟩ : ∃ k, skip = k + 1 := ⟨skip - 1, by omega⟩
            have := (hskip (by omega)).2
            rw [List.take_succ_cons, List.mem_cons, not_or] at this
            exact ⟨Ne.symm this.1, this.2⟩
        exact ⟨by simp [hb.1], hb.2⟩

/-- **The scan finds the first delimiter.** -/
theorem findDelimiter_eq_some_iff (hlf : Bytes.lf ∉ marker) :
    findDelimiter marker atStart data = some n ↔
      DelimiterAt marker atStart data n ∧ ∀ m < n, ¬ DelimiterAt marker atStart data m := by
  have hstart : atStart = true ↔ LineStart atStart ([] ++ data) ([] : Bytes).length := by
    simp [LineStart, Bytes.crlf]
  have h := findDelimiterFrom_eq_some_iff (n := n) hlf [] data atStart false 0 hstart
    (by simp) (by simp)
  simpa [findDelimiter] using h

theorem findDelimiter_eq_none_iff (hlf : Bytes.lf ∉ marker) :
    findDelimiter marker atStart data = none ↔ ∀ n, ¬ DelimiterAt marker atStart data n := by
  constructor
  · intro h n
    -- a delimiter with none before it would have been found
    induction n using Nat.strongRecOn with
    | ind n ih =>
      intro hat
      rw [(findDelimiter_eq_some_iff hlf).2 ⟨hat, ih⟩] at h
      cases h
  · intro h
    cases hf : findDelimiter marker atStart data with
    | none => rfl
    | some m => exact absurd ((findDelimiter_eq_some_iff hlf).1 hf).1 (h m)

/-- A delimiter found at the front begins with the marker. -/
theorem marker_isPrefix_of_findDelimiter_zero (h : findDelimiter marker atStart data = some 0) :
    marker <+: data := by
  cases data with
  | nil => cases h
  | cons b rest =>
    simp only [findDelimiter, findDelimiterFrom] at h
    split at h
    · next hfound =>
      simp only [Bool.and_eq_true, List.isPrefixOf_iff_prefix] at hfound
      exact hfound.1.1.2
    · have := le_of_findDelimiterFrom h
      omega

/-! ## More bytes -/

/-- A delimiter found stays where it is when more bytes arrive. -/
theorem findDelimiter_append (hlf : Bytes.lf ∉ marker)
    (h : findDelimiter marker atStart data = some n) (more : Bytes) :
    findDelimiter marker atStart (data ++ more) = some n := by
  obtain ⟨hat, hleast⟩ := (findDelimiter_eq_some_iff hlf).1 h
  refine (findDelimiter_eq_some_iff hlf).2 ⟨hat.append more, fun m hm hat' => ?_⟩
  have := hat.length_le
  exact hleast m hm (hat'.of_append (by omega))

/-- A delimiter that lies in the earlier bytes was found there. -/
theorem findDelimiter_of_append (hlf : Bytes.lf ∉ marker)
    (h : findDelimiter marker atStart (data ++ more) = some n)
    (hlen : n + marker.length + 2 ≤ data.length) : findDelimiter marker atStart data = some n := by
  obtain ⟨hat, hleast⟩ := (findDelimiter_eq_some_iff hlf).1 h
  exact (findDelimiter_eq_some_iff hlf).2
    ⟨hat.of_append hlen, fun m hm hat' => hleast m hm (hat'.append more)⟩

/-- A delimiter that only later bytes complete begins near the end of the
    earlier ones. -/
theorem lt_of_delimiterAt_append (hlf : Bytes.lf ∉ marker)
    (h : findDelimiter marker atStart data = none)
    (hat : DelimiterAt marker atStart (data ++ more) n) : data.length < n + marker.length + 2 := by
  refine Nat.lt_of_not_le fun hle => ?_
  exact (findDelimiter_eq_none_iff hlf).1 h n (hat.of_append hle)

/-- Bytes far enough in front of a delimiter do not matter to it. -/
theorem delimiterAt_append_left (front : Bytes) (hn : 2 ≤ n) :
    DelimiterAt marker false (front ++ data) (front.length + n) ↔
      DelimiterAt marker false data n := by
  have hopens : (front ++ data).drop (front.length + n) = data.drop n := by simp
  have hline : (front ++ data).take (front.length + n) = front ++ data.take n :=
    List.take_length_add_append ..
  constructor
  · rintro ⟨hl, ho⟩
    rw [hopens] at ho
    refine ⟨Or.inr ?_, ho⟩
    rw [LineStart, hline] at hl
    have hsuffix : Bytes.crlf <:+ front ++ data.take n := hl.resolve_left (by simp)
    have := ho.length_le
    rw [List.length_drop] at this
    exact List.suffix_of_suffix_length_le hsuffix (List.suffix_append ..)
      (by simp only [Bytes.crlf, List.length_cons, List.length_nil, List.length_take]; omega)
  · rintro ⟨hl, ho⟩
    rw [← hopens] at ho
    refine ⟨Or.inr ?_, ho⟩
    rw [hline]
    exact (hl.resolve_left (by simp)).trans (List.suffix_append ..)

/-- Bytes in front of the first delimiter may be dropped, up to its line end. -/
theorem findDelimiter_append_left (hlf : Bytes.lf ∉ marker) {front : Bytes}
    (h : ∀ n, DelimiterAt marker false (front ++ data) n → front.length + 2 ≤ n) :
    findDelimiter marker false (front ++ data) =
      (findDelimiter marker false data).map (front.length + ·) := by
  have hback : ∀ n, DelimiterAt marker false (front ++ data) n →
      DelimiterAt marker false data (n - front.length) := by
    intro n hat
    have := h n hat
    refine (delimiterAt_append_left front (by omega)).1 ?_
    rwa [show front.length + (n - front.length) = n by omega]
  cases hf : findDelimiter marker false data with
  | none =>
    refine (findDelimiter_eq_none_iff hlf).2 fun n hat => ?_
    exact (findDelimiter_eq_none_iff hlf).1 hf _ (hback n hat)
  | some m =>
    obtain ⟨hat, hleast⟩ := (findDelimiter_eq_some_iff hlf).1 hf
    refine (findDelimiter_eq_some_iff hlf).2 ⟨?_, fun k hk hat' => ?_⟩
    · exact (delimiterAt_append_left front hat.two_le).2 hat
    · have := h k hat'
      have hk : k < front.length + m := hk
      exact hleast (k - front.length) (by omega) (hback k hat')

end FormIntake.Multipart
