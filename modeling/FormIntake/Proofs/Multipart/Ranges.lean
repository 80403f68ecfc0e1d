/-
  FormIntake — the places at which reading looks.

  The scan for a delimiter, the walk over header lines and the cut between quotes go
  by offsets.  Here they are written once more with every cut checked (`Bytes.slice?`),
  and `none` is a cut out of range.  There is none, and what is found is the same:
  `locate?_eq`, `headersAt?_eq`, `unquote?_eq`.
-/
import FormIntake.Multipart.Disposition
import FormIntake.Proofs.Multipart.Delimiter
import FormIntake.Proofs.Multipart.HeaderLines
import FormIntake.Proofs.Utf8

namespace FormIntake

namespace Bytes

/-- The bytes from offset `a` up to offset `b`, if both lie in the data and in this
    order. -/
def slice? (data : Bytes) (a b : Nat) : Option Bytes :=
  if a ≤ b ∧ b ≤ data.length then some ((data.drop a).take (b - a)) else none

/-- The offset of the first line end from offset `pos` on. -/
def lineEndAt? (data : Bytes) (pos : Nat) : Option Nat :=
  (data.slice? pos data.length).bind fun rest => (lineEnd? rest).map (pos + ·)

variable {data : Bytes} {a b n stop : Nat}

theorem slice?_eq (ha : a ≤ b) (hb : b ≤ data.length) :
    data.slice? a b = some ((data.drop a).take (b - a)) :=
  if_pos ⟨ha, hb⟩

/-- What is left behind the first `n` bytes. -/
theorem slice?_length (h : n ≤ data.length) : data.slice? n data.length = some (data.drop n) := by
  rw [slice?_eq h le_rfl, List.take_of_length_le (by rw [List.length_drop])]

theorem slice?_zero (h : n ≤ data.length) : data.slice? 0 n = some (data.take n) := by
  rw [slice?_eq (Nat.zero_le n) h, List.drop_zero, Nat.sub_zero]

/-- The two bytes at an offset tell what the data goes on with there. -/
theorem exists_slice?_two (h : n + 2 ≤ data.length) :
    ∃ pair, data.slice? n (n + 2) = some pair ∧
      ∀ w : Bytes, w.length = 2 → (pair = w ↔ w <+: data.drop n) := by
  refine ⟨_, slice?_eq (Nat.le_add_right n 2) h, fun w hw => ?_⟩
  rw [Nat.add_sub_cancel_left, List.prefix_iff_eq_take, hw, eq_comm]

/-- The bytes between those in front and those behind. -/
theorem slice?_append (front line back : Bytes) :
    (front ++ (line ++ back)).slice? front.length (front.length + line.length) = some line := by
  rw [slice?_eq (Nat.le_add_right ..) (by simp), List.drop_left, Nat.add_sub_cancel_left,
    List.take_left]

theorem lineEndAt?_le (h : data.lineEndAt? n = some stop) : n ≤ stop ∧ stop + 2 ≤ data.length := by
  rw [lineEndAt?, slice?] at h
  split at h
  · next hn =>
    obtain ⟨k, hk, rfl⟩ := Option.map_eq_some_iff.1 h
    have := lineEnd?_le hk
    rw [List.length_take, List.length_drop] at this
    omega
  · cases h

theorem lineEndAt?_eq (h : n ≤ data.length) :
    data.lineEndAt? n = (lineEnd? (data.drop n)).map (n + ·) := by
  rw [lineEndAt?, slice?_length h, Option.bind_some]

end Bytes

namespace Multipart

variable {marker data : Bytes} {atStart : Bool} {n pos : Nat}

/-! ## The scan for a delimiter -/

/-- Whether the offset is the start of a line. -/
def startsLine? (atStart : Bool) (data : Bytes) (i : Nat) : Option Bool :=
  if i = 0 ∧ atStart = true then some true
  else if 2 ≤ i then (data.slice? (i - 2) i).map (· == Bytes.crlf)
  else some false

/-- The offsets at which the marker occurs, no occurrence overlapping the one before
    it.  `pos` bytes have been passed, and `skip` bytes still belong to the last
    occurrence. -/
def occurrencesFrom (marker : Bytes) (skip pos : Nat) : Bytes → List Nat
  | [] => []
  | b :: rest =>
    if skip == 0 && marker.isPrefixOf (b :: rest) then
      pos :: occurrencesFrom marker (marker.length - 1) (pos + 1) rest
    else occurrencesFrom marker (skip - 1) (pos + 1) rest

/-- The first of the occurrences that is a delimiter.  The search ends at one that the
    data breaks off behind. -/
def locateAmong? (marker : Bytes) (atStart : Bool) (data : Bytes) : List Nat → Option (Option Nat)
  | [] => some none
  | i :: rest =>
    (startsLine? atStart data i).bind fun line =>
      if line then
        let stop := i + marker.length
        if data.length < stop + 2 then some none
        else (data.slice? stop (stop + 2)).bind fun pair =>
          if pair ≠ Bytes.crlf ∧ pair ≠ Bytes.dashes then locateAmong? marker atStart data rest
          else some (some i)
      else locateAmong? marker atStart data rest

/-- The offset of the first delimiter. -/
def locate? (marker : Bytes) (atStart : Bool) (data : Bytes) : Option (Option Nat) :=
  locateAmong? marker atStart data (occurrencesFrom marker 0 0 data)

theorem exists_startsLine? (atStart : Bool) (h : n ≤ data.length) :
    ∃ line, startsLine? atStart data n = some line ∧ (line = true ↔ LineStart atStart data n) := by
  rw [startsLine?]
  split
  · next hstart => exact ⟨true, rfl, by simp [LineStart, hstart]⟩
  · next hstart =>
    have hline : LineStart atStart data n ↔ Bytes.crlf <:+ data.take n :=
      or_iff_right fun h => hstart h.symm
    rw [hline]
    split
    · next htwo =>
      refine ⟨_, by rw [Bytes.slice?_eq (Nat.sub_le n 2) h, Option.map_some], ?_⟩
      rw [beq_iff_eq, List.suffix_iff_eq_drop, List.length_take, Nat.min_eq_left h,
        show n - Bytes.crlf.length = n - 2 from rfl, List.drop_take, eq_comm]
    · next htwo =>
      refine ⟨false, rfl, iff_of_false (by simp) fun hsuffix => ?_⟩
      have := hsuffix.length_le
      rw [List.length_take] at this
      simp only [Bytes.crlf, List.length_cons, List.length_nil] at this
      omega

/-- Behind an occurrence that the data breaks off behind no delimiter is found. -/
theorem findDelimiterFrom_eq_none (before data : Bytes) {lineStart afterCr : Bool} {skip : Nat}
    (hls : lineStart = true → LineStart atStart (before ++ data) before.length)
    (hcr : afterCr = true → before.getLast? = some Bytes.cr)
    (hlen : data.length < marker.length + 2) :
    findDelimiterFrom marker lineStart afterCr skip before.length data = none := by
  rw [Option.eq_none_iff_forall_not_mem]
  intro n hn
  have hat := (delimiterAt_of_findDelimiterFrom before data hls hcr hn).length_le
  have := (le_of_findDelimiterFrom hn).1
  rw [List.length_append] at hat
  omega

/-- The search among the occurrences behind `before` is the scan from there on. -/
theorem locateAmong?_eq (before data : Bytes) {lineStart afterCr : Bool} (skip : Nat)
    (hls : lineStart = true ↔ LineStart atStart (before ++ data) before.length)
    (hcr : afterCr = true ↔ before.getLast? = some Bytes.cr) :
    locateAmong? marker atStart (before ++ data)
        (occurrencesFrom marker skip before.length data) =
      some (findDelimiterFrom marker lineStart afterCr skip before.length data) := by
  induction data generalizing before lineStart afterCr skip with
  | nil => rfl
  | cons b rest ih =>
    -- the search and the scan, both gone on behind `b`
    have hnext : ∀ skip', locateAmong? marker atStart (before ++ b :: rest)
        (occurrencesFrom marker skip' (before.length + 1) rest) =
          some (findDelimiterFrom marker (afterCr && b == Bytes.lf) (b == Bytes.cr) skip'
            (before.length + 1) rest) := by
      intro skip'
      have hsplit : before ++ b :: rest = before ++ [b] ++ rest := by simp
      have hlen : before.length + 1 = (before ++ [b]).length := by simp
      rw [hlen, hsplit]
      refine ih (before ++ [b]) skip' ?_ (by simp)
      rw [LineStart, List.take_left, crlf_suffix_concat, ← hcr]
      simp
    rw [occurrencesFrom]
    cases hfound : skip == 0 && marker.isPrefixOf (b :: rest) with
    | false =>
      rw [if_neg (by simp), hnext, findDelimiterFrom]
      simp only [hfound, Bool.false_and, Bool.false_eq_true, if_false]
    | true =>
      obtain ⟨line, hline, hiff⟩ := exists_startsLine? (n := before.length) atStart
        (by simp : before.length ≤ (before ++ b :: rest).length)
      obtain rfl : line = lineStart := Bool.eq_iff_iff.2 (hiff.trans hls.symm)
      rw [if_pos rfl, locateAmong?, hline, Option.bind_some]
      dsimp only
      cases line with
      | false =>
        rw [if_neg (by simp), hnext, findDelimiterFrom]
        simp only [hfound, Bool.and_false, Bool.false_and, Bool.false_eq_true, if_false, if_true]
      | true =>
        rw [if_pos rfl]
        split
        · next hshort =>
          -- no room is left for what makes a delimiter, here or further on
          rw [List.length_append] at hshort
          rw [findDelimiterFrom_eq_none before _ hls.1 hcr.1 (by omega)]
        · next hlong =>
          obtain ⟨pair, hpair, hiff⟩ := Bytes.exists_slice?_two (Nat.le_of_not_lt hlong)
          have hends : pair = Bytes.crlf ∨ pair = Bytes.dashes ↔
              endsDelimiter ((b :: rest).drop marker.length) = true := by
            rw [hiff _ rfl, hiff _ rfl, List.drop_length_add_append, endsDelimiter, Bool.or_eq_true,
              List.isPrefixOf_iff_prefix, List.isPrefixOf_iff_prefix]
          rw [hpair, Option.bind_some, hnext, findDelimiterFrom]
          simp only [ne_eq, ← not_or, hends, hfound, Bool.true_and, if_true]
          cases endsDelimiter ((b :: rest).drop marker.length) <;> rfl

/-- **The search cuts nowhere out of range, and finds what the scan finds.** -/
theorem locate?_eq (marker : Bytes) (atStart : Bool) (data : Bytes) :
    locate? marker atStart data = some (findDelimiter marker atStart data) :=
  locateAmong?_eq [] data 0 (by simp [LineStart, Bytes.crlf]) (by simp)

/-! ## The walk over header lines -/

/-- The block with `n` bytes before it counted in. -/
def HeaderBlock.behind (n : Nat) : HeaderBlock → HeaderBlock
  | .complete headers size => .complete headers (n + size)
  | .incomplete => .incomplete
  | .notText => .notText

/-- Read on from offset `pos`, with `headers` found before it. -/
def headersAt? (data : Bytes) (headers : Headers) (pos : Nat) : Option HeaderBlock :=
  match _h : data.lineEndAt? pos with
  | none => some .incomplete
  | some stop =>
    match data.slice? pos stop with
    | none => none
    | some line =>
      if line.isEmpty then some (.complete headers (stop + 2))
      else match Bytes.text? line with
        | none => some .notText
        | some text => headersAt? data (headers.note text) (stop + 2)
termination_by data.length - pos
decreasing_by have := Bytes.lineEndAt?_le _h; omega

variable {headers : Headers} {front line rest : Bytes}

theorem headersAt?_of_none (h : data.lineEndAt? pos = none) :
    headersAt? data headers pos = some .incomplete := by
  rw [headersAt?]
  split
  · rfl
  · next heq => rw [h] at heq; cases heq

theorem headersAt?_of_line (hline : ¬ Bytes.crlf <:+: line) :
    headersAt? (front ++ (line ++ Bytes.crlf ++ rest)) headers front.length =
      if line.isEmpty then some (.complete headers (front.length + line.length + 2))
      else match Bytes.text? line with
        | none => some .notText
        | some text => headersAt? (front ++ (line ++ Bytes.crlf ++ rest)) (headers.note text)
            (front.length + line.length + 2) := by
  have hstop : (front ++ (line ++ Bytes.crlf ++ rest)).lineEndAt? front.length =
      some (front.length + line.length) := by
    rw [Bytes.lineEndAt?_eq (by simp), List.drop_left, Bytes.lineEnd?_line hline, Option.map_some]
  rw [headersAt?]
  split
  · next heq => rw [hstop] at heq; cases heq
  · next heq =>
    rw [hstop] at heq
    cases heq
    rw [List.append_assoc line, Bytes.slice?_append]

/-- The walk from the end of `front` on reads what stands behind it. -/
theorem headersAt?_append (front back : Bytes) (headers : Headers) :
    headersAt? (front ++ back) headers front.length =
      some (readHeadersFrom headers front.length back) := by
  induction back using lines_induction generalizing front headers with
  | unended back hend =>
    rw [readHeadersFrom_of_none hend, headersAt?_of_none]
    rw [Bytes.lineEndAt?_eq (by simp), List.drop_left, hend, Option.map_none]
  | blank rest =>
    rw [readHeadersFrom_crlf]
    exact headersAt?_of_line (by simp [Bytes.crlf] : ¬ Bytes.crlf <:+: [])
  | line line rest hline ih =>
    rw [readHeadersFrom_line hline, headersAt?_of_line hline.unbroken,
      if_neg (by simpa using hline.ne_nil)]
    cases Bytes.text? line with
    | none => rfl
    | some text =>
      -- the rest is read from the end of this line on
      have hfront : front.length + line.length + 2 = (front ++ (line ++ Bytes.crlf)).length := by
        simp [Bytes.crlf]; omega
      dsimp only
      rw [← List.append_assoc, hfront, ih, ← hfront, Nat.add_assoc]

theorem readHeadersFrom_add (n size : Nat) (headers : Headers) (data : Bytes) :
    readHeadersFrom headers (n + size) data = (readHeadersFrom headers size data).behind n := by
  induction data using lines_induction generalizing headers size with
  | unended data hend =>
    rw [readHeadersFrom_of_none hend, readHeadersFrom_of_none hend, HeaderBlock.behind]
  | blank rest => rw [readHeadersFrom_crlf, readHeadersFrom_crlf, HeaderBlock.behind, Nat.add_assoc]
  | line line rest hline ih =>
    rw [readHeadersFrom_line hline, readHeadersFrom_line hline]
    cases Bytes.text? line with
    | none => rfl
    | some text =>
      dsimp only
      rw [Nat.add_assoc, ih]

/-- **The walk cuts nowhere out of range, and reads the header block.** -/
theorem headersAt?_eq (front back : Bytes) :
    headersAt? (front ++ back) {} front.length = some ((readHeaders back).behind front.length) := by
  rw [headersAt?_append, readHeaders, ← readHeadersFrom_add, Nat.add_zero]

/-! ## The cut between quotes -/

/-- The text between two equal quotes of either kind, cut out of its bytes. -/
def unquote? (v : List Char) : Option String :=
  let bare := Text.trimChars v
  let within (q : Char) : Bool := bare.head? == some q && bare.getLast? == some q
  let bytes := Bytes.ofText (String.ofList bare)
  if 2 ≤ bytes.length ∧ (within '"' ∨ within '\'') then
    (bytes.slice? 1 (bytes.length - 1)).bind Bytes.text?
  else some (String.ofList bare)

/-- What stands between two characters of one byte each. -/
theorem slice?_quoted {q : Char} (hq : q.toNat < 128) (inner : List Char) :
    let bytes := Bytes.ofText (String.ofList (q :: (inner ++ [q])))
    2 ≤ bytes.length ∧
      bytes.slice? 1 (bytes.length - 1) = some (Bytes.ofText (String.ofList inner)) := by
  intro bytes
  have hbytes : bytes = [UInt8.ofNat q.toNat] ++
      (Bytes.ofText (String.ofList inner) ++ [UInt8.ofNat q.toNat]) := by
    simp [bytes, Bytes.ofText_eq, Bytes.utf8EncodeChar_of_lt hq]
  have hlength : bytes.length - 1 = 1 + (Bytes.ofText (String.ofList inner)).length := by
    rw [hbytes]
    simp only [List.length_append, List.length_singleton]
    omega
  rw [hlength, hbytes]
  exact ⟨by simp only [List.length_append, List.length_singleton]; omega,
    Bytes.slice?_append ..⟩

/-- What begins and ends with a character is that character, or stands between two. -/
theorem eq_singleton_or_quoted {q : Char} {cs : List Char} (hhead : cs.head? = some q)
    (hlast : cs.getLast? = some q) : cs = [q] ∨ ∃ inner, cs = q :: (inner ++ [q]) := by
  obtain ⟨back, rfl⟩ := List.head?_eq_some_iff.1 hhead
  rcases List.eq_nil_or_concat back with rfl | ⟨inner, c, rfl⟩
  · exact Or.inl rfl
  · rw [List.concat_eq_append, ← List.cons_append, List.getLast?_concat] at hlast
    exact Or.inr ⟨inner, by rw [List.concat_eq_append, Option.some.inj hlast]⟩

/-- **The cut is in range, and between two characters.** -/
theorem unquote?_eq (v : List Char) : unquote? v = some (unquote v) := by
  rw [unquote?, unquote]
  dsimp only
  generalize Text.trimChars v = bare
  by_cases hwithin : (bare.head? == some '"' && bare.getLast? == some '"') = true ∨
      (bare.head? == some '\'' && bare.getLast? == some '\'') = true
  · obtain ⟨q, hq, hhead, hlast⟩ :
        ∃ q : Char, q.toNat < 128 ∧ bare.head? = some q ∧ bare.getLast? = some q := by
      simp only [Bool.and_eq_true, beq_iff_eq] at hwithin
      rcases hwithin with h | h
      · exact ⟨'"', by decide, h⟩
      · exact ⟨'\'', by decide, h⟩
    rcases eq_singleton_or_quoted hhead hlast with rfl | ⟨inner, rfl⟩
    · have hone : (Bytes.ofText (String.ofList [q])).length = 1 := by
        simp [Bytes.ofText_eq, Bytes.utf8EncodeChar_of_lt hq]
      rw [if_neg (by rw [hone]; omega), if_neg (by simp)]
    · obtain ⟨htwo, hcut⟩ := slice?_quoted hq inner
      rw [if_pos ⟨htwo, hwithin⟩, if_pos ⟨by simp, hwithin⟩, hcut, Option.bind_some,
        Bytes.text?_ofText]
      simp
  · rw [if_neg fun h => hwithin h.2, if_neg fun h => hwithin h.2]

end Multipart

end FormIntake
