/-
  FormIntake — where a header block ends and what its lines say.

  A header block follows a line end, and ends with the first line end that follows
  another one: that is a blank line (`BlankLineAt`).  The walk over the lines meets each
  line end in turn, so it ends there (`blankLineAt_lines`) and asks for more bytes only if
  there is none (`not_blankLineAt_of_incomplete`).

  Of the lines that give a header a value the last one counts (`LastGiven`).  Noting a line
  does what `Noted` says for each of the two headers, and so noting one after the other
  leaves the last value (`lastGiven_foldl_note`).

  * `headersAt?_ends_at_blankLine`: end, lines and headers of a block in the middle of data,
    and that later bytes change nothing once there is a verdict.
-/
import FormIntake.Proofs.Multipart.Ranges

namespace FormIntake

namespace Bytes

variable {data : Bytes} {pos m : Nat}

/-! ## The first line end -/

theorem not_crlf_of_lineEndFrom (h : ∀ n, lineEndFrom pos data = some n → pos + m < n) :
    ¬ crlf <+: data.drop m := by
  fun_induction lineEndFrom pos data generalizing m with
  | case1 pos => simp [crlf]
  | case2 pos b =>
    intro hp
    have := hp.length_le
    simp only [crlf, List.length_cons, List.length_nil, List.length_drop] at this
    omega
  | case3 pos b c rest _ => exact absurd (h pos rfl) (by omega)
  | case4 pos b c rest hbc ih =>
    cases m with
    | zero =>
      intro hp
      obtain ⟨hb, hp⟩ := List.cons_prefix_cons.1 hp
      obtain ⟨hc, -⟩ := List.cons_prefix_cons.1 hp
      exact hbc ⟨hb.symm, hc.symm⟩
    | succ m =>
      refine ih fun n hn => ?_
      have := h n hn
      omega

/-- In front of the first line end there is none. -/
theorem not_crlf_of_lineEnd? (h : ∀ n, lineEnd? data = some n → m < n) :
    ¬ crlf <+: data.drop m :=
  not_crlf_of_lineEndFrom fun n hn => by rw [Nat.zero_add]; exact h n hn

/-! ## Text and its bytes -/

/-- Bytes spell a text if they are its bytes. -/
theorem text?_eq_some_iff {b : Bytes} {s : String} : text? b = some s ↔ b = ofText s := by
  constructor
  · intro h
    rw [text?, String.fromUTF8?] at h
    split at h
    · cases h
      rfl
    · cases h
  · rintro rfl
    exact text?_ofText s

end Bytes

namespace Multipart

variable {headers headers' : Headers} {data back : Bytes} {size n p q : Nat}

/-! ## Blank lines -/

/-- A line end stands at the offset, and another one behind it. -/
def BlankLineAt (data : Bytes) (p : Nat) : Prop := Bytes.crlf ++ Bytes.crlf <+: data.drop p

theorem blankLineAt_append (front : Bytes) :
    BlankLineAt (front ++ data) (front.length + p) ↔ BlankLineAt data p := by
  rw [BlankLineAt, BlankLineAt, List.drop_length_add_append]

/-- Up to the end of the first line behind a line end there is no blank line, unless that line is
    empty. -/
theorem not_blankLineAt_of_lineEnd? (h : ∀ n, Bytes.lineEnd? back = some n → n ≠ 0 ∧ p < n + 2) :
    ¬ BlankLineAt (Bytes.crlf ++ back) p := by
  intro hblank
  rcases p with _ | _ | p
  · rw [BlankLineAt, List.drop_zero, List.prefix_append_right_inj] at hblank
    exact Bytes.not_crlf_of_lineEnd? (m := 0) (fun n hn => Nat.pos_of_ne_zero (h n hn).1) hblank
  · -- one byte on stands a line feed
    exact absurd (List.cons_prefix_cons.1 hblank).1 (by decide)
  · have hback : Bytes.crlf <+: back.drop p := (List.prefix_append ..).trans hblank
    exact Bytes.not_crlf_of_lineEnd? (fun n hn => by have := (h n hn).2; omega) hback

/-- Nor is there one within a line that is not empty. -/
theorem not_blankLineAt_of_isLine {line rest : Bytes} (hline : IsLine line)
    (hp : p < line.length + 2) : ¬ BlankLineAt (Bytes.crlf ++ (line ++ Bytes.crlf ++ rest)) p := by
  refine not_blankLineAt_of_lineEnd? fun n hn => ?_
  rw [Bytes.lineEnd?_line hline.unbroken] at hn
  cases hn
  exact ⟨fun h => hline.ne_nil (List.length_eq_zero_iff.1 h), hp⟩

/-- Behind the line it is a matter of what follows its line end. -/
theorem blankLineAt_line (line rest : Bytes) :
    BlankLineAt (Bytes.crlf ++ (line ++ Bytes.crlf ++ rest)) (line.length + 2 + p) ↔
      BlankLineAt (Bytes.crlf ++ rest) p := by
  have hsplit : Bytes.crlf ++ (line ++ Bytes.crlf ++ rest) =
      Bytes.crlf ++ line ++ (Bytes.crlf ++ rest) := by simp
  have hlen : line.length + 2 = (Bytes.crlf ++ line).length := by
    rw [List.length_append, Nat.add_comm]
    rfl
  rw [hsplit, hlen, blankLineAt_append]

/-! ## The end of a block -/

theorem two_le_length_headerBytes (lines : List Bytes) : 2 ≤ (headerBytes lines).length := by
  rw [headerBytes, List.length_append]
  exact Nat.le_add_left 2 _

/-- Behind a line end, the lines of a block are followed by the first blank line. -/
theorem blankLineAt_lines {lines : List Bytes} (hlines : ∀ line ∈ lines, IsLine line)
    (rest : Bytes) (hp : (headerBytes lines).length = p + 2) :
    BlankLineAt (Bytes.crlf ++ (headerBytes lines ++ rest)) p ∧
      ∀ q < p, ¬ BlankLineAt (Bytes.crlf ++ (headerBytes lines ++ rest)) q := by
  induction lines generalizing p with
  | nil =>
    obtain rfl : p = 0 := by simpa [Bytes.crlf] using hp
    exact ⟨by simp [BlankLineAt], by simp⟩
  | cons line lines ih =>
    have hline := hlines line (by simp)
    obtain ⟨k, hk⟩ := Nat.exists_eq_add_of_le' (two_le_length_headerBytes lines)
    obtain rfl : p = line.length + 2 + k := by
      simp only [headerBytes_cons, List.length_append, Bytes.crlf, List.length_cons,
        List.length_nil] at hp
      omega
    obtain ⟨hat, hleast⟩ := ih (fun l hl => hlines l (by simp [hl])) hk
    rw [headerBytes_cons, List.append_assoc, blankLineAt_line]
    refine ⟨hat, fun q hq => ?_⟩
    rcases Nat.lt_or_ge q (line.length + 2) with hlt | hge
    · exact not_blankLineAt_of_isLine hline hlt
    · obtain ⟨j, rfl⟩ := Nat.exists_eq_add_of_le hge
      rw [blankLineAt_line]
      exact hleast j (by omega)

/-- More bytes are asked for only if there is no blank line. -/
theorem not_blankLineAt_of_incomplete (h : readHeadersFrom headers size back = .incomplete)
    (p : Nat) : ¬ BlankLineAt (Bytes.crlf ++ back) p := by
  induction back using lines_induction generalizing headers size p with
  | unended data hend => exact not_blankLineAt_of_lineEnd? (by simp [hend])
  | blank rest => rw [readHeadersFrom_crlf] at h; cases h
  | line line rest hline ih =>
    rw [readHeadersFrom_line hline] at h
    cases ht : Bytes.text? line with
    | none => rw [ht] at h; cases h
    | some t =>
      rw [ht] at h
      rcases Nat.lt_or_ge p (line.length + 2) with hlt | hge
      · exact not_blankLineAt_of_isLine hline hlt
      · obtain ⟨q, rfl⟩ := Nat.exists_eq_add_of_le hge
        rw [blankLineAt_line]
        exact ih h q

/-- A block is refused for a line that is not UTF-8. -/
theorem exists_line_of_notText (h : readHeadersFrom headers size back = .notText) :
    ∃ (texts : List String) (line rest : Bytes),
      back = (texts.map Bytes.ofText).flatMap (· ++ Bytes.crlf) ++ (line ++ Bytes.crlf ++ rest) ∧
      (∀ t ∈ texts, IsLine (Bytes.ofText t)) ∧ IsLine line ∧ ∀ t, line ≠ Bytes.ofText t := by
  induction back using lines_induction generalizing headers size with
  | unended data hend => rw [readHeadersFrom_of_none hend] at h; cases h
  | blank rest => rw [readHeadersFrom_crlf] at h; cases h
  | line line rest hline ih =>
    rw [readHeadersFrom_line hline] at h
    cases ht : Bytes.text? line with
    | none =>
      refine ⟨[], line, rest, rfl, by simp, hline, ?_⟩
      rintro t rfl
      rw [Bytes.text?_ofText] at ht
      cases ht
    | some t =>
      rw [ht] at h
      obtain ⟨texts, bad, rest', rfl, htexts, hbad⟩ := ih h
      obtain rfl := Bytes.text?_eq_some_iff.1 ht
      refine ⟨t :: texts, bad, rest', by simp, ?_, hbad⟩
      rintro u (_ | ⟨_, hu⟩)
      exacts [hline, htexts u hu]

/-! ## What the lines say -/

/-- The line gives the header a value: the name in front of its first colon is the header's, and
    the value stands behind the colon, both without the blanks around them. -/
def GivesHeader (header line value : String) : Prop :=
  ∃ name rest, line.toList = name ++ ':' :: rest ∧ ':' ∉ name ∧
    Text.sameIgnoringCase (Text.trimChars name) header.toList = true ∧
    value = String.ofList (Text.trimChars rest)

/-- The value is the one that the last line to give the header one gives. -/
def LastGiven (header : String) (lines : List String) : Option String → Prop
  | none => ∀ line ∈ lines, ∀ value, ¬ GivesHeader header line value
  | some value => ∃ before line after, lines = before ++ line :: after ∧
      GivesHeader header line value ∧ ∀ l ∈ after, ∀ w, ¬ GivesHeader header l w

/-- What a line makes of the value of a header. -/
structure Noted (header line : String) (old new : Option String) : Prop where
  given : ∀ value, GivesHeader header line value → new = some value
  kept : (∀ value, ¬ GivesHeader header line value) → new = old

theorem givesHeader_iff {header line value : String} : GivesHeader header line value ↔
    ∃ name rest, Text.splitFirst ':' line.toList = some (name, rest) ∧
      Text.sameIgnoringCase (Text.trimChars name) header.toList = true ∧
      value = String.ofList (Text.trimChars rest) := by
  simp only [GivesHeader, Text.splitFirst_eq_some_iff, and_assoc]

variable {header line : String} {lines : List String} {old new : Option String}

/-- No name is that of both headers. -/
theorem not_sameIgnoringCase_disposition {name : List Char}
    (h : Text.sameIgnoringCase name "content-type".toList = true) :
    ¬ Text.sameIgnoringCase name "content-disposition".toList = true := by
  rw [Text.sameIgnoringCase, beq_iff_eq] at h ⊢
  rw [h]
  decide

/-- A line without a colon gives no header a value. -/
theorem noted_of_splitFirst_none (hsplit : Text.splitFirst ':' line.toList = none) :
    Noted header line old old where
  given := by
    rintro value hgives
    obtain ⟨name, rest, h, -⟩ := givesHeader_iff.1 hgives
    rw [hsplit] at h
    cases h
  kept _ := rfl

/-- A line with a colon gives a value to the header of its name only. -/
theorem noted_of_splitFirst_some {name rest : List Char}
    (hsplit : Text.splitFirst ':' line.toList = some (name, rest))
    (hsame : Text.sameIgnoringCase (Text.trimChars name) header.toList = true →
      new = some (String.ofList (Text.trimChars rest)))
    (hother : ¬ Text.sameIgnoringCase (Text.trimChars name) header.toList = true → new = old) :
    Noted header line old new where
  given := by
    intro value hgives
    obtain ⟨name', rest', h, hname, rfl⟩ := givesHeader_iff.1 hgives
    rw [hsplit] at h
    cases h
    exact hsame hname
  kept := by
    intro hnone
    exact hother fun hname => hnone _ (givesHeader_iff.2 ⟨name, rest, hsplit, hname, rfl⟩)

theorem note_of_splitFirst_some {name rest : List Char}
    (hsplit : Text.splitFirst ':' line.toList = some (name, rest)) (headers : Headers) :
    headers.note line =
      if Text.sameIgnoringCase (Text.trimChars name) "content-disposition".toList then
        { headers with disposition := some (String.ofList (Text.trimChars rest)) }
      else if Text.sameIgnoringCase (Text.trimChars name) "content-type".toList then
        { headers with contentType := some (String.ofList (Text.trimChars rest)) }
      else headers := by
  rw [Headers.note, hsplit]

theorem noted_disposition (headers : Headers) (line : String) :
    Noted "content-disposition" line headers.disposition (headers.note line).disposition := by
  cases hsplit : Text.splitFirst ':' line.toList with
  | none =>
    rw [Headers.note, hsplit]
    exact noted_of_splitFirst_none hsplit
  | some cut =>
    rw [note_of_splitFirst_some hsplit]
    refine noted_of_splitFirst_some hsplit (fun hsame => ?_) fun hother => ?_
    · rw [if_pos hsame]
    · rw [if_neg hother]
      split <;> rfl

theorem noted_contentType (headers : Headers) (line : String) :
    Noted "content-type" line headers.contentType (headers.note line).contentType := by
  cases hsplit : Text.splitFirst ':' line.toList with
  | none =>
    rw [Headers.note, hsplit]
    exact noted_of_splitFirst_none hsplit
  | some cut =>
    rw [note_of_splitFirst_some hsplit]
    refine noted_of_splitFirst_some hsplit (fun hsame => ?_) fun hother => ?_
    · rw [if_neg (not_sameIgnoringCase_disposition hsame), if_pos hsame]
    · rw [if_neg hother]
      split <;> rfl

/-- One more line. -/
theorem LastGiven.concat (hlast : LastGiven header lines old) (hnoted : Noted header line old new) :
    LastGiven header (lines ++ [line]) new := by
  by_cases hgives : ∃ value, GivesHeader header line value
  · obtain ⟨value, hvalue⟩ := hgives
    rw [hnoted.given value hvalue]
    exact ⟨lines, line, [], rfl, hvalue, by simp⟩
  · have hnone : ∀ value, ¬ GivesHeader header line value :=
      fun value hvalue => hgives ⟨value, hvalue⟩
    rw [hnoted.kept hnone]
    cases old with
    | none =>
      intro l hl
      rcases List.mem_append.1 hl with hl | hl
      · exact hlast l hl
      · rwa [List.mem_singleton.1 hl]
    | some value =>
      obtain ⟨before, first, after, rfl, hfirst, hafter⟩ := hlast
      refine ⟨before, first, after ++ [line], by simp, hfirst, fun l hl => ?_⟩
      rcases List.mem_append.1 hl with hl | hl
      · exact hafter l hl
      · rwa [List.mem_singleton.1 hl]

/-- **Of the lines noted one after the other the last to give a value counts.** -/
theorem lastGiven_foldl_note {value : Headers → Option String} (hnone : value {} = none)
    (hnoted : ∀ headers line, Noted header line (value headers) (value (headers.note line)))
    (lines : List String) : LastGiven header lines (value (lines.foldl Headers.note {})) := by
  induction lines using List.reverseRecOn with
  | nil => rw [List.foldl_nil, hnone]; simp [LastGiven]
  | append_singleton lines line ih =>
    rw [List.foldl_concat]
    exact ih.concat (hnoted _ line)

theorem noteAll_eq_some_iff {lines : List Bytes} : headers.noteAll lines = some headers' ↔
    ∃ texts : List String, lines = texts.map Bytes.ofText ∧
      headers' = texts.foldl Headers.note headers := by
  induction lines generalizing headers with
  | nil => simp [eq_comm]
  | cons line lines ih =>
    rw [noteAll_cons, Option.bind_eq_some_iff]
    constructor
    · rintro ⟨t, ht, hrest⟩
      obtain ⟨texts, rfl, rfl⟩ := ih.1 hrest
      exact ⟨t :: texts, by rw [Bytes.text?_eq_some_iff.1 ht]; rfl, rfl⟩
    · rintro ⟨texts, hlines, rfl⟩
      cases texts with
      | nil => cases hlines
      | cons t texts =>
        cases hlines
        exact ⟨t, Bytes.text?_ofText t, ih.2 ⟨texts, rfl, rfl⟩⟩

/-! ## Blocks in the middle of data -/

theorem behind_eq_complete_iff {block : HeaderBlock} {d : Nat} :
    block.behind n = .complete headers d ↔
      ∃ size, block = .complete headers size ∧ d = n + size := by
  cases block with
  | complete headers' size => simp [HeaderBlock.behind, eq_comm]
  | incomplete | notText => simp [HeaderBlock.behind]

theorem behind_eq_incomplete_iff {block : HeaderBlock} :
    block.behind n = .incomplete ↔ block = .incomplete := by
  cases block <;> simp [HeaderBlock.behind]

theorem behind_eq_notText_iff {block : HeaderBlock} :
    block.behind n = .notText ↔ block = .notText := by
  cases block <;> simp [HeaderBlock.behind]

/-- The lines of a block by their texts. -/
theorem exists_texts_of_readHeaders (h : readHeaders back = .complete headers size) :
    ∃ (lines : List String) (rest : Bytes), back = headerBytes (lines.map Bytes.ofText) ++ rest ∧
      size = (headerBytes (lines.map Bytes.ofText)).length ∧
      (∀ line ∈ lines, IsLine (Bytes.ofText line)) ∧ headers = lines.foldl Headers.note {} := by
  obtain ⟨_, rest, hlines, hback, hnote, hsize⟩ := exists_lines_of_readHeaders h
  obtain ⟨lines, rfl, hheaders⟩ := noteAll_eq_some_iff.1 hnote
  exact ⟨lines, rest, hback, hsize, fun line hline => hlines _ (List.mem_map_of_mem hline),
    hheaders⟩

/-- A block that is read ends with the first blank line. -/
theorem exists_blankLine_of_complete (h : readHeaders back = .complete headers size) :
    ∃ (p : Nat) (lines : List String) (rest : Bytes),
      back = headerBytes (lines.map Bytes.ofText) ++ rest ∧
      size = (headerBytes (lines.map Bytes.ofText)).length ∧ size = p + 2 ∧
      BlankLineAt (Bytes.crlf ++ back) p ∧ (∀ q < p, ¬ BlankLineAt (Bytes.crlf ++ back) q) ∧
      (∀ line ∈ lines, IsLine (Bytes.ofText line)) ∧
      LastGiven "content-disposition" lines headers.disposition ∧
      LastGiven "content-type" lines headers.contentType := by
  obtain ⟨lines, rest, rfl, rfl, hlines, rfl⟩ := exists_texts_of_readHeaders h
  obtain ⟨p, hp⟩ := Nat.exists_eq_add_of_le' (two_le_length_headerBytes (lines.map Bytes.ofText))
  obtain ⟨hat, hleast⟩ := blankLineAt_lines (List.forall_mem_map.2 hlines) rest hp
  exact ⟨p, lines, rest, rfl, rfl, hp, hat, hleast, hlines,
    lastGiven_foldl_note rfl noted_disposition lines,
    lastGiven_foldl_note rfl noted_contentType lines⟩

/-- The data, cut behind the line end in front of the offset. -/
theorem exists_cut_of_crlf_isSuffix {s : Nat} (hs : s ≤ data.length)
    (hline : Bytes.crlf <:+ data.take s) :
    ∃ front back, data = front ++ Bytes.crlf ++ back ∧ s = (front ++ Bytes.crlf).length := by
  obtain ⟨front, hfront⟩ := hline
  refine ⟨front, data.drop s, by rw [hfront, List.take_append_drop], ?_⟩
  rw [hfront, List.length_take, Nat.min_eq_left hs]

/-- **A header block ends at the first blank line.**  Behind a line end the walk cuts nowhere out
    of range.  A block that is read ends with the first blank line from that line end on; what
    is in front is lines of text, and each header has the value that the last line to give it
    one gives.  More bytes are asked for only if there is no blank line, and a block is refused
    only for a line that is not text.  Bytes that come later change no verdict but the demand
    for them. -/
theorem headersAt?_ends_at_blankLine {s : Nat} (hs : s ≤ data.length)
    (hline : Bytes.crlf <:+ data.take s) :
    ∃ block, headersAt? data {} s = some block ∧
      (∀ headers d, block = .complete headers d → ∃ (p : Nat) (lines : List String),
        d = p + 4 ∧ s - 2 ≤ p ∧ BlankLineAt data p ∧
        (∀ q, s - 2 ≤ q → q < p → ¬ BlankLineAt data q) ∧
        data.slice? s d = some (headerBytes (lines.map Bytes.ofText)) ∧
        (∀ line ∈ lines, IsLine (Bytes.ofText line)) ∧
        LastGiven "content-disposition" lines headers.disposition ∧
        LastGiven "content-type" lines headers.contentType) ∧
      (block = .incomplete → ∀ p, s - 2 ≤ p → ¬ BlankLineAt data p) ∧
      (block = .notText → ∃ (texts : List String) (line rest : Bytes),
        data.drop s =
          (texts.map Bytes.ofText).flatMap (· ++ Bytes.crlf) ++ (line ++ Bytes.crlf ++ rest) ∧
        (∀ t ∈ texts, IsLine (Bytes.ofText t)) ∧ IsLine line ∧ ∀ t, line ≠ Bytes.ofText t) ∧
      (block ≠ .incomplete → ∀ more, headersAt? (data ++ more) {} s = some block) := by
  obtain ⟨front, back, rfl, rfl⟩ := exists_cut_of_crlf_isSuffix hs hline
  have hlength : (front ++ Bytes.crlf).length = front.length + 2 := List.length_append
  -- the blank lines from the line end on are those of what follows `front`
  have hblank : ∀ q, BlankLineAt (front ++ Bytes.crlf ++ back) (front.length + q) ↔
      BlankLineAt (Bytes.crlf ++ back) q := by
    intro q
    rw [List.append_assoc, blankLineAt_append]
  refine ⟨_, headersAt?_eq _ back, ?_, ?_, ?_, ?_⟩
  · intro headers d hblock
    obtain ⟨size, hread, rfl⟩ := behind_eq_complete_iff.1 hblock
    obtain ⟨p, lines, rest, rfl, rfl, hp, hat, hleast, hlines, hgiven⟩ :=
      exists_blankLine_of_complete hread
    refine ⟨front.length + p, lines, by omega, by omega, (hblank p).2 hat, fun q hq hlt => ?_,
      Bytes.slice?_append .., hlines, hgiven⟩
    obtain ⟨j, rfl⟩ : ∃ j, q = front.length + j := Nat.exists_eq_add_of_le (by omega)
    exact mt (hblank j).1 (hleast j (by omega))
  · intro hblock q hq
    obtain ⟨j, rfl⟩ : ∃ j, q = front.length + j := Nat.exists_eq_add_of_le (by omega)
    exact mt (hblank j).1 (not_blankLineAt_of_incomplete (behind_eq_incomplete_iff.1 hblock) j)
  · intro hblock
    rw [List.drop_left]
    exact exists_line_of_notText (behind_eq_notText_iff.1 hblock)
  · intro hblock more
    rw [List.append_assoc, headersAt?_eq,
      readHeaders_append (fun h => hblock (behind_eq_incomplete_iff.2 h))]

/-- The type is given twice, the second time in capitals; in front stands a line with a lone
    carriage return and a lone line feed, and behind the block another blank line. -/
theorem headersAt?_ends_at_blankLine_repeated :
    let data := Bytes.ofText "x\r\na\rb\nc\r\nContent-Type: x\r\nCONTENT-TYPE :\ty:z \r\n\r\n\r\n"
    3 ≤ data.length ∧ Bytes.crlf <:+ data.take 3 ∧
      headersAt? data {} 3 = some (.complete ⟨none, some "y:z"⟩ 50) ∧
      BlankLineAt data 46 ∧ (∀ q, 1 ≤ q → q < 46 → ¬ BlankLineAt data q) ∧
      (∃ lines, LastGiven "content-disposition" lines none ∧
        LastGiven "content-type" lines (some "y:z")) ∧
      headersAt? (data ++ [255]) {} 3 = some (.complete ⟨none, some "y:z"⟩ 50) := by
  intro data
  have hs : 3 ≤ data.length := by decide +kernel
  have hline : Bytes.crlf <:+ data.take 3 := by decide +kernel
  have hread : headersAt? data {} 3 = some (.complete ⟨none, some "y:z"⟩ 50) := by decide +kernel
  obtain ⟨block, hblock, hcomplete, -, -, happend⟩ := headersAt?_ends_at_blankLine hs hline
  obtain rfl := Option.some.inj (hblock.symm.trans hread)
  obtain ⟨p, lines, hp, -, hat, hleast, -, -, hdisposition, htype⟩ := hcomplete _ _ rfl
  obtain rfl : p = 46 := by omega
  exact ⟨hs, hline, hread, hat, hleast, ⟨lines, hdisposition, htype⟩, happend (by simp) _⟩

end Multipart

end FormIntake
