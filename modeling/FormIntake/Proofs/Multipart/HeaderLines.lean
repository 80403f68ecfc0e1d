/-
  FormIntake — header lines as they stand in a body.

  `headerBytes` writes header lines with their line ends and the empty line after
  them.  `readHeaders` reads such a block whatever follows (`readHeaders_lines`),
  and every block that it reads is one (`exists_lines_of_readHeaders`).
  Reading goes line by line, and so do the proofs about it (`lines_induction`).

  Bytes that arrive later change no verdict but `incomplete`
  (`readHeaders_append`), and a block that they complete is longer than what was
  there before (`lt_of_readHeaders_append`).
-/
import FormIntake.Multipart.Headers
import Mathlib.Data.List.Infix

namespace FormIntake

namespace Bytes

/-! ## The first line end -/

theorem lineEndFrom_line {line : Bytes} (h : ¬ crlf <:+: line) (pos : Nat) (rest : Bytes) :
    lineEndFrom pos (line ++ crlf ++ rest) = some (pos + line.length) := by
  induction line generalizing pos with
  | nil => simp [lineEndFrom, crlf]
  | cons b line ih =>
    have hrest := ih (fun h' => h (h'.trans (List.suffix_cons b line).isInfix)) (pos + 1)
    -- the line end begins at `b` only if the line goes on with a line feed
    cases line with
    | nil =>
      simp only [List.cons_append, List.nil_append, crlf, lineEndFrom] at hrest ⊢
      rw [if_neg (by simp [cr, lf]), hrest]
      simp
    | cons c line =>
      have hbc : ¬ (b = cr ∧ c = lf) := by
        rintro ⟨rfl, rfl⟩
        exact h ⟨[], line, rfl⟩
      simp only [List.cons_append, lineEndFrom] at hrest ⊢
      rw [if_neg hbc, hrest, List.length_cons (a := b)]
      congr 1; omega

theorem lineEnd?_line {line : Bytes} (h : ¬ crlf <:+: line) (rest : Bytes) :
    lineEnd? (line ++ crlf ++ rest) = some line.length := by
  rw [lineEnd?, lineEndFrom_line h, Nat.zero_add]

theorem exists_line_of_lineEndFrom {pos n : Nat} {data : Bytes}
    (h : lineEndFrom pos data = some n) :
    ∃ line rest, data = line ++ crlf ++ rest ∧ ¬ crlf <:+: line ∧ n = pos + line.length := by
  fun_induction lineEndFrom pos data with
  | case1 | case2 => simp at h
  | case3 pos b c rest hbc =>
    obtain ⟨rfl, rfl⟩ := hbc
    exact ⟨[], rest, rfl, by simp [crlf], by simpa using h.symm⟩
  | case4 pos b c rest hbc ih =>
    obtain ⟨line, rest', hdata, hline, rfl⟩ := ih h
    refine ⟨b :: line, rest', by rw [hdata]; rfl, ?_, by simp; omega⟩
    rw [List.infix_cons_iff]
    rintro (hp | hi)
    · -- a line end at `b` would have been the first
      cases line with
      | nil => simp [crlf] at hp
      | cons d line =>
        obtain ⟨hb, hp⟩ := List.cons_prefix_cons.1 hp
        obtain ⟨hd, -⟩ := List.cons_prefix_cons.1 hp
        injection hdata with hc
        exact hbc ⟨hb.symm, hc.trans hd.symm⟩
    · exact hline hi

end Bytes

namespace Multipart

/-! ## Lines -/

/-- A header line is not empty and holds no line end. -/
structure IsLine (line : Bytes) : Prop where
  ne_nil : line ≠ []
  unbroken : ¬ Bytes.crlf <:+: line

/-- Header lines, each with its line end, and the empty line after them. -/
def headerBytes (lines : List Bytes) : Bytes :=
  lines.flatMap (· ++ Bytes.crlf) ++ Bytes.crlf

/-- The headers with the lines taken into account, if all of them are UTF-8. -/
def Headers.noteAll (h : Headers) (lines : List Bytes) : Option Headers :=
  lines.foldlM (fun h line => (Bytes.text? line).map h.note) h

variable {h h' : Headers} {size n : Nat} {data rest : Bytes}

@[simp] theorem headerBytes_nil : headerBytes [] = Bytes.crlf := rfl

@[simp] theorem headerBytes_cons (line : Bytes) (lines : List Bytes) :
    headerBytes (line :: lines) = line ++ Bytes.crlf ++ headerBytes lines := by
  simp [headerBytes]

@[simp] theorem noteAll_nil : h.noteAll [] = some h := rfl

theorem noteAll_cons (line : Bytes) (lines : List Bytes) :
    h.noteAll (line :: lines) = (Bytes.text? line).bind fun t => (h.note t).noteAll lines := by
  cases ht : Bytes.text? line <;> simp [Headers.noteAll, ht]

/-- Data begins with a line of its own, with the empty line, or with neither. -/
theorem lineEnd?_cases (data : Bytes) :
    Bytes.lineEnd? data = none ∨ (∃ rest, data = Bytes.crlf ++ rest) ∨
      ∃ line rest, IsLine line ∧ data = line ++ Bytes.crlf ++ rest := by
  cases hend : Bytes.lineEnd? data with
  | none => exact Or.inl rfl
  | some n =>
    obtain ⟨line, rest, rfl, hline, -⟩ := Bytes.exists_line_of_lineEndFrom hend
    rcases line with _ | ⟨b, line⟩
    · exact Or.inr (Or.inl ⟨rest, rfl⟩)
    · exact Or.inr (Or.inr ⟨_, rest, ⟨by simp, hline⟩, rfl⟩)

/-- Data is its first line and what follows that line's end, down to the empty line or to a line
    without an end. -/
theorem lines_induction {motive : Bytes → Prop}
    (unended : ∀ data, Bytes.lineEnd? data = none → motive data)
    (blank : ∀ rest, motive (Bytes.crlf ++ rest))
    (line : ∀ line rest, IsLine line → motive rest → motive (line ++ Bytes.crlf ++ rest))
    (data : Bytes) : motive data := by
  induction hlen : data.length using Nat.strongRecOn generalizing data with
  | ind k ih =>
    rcases lineEnd?_cases data with hend | ⟨rest, rfl⟩ | ⟨first, rest, hfirst, rfl⟩
    · exact unended data hend
    · exact blank rest
    · have hshort : rest.length < k := by rw [← hlen]; simp [Bytes.crlf]; omega
      exact line first rest hfirst (ih rest.length hshort rest rfl)

/-! ## Reading -/

theorem readHeadersFrom_of_none (hend : Bytes.lineEnd? data = none) :
    readHeadersFrom h size data = .incomplete := by
  rw [readHeadersFrom]
  split
  · rfl
  · next heq => rw [hend] at heq; cases heq
  · next heq => rw [hend] at heq; cases heq

theorem readHeadersFrom_crlf :
    readHeadersFrom h size (Bytes.crlf ++ rest) = .complete h (size + 2) := by
  have hend : Bytes.lineEnd? (Bytes.crlf ++ rest) = some 0 :=
    Bytes.lineEnd?_line (by simp [Bytes.crlf] : ¬ Bytes.crlf <:+: []) rest
  rw [readHeadersFrom]
  split
  · next heq => rw [hend] at heq; cases heq
  · rfl
  · next heq => rw [hend] at heq; cases heq

theorem readHeadersFrom_line {line : Bytes} (hline : IsLine line) :
    readHeadersFrom h size (line ++ Bytes.crlf ++ rest) =
      match Bytes.text? line with
      | none => .notText
      | some t => readHeadersFrom (h.note t) (size + (line.length + 2)) rest := by
  have hend := Bytes.lineEnd?_line hline.unbroken rest
  have hpos : 0 < line.length := List.length_pos_iff.2 hline.ne_nil
  rw [readHeadersFrom]
  split
  · next heq => rw [hend] at heq; cases heq
  · next heq => rw [hend] at heq; injection heq with heq; omega
  · next k heq =>
    rw [hend] at heq
    injection heq with heq
    have htake : (line ++ Bytes.crlf ++ rest).take (k + 1) = line := by
      rw [← Nat.succ_eq_add_one, ← heq, List.append_assoc, List.take_left]
    have hdrop : (line ++ Bytes.crlf ++ rest).drop (k + 3) = rest := by
      rw [show k + 3 = (line ++ Bytes.crlf).length by simp [Bytes.crlf]; omega, List.drop_left]
    rewrite [htake, hdrop, show size + (k + 3) = size + (line.length + 2) by omega]
    cases Bytes.text? line <;> rfl

theorem readHeadersFrom_lines {lines : List Bytes} (hlines : ∀ line ∈ lines, IsLine line) :
    readHeadersFrom h size (headerBytes lines ++ rest) =
      match h.noteAll lines with
      | some h' => .complete h' (size + (headerBytes lines).length)
      | none => .notText := by
  induction lines generalizing h size with
  | nil => exact readHeadersFrom_crlf
  | cons line lines ih =>
    rw [headerBytes_cons, List.append_assoc, readHeadersFrom_line (hlines line (by simp)),
      noteAll_cons]
    cases Bytes.text? line with
    | none => rfl
    | some t =>
      simp only [Option.bind_some]
      rw [ih fun l hl => hlines l (by simp [hl])]
      cases (h.note t).noteAll lines with
      | none => rfl
      | some h' => simp [Bytes.crlf]; omega

theorem exists_lines_of_readHeadersFrom (hread : readHeadersFrom h size data = .complete h' n) :
    ∃ lines rest, (∀ line ∈ lines, IsLine line) ∧ data = headerBytes lines ++ rest ∧
      h.noteAll lines = some h' ∧ n = size + (headerBytes lines).length := by
  induction data using lines_induction generalizing h size with
  | unended data hend => rw [readHeadersFrom_of_none hend] at hread; cases hread
  | blank rest =>
    rw [readHeadersFrom_crlf] at hread
    injection hread with hh hn
    exact ⟨[], rest, by simp, rfl, by rw [noteAll_nil, hh], by simp [← hn, Bytes.crlf]⟩
  | line line rest hline ih =>
    rw [readHeadersFrom_line hline] at hread
    cases ht : Bytes.text? line with
    | none => rw [ht] at hread; cases hread
    | some t =>
      rw [ht] at hread
      obtain ⟨lines, rest', hl, rfl, hh, rfl⟩ := ih hread
      refine ⟨line :: lines, rest', ?_, by simp, ?_, ?_⟩
      · rintro l (_ | ⟨_, hm⟩)
        exacts [hline, hl l hm]
      · rw [noteAll_cons, ht]; exact hh
      · simp [Bytes.crlf]; omega

theorem readHeadersFrom_append (hread : readHeadersFrom h size data ≠ .incomplete) (more : Bytes) :
    readHeadersFrom h size (data ++ more) = readHeadersFrom h size data := by
  induction data using lines_induction generalizing h size with
  | unended data hend => exact absurd (readHeadersFrom_of_none hend) hread
  | blank rest => rw [List.append_assoc, readHeadersFrom_crlf, readHeadersFrom_crlf]
  | line line rest hline ih =>
    rw [readHeadersFrom_line hline] at hread ⊢
    rw [List.append_assoc, readHeadersFrom_line hline]
    cases ht : Bytes.text? line with
    | none => rfl
    | some t =>
      rw [ht] at hread
      exact ih hread

/-! ## Whole blocks -/

/-- **A header block is read whatever follows it.** -/
theorem readHeaders_lines {lines : List Bytes} (hlines : ∀ line ∈ lines, IsLine line)
    (rest : Bytes) :
    readHeaders (headerBytes lines ++ rest) =
      match Headers.noteAll {} lines with
      | some h => .complete h (headerBytes lines).length
      | none => .notText := by
  rw [readHeaders, readHeadersFrom_lines hlines, Nat.zero_add]

/-- **What is read as a header block is one.** -/
theorem exists_lines_of_readHeaders (hread : readHeaders data = .complete h n) :
    ∃ lines rest, (∀ line ∈ lines, IsLine line) ∧ data = headerBytes lines ++ rest ∧
      Headers.noteAll {} lines = some h ∧ n = (headerBytes lines).length := by
  obtain ⟨lines, rest, hl, hdata, hh, hn⟩ := exists_lines_of_readHeadersFrom hread
  exact ⟨lines, rest, hl, hdata, hh, by rw [hn, Nat.zero_add]⟩

/-- A verdict stands when more bytes arrive. -/
theorem readHeaders_append (hread : readHeaders data ≠ .incomplete) (more : Bytes) :
    readHeaders (data ++ more) = readHeaders data :=
  readHeadersFrom_append hread more

/-- A block that only later bytes complete is longer than the earlier ones. -/
theorem lt_of_readHeaders_append {more : Bytes} (hread : readHeaders data = .incomplete)
    (hmore : readHeaders (data ++ more) = .complete h n) : data.length < n := by
  refine Nat.lt_of_not_le fun hle => ?_
  obtain ⟨lines, rest, hl, hdata, hh, rfl⟩ := exists_lines_of_readHeaders hmore
  have hpre : headerBytes lines <+: data :=
    List.prefix_of_prefix_length_le ⟨rest, hdata.symm⟩ (List.prefix_append ..) hle
  obtain ⟨front, rfl⟩ := hpre
  rw [readHeaders_lines hl, hh] at hread
  cases hread

end Multipart

end FormIntake
