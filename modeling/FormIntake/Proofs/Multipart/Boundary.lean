/-
  FormIntake — the boundary that a client announces.

  `WellFormedBoundary`: what RFC 2046 allows as a boundary; single quotes are among its
  characters.  `announcement b` is the content type that names `b` in quotes.

  First the double quotes around it are dropped, then whatever single quotes are at its
  ends, which belong to the boundary (`readBoundary_announcement`).  So exactly the
  boundaries without one at either end are read back, and bodies delimited by others
  cannot be read (`readBoundary_drops_quotes`).
-/
import FormIntake.Proofs.Multipart.Disposition

namespace FormIntake.Multipart

variable {b : String} {c : Char}

/-- The characters of a boundary in RFC 2046. -/
def isBoundaryChar (c : Char) : Bool := c.isAlphanum || "'()+_,-./:=? ".toList.contains c

/-- What RFC 2046 allows as a boundary. -/
structure WellFormedBoundary (b : String) : Prop where
  pos : 1 ≤ b.toList.length
  length_le : b.toList.length ≤ 70
  chars : ∀ c ∈ b.toList, isBoundaryChar c = true
  last : b.toList.getLast? ≠ some ' '

instance (b : String) : Decidable (WellFormedBoundary b) :=
  haveI : Decidable (∀ c ∈ b.toList, isBoundaryChar c = true) := List.decidableBAll _ b.toList
  decidable_of_iff (1 ≤ b.toList.length ∧ b.toList.length ≤ 70 ∧
      (∀ c ∈ b.toList, isBoundaryChar c = true) ∧ b.toList.getLast? ≠ some ' ')
    ⟨fun ⟨hpos, hle, hchars, hlast⟩ => ⟨hpos, hle, hchars, hlast⟩,
      fun h => ⟨h.pos, h.length_le, h.chars, h.last⟩⟩

/-- The content type of a body with this boundary. -/
def announcement (b : String) : String := "multipart/form-data; boundary=\"" ++ b ++ "\""

/-! ## Characters of a boundary -/

theorem toNat_lt_of_isAlphanum (h : c.isAlphanum = true) : c.toNat < 128 := by
  have below : ∀ {last : UInt32}, c.val ≤ last → last.toNat < 128 → c.toNat < 128 :=
    fun hle hlast => Nat.lt_of_le_of_lt (UInt32.le_iff_toNat_le.1 hle) hlast
  rcases Bool.or_eq_true_iff.1 h with hletter | hdigit
  · rcases Bool.or_eq_true_iff.1 hletter with hupper | hlower
    · exact below (of_decide_eq_true hupper).2 (by decide)
    · exact below (of_decide_eq_true (Bool.and_eq_true_iff.1 hlower).2) (by decide)
  · exact below (of_decide_eq_true (Bool.and_eq_true_iff.1 hdigit).2) (by decide)

theorem toNat_lt_of_isBoundaryChar (h : isBoundaryChar c = true) : c.toNat < 128 := by
  rw [isBoundaryChar, Bool.or_eq_true] at h
  rcases h with h | h
  · exact toNat_lt_of_isAlphanum h
  · have hascii : "'()+_,-./:=? ".toList.all (·.toNat < 128) = true := by decide
    exact of_decide_eq_true (List.all_eq_true.1 hascii c (List.contains_iff_mem.1 h))

theorem WellFormedBoundary.notMem (h : WellFormedBoundary b) (hc : isBoundaryChar c = false) :
    c ∉ b.toList := by
  intro hmem
  rw [h.chars c hmem] at hc
  cases hc

/-! ## The main statement -/

theorem parameter?_boundary (b : String) :
    parameter? "boundary" (' ' :: ("boundary".toList ++ '=' :: '"' :: (b.toList ++ ['"']))) =
      some ('"' :: (b.toList ++ ['"'])) := by
  have htrimmed : Text.Trimmed "boundary".toList :=
    ⟨by rintro c ⟨⟩; decide, by rintro c ⟨⟩; decide⟩
  refine (parameter?_quote "boundary" htrimmed (by decide) (b.toList ++ ['"'])).trans ?_
  rw [if_pos (by decide), Text.trimEnd_concat (by decide)]

theorem toList_announcement (b : String) :
    (announcement b).toList = "multipart/form-data".toList ++
      ';' :: ' ' :: ("boundary".toList ++ '=' :: '"' :: (b.toList ++ ['"'])) := by
  have hfront : "multipart/form-data; boundary=\"".toList = "multipart/form-data".toList ++
      ';' :: ' ' :: ("boundary".toList ++ ['=', '"']) := by decide +kernel
  have hquote : "\"".toList = ['"'] := rfl
  have hassoc : ∀ form key : List Char,
      form ++ ';' :: ' ' :: (key ++ ['=', '"']) ++ b.toList ++ ['"'] =
        form ++ ';' :: ' ' :: (key ++ '=' :: '"' :: (b.toList ++ ['"'])) := by simp
  unfold announcement
  rewrite [String.toList_append, String.toList_append, hfront, hquote]
  exact hassoc _ _

theorem trimmed_announcement (b : String) : Text.Trimmed (announcement b).toList := by
  have hfront : "multipart/form-data; boundary=\"".toList =
      'm' :: "ultipart/form-data; boundary=\"".toList := by decide +kernel
  have hquote : "\"".toList = ['"'] := rfl
  unfold announcement
  rewrite [String.toList_append, String.toList_append, hfront, hquote, List.cons_append,
    List.cons_append]
  exact Text.trimmed_of_ends (by decide) (by decide) _

/-- Of a boundary in quotes the single quotes at its ends are dropped. -/
theorem bareBoundary_quoted (h : '"' ∉ b.toList) :
    bareBoundary ('"' :: (b.toList ++ ['"'])) = String.ofList (Text.trimMark '\'' b.toList) := by
  have htrimmed : Text.Trimmed ('"' :: (b.toList ++ ['"'])) :=
    Text.trimmed_of_ends (by decide) (by decide) b.toList
  rw [bareBoundary, Text.trimChars_of_trimmed htrimmed, Text.trimMark_enclosed h]

/-- A content type of two pieces. -/
theorem readBoundary_of_pieces {contentType : String} {front piece v : List Char}
    (hpieces : (Text.trimChars contentType.toList).splitOn ';' = [front, piece])
    (hfront : Text.sameIgnoringCase (Text.trimChars front) "multipart/form-data".toList = true)
    (hpiece : parameter? "boundary" piece = some v) :
    readBoundary contentType =
      if (bareBoundary v).isEmpty ∨ maxBoundaryBytes < (bareBoundary v).utf8ByteSize then
        .error .invalidBoundary
      else .ok (bareBoundary v) := by
  unfold readBoundary
  simp only [hpieces, List.headD_cons, List.tail_cons, List.findSome?_cons, hpiece]
  exact if_pos hfront

theorem splitOn_announcement (h : ';' ∉ b.toList) :
    (Text.trimChars (announcement b).toList).splitOn ';' = ["multipart/form-data".toList,
      ' ' :: ("boundary".toList ++ '=' :: '"' :: (b.toList ++ ['"']))] := by
  have hpiece : ';' ∉ ' ' :: ("boundary".toList ++ '=' :: '"' :: (b.toList ++ ['"'])) := by
    simp [h]
  rw [Text.trimChars_of_trimmed (trimmed_announcement b), toList_announcement,
    List.splitOn_append_cons_self_of_not_mem (by decide), List.splitOn_eq_singleton hpiece]

/-- The boundary that is read: without the single quotes at its ends, if there is anything
    else in it. -/
theorem readBoundary_eq (h : WellFormedBoundary b) :
    readBoundary (announcement b) =
      if Text.trimMark '\'' b.toList = [] then .error .invalidBoundary
      else .ok (String.ofList (Text.trimMark '\'' b.toList)) := by
  have hsize : (String.ofList (Text.trimMark '\'' b.toList)).utf8ByteSize ≤ maxBoundaryBytes := by
    have hsublist := Text.trimMark_sublist '\'' b.toList
    rw [Bytes.utf8ByteSize_of_ascii, String.toList_ofList]
    · exact hsublist.length_le.trans h.length_le
    · intro c hc
      rw [String.toList_ofList] at hc
      exact toNat_lt_of_isBoundaryChar (h.chars c (hsublist.subset hc))
  have hempty : (String.ofList (Text.trimMark '\'' b.toList)).isEmpty = true ↔
      Text.trimMark '\'' b.toList = [] := by
    rw [String.isEmpty_iff, ← String.toList_inj, String.toList_ofList, String.toList_empty]
  rw [readBoundary_of_pieces (splitOn_announcement (h.notMem (by decide))) (by decide)
    (parameter?_boundary b), bareBoundary_quoted (h.notMem (by decide))]
  simp only [hempty, Nat.not_lt.2 hsize, or_false]

theorem marker_inj {r : Reader} : r.marker = Bytes.dashes ++ Bytes.ofText b ↔ r.boundary = b := by
  rw [Reader.marker, List.append_cancel_left_eq]
  constructor
  · intro h
    have htext := congrArg Bytes.text? h
    rw [Bytes.text?_ofText, Bytes.text?_ofText] at htext
    exact Option.some.inj htext
  · intro h
    rw [h]

/-- **A boundary is read back if and only if there is no single quote at its ends.**  Only
    then does a reader look for the delimiters that the client writes.  The single
    quotes at the ends are dropped, and if nothing is left the boundary is refused. -/
theorem readBoundary_announcement (b : String) (h : WellFormedBoundary b) (limits : SizeLimits) :
    (readBoundary (announcement b) = .ok b ↔
        b.toList.head? ≠ some '\'' ∧ b.toList.getLast? ≠ some '\'') ∧
      ((∃ found, readBoundary (announcement b) = .ok found ∧
          (Reader.mk found limits).marker = Bytes.dashes ++ Bytes.ofText b) ↔
        b.toList.head? ≠ some '\'' ∧ b.toList.getLast? ≠ some '\'') ∧
      readBoundary (announcement b) =
        if Text.trimMark '\'' b.toList = [] then .error .invalidBoundary
        else .ok (String.ofList (Text.trimMark '\'' b.toList)) := by
  have hread := readBoundary_eq h
  have hne : b.toList ≠ [] := List.ne_nil_of_length_pos h.pos
  have hback : readBoundary (announcement b) = .ok b ↔
      b.toList.head? ≠ some '\'' ∧ b.toList.getLast? ≠ some '\'' := by
    rw [hread, ← Text.trimMark_eq_self_iff]
    constructor
    · intro hok
      split at hok
      · cases hok
      · rw [Except.ok.injEq, ← String.toList_inj, String.toList_ofList] at hok
        exact hok
    · intro hself
      rw [hself, if_neg hne, String.ofList_toList]
  refine ⟨hback, ?_, hread⟩
  rw [← hback]
  constructor
  · rintro ⟨found, hfound, hmarker⟩
    rw [hfound, ← marker_inj.1 hmarker]
  · intro hok
    exact ⟨b, hok, rfl⟩

/-- Single quotes, equals signs and blanks inside a boundary are no harm. -/
theorem readBoundary_announcement_inside :
    WellFormedBoundary " x='y'/0" ∧ readBoundary (announcement " x='y'/0") = .ok " x='y'/0" := by
  have h : WellFormedBoundary " x='y'/0" := by decide
  obtain ⟨hback, -⟩ := readBoundary_announcement " x='y'/0" h {}
  exact ⟨h, hback.2 (by decide)⟩

/-- A boundary in single quotes is read as another one, and one of single quotes alone is
    refused. -/
theorem readBoundary_drops_quotes :
    WellFormedBoundary "'a'" ∧
      announcement "'a'" = "multipart/form-data; boundary=\"'a'\"" ∧
      readBoundary (announcement "'a'") = .ok "a" ∧
      WellFormedBoundary "'" ∧ readBoundary (announcement "'") = .error .invalidBoundary :=
  ⟨by decide, by decide, by decide +kernel, by decide, by decide +kernel⟩

end FormIntake.Multipart
