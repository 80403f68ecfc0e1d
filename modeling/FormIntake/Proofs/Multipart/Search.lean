/-
  FormIntake — the search for a delimiter against a plain scan.

  The search looks at occurrences of the marker that do not overlap, and it ends at the
  first one that the data breaks off behind.  For a marker without line end neither hides a
  delimiter, though a marker such as `----` overlaps itself.

  A delimiter with the line end in front of it is `Opens (Bytes.crlf ++ marker)` at the
  offset of that line end (`opens_crlf_iff`).  One that later bytes complete lies whole in
  the bytes that are kept of the earlier ones and in the later ones
  (`exists_opens_kept`), so the search goes on with these alone (`locate?_kept`).

  * `locate?_finds_least`: the search finds the least offset of a delimiter, whatever
    comes later, and what is kept of data without one is enough.
-/
import FormIntake.Proofs.Multipart.Arrival
import FormIntake.Proofs.Multipart.Ranges

namespace FormIntake.Multipart

variable {marker data more : Bytes} {atStart : Bool} {n p : Nat}

/-! ## The line end in front of a delimiter -/

theorem opens_crlf_append_iff {back : Bytes} :
    Opens (Bytes.crlf ++ marker) (Bytes.crlf ++ back) ↔ Opens marker back := by
  rw [Opens, List.append_assoc, List.append_assoc, List.prefix_append_right_inj,
    List.prefix_append_right_inj]
  rfl

/-- The line end in front belongs to the delimiter. -/
theorem opens_crlf_iff :
    Opens (Bytes.crlf ++ marker) (data.drop p) ↔ DelimiterAt marker false data (p + 2) := by
  constructor
  · intro h
    obtain ⟨back, hback⟩ := (List.prefix_append ..).trans h.marker_isPrefix
    have hp : (data.take p).length = p := by
      have := h.length_le
      rw [List.length_drop] at this
      rw [List.length_take]
      omega
    rw [← hback] at h
    have hat : DelimiterAt marker false (data.take p ++ Bytes.crlf ++ back) _ :=
      delimiterAt_split (data.take p) (opens_crlf_append_iff.1 h)
    rwa [List.append_assoc, hback, List.take_append_drop, hp] at hat
  · intro h
    obtain ⟨front, back, rfl, hback, hp⟩ := h.exists_split (by omega)
    obtain rfl : p = front.length := by omega
    rw [List.append_assoc, List.drop_left]
    exact opens_crlf_append_iff.2 hback

/-! ## The search -/

theorem locate?_eq_some_iff (hlf : Bytes.lf ∉ marker) :
    locate? marker atStart data = some (some n) ↔
      DelimiterAt marker atStart data n ∧ ∀ m < n, ¬ DelimiterAt marker atStart data m := by
  rw [locate?_eq, Option.some_inj, findDelimiter_eq_some_iff hlf]

theorem locate?_eq_none_iff (hlf : Bytes.lf ∉ marker) :
    locate? marker atStart data = some none ↔ ∀ n, ¬ DelimiterAt marker atStart data n := by
  rw [locate?_eq, Option.some_inj, findDelimiter_eq_none_iff hlf]

/-- What has been found stays where it is. -/
theorem locate?_append (hlf : Bytes.lf ∉ marker)
    (h : locate? marker atStart data = some (some n)) (more : Bytes) :
    locate? marker atStart (data ++ more) = some (some n) := by
  rw [locate?_eq, Option.some_inj] at h ⊢
  exact findDelimiter_append hlf h more

/-- A delimiter that later bytes complete reaches behind the earlier ones. -/
theorem length_le_of_opens_append (hlf : Bytes.lf ∉ marker)
    (h : locate? marker atStart data = some none)
    (hopens : Opens (Bytes.crlf ++ marker) ((data ++ more).drop p)) :
    data.length ≤ p + (marker.length + 3) := by
  have hnone : findDelimiter marker atStart data = none := by rwa [locate?_eq, Option.some_inj] at h
  obtain ⟨hline, hopens⟩ := opens_crlf_iff.1 hopens
  have hat : DelimiterAt marker atStart (data ++ more) (p + 2) :=
    ⟨Or.inr (hline.resolve_left (by simp)), hopens⟩
  have := lt_of_delimiterAt_append hlf hnone hat
  omega

namespace Reader

variable {r : Reader}

/-- It lies whole in the bytes that are kept and in the later ones. -/
theorem exists_opens_kept (hlf : Bytes.lf ∉ r.marker)
    (h : locate? r.marker atStart data = some none)
    (hopens : Opens (Bytes.crlf ++ r.marker) ((data ++ more).drop p)) :
    ∃ q, p = data.length - r.keep + q ∧
      Opens (Bytes.crlf ++ r.marker) ((data.drop (data.length - r.keep) ++ more).drop q) := by
  have hle := length_le_of_opens_append hlf h hopens
  obtain ⟨q, rfl⟩ : ∃ q, p = data.length - r.keep + q :=
    ⟨p - (data.length - r.keep), by rw [keep]; omega⟩
  refine ⟨q, rfl, ?_⟩
  rwa [← List.drop_append_of_le_length (Nat.sub_le ..), List.drop_drop]

/-- Inside a part the search may go on with the bytes that are kept. -/
theorem locate?_kept (hlf : Bytes.lf ∉ r.marker) (h : locate? r.marker false data = some none)
    (more : Bytes) :
    locate? r.marker false (data ++ more) =
      (locate? r.marker false (data.drop (data.length - r.keep) ++ more)).map
        (Option.map (data.length - r.keep + ·)) := by
  have hnone : findDelimiter r.marker false data = none := by rwa [locate?_eq, Option.some_inj] at h
  have hflushed : r.Flushed (data ++ more) (data.take (data.length - r.keep))
      (data.drop (data.length - r.keep) ++ more) := flushed_push (s := { buffer := data }) hlf hnone
  have hlength : (data.take (data.length - r.keep)).length = data.length - r.keep := by
    rw [List.length_take]
    omega
  have hfind := hflushed.find (s := { buffer := data ++ more }) hlf
  rw [hlength] at hfind
  rw [locate?_eq, locate?_eq, Option.map_some]
  exact congrArg some hfind

/-- **The search finds the least offset of a delimiter.**  It cuts nowhere out of range and is
    the scan that the reader runs.  What it finds is found again whatever comes later; and
    where it finds nothing, a delimiter that later bytes complete, its line end included,
    begins within the last bytes, one more of which is kept, so it stands whole in what is
    kept and what comes, and is what the search inside a part then finds. -/
theorem locate?_finds_least (hr : r.OneLine) (atStart : Bool) (data : Bytes) :
    locate? r.marker atStart data = some (findDelimiter r.marker atStart data) ∧
    (∀ n, locate? r.marker atStart data = some (some n) ↔
      DelimiterAt r.marker atStart data n ∧ ∀ m < n, ¬ DelimiterAt r.marker atStart data m) ∧
    (locate? r.marker atStart data = some none ↔ ∀ n, ¬ DelimiterAt r.marker atStart data n) ∧
    (∀ n more, locate? r.marker atStart data = some (some n) →
      locate? r.marker atStart (data ++ more) = some (some n)) ∧
    (locate? r.marker atStart data = some none → ∀ more p,
      Opens (Bytes.crlf ++ r.marker) ((data ++ more).drop p) →
        data.length ≤ p + (r.marker.length + 3) ∧
        ∃ q, p = data.length - r.keep + q ∧
          Opens (Bytes.crlf ++ r.marker) ((data.drop (data.length - r.keep) ++ more).drop q)) ∧
    (locate? r.marker false data = some none → ∀ more,
      locate? r.marker false (data ++ more) =
        (locate? r.marker false (data.drop (data.length - r.keep) ++ more)).map
          (Option.map (data.length - r.keep + ·))) := by
  have hlf := hr.unbroken.lf
  refine ⟨locate?_eq .., fun n => locate?_eq_some_iff hlf, locate?_eq_none_iff hlf,
    fun n more h => locate?_append hlf h more, fun h more p hopens => ?_, locate?_kept hlf⟩
  exact ⟨length_le_of_opens_append hlf h hopens, exists_opens_kept hlf h hopens⟩

/-- A marker of hyphens overlaps itself in the line of five, and the data breaks off inside a
    delimiter: none of its bytes is dropped. -/
theorem locate?_finds_least_hyphens :
    let r : Reader := ⟨"--", {}⟩
    let data := Bytes.ofText "-----\r\n----\r"
    let more := Bytes.ofText "\n"
    r.OneLine ∧ locate? r.marker false data = some none ∧
      locate? r.marker false (data ++ more) = some (some 7) ∧
      data.length = 5 + (r.marker.length + 3) ∧
      Opens (Bytes.crlf ++ r.marker) ((data.drop 4 ++ more).drop 1) := by
  intro r data more
  have hr : r.OneLine := ⟨by decide, by decide⟩
  have hnone : locate? r.marker false data = some none := by decide +kernel
  have hspare : data.length - r.keep = 4 := by decide +kernel
  have hback : locate? r.marker false (data.drop 4 ++ more) = some (some 3) := by decide +kernel
  obtain ⟨-, -, -, -, hnear, hkept⟩ := r.locate?_finds_least hr false data
  have hfound : locate? r.marker false (data ++ more) = some (some 7) := by
    rw [hkept hnone more, hspare, hback]
    rfl
  obtain ⟨-, hleast, -⟩ := r.locate?_finds_least hr false (data ++ more)
  have hat := ((hleast 7).1 hfound).1
  obtain ⟨-, q, hq, hopens⟩ := hnear hnone more 5 (opens_crlf_iff.2 hat)
  rw [hspare] at hq hopens
  obtain rfl : q = 1 := by omega
  exact ⟨hr, hnone, hfound, by decide +kernel, hopens⟩

end Reader

end FormIntake.Multipart
