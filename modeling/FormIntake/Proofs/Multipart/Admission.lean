/-
  FormIntake — what holds of every part that is read.

  `Part.Admitted`: the payload is within the bound on its kind of part, and the file
  name, if there is one, is no path.

  `readDisposition` sees to the name, and every append to the size
  (`OpenPart.Admitted.append`), so every part that a body yields is admitted, in
  whatever chunks it arrives (`admitted_of_feed`).
-/
import FormIntake.Proofs.Multipart.Chunking
import FormIntake.Validation.Require

namespace FormIntake.Multipart

open Validation

/-- The bound on the payload of a part with this file name. -/
def partLimit (limits : SizeLimits) (filename : Option String) : Nat :=
  if filename.isSome then limits.attachment else limits.field

/-- The file name is a name and no more. -/
structure PlainName (filename : String) : Prop where
  slash : '/' ∉ filename.toList
  backslash : '\\' ∉ filename.toList
  nul : '\x00' ∉ filename.toList
  ne_dot : filename ≠ "."
  ne_dots : filename ≠ ".."

/-- The part that is open, as it would be if it were closed now. -/
def Stream.inFlight (s : Stream) : Option Part := s.openPart?.map OpenPart.close

/-- A part that a body may have.  Sizes beyond the largest are not told apart. -/
structure Part.Admitted (limits : SizeLimits) (p : Part) : Prop where
  size_le : min p.data.length Size.largest ≤ partLimit limits p.filename
  plainName : ∀ filename, p.filename = some filename → PlainName filename

/-- A part that is going to be admitted. -/
structure OpenPart.Admitted (limits : SizeLimits) (p : OpenPart) : Prop where
  limit_eq : p.limit = partLimit limits p.filename
  part : p.close.Admitted limits

/-! ## Names -/

section Disposition

variable {d d' : DispositionParameters} {piece : List Char} {filename v : String}

theorem isPath_eq_false_iff : isPath filename = false ↔ PlainName filename := by
  have hany : (filename.toList.any fun c => c == '/' || c == '\\' || c == '\x00') = false ↔
      '/' ∉ filename.toList ∧ '\\' ∉ filename.toList ∧ '\x00' ∉ filename.toList := by
    rw [List.any_eq_false]
    constructor
    · intro h
      refine ⟨fun hc => h _ hc ?_, fun hc => h _ hc ?_, fun hc => h _ hc ?_⟩ <;> decide
    · rintro ⟨hslash, hback, hnul⟩ c hc heq
      simp only [Bool.or_eq_true, beq_iff_eq] at heq
      rcases heq with (rfl | rfl) | rfl
      exacts [hslash hc, hback hc, hnul hc]
  rw [isPath, Bool.or_eq_false_iff, Bool.or_eq_false_iff, hany, beq_eq_false_iff_ne,
    beq_eq_false_iff_ne]
  constructor
  · rintro ⟨⟨⟨hslash, hback, hnul⟩, hdot⟩, hdots⟩
    exact ⟨hslash, hback, hnul, hdot, hdots⟩
  · rintro ⟨hslash, hback, hnul, hdot, hdots⟩
    exact ⟨⟨⟨hslash, hback, hnul⟩, hdot⟩, hdots⟩

/-- A file name is taken only if it is no path. -/
theorem plainName_of_note (h : d.note piece = .ok d') (hd : ∀ f, d.filename = some f → PlainName f) :
    ∀ f, d'.filename = some f → PlainName f := by
  simp only [DispositionParameters.note] at h
  split at h
  · cases h; exact hd
  split at h
  · cases h; exact hd
  split at h
  · cases h; exact hd
  split at h
  · split at h
    · cases h
    · next hpath =>
      cases h
      rintro f ⟨⟩
      exact isPath_eq_false_iff.1 (by simpa using hpath)
  · cases h; exact hd

theorem plainName_of_foldlM {pieces : List (List Char)}
    (h : pieces.foldlM DispositionParameters.note d = .ok d')
    (hd : ∀ f, d.filename = some f → PlainName f) : ∀ f, d'.filename = some f → PlainName f := by
  induction pieces generalizing d with
  | nil => cases h; exact hd
  | cons piece pieces ih =>
    rw [List.foldlM_cons, bind_eq_ok] at h
    obtain ⟨d₁, hnote, h⟩ := h
    exact ih h (plainName_of_note hnote hd)

theorem plainName_of_readDisposition {d : Disposition} (h : readDisposition v = .ok d) :
    ∀ f, d.filename = some f → PlainName f := by
  rw [readDisposition, bind_eq_ok] at h
  obtain ⟨d', hfold, h⟩ := h
  have hd' := plainName_of_foldlM hfold nofun
  cases hname : d'.name with
  | none => rw [hname] at h; cases h
  | some name => rw [hname] at h; cases h; exact hd'

end Disposition

/-! ## Parts -/

namespace OpenPart

variable {limits : SizeLimits} {total total' : Nat} {p q : OpenPart} {a : Bytes}

theorem admitted_start {name : String} {filename contentType : Option String}
    (h : ∀ f, filename = some f → PlainName f) :
    (OpenPart.start limits name filename contentType).Admitted limits where
  limit_eq := rfl
  part := ⟨Nat.zero_le _, h⟩

/-- Every append is held to the bound. -/
theorem Admitted.append (hp : p.Admitted limits)
    (h : OpenPart.append limits total p a = .ok (q, total')) : q.Admitted limits := by
  rcases append_eq_ok_iff.1 h with ⟨-, rfl, -⟩ | ⟨hsize, -, -, rfl, -⟩
  · exact hp
  · refine ⟨hp.limit_eq, ?_, hp.part.plainName⟩
    have hle : Size.add p.size a.length ≤ partLimit limits p.filename := hp.limit_eq ▸ hsize
    have hlength : (p.push a).data.length = p.size + a.length := by simp
    rw [close, hlength]
    exact hle

end OpenPart

namespace Reader

variable {r : Reader} {chunks : List Bytes} {parts : List Part} {t : Stream}

/-- The parts closed so far and the open one are admitted. -/
def AllAdmitted (r : Reader) (done : List Part) (s : Stream) : Prop :=
  (∀ p ∈ done, p.Admitted r.limits) ∧ ∀ p, s.phase = .inside p → p.Admitted r.limits

theorem AllAdmitted.moves {done : List Part} {s : Stream} {part : Option Part}
    (h : r.AllAdmitted done s) (hmoves : r.Moves s part t) :
    r.AllAdmitted (done ++ part.toList) t := by
  obtain ⟨hdone, hinside⟩ := h
  cases hmoves with
  | start => exact ⟨by simpa using hdone, nofun⟩
  | skip hs => exact ⟨by simpa using hdone, hinside⟩
  | opens _ _ _ ho =>
    refine ⟨by simpa using hdone, ?_⟩
    rintro _ ⟨⟩
    obtain ⟨-, -, -, v, d, -, hd, rfl⟩ := opened_eq_ok_iff.1 ho
    exact OpenPart.admitted_start (plainName_of_readDisposition hd)
  | closes hs _ happ =>
    refine ⟨?_, nofun⟩
    have hq := ((hinside _ hs).append happ).part
    simpa [or_imp, forall_and] using ⟨hdone, hq⟩

theorem AllAdmitted.halts {done : List Part} {s : Stream} {atEnd : Bool}
    (h : r.AllAdmitted done s) (hhalts : r.Halts atEnd s t) : r.AllAdmitted done t := by
  obtain ⟨hdone, hinside⟩ := h
  refine ⟨hdone, ?_⟩
  cases hhalts with
  | inside _ hs _ happ =>
    rintro _ ⟨⟩
    exact (hinside _ hs).append happ
  | finish => nofun
  | preamble | between | delimiter | headers | closed => exact hinside

theorem allAdmitted_of_run {calls : List Call} (h : r.run {} calls = (.ok parts, t)) :
    r.AllAdmitted parts t := by
  have hstart : r.AllAdmitted [] {} := ⟨by simp, nofun⟩
  refine run_invariant (fun _ => r.AllAdmitted) (fun _ => r.AllAdmitted) ?_ ?_ ?_ h (b := []) hstart
  · intro _ _ _ _ hall
    exact hall
  · intro _ _ _ _ _ hall hmoves
    exact hall.moves hmoves
  · intro _ _ _ _ _ hall hhalts
    exact hall.halts hhalts

/-- The open part is admitted as it would be if it were closed now. -/
theorem AllAdmitted.admitted {done : List Part} {s : Stream} (h : r.AllAdmitted done s) :
    ∀ p ∈ done ++ s.inFlight.toList, p.Admitted r.limits := by
  intro p hp
  rcases List.mem_append.1 hp with hp | hp
  · exact h.1 p hp
  · unfold Stream.inFlight Stream.openPart? at hp
    split at hp
    · next q hq =>
      rw [List.mem_singleton.1 hp]
      exact (h.2 q hq).part
    · cases hp

/-- **Every part that a body yields is admitted.** -/
theorem admitted_of_feed (h : (r.feed {} chunks).1 = .ok parts) :
    ∀ p ∈ parts, p.Admitted r.limits := by
  have hfeed : r.feed {} chunks = (.ok parts, (r.feed {} chunks).2) := Prod.ext h rfl
  rw [feed_eq_run] at hfeed
  exact (allAdmitted_of_run hfeed).1

end Reader

end FormIntake.Multipart
