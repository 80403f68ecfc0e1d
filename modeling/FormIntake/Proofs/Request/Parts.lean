/-
  FormIntake — what the parts of a request make up.

  * `IsBody`: a part with responses; `submission?`: what is read from it.
  * `file?`: the uploaded file that a part is.
  * `MakesUp`: the form of a request with these parts.
  * `IsLastFile`: the last part with a file for a field.

  `acceptAll_eq_ok_iff` gives what a receiver has collected from parts in these
  terms, and `exists_acceptAll_form_iff` the form.  Parts may be collected in
  batches (`acceptAll_append`).  `exists_isLastFile` says which parts the files come
  from that no later one replaces.
-/
import FormIntake.Proofs.Upload.Naming
import FormIntake.Request.Receiver

namespace FormIntake.Request

open Multipart

/-- A part with responses. -/
def IsBody (p : Part) : Prop := p.filename = none ∧ p.name = responsesPart

instance (p : Part) : Decidable (IsBody p) := inferInstanceAs (Decidable (_ ∧ _))

/-- The parts with responses. -/
def bodies (parts : List Part) : List Part := parts.filter fun p => decide (IsBody p)

/-- The responses that the payload of a part holds, if it can be read. -/
def submission? (p : Part) : Option (List Response) := readSubmission p.data

/-- The uploaded file that a part is, if its name is not empty. -/
def file? (p : Part) : Option Upload :=
  p.filename.bind fun filename =>
    if filename.isEmpty then none else some ⟨p.name, filename, p.data⟩

/-- The form that parts make up: the responses are those of the last part with
    responses, of which none may be unreadable. -/
inductive MakesUp (parts : List Part) : Form → Prop
  | intro {front body rs} : (∀ p ∈ bodies parts, ∃ rs, submission? p = some rs) →
      bodies parts = front ++ [body] → submission? body = some rs →
      MakesUp parts (Form.reconcile rs (parts.filterMap file?))

/-- A part with a file for a field. -/
def IsFileFor (id : String) (p : Part) : Prop :=
  p.name = id ∧ ∃ filename, p.filename = some filename ∧ filename ≠ ""

/-- The last part with a file for a field. -/
def IsLastFile (parts : List Part) (id : String) (p : Part) : Prop :=
  ∃ front back, parts = front ++ p :: back ∧ IsFileFor id p ∧ ∀ q ∈ back, ¬ IsFileFor id q

variable {p : Part} {ps : List Part}

theorem bodies_cons_of_isBody (h : IsBody p) : bodies (p :: ps) = p :: bodies ps :=
  List.filter_cons_of_pos (decide_eq_true h)

theorem bodies_cons_of_not_isBody (h : ¬ IsBody p) : bodies (p :: ps) = bodies ps :=
  List.filter_cons_of_neg (by simpa using h)

theorem file?_of_isBody (h : IsBody p) : file? p = none := by
  rw [file?, h.1]
  rfl

theorem file?_eq_some_iff {u : Upload} : file? p = some u ↔
    ∃ filename, p.filename = some filename ∧ filename ≠ "" ∧ u = ⟨p.name, filename, p.data⟩ := by
  rw [file?, Option.bind_eq_some_iff]
  refine exists_congr fun filename => and_congr_right fun _ => ?_
  simp only [Option.ite_none_left_eq_some, String.isEmpty_iff, Option.some.injEq]
  exact and_congr_right fun _ => eq_comm

/-- A file that no later one replaces is that of the last part for its field. -/
theorem exists_isLastFile {u : Upload} (h : u ∈ Upload.lastPerField (ps.filterMap file?)) :
    ∃ p, IsLastFile ps u.fieldId p ∧ p.filename = some u.filename ∧ p.data = u.content := by
  obtain ⟨us, vs, hsplit, hlater⟩ := Upload.mem_lastPerField_iff.1 h
  obtain ⟨front, rest, rfl, -, hrest⟩ := List.filterMap_eq_append_iff.1 hsplit
  obtain ⟨skipped, p, back, rfl, -, hp, rfl⟩ := List.filterMap_eq_cons_iff.1 hrest
  obtain ⟨filename, hname, hne, rfl⟩ := file?_eq_some_iff.1 hp
  refine ⟨p, ⟨front ++ skipped, back, by simp, ⟨rfl, filename, hname, hne⟩, ?_⟩, hname, rfl⟩
  rintro q hq ⟨hid, filename', hname', hne'⟩
  have hfile : file? q = some ⟨q.name, filename', q.data⟩ :=
    file?_eq_some_iff.2 ⟨filename', hname', hne', rfl⟩
  exact hlater _ (List.mem_filterMap.2 ⟨q, hq, hfile⟩) hid

namespace Collected

variable {c c' : Collected}

theorem accept_of_isBody (h : IsBody p) :
    c.accept p = match submission? p with
      | some rs => .ok { c with responses := some rs }
      | none => .error .unreadableResponses := by
  rw [accept, h.1]
  exact if_pos h.2

theorem accept_of_not_isBody (h : ¬ IsBody p) :
    c.accept p = .ok { c with uploads := c.uploads ++ (file? p).toList } := by
  rw [accept, file?]
  cases hf : p.filename with
  | none =>
    have hname : p.name ≠ responsesPart := fun hname => h ⟨hf, hname⟩
    simp [hname]
  | some filename =>
    dsimp only [Option.bind_some]
    split <;> simp

theorem acceptAll_cons (c : Collected) (p : Part) (ps : List Part) :
    c.acceptAll (p :: ps) = (c.accept p).bind fun c => c.acceptAll ps := List.foldlM_cons ..

/-- Parts may be collected in batches. -/
theorem acceptAll_append (c : Collected) (ps qs : List Part) :
    c.acceptAll (ps ++ qs) = (c.acceptAll ps).bind fun c => c.acceptAll qs := List.foldlM_append ..

/-- **What has been collected from parts that can be read.** -/
theorem acceptAll_eq_ok_iff : c.acceptAll ps = .ok c' ↔
    (∀ p ∈ bodies ps, ∃ rs, submission? p = some rs) ∧
      c' = ⟨((bodies ps).filterMap submission?).getLast?.or c.responses,
        c.uploads ++ ps.filterMap file?⟩ := by
  induction ps generalizing c with
  | nil => simp [acceptAll, bodies, eq_comm, pure, Except.pure]
  | cons p ps ih =>
    rw [acceptAll_cons]
    by_cases hbody : IsBody p
    · rw [accept_of_isBody hbody, bodies_cons_of_isBody hbody,
        List.filterMap_cons_none (file?_of_isBody hbody)]
      cases hread : submission? p with
      | none =>
        -- the part cannot be read, and it is one of those that have to be
        simp [Except.bind, hread]
      | some rs =>
        rw [List.filterMap_cons_some hread, List.getLast?_cons]
        refine ih.trans ?_
        cases ((bodies ps).filterMap submission?).getLast? <;>
          simp [hread]
    · rw [accept_of_not_isBody hbody, bodies_cons_of_not_isBody hbody]
      refine ih.trans ?_
      cases hfile : file? p <;> simp [hfile]

theorem getLast?_filterMap_concat {rs : List Response} (h : submission? p = some rs) :
    ((ps ++ [p]).filterMap submission?).getLast? = some rs := by
  rw [List.filterMap_append, List.filterMap_cons_some h]
  exact List.getLast?_concat

/-- **The form of a request is the one that its parts make up.** -/
theorem exists_acceptAll_form_iff {form : Form} :
    (∃ c, acceptAll {} ps = .ok c ∧ c.form = .ok form) ↔ MakesUp ps form := by
  simp only [acceptAll_eq_ok_iff, Collected.form]
  constructor
  · rintro ⟨c, ⟨hread, rfl⟩, hform⟩
    rcases List.eq_nil_or_concat (bodies ps) with hnil | ⟨front, body, hlast⟩
    · rw [hnil] at hform
      cases hform
    · rw [List.concat_eq_append] at hlast
      obtain ⟨rs, hrs⟩ := hread body (by simp [hlast])
      rw [hlast, getLast?_filterMap_concat hrs] at hform
      cases hform
      exact .intro hread hlast hrs
  · rintro ⟨hread, hlast, hrs⟩
    refine ⟨_, ⟨hread, rfl⟩, ?_⟩
    rw [hlast, getLast?_filterMap_concat hrs]
    rfl

end Collected

end FormIntake.Request
