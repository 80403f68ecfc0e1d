/-
  FormIntake — what is read from a document with responses.

  `content_of_readSubmission`: a document gives no response a content, whatever
  members it has.
-/
import FormIntake.Response.Codec

namespace FormIntake

open Json

/-- What a list is read as is read from its items. -/
theorem exists_of_mem_mapM {α β : Type} {read : α → Option β} {xs : List α} {ys : List β} {y : β}
    (h : xs.mapM read = some ys) (hy : y ∈ ys) : ∃ x ∈ xs, read x = some y := by
  induction xs generalizing ys with
  | nil =>
    cases h
    cases hy
  | cons x xs ih =>
    simp only [List.mapM_cons, Option.bind_eq_bind, Option.bind_eq_some_iff] at h
    obtain ⟨z, hz, zs, hzs, h⟩ := h
    cases h
    rcases List.mem_cons.1 hy with rfl | hy
    · exact ⟨x, List.mem_cons_self, hz⟩
    · obtain ⟨w, hw, hread⟩ := ih hzs hy
      exact ⟨w, List.mem_cons_of_mem _ hw, hread⟩

namespace Response

theorem content_of_ofRaw? {depth : Nat} {v : Raw} {r : Response} (h : ofRaw? depth v = some r) :
    r.content = [] := by
  unfold ofRaw? at h
  simp only [Option.bind_eq_bind, Option.bind_eq_some_iff] at h
  obtain ⟨fields, -, h⟩ := h
  split at h
  · simp only [Option.bind_eq_some_iff] at h
    obtain ⟨_, _, _, _, _, _, _, _, _, _, _, _, _, _, _, _, _, _, h⟩ := h
    cases h
    rfl
  · cases h

end Response

/-- **A document gives no response a content.** -/
theorem content_of_readSubmission {b : Bytes} {rs : List Response} (h : readSubmission b = some rs) :
    ∀ r ∈ rs, r.content = [] := by
  intro r hr
  simp only [readSubmission, submissionOfRaw?, Option.bind_eq_bind, Option.bind_eq_some_iff] at h
  obtain ⟨v, -, fields, -, h⟩ := h
  split at h
  · obtain ⟨list, -, hlist⟩ := Option.bind_eq_some_iff.1 h
    unfold Raw.list? at hlist
    split at hlist
    · obtain ⟨x, -, hx⟩ := exists_of_mem_mapM hlist hr
      exact Response.content_of_ofRaw? hx
    · cases hlist
  · cases h

end FormIntake
