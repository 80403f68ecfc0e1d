/-
  FormIntake — what a policy says of the files of a form.

  * `allows_withExtensions_iff`: however the entries of a list of extensions are written, a
    file is allowed if its name ends in a dot and one of them.
  * `allows_numbered`, `allows_withDistinctNames`: numbers in front of names make no
    difference.
  * `check_eq_extension_iff`, `check_eq_size_iff`: which of the two violations is reported.
    The first file that is not allowed comes before all files being too large together.

  `judges_exactly` puts these together.
-/
import FormIntake.Proofs.AsciiCase
import FormIntake.Proofs.Upload.Naming
import FormIntake.Proofs.Upload.Policy

namespace FormIntake

open Text

namespace UploadPolicy

variable {p : UploadPolicy} {filename name : String} {cs ext : List Char} {es : List String}
  {form : Form} {r : Response}

/-! ## Entries of a list of extensions -/

/-- What an entry stands for: the blanks around it and a dot in front do not belong to it. -/
def bareExtension (entry : String) : List Char :=
  match trimChars entry.toList with
  | '.' :: rest => rest
  | cs => cs

/-- The name ends in a dot and the extension, in capitals or small letters. -/
def EndsIn (filename : String) (ext : List Char) : Prop :=
  ∃ stem tail, filename.toList = stem ++ '.' :: tail ∧ lower tail = lower ext

/-- A letter in the other case is no dot. -/
theorem toLower_eq_dot_iff {c : Char} : c.toLower = '.' ↔ c = '.' := by
  cases hc : c.isUpper with
  | false => rw [toLower_of_not_isUpper hc]
  | true =>
    constructor
    · intro h
      obtain ⟨hlow, -⟩ := isUpper_iff.1 hc
      have hlower := toLower_of_isUpper hc
      rw [h, show '.'.toNat = 46 from rfl] at hlower
      omega
    · rintro rfl
      cases hc

theorem dot_mem_lower_iff : '.' ∈ lower cs ↔ '.' ∈ cs := by
  rw [lower, List.mem_map]
  constructor
  · rintro ⟨c, hc, heq⟩
    rwa [← toLower_eq_dot_iff.1 heq]
  · intro h
    exact ⟨'.', h, rfl⟩

theorem normalExtension_eq (entry : String) :
    normalExtension entry = '.' :: lower (bareExtension entry) := by
  rw [normalExtension, bareExtension]
  cases trimChars entry.toList with
  | nil => rfl
  | cons c cs =>
    by_cases hc : c = '.'
    · subst hc
      rfl
    · show (match c.toLower :: lower cs with
        | '.' :: rest => '.' :: rest
        | cs => '.' :: cs) = _
      have hdot : c.toLower ≠ '.' := fun h => hc (toLower_eq_dot_iff.1 h)
      split
      · next heq => exact absurd (List.cons.inj heq).1 hdot
      · split
        · next heq => exact absurd (List.cons.inj heq).1 hc
        · rfl

/-- **However the entries are written, a file is allowed if its name ends in one of them.** -/
theorem allows_withExtensions_iff (p : UploadPolicy) (h : ∀ e ∈ es, '.' ∉ bareExtension e) :
    (p.withExtensions es).allows filename = true ↔
      ∃ e ∈ es, EndsIn filename (bareExtension e) := by
  have hlisted : (p.withExtensions es).extensions = es.map normalExtension := rfl
  rw [allows_iff, hlisted]
  simp only [List.mem_map, normalExtension_eq]
  constructor
  · rintro ⟨_, ⟨stem, tail, hname, -, rfl⟩, e, he, heq⟩
    have htail : lower (bareExtension e) = lower tail := (List.cons.inj heq).2
    exact ⟨e, he, stem, tail, hname, htail.symm⟩
  · rintro ⟨e, he, stem, tail, hname, htail⟩
    -- the entry has no dot, so the one in front of it is the last of the name
    have hdot : '.' ∉ tail := by
      rw [← dot_mem_lower_iff, htail, dot_mem_lower_iff]
      exact h e he
    refine ⟨'.' :: tail, ⟨stem, tail, hname, hdot, rfl⟩, e, he, ?_⟩
    rw [← htail]
    rfl

/-- Blanks around an entry and a dot in front of it do not matter. -/
theorem bareExtension_written {front back : List Char} (hfront : ∀ b ∈ front, isBlankChar b = true)
    (hback : ∀ b ∈ back, isBlankChar b = true) (hext : Trimmed ext) (hdot : '.' ∉ ext) :
    bareExtension (String.ofList (front ++ ext ++ back)) = ext ∧
      bareExtension (String.ofList (front ++ '.' :: ext ++ back)) = ext := by
  constructor
  · rw [bareExtension, String.toList_ofList, trimChars_surrounded hfront hback,
      trimChars_of_trimmed hext]
    split
    · next rest => exact absurd List.mem_cons_self hdot
    · rfl
  · have hend : trimEnd ext = ext := by
      rw [← trimChars_of_trimmed hext, trimChars, trimEnd_trimEnd]
    have htrim : trimChars ('.' :: ext) = '.' :: ext := by
      have hcut := trimChars_append_cons (c := '.') rfl [] ext
      rwa [hend] at hcut
    rw [bareExtension, String.toList_ofList, trimChars_surrounded hfront hback, htrim]
    rfl

/-! ## Numbers in front of names -/

/-- A number in front of a name leaves its extension alone. -/
theorem extension?_numbered (k : Nat) (name : String) :
    extension? (Upload.numbered k name).toList = extension? name.toList := by
  by_cases hdot : '.' ∈ name.toList
  · obtain ⟨stem, tail, hname, htail⟩ := exists_split_of_mem hdot
    have hnumbered : (Upload.numbered k name).toList = (digits k ++ '-' :: stem) ++ '.' :: tail := by
      rw [Upload.toList_numbered, hname, List.append_assoc, List.cons_append]
    rw [hnumbered, hname, extension?_split htail, extension?_split htail]
  · rw [extension?_of_notMem hdot, extension?_of_notMem]
    exact Upload.notMem_numbered rfl (by decide) hdot k

theorem allows_numbered (p : UploadPolicy) (k : Nat) (name : String) :
    p.allows (Upload.numbered k name) = p.allows name := by
  rw [allows, allows, extension?_numbered]

/-- **To give files names that differ makes none of them allowed or refused.** -/
theorem allows_withDistinctNames (p : UploadPolicy) (us : List Upload) :
    (Upload.withDistinctNames us).map (fun u => p.allows u.filename) =
      us.map fun u => p.allows u.filename := by
  induction us with
  | nil => rfl
  | cons u us ih =>
    rw [Upload.withDistinctNames, List.map_cons, List.map_cons, ih]
    congr 1
    rcases (Upload.renamed_freeName _ u).filename with heq | ⟨k, -, heq⟩
    · rw [heq]
    · rw [heq, allows_numbered]

/-! ## The violation that is reported -/

/-- The response brings no file, or one that is allowed.  Without a name it has the empty
    one. -/
def Takes (p : UploadPolicy) (r : Response) : Prop :=
  r.type = .attachment → r.content ≠ [] → p.allows (r.filename.getD "") = true

/-- The bytes of all files of a form. -/
def uploadedBytes (form : Form) : Nat := (form.uploads.map fun r => r.content.length).sum

theorem allows_empty (p : UploadPolicy) : p.allows "" = false := by
  have hnone : extension? "".toList = none := extension?_of_notMem List.not_mem_nil
  rw [allows, hnone]
  rfl

instance (p : UploadPolicy) : DecidablePred p.Takes := fun r =>
  inferInstanceAs (Decidable (r.type = .attachment → r.content ≠ [] → _ = true))

theorem forall_uploads_iff : (∀ r ∈ form.uploads, p.allows (r.filename.getD "") = true) ↔
    ∀ r ∈ form.responses, p.Takes r := by
  simp [Form.uploads, Takes, and_imp]

/-- The first file that is not allowed is the one of the first response not taken. -/
theorem find?_uploads (p : UploadPolicy) (form : Form) :
    (form.uploads.map fun r => r.filename.getD "").find? (fun name => !p.allows name) =
      (form.responses.find? fun r => !decide (p.Takes r)).map fun r => r.filename.getD "" := by
  rw [List.find?_map, Form.uploads, List.find?_filter]
  congr 2
  funext r
  rw [← decide_not, decide_eq_decide]
  simp [Takes, and_assoc]

/-- **The first file that is not allowed is reported.** -/
theorem check_eq_extension_iff : p.check form = .error (.invalidExtension name) ↔
    ∃ before r after, form.responses = before ++ r :: after ∧ (∀ s ∈ before, p.Takes s) ∧
      ¬ p.Takes r ∧ name = r.filename.getD "" := by
  have hfirst : p.check form = .error (.invalidExtension name) ↔
      (form.uploads.map fun r => r.filename.getD "").find? (fun name => !p.allows name) = some name := by
    rw [check]
    split
    · next first hfind => simp [hfind]
    · next hfind =>
      split <;> simp [hfind]
  rw [hfirst, find?_uploads, Option.map_eq_some_iff]
  simp only [List.find?_eq_some_iff_append, Bool.not_eq_true', decide_eq_false_iff_not,
    Bool.not_eq_false', decide_eq_true_eq]
  constructor
  · rintro ⟨r, ⟨hr, before, after, hsplit, hbefore⟩, rfl⟩
    exact ⟨before, r, after, hsplit, hbefore, hr, rfl⟩
  · rintro ⟨before, r, after, hsplit, hbefore, hr, rfl⟩
    exact ⟨r, ⟨hr, before, after, hsplit, hbefore⟩, rfl⟩

/-- **Files that are too large together are reported if each of them is allowed.** -/
theorem check_eq_size_iff {size max : Nat} : p.check form = .error (.tooLarge size max) ↔
    (∀ r ∈ form.responses, p.Takes r) ∧ max < size ∧ size = totalSize form.uploads ∧
      max = p.maxTotal := by
  rw [← forall_uploads_iff, ← find?_uploads_eq_none_iff, check]
  split
  · next first hfind => simp [hfind]
  · next hfind =>
    split
    · next hlt =>
      simp only [hfind, Except.error.injEq, Violation.tooLarge.injEq, true_and]
      constructor
      · rintro ⟨rfl, rfl⟩
        exact ⟨hlt, rfl, rfl⟩
      · rintro ⟨-, rfl, rfl⟩
        exact ⟨rfl, rfl⟩
    · next hle =>
      constructor
      · rintro ⟨⟩
      · rintro ⟨-, hlt, rfl, rfl⟩
        exact absurd hlt hle

/-- **A policy judges a form exactly, and renaming does not change what it says.**  A file is
    allowed if its name ends in a dot and one of the extensions given to the policy, in
    whatever way that is written.  A form passes if all its files are allowed and are together
    within the bound; else the first file that is not allowed is reported, and the exact size
    if there is none.  A number in front of a name decides nothing. -/
theorem judges_exactly (p : UploadPolicy) :
    (∀ es filename, (∀ e ∈ es, '.' ∉ bareExtension e) →
      ((p.withExtensions es).allows filename = true ↔
        ∃ e ∈ es, EndsIn filename (bareExtension e))) ∧
    (∀ front ext back, (∀ b ∈ front, isBlankChar b = true) → (∀ b ∈ back, isBlankChar b = true) →
      Trimmed ext → '.' ∉ ext →
        bareExtension (String.ofList (front ++ ext ++ back)) = ext ∧
          bareExtension (String.ofList (front ++ '.' :: ext ++ back)) = ext) ∧
    p.allows "" = false ∧
    (∀ form, uploadedBytes form ≤ Size.largest →
      (p.check form = .ok () ↔
        (∀ r ∈ form.responses, p.Takes r) ∧ uploadedBytes form ≤ p.maxTotal) ∧
      (∀ name, p.check form = .error (.invalidExtension name) ↔
        ∃ before r after, form.responses = before ++ r :: after ∧ (∀ s ∈ before, p.Takes s) ∧
          ¬ p.Takes r ∧ name = r.filename.getD "") ∧
      ∀ size max, p.check form = .error (.tooLarge size max) ↔
        (∀ r ∈ form.responses, p.Takes r) ∧ max < size ∧ size = uploadedBytes form ∧
          max = p.maxTotal) ∧
    (∀ k name, p.allows (Upload.numbered k name) = p.allows name) ∧
    ∀ us, (Upload.withDistinctNames us).map (fun u => p.allows u.filename) =
      us.map fun u => p.allows u.filename := by
  refine ⟨fun es filename => allows_withExtensions_iff p, ?_, allows_empty p, ?_,
    allows_numbered p, allows_withDistinctNames p⟩
  · intro front ext back hfront hback hext hdot
    exact bareExtension_written hfront hback hext hdot
  · intro form hsmall
    have htotal : totalSize form.uploads = uploadedBytes form :=
      (totalSize_eq form.uploads).trans (Nat.min_eq_left hsmall)
    refine ⟨?_, fun name => check_eq_extension_iff, ?_⟩
    · rw [check_eq_ok_iff, forall_uploads_iff, htotal]
    · intro size max
      rw [check_eq_size_iff, htotal]

/-- Two files of three and two bytes, both allowed, one of them with a number in front of its
    name, where four bytes may be sent. -/
theorem judges_exactly_oversized :
    let p : UploadPolicy := (⟨4, []⟩ : UploadPolicy).withExtensions [" .PdF\t"]
    let form : Form := ⟨[.single "t" .shortText "x", .attachment "f" "1-x.tar.pDF" [1, 2, 3],
      .attachment "g" "x.tar.pDF" [4, 5]]⟩
    '.' ∉ bareExtension " .PdF\t" ∧ p.allows "x.tar.pDF" = true ∧
      p.allows (Upload.numbered 1 "x.tar.pDF") = true ∧ p.check form = .error (.tooLarge 5 4) := by
  intro p form
  have hdot : ∀ e ∈ [" .PdF\t"], '.' ∉ bareExtension e := by decide
  obtain ⟨hallows, -⟩ := judges_exactly ⟨4, []⟩
  obtain ⟨-, -, -, hcheck, hnumbered, -⟩ := judges_exactly p
  have hname : p.allows "x.tar.pDF" = true :=
    (hallows _ _ hdot).2 ⟨_, List.mem_cons_self, "x.tar".toList, "pDF".toList, rfl, rfl⟩
  have htakes : ∀ r ∈ form.responses, p.Takes r := by decide
  exact ⟨hdot _ List.mem_cons_self, hname, (hnumbered 1 _).trans hname,
    ((hcheck form (by decide)).2.2 5 4).2 ⟨htakes, by decide, rfl, rfl⟩⟩

end UploadPolicy

end FormIntake
