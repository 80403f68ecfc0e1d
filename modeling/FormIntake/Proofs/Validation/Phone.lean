/-
  FormIntake — which telephone numbers a field takes.

  A field takes local numbers by their length and first digit.  What it takes of the numbers
  of other countries is told by a directory (`Phone.Directory.Lists`): the number can be read,
  it is assigned, and its line is of the kind that the field asks for, or may be.

  `PhoneOptions.check_eq_ok_iff` says this of every directory.
-/
import FormIntake.Proofs.Validation.Traversal
import FormIntake.Validation.Phone

namespace FormIntake

open Validation

namespace Phone

/-- The line that a field asks for. -/
def Wanted.line : Wanted → Line
  | mobile => .mobile
  | home => .fixed

/-- The directory has the number, as one that is assigned to a line of the kind asked for. -/
def Directory.Lists (dir : Directory) (w : Wanted) (answer : String) : Prop :=
  ∃ number, dir.read? answer = some number ∧ dir.isAssigned number = true ∧
    (dir.line number = w.line ∨ dir.line number = .fixedOrMobile)

variable {dir : Directory} {w : Wanted} {answer : String} {ds : List Char}

theorem Wanted.takes_iff {line : Line} :
    w.takes line = true ↔ line = w.line ∨ line = .fixedOrMobile := by
  cases w <;> cases line <;> decide

theorem Directory.check_eq_ok_iff : dir.check w answer = .ok () ↔ dir.Lists w answer := by
  rw [check, Lists]
  cases dir.read? answer with
  | none => simp
  | some number => simp [check_bind_eq_ok, Wanted.takes_iff]

theorem Wanted.isLocal_iff : w.isLocal ds = true ↔
    ds.length = 8 ∧ ∃ d, ds.head? = some d ∧ d ∈ w.localFirst := by
  rw [isLocal, Bool.and_eq_true, beq_iff_eq, Option.any_eq_true]
  simp only [List.contains_iff_mem]

end Phone

namespace PhoneOptions

open Phone

/-- A telephone number that a field takes. -/
inductive Takes (o : PhoneOptions) (dir : Directory) (w : Wanted) (answer : String) : Prop
  /-- A local one: eight digits behind the local calling code, the first of which goes with the
      line that the field asks for. -/
  | domestic {ds d} : answer.toList = '+' :: (localCode ++ ds) → (∀ c ∈ ds, c.isDigit = true) →
      ds.length = 8 → ds.head? = some d → d ∈ w.localFirst → Takes o dir w answer
  /-- One of another country, where the field allows such numbers and the directory has it. -/
  | foreign {ds} : answer.toList = '+' :: ds → ds ≠ [] → (∀ c ∈ ds, c.isDigit = true) →
      ¬ localCode <+: ds → o.international = true → dir.Lists w answer → Takes o dir w answer

variable {o : PhoneOptions} {dir : Directory} {w : Wanted} {answer : String} {ds : List Char}

/-- The check of the digits behind the plus sign. -/
theorem check_plus (hanswer : answer.toList = '+' :: ds) : o.check dir w answer = .ok () ↔
    (ds ≠ [] ∧ ∀ c ∈ ds, c.isDigit = true) ∧
      (localCode <+: ds → w.isLocal (ds.drop localCode.length) = true) ∧
      (¬ localCode <+: ds → o.international = true ∧ dir.Lists w answer) := by
  have hcheck : o.check dir w answer =
      (require (!ds.isEmpty && ds.all Char.isDigit) .phoneFormat >>= fun _ =>
        if localCode.isPrefixOf ds then require (w.isLocal (ds.drop localCode.length)) .phoneLocal
        else require o.international .phoneForeign >>= fun _ => dir.check w answer) := by
    rw [check, hanswer]
    rfl
  rw [hcheck, check_bind_eq_ok, require_eq_ok, Bool.and_eq_true, Bool.not_eq_true',
    List.all_eq_true, List.isEmpty_eq_false_iff]
  refine and_congr_right fun _ => ?_
  by_cases hlocal : localCode <+: ds
  · rw [if_pos (List.isPrefixOf_iff_prefix.2 hlocal), require_eq_ok]
    simp [hlocal]
  · rw [if_neg (mt List.isPrefixOf_iff_prefix.1 hlocal), check_bind_eq_ok, require_eq_ok,
      Directory.check_eq_ok_iff]
    simp [hlocal]

/-- **Which telephone numbers a field takes**, whatever the directory. -/
theorem check_eq_ok_iff : o.check dir w answer = .ok () ↔ o.Takes dir w answer := by
  constructor
  · intro h
    obtain ⟨ds, hanswer⟩ : ∃ ds, answer.toList = '+' :: ds := by
      rw [check] at h
      split at h
      · next ds hanswer => exact ⟨ds, hanswer⟩
      · cases h
    obtain ⟨⟨hne, hdigits⟩, hlocal, hforeign⟩ := (check_plus hanswer).1 h
    by_cases hcode : localCode <+: ds
    · obtain ⟨rest, rfl⟩ := hcode
      have hrest := hlocal (List.prefix_append ..)
      rw [List.drop_left, Wanted.isLocal_iff] at hrest
      obtain ⟨hlen, d, hhead, hd⟩ := hrest
      exact .domestic hanswer (fun c hc => hdigits c (List.mem_append_right _ hc)) hlen hhead hd
    · obtain ⟨hinternational, hlists⟩ := hforeign hcode
      exact .foreign hanswer hne hdigits hcode hinternational hlists
  · intro h
    cases h with
    | @domestic rest d hanswer hdigits hlen hhead hd =>
      have hcode : ∀ c ∈ localCode, c.isDigit = true := List.all_eq_true.1 rfl
      refine (check_plus hanswer).2 ⟨⟨by simp [localCode], ?_⟩, fun _ => ?_, fun hnot => ?_⟩
      · exact List.forall_mem_append.2 ⟨hcode, hdigits⟩
      · rw [List.drop_left]
        exact Wanted.isLocal_iff.2 ⟨hlen, d, hhead, hd⟩
      · exact absurd (List.prefix_append ..) hnot
    | foreign hanswer hne hdigits hcode hinternational hlists =>
      refine (check_plus hanswer).2 ⟨⟨hne, hdigits⟩, fun h => absurd h hcode, fun _ => ?_⟩
      exact ⟨hinternational, hlists⟩

end PhoneOptions

end FormIntake
