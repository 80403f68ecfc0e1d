/-
  FormIntake — what documents are read as.

  A value as it is written is `Sound` if every number that has a value is: a whole number of
  64 bits, or a double with property `p`.  Tokens are scanned with finite doubles
  (`Token.sound_of_scan`), and reading them keeps this for the value and for all that is still
  open (`keeps_readers`).  So every document is sound (`sound_of_read?`), and the values taken
  from it fit (`fits_of_json?`).
-/
import FormIntake.Proofs.Json.Document

namespace FormIntake.Json

variable {p : Double → Prop}

/-! ## Tokens -/

/-- The number, if the token has one, is sound. -/
def Token.Sound (p : Double → Prop) (t : Token) : Prop := ∀ n, t = .number (some n) → n.Sound p

theorem Token.sound_of_next? {b : UInt8} {rest after : Bytes} {t : Token}
    (h : Token.next? b rest = some (t, after)) : t.Sound fun d => d.isFinite = true := by
  rintro n rfl
  unfold Token.next? at h
  split at h
  · next hmark =>
    cases h
    unfold punctuation? at hmark
    repeat' split at hmark
    all_goals cases hmark
  · split at h
    · obtain ⟨piece, -, hpiece⟩ := Option.map_eq_some_iff.1 h
      cases hpiece
    · split at h
      · obtain ⟨numeral, -, hnumeral⟩ := Option.map_eq_some_iff.1 h
        have hnumber : numeral.number? = some n := by simpa using congrArg Prod.fst hnumeral
        exact Numeral.sound_of_number? hnumber
      · obtain ⟨literal, hfind, hliteral⟩ := Option.map_eq_some_iff.1 h
        have hmem := List.mem_of_find?_eq_some hfind
        have htoken : literal.2 = .number (some n) := congrArg Prod.fst hliteral
        have hnone : ∀ l ∈ literals, l.2 ≠ .number (some n) := by simp [literals]
        exact absurd htoken (hnone literal hmem)

theorem Token.sound_of_scanFrom {done ts : List Token} {b : Bytes}
    (hdone : ∀ t ∈ done, t.Sound fun d => d.isFinite = true) (h : Token.scanFrom done b = some ts) :
    ∀ t ∈ ts, t.Sound fun d => d.isFinite = true := by
  fun_induction Token.scanFrom done b with
  | case1 done =>
    cases h
    simpa using hdone
  | case2 _ _ _ _ ih => exact ih hdone h
  | case3 _ _ _ _ _ _ hnext ih =>
    exact ih (List.forall_mem_cons.2 ⟨Token.sound_of_next? hnext, hdone⟩) h
  | case4 => cases h

/-- **Tokens are scanned with finite doubles.** -/
theorem Token.sound_of_scan {b : Bytes} {ts : List Token} (h : Token.scan b = some ts) :
    ∀ t ∈ ts, t.Sound fun d => d.isFinite = true :=
  Token.sound_of_scanFrom (by simp) h

/-! ## Values as they are written -/

namespace Raw

/-- Every number that has a value is sound. -/
inductive Sound (p : Double → Prop) : Raw → Prop
  | null : Sound p null
  | bool {b} : Sound p (bool b)
  | number {n} : Token.Sound p (.number n) → Sound p (number n)
  | text {s} : Sound p (text s)
  | array {items} : (∀ v ∈ items, Sound p v) → Sound p (array items)
  | object {members} : (∀ m ∈ members, Sound p m.2) → Sound p (object members)

/-- What an open array or object holds so far is sound. -/
def Frame.Sound (p : Double → Prop) : Frame → Prop
  | array items => ∀ v ∈ items, v.Sound p
  | object members _ => ∀ m ∈ members, m.2.Sound p

/-- From sound frames and tokens nothing unsound is read. -/
def Keeps (p : Double → Prop) (outer : List Frame) (ts : List Token) (read : Option Raw) : Prop :=
  (∀ f ∈ outer, f.Sound p) → (∀ t ∈ ts, t.Sound p) → ∀ w, read = some w → w.Sound p

variable {outer : List Frame} {ts : List Token} {f : Frame} {t : Token} {read : Option Raw}

theorem keeps_none : Keeps p outer ts none := by
  rintro - - w ⟨⟩

theorem Keeps.take (h : t.Sound p → Keeps p outer ts read) : Keeps p outer (t :: ts) read := by
  intro houter hts
  obtain ⟨ht, hts⟩ := List.forall_mem_cons.1 hts
  exact h ht houter hts

theorem Keeps.skip (h : Keeps p outer ts read) : Keeps p outer (t :: ts) read := take fun _ => h

theorem Keeps.opened (hf : f.Sound p) (h : Keeps p (f :: outer) ts read) : Keeps p outer ts read :=
  fun houter => h (List.forall_mem_cons.2 ⟨hf, houter⟩)

theorem Keeps.inside (h : f.Sound p → Keeps p outer ts read) : Keeps p (f :: outer) ts read := by
  intro houter
  obtain ⟨hf, houter⟩ := List.forall_mem_cons.1 houter
  exact h hf houter

/-- **Each step of reading keeps soundness.**  By the recursion of the three readers. -/
theorem keeps_readers :
    (∀ outer ts, Keeps p outer ts (readValue outer ts)) ∧
      (∀ members outer ts, (∀ m ∈ members, m.2.Sound p) →
        Keeps p outer ts (readMember members outer ts)) ∧
      ∀ v outer ts, v.Sound p → Keeps p outer ts (readAfter v outer ts) := by
  refine readValue.mutual_induct
    (fun outer ts => Keeps p outer ts (readValue outer ts))
    (fun members outer ts => (∀ m ∈ members, m.2.Sound p) →
      Keeps p outer ts (readMember members outer ts))
    (fun v outer ts => v.Sound p → Keeps p outer ts (readAfter v outer ts))
    ?ended ?null ?bool ?number ?text ?emptyArray ?array ?emptyObject ?object ?noValue
    ?member ?noMember ?read ?nextItem ?closeArray ?nextMember ?closeObject ?stuck
  -- where a value is due
  case ended => intro outer; rw [readValue]; exact keeps_none
  case null => intro outer rest ih; rw [readValue]; exact (ih .null).skip
  case bool => intro outer b rest ih; rw [readValue]; exact (ih .bool).skip
  case number => intro outer n rest ih; rw [readValue]; exact .take fun hn => ih (.number hn)
  case text => intro outer s rest ih; rw [readValue]; exact (ih .text).skip
  case emptyArray =>
    intro outer rest ih
    rw [readValue]
    exact (ih (.array (by simp))).skip.skip
  case array =>
    intro outer rest hopen ih
    rw [readValue.eq_7 _ _ hopen]
    have hframe : (Frame.array []).Sound p := by simp [Frame.Sound]
    exact (ih.opened hframe).skip
  case emptyObject =>
    intro outer rest ih
    rw [readValue]
    exact (ih (.object (by simp))).skip.skip
  case object =>
    intro outer rest hopen ih
    rw [readValue.eq_9 _ _ hopen]
    exact (ih (by simp)).skip
  case noValue =>
    intro outer t ts _ _ _ _ _ _ _ _
    rw [readValue] <;> first | exact keeps_none | assumption
  -- where a member is due
  case member =>
    intro members outer key rest ih hmembers
    rw [readMember]
    have hframe : (Frame.object members key).Sound p := hmembers
    exact (ih.opened hframe).skip.skip
  case noMember =>
    intro ts members outer hnone _
    rw [readMember.eq_2 _ _ _ hnone]
    exact keeps_none
  -- after a value
  case read =>
    intro v hv _ _ w hw
    cases hw
    exact hv
  case nextItem =>
    intro v items outer rest ih hv
    rw [readAfter]
    refine .inside fun hitems => .skip (ih.opened ?_)
    exact List.forall_mem_cons.2 ⟨hv, hitems⟩
  case closeArray =>
    intro v items outer rest ih hv
    rw [readAfter]
    refine .inside fun hitems => .skip (ih (.array fun w hw => ?_))
    exact List.forall_mem_cons.2 ⟨hv, hitems⟩ w (List.mem_reverse.1 hw)
  case nextMember =>
    intro v members key outer rest ih hv
    rw [readAfter]
    refine .inside fun hmembers => .skip (ih ?_)
    exact List.forall_mem_cons.2 ⟨hv, hmembers⟩
  case closeObject =>
    intro v members key outer rest ih hv
    rw [readAfter]
    refine .inside fun hmembers => .skip (ih (.object fun m hm => ?_))
    have hall : ∀ m ∈ (key, v) :: members, m.2.Sound p := List.forall_mem_cons.2 ⟨hv, hmembers⟩
    exact hall m (List.mem_reverse.1 hm)
  case stuck =>
    intro ts v outer _ _ _ _ _ _
    rw [readAfter] <;> first | exact keeps_none | assumption

/-- **Every document is sound.** -/
theorem sound_of_read? {b : Bytes} {v : Raw} (h : read? b = some v) :
    v.Sound fun d => d.isFinite = true := by
  obtain ⟨ts, hscan, hread⟩ := Option.bind_eq_some_iff.1 h
  exact keeps_readers.1 [] ts (by simp) (Token.sound_of_scan hscan) v hread

/-! ## Values of documents -/

theorem fits_of_jsonItems? {depth : Nat} {items : List Raw} {vs : List Json}
    (hitems : ∀ v ∈ items, ∀ w, v.json? depth = some w → Fits p depth w)
    (h : jsonItems? depth items = some vs) : ∀ w ∈ vs, Fits p depth w := by
  induction items generalizing vs with
  | nil =>
    cases h
    simp
  | cons v items ih =>
    obtain ⟨hv, hitems⟩ := List.forall_mem_cons.1 hitems
    simp only [jsonItems?, Option.bind_eq_bind, Option.bind_eq_some_iff] at h
    obtain ⟨w, hw, ws, hws, h⟩ := h
    cases h
    exact List.forall_mem_cons.2 ⟨hv w hw, ih hitems hws⟩

theorem fits_of_jsonMembers? {depth : Nat} {members : List (Option String × Raw)}
    {ms : List (String × Json)}
    (hmembers : ∀ m ∈ members, ∀ w, m.2.json? depth = some w → Fits p depth w)
    (h : jsonMembers? depth members = some ms) : ∀ m ∈ ms, Fits p depth m.2 := by
  induction members generalizing ms with
  | nil =>
    cases h
    simp
  | cons m members ih =>
    obtain ⟨hm, hmembers⟩ := List.forall_mem_cons.1 hmembers
    simp only [jsonMembers?, Option.bind_eq_bind, Option.bind_eq_some_iff] at h
    obtain ⟨key, -, w, hw, ws, hws, h⟩ := h
    cases h
    exact List.forall_mem_cons.2 ⟨hm w hw, ih hmembers hws⟩

/-- **The value of what is sound fits.** -/
theorem fits_of_json? {v : Raw} (hv : v.Sound p) {depth : Nat} {w : Json}
    (h : v.json? depth = some w) : Fits p depth w := by
  induction hv generalizing depth w with
  | null =>
    cases h
    exact .null
  | bool =>
    cases h
    exact .bool
  | number hn =>
    obtain ⟨n, rfl, rfl⟩ := Option.map_eq_some_iff.1 h
    exact .number (hn n rfl)
  | text =>
    obtain ⟨s, -, rfl⟩ := Option.map_eq_some_iff.1 h
    exact .text
  | array _ ih =>
    cases depth with
    | zero => cases h
    | succ depth =>
      obtain ⟨ws, hws, rfl⟩ := Option.map_eq_some_iff.1 h
      exact .array (fits_of_jsonItems? (fun v hv w hw => ih v hv hw) hws)
  | object _ ih =>
    cases depth with
    | zero => cases h
    | succ depth =>
      obtain ⟨ms, hms, rfl⟩ := Option.map_eq_some_iff.1 h
      exact .object (fits_of_jsonMembers? (fun m hm w hw => ih m hm hw) hms)

/-- Null is not the value of anything else. -/
theorem json?_ne_null {v : Raw} (hv : v ≠ null) {depth : Nat} : v.json? depth ≠ some .null := by
  cases v with
  | null => exact absurd rfl hv
  | bool | number | text => simp [json?]
  | array | object => cases depth <;> simp [json?]

end Raw

end FormIntake.Json
