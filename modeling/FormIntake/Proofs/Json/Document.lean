/-
  FormIntake — documents of JSON, written and read back.

  `Fits p depth v`: the numbers of `v` are sound, with property `p` for doubles, and its
  arrays and objects are nested at most `depth` deep.

  A value is a row of tokens (`tokens`).  Its text is scanned as these (`scans_write`), and
  they are read as the value as it is written (`reads_tokens`).  So the text of a value that
  fits is read back as the value (`read?_print`).
-/
import FormIntake.Json.Raw
import FormIntake.Proofs.Json.Number

namespace FormIntake.Json

/-- The numbers are sound, and nothing is nested deeper. -/
inductive Fits (p : Double → Prop) : Nat → Json → Prop
  | null {depth} : Fits p depth null
  | bool {depth b} : Fits p depth (bool b)
  | number {depth n} : n.Sound p → Fits p depth (number n)
  | text {depth s} : Fits p depth (text s)
  | array {depth items} : (∀ v ∈ items, Fits p depth v) → Fits p (depth + 1) (array items)
  | object {depth members} : (∀ m ∈ members, Fits p depth m.2) → Fits p (depth + 1) (object members)

variable {p q : Double → Prop} {depth : Nat} {v : Json}

/-! ## Tokens of a value -/

mutual

/-- The tokens of a value. -/
def tokens : Json → List Token
  | null => [.null]
  | bool b => [.bool b]
  | number n => [.number (some n)]
  | text s => [.text (some s)]
  | array [] => [.openArray, .closeArray]
  | array (v :: rest) => .openArray :: (tokens v ++ itemTokens rest)
  | object [] => [.openObject, .closeObject]
  | object ((key, v) :: rest) =>
    .openObject :: .text (some key) :: .colon :: (tokens v ++ memberTokens rest)

/-- The tokens of the items after the first one. -/
def itemTokens : List Json → List Token
  | [] => [.closeArray]
  | v :: rest => .comma :: (tokens v ++ itemTokens rest)

/-- The tokens of the members after the first one. -/
def memberTokens : List (String × Json) → List Token
  | [] => [.closeObject]
  | (key, v) :: rest => .comma :: .text (some key) :: .colon :: (tokens v ++ memberTokens rest)

end

/-! ## From text to tokens -/

theorem scanFrom_of_next? {b : UInt8} {rest after : Bytes} {t : Token} (done : List Token)
    (hblank : isBlankByte b = false) (h : Token.next? b rest = some (t, after)) :
    Token.scanFrom done (b :: rest) = Token.scanFrom (t :: done) after := by
  rw [Token.scanFrom, if_neg (by simp [hblank])]
  split
  · next t' after' h' =>
    rw [h] at h'
    cases h'
    rfl
  · next h' =>
    rw [h] at h'
    cases h'

/-- The text is scanned as the tokens. -/
def Scans (written : List Char) (ts : List Token) : Prop :=
  ∀ done rest, Stops rest → Token.scanFrom done (Bytes.ofChars written ++ rest) =
    Token.scanFrom (ts.reverse ++ done) rest

/-- The text does not go on a numeral. -/
def Closes (written : List Char) : Prop := ∀ rest, Stops (Bytes.ofChars written ++ rest)

theorem closes_cons {c : Char} (hc : c.toNat < 128)
    (h : isNumeralByte (UInt8.ofNat c.toNat) = false) (cs : List Char) : Closes (c :: cs) := by
  intro rest
  rw [Bytes.ofChars_cons_of_lt hc]
  exact stops_cons h _

theorem Scans.append {cs ds : List Char} {ts us : List Token} (hcs : Scans cs ts)
    (hds : Scans ds us) (hcloses : Closes ds) : Scans (cs ++ ds) (ts ++ us) := by
  intro done rest hrest
  rw [Bytes.ofChars_append, List.append_assoc, hcs _ _ (hcloses rest), hds _ _ hrest,
    List.reverse_append, List.append_assoc]

/-- A punctuation mark is a token. -/
theorem Scans.mark {c : Char} {cs : List Char} {t : Token} {ts : List Token} (hc : c.toNat < 128)
    (hblank : isBlankByte (UInt8.ofNat c.toNat) = false)
    (hmark : punctuation? (UInt8.ofNat c.toNat) = some t) (h : Scans cs ts) :
    Scans (c :: cs) (t :: ts) := by
  intro done rest hrest
  have hnext : Token.next? (UInt8.ofNat c.toNat) (Bytes.ofChars cs ++ rest) =
      some (t, Bytes.ofChars cs ++ rest) := by
    rw [Token.next?, hmark]
  rw [Bytes.ofChars_cons_of_lt hc, List.cons_append, scanFrom_of_next? done hblank hnext,
    h _ _ hrest, List.reverse_cons, List.append_assoc]
  rfl

theorem scans_nil : Scans [] [] := fun _ _ _ => rfl

theorem scans_text (s : String) : Scans (writeText s) [.text (some s)] := by
  intro done rest _
  rw [writeText_eq, scanFrom_of_next? done rfl (next?_writeText s rest)]
  rfl

theorem scans_number {n : Number} (h : n.Sound Double.Legible) :
    Scans (writeNumber n) [.number (some n)] := by
  intro done rest hrest
  obtain ⟨numeral, hread, hnumber⟩ := Option.bind_eq_some_iff.1 (number?_writeNumber h)
  obtain ⟨hne, hall⟩ := Numeral.isNumeralByte_of_read? hread
  cases hbytes : Bytes.ofChars (writeNumber n) with
  | nil => exact absurd hbytes hne
  | cons b bs =>
    rw [hbytes] at hread hall
    have hblank : isBlankByte b = false := by
      by_contra hblank
      simp only [isBlankByte, Bool.not_eq_false, Bool.or_eq_true, beq_iff_eq] at hblank
      have hb := hall b List.mem_cons_self
      rcases hblank with ((rfl | rfl) | rfl) | rfl <;> exact absurd hb (by decide)
    rw [List.cons_append, scanFrom_of_next? done hblank (next?_numeral hread hrest), hnumber]
    rfl

theorem scans_null : Scans "null".toList [.null] := by
  intro done rest _
  exact scanFrom_of_next? done rfl rfl

theorem scans_bool (b : Bool) : Scans (if b then "true" else "false").toList [.bool b] := by
  intro done rest _
  cases b
  · exact scanFrom_of_next? done rfl rfl
  · exact scanFrom_of_next? done rfl rfl

theorem closes_writeItems (vs : List Json) : Closes (writeItems vs) := by
  cases vs with
  | nil => exact closes_cons (by decide) rfl _
  | cons v vs => exact closes_cons (by decide) rfl _

theorem closes_writeMembers (ms : List (String × Json)) : Closes (writeMembers ms) := by
  cases ms with
  | nil => exact closes_cons (by decide) rfl _
  | cons m ms => exact closes_cons (by decide) rfl _

theorem scans_writeItems {vs : List Json} (h : ∀ v ∈ vs, Scans v.write (tokens v)) :
    Scans (writeItems vs) (itemTokens vs) := by
  induction vs with
  | nil => exact scans_nil.mark (by decide) rfl rfl
  | cons v vs ih =>
    obtain ⟨hv, hvs⟩ := List.forall_mem_cons.1 h
    exact (hv.append (ih hvs) (closes_writeItems vs)).mark (by decide) rfl rfl

/-- A key, a colon, a value and what follows. -/
theorem scans_member {m : String × Json} {cs : List Char} {ts : List Token}
    (hm : Scans m.2.write (tokens m.2)) (hcs : Scans cs ts) (hcloses : Closes cs) :
    Scans (writeText m.1 ++ ':' :: m.2.write ++ cs)
      (.text (some m.1) :: .colon :: (tokens m.2 ++ ts)) := by
  rw [List.append_assoc]
  exact (scans_text m.1).append ((hm.append hcs hcloses).mark (by decide) rfl rfl)
    (closes_cons (by decide) rfl _)

theorem scans_writeMembers {ms : List (String × Json)}
    (h : ∀ m ∈ ms, Scans m.2.write (tokens m.2)) : Scans (writeMembers ms) (memberTokens ms) := by
  induction ms with
  | nil => exact scans_nil.mark (by decide) rfl rfl
  | cons m ms ih =>
    obtain ⟨hm, hms⟩ := List.forall_mem_cons.1 h
    exact (scans_member hm (ih hms) (closes_writeMembers ms)).mark (by decide) rfl rfl

/-- **The text of a value is scanned as its tokens.** -/
theorem scans_write (h : Fits Double.Legible depth v) : Scans v.write (tokens v) := by
  induction h with
  | null => rw [write, tokens]; exact scans_null
  | bool => rw [write, tokens]; exact scans_bool _
  | number hn => rw [write, tokens]; exact scans_number hn
  | text => rw [write, tokens]; exact scans_text _
  | @array _ items _ ih =>
    cases items with
    | nil =>
      rw [write, tokens]
      exact (scans_nil.mark (by decide) rfl rfl).mark (by decide) rfl rfl
    | cons v vs =>
      obtain ⟨hv, hvs⟩ := List.forall_mem_cons.1 ih
      rw [write, tokens]
      exact (hv.append (scans_writeItems hvs) (closes_writeItems vs)).mark (by decide) rfl rfl
  | @object _ members _ ih =>
    cases members with
    | nil =>
      rw [write, tokens]
      exact (scans_nil.mark (by decide) rfl rfl).mark (by decide) rfl rfl
    | cons m ms =>
      obtain ⟨hm, hms⟩ := List.forall_mem_cons.1 ih
      rw [write, tokens]
      exact (scans_member hm (scans_writeMembers hms) (closes_writeMembers ms)).mark (by decide) rfl rfl

/-! ## From tokens to the value -/

namespace Raw

theorem ofItems_eq (vs : List Json) : ofItems vs = vs.map ofJson := by
  induction vs with
  | nil => rfl
  | cons v vs ih => rw [ofItems, ih, List.map_cons]

theorem ofMembers_eq (ms : List (String × Json)) :
    ofMembers ms = ms.map fun m => (some m.1, ofJson m.2) := by
  induction ms with
  | nil => rfl
  | cons m ms ih => rw [ofMembers, ih, List.map_cons]

/-- The tokens are read as the value. -/
def Reads (ts : List Token) (v : Raw) : Prop :=
  ∀ outer rest, readValue outer (ts ++ rest) = readAfter v outer rest

theorem readAfter_itemTokens {vs : List Json} (h : ∀ v ∈ vs, Reads (tokens v) (ofJson v)) (w : Raw)
    (items : List Raw) (outer : List Frame) (rest : List Token) :
    readAfter w (.array items :: outer) (itemTokens vs ++ rest) =
      readAfter (.array ((w :: items).reverse ++ vs.map ofJson)) outer rest := by
  induction vs generalizing w items with
  | nil => rw [itemTokens, List.map_nil, List.append_nil]; rfl
  | cons v vs ih =>
    obtain ⟨hv, hvs⟩ := List.forall_mem_cons.1 h
    rw [itemTokens, List.cons_append, List.append_assoc, readAfter, hv, ih hvs]
    simp

theorem readAfter_memberTokens {ms : List (String × Json)}
    (h : ∀ m ∈ ms, Reads (tokens m.2) (ofJson m.2)) (w : Raw) (key : Option String)
    (members : List (Option String × Raw)) (outer : List Frame) (rest : List Token) :
    readAfter w (.object members key :: outer) (memberTokens ms ++ rest) =
      readAfter (.object (((key, w) :: members).reverse ++
        ms.map fun m => (some m.1, ofJson m.2))) outer rest := by
  induction ms generalizing w key members with
  | nil => rw [memberTokens, List.map_nil, List.append_nil]; rfl
  | cons m ms ih =>
    obtain ⟨hm, hms⟩ := List.forall_mem_cons.1 h
    rw [memberTokens, List.cons_append, List.cons_append, List.cons_append, List.append_assoc,
      readAfter, readMember, hm, ih hms]
    simp

/-- A value does not begin with the token that closes an array. -/
theorem tokens_ne_closeArray (v : Json) : ∃ t ts, tokens v = t :: ts ∧ t ≠ .closeArray := by
  match v with
  | .null | .bool _ | .number _ | .text _ => exact ⟨_, _, by rw [tokens], by simp⟩
  | .array [] | .array (_ :: _) => exact ⟨_, _, by rw [tokens], by simp⟩
  | .object [] | .object (_ :: _) => exact ⟨_, _, by rw [tokens], by simp⟩

/-- **The tokens of a value are read as the value.** -/
theorem reads_tokens (h : Fits p depth v) : Reads (tokens v) (ofJson v) := by
  intro outer rest
  induction h generalizing outer rest with
  | null => rw [tokens, ofJson, List.singleton_append, readValue]
  | bool => rw [tokens, ofJson, List.singleton_append, readValue]
  | number => rw [tokens, ofJson, List.singleton_append, readValue]
  | text => rw [tokens, ofJson, List.singleton_append, readValue]
  | @array _ items _ ih =>
    cases items with
    | nil => rw [tokens, ofJson, ofItems]; rfl
    | cons v vs =>
      obtain ⟨hv, hvs⟩ := List.forall_mem_cons.1 ih
      obtain ⟨t, ts, htokens, hopen⟩ := tokens_ne_closeArray v
      have hdown : readValue outer (.openArray :: (tokens v ++ (itemTokens vs ++ rest))) =
          readValue (.array [] :: outer) (tokens v ++ (itemTokens vs ++ rest)) := by
        rw [htokens, List.cons_append, readValue]
        exact fun _ heq => hopen (List.cons.inj heq).1
      rw [tokens, List.cons_append, List.append_assoc, hdown, hv, readAfter_itemTokens hvs, ofJson,
        ofItems, ofItems_eq]
      rfl
  | @object _ members _ ih =>
    cases members with
    | nil => rw [tokens, ofJson, ofMembers]; rfl
    | cons m ms =>
      obtain ⟨hm, hms⟩ := List.forall_mem_cons.1 ih
      rw [tokens, List.cons_append, List.cons_append, List.cons_append, List.append_assoc, readValue,
        readMember, hm, readAfter_memberTokens hms, ofJson, ofMembers, ofMembers_eq]
      · rfl
      · rintro _ ⟨⟩

theorem jsonItems?_map {vs : List Json} (h : ∀ v ∈ vs, (ofJson v).json? depth = some v) :
    jsonItems? depth (vs.map ofJson) = some vs := by
  induction vs with
  | nil => rfl
  | cons v vs ih =>
    obtain ⟨hv, hvs⟩ := List.forall_mem_cons.1 h
    rw [List.map_cons, jsonItems?, hv, ih hvs]
    rfl

theorem jsonMembers?_map {ms : List (String × Json)}
    (h : ∀ m ∈ ms, (ofJson m.2).json? depth = some m.2) :
    jsonMembers? depth (ms.map fun m => (some m.1, ofJson m.2)) = some ms := by
  induction ms with
  | nil => rfl
  | cons m ms ih =>
    obtain ⟨hm, hms⟩ := List.forall_mem_cons.1 h
    rw [List.map_cons, jsonMembers?, hm, ih hms]
    rfl

/-- **What is nested no deeper than it may be has its value.** -/
theorem json?_ofJson (h : Fits p depth v) : (ofJson v).json? depth = some v := by
  induction h with
  | null => rw [ofJson, json?]
  | bool => rw [ofJson, json?]
  | number => rw [ofJson, json?]; rfl
  | text => rw [ofJson, json?]; rfl
  | array _ ih => rw [ofJson, ofItems_eq, json?, jsonItems?_map ih]; rfl
  | object _ ih => rw [ofJson, ofMembers_eq, json?, jsonMembers?_map ih]; rfl

/-- **The text of a value is read as the value is written.** -/
theorem read?_print (h : Fits Double.Legible depth v) :
    Raw.read? (Bytes.ofText v.print) = some (ofJson v) := by
  have hscan := scans_write h [] [] stops_nil
  have hread := reads_tokens h [] []
  simp only [List.append_nil] at hscan hread
  rw [read?, Token.scan, print, Bytes.ofText_ofList, hscan, Token.scanFrom, List.reverse_reverse,
    Option.bind_some, hread, readAfter]

end Raw

/-- **The text of a value is read back as the value.** -/
theorem read?_print (h : Fits Double.Legible maxDepth v) :
    read? (Bytes.ofText v.print) = some v := by
  rw [read?, Raw.read?_print h, Option.bind_some, Raw.json?_ofJson h]

end FormIntake.Json
