/-
  FormIntake — texts of JSON, written and read back.

  `Spells written pieces meant`: wherever the bytes `written` stand inside quotes, the
  pieces are scanned from them, and the pieces stand for the bytes `meant`.  A character
  and its written form are one such case (`spells_writeChar`), so the token of a written
  text carries the text (`next?_writeText`).
-/
import FormIntake.Json.Printer
import FormIntake.Json.Token
import FormIntake.Proofs.Utf8
import Mathlib.Tactic.SplitIfs

namespace FormIntake

/-- The UTF-8 bytes of characters. -/
def Bytes.ofChars (cs : List Char) : Bytes := cs.flatMap String.utf8EncodeChar

namespace Bytes

theorem ofText_ofList (cs : List Char) : ofText (String.ofList cs) = ofChars cs := by
  rw [ofText_eq, String.toList_ofList, ofChars]

@[simp]
theorem ofChars_nil : ofChars [] = [] := rfl

@[simp]
theorem ofChars_append (cs ds : List Char) : ofChars (cs ++ ds) = ofChars cs ++ ofChars ds :=
  List.flatMap_append

theorem ofChars_cons (c : Char) (cs : List Char) :
    ofChars (c :: cs) = String.utf8EncodeChar c ++ ofChars cs := rfl

/-- An ASCII character is one byte. -/
theorem ofChars_cons_of_lt {c : Char} (hc : c.toNat < 128) (cs : List Char) :
    ofChars (c :: cs) = UInt8.ofNat c.toNat :: ofChars cs := by
  rw [ofChars_cons, utf8EncodeChar_of_lt hc, List.singleton_append]

end Bytes

namespace Json

/-- The bytes are scanned as the pieces, and these stand for what is meant. -/
structure Spells (written : Bytes) (pieces : List Piece) (meant : Bytes) : Prop where
  scan : ∀ done rest, scanPieces done (written ++ rest) = scanPieces (pieces.reverse ++ done) rest
  read : ∀ done rest, piecesBytes done (pieces ++ rest) = piecesBytes (meant.reverse ++ done) rest

theorem Spells.nil : Spells [] [] [] where
  scan _ _ := rfl
  read _ _ := rfl

theorem Spells.append {written₁ written₂ meant₁ meant₂ : Bytes} {pieces₁ pieces₂ : List Piece}
    (h₁ : Spells written₁ pieces₁ meant₁) (h₂ : Spells written₂ pieces₂ meant₂) :
    Spells (written₁ ++ written₂) (pieces₁ ++ pieces₂) (meant₁ ++ meant₂) where
  scan done rest := by
    rw [List.append_assoc, h₁.scan, h₂.scan, List.reverse_append, List.append_assoc]
  read done rest := by
    rw [List.append_assoc, h₁.read, h₂.read, List.reverse_append, List.append_assoc]

/-! ## Single bytes -/

/-- A byte that stands for itself. -/
theorem spells_byte {b : UInt8} (hquote : b ≠ 34) (hcontrol : ¬ b < 32) (hescape : b ≠ 92) :
    Spells [b] [.byte b] [b] where
  scan done rest := by
    rw [List.singleton_append, scanPieces.eq_def]
    simp only [if_neg hquote, if_neg hcontrol, if_neg hescape]
    rfl
  read done rest := by
    rw [List.singleton_append, piecesBytes]
    rfl

/-- A backslash and the letter of a byte. -/
theorem spells_shortEscape {e b : UInt8} (h : shortEscape? e = some b) :
    Spells [92, e] [.byte b] [b] where
  scan done rest := by
    rw [List.cons_append, List.singleton_append, scanPieces.eq_def]
    simp only [h]
    rfl
  read done rest := by
    rw [List.singleton_append, piecesBytes]
    rfl

/-- A backslash, the letter u and four digits. -/
theorem spells_unit {a b c d : UInt8} {n : Nat} (h : unit? a b c d = some n) (hn : n < 0xD800) :
    Spells [92, 117, a, b, c, d] [.unit n] (String.utf8EncodeChar (Char.ofNat n)) where
  scan done rest := by
    simp only [List.cons_append, List.nil_append]
    rw [scanPieces.eq_def]
    simp only [h]
    rfl
  read done rest := by
    have hhigh : isHighSurrogate n = false := by simp [isHighSurrogate]; omega
    have hlow : isLowSurrogate n = false := by simp [isLowSurrogate]; omega
    rw [List.singleton_append, piecesBytes.eq_def]
    simp [hhigh, hlow, reversedUtf8]

theorem spells_bytes {bs : Bytes} (h : ∀ b ∈ bs, b ≠ 34 ∧ ¬ b < 32 ∧ b ≠ 92) :
    Spells bs (bs.map .byte) bs := by
  induction bs with
  | nil => exact .nil
  | cons b bs ih =>
    obtain ⟨hquote, hcontrol, hescape⟩ := h b List.mem_cons_self
    exact (spells_byte hquote hcontrol hescape).append
      (ih fun c hc => h c (List.mem_cons_of_mem _ hc))

/-! ## Characters -/

/-- The digit of base sixteen, as a byte. -/
def hexByte (n : Nat) : UInt8 := UInt8.ofNat (Nat.digitChar n).toNat

theorem ofChars_controlEscape : ∀ n < 32,
    Bytes.ofChars (controlEscape (Char.ofNat n)) =
        [92, 117, 48, 48, hexByte (n / 16), hexByte (n % 16)] ∧
      unit? 48 48 (hexByte (n / 16)) (hexByte (n % 16)) = some n := by
  decide

theorem spells_controlEscape {c : Char} (h : c.toNat < 32) :
    Spells (Bytes.ofChars (controlEscape c)) [.unit c.toNat] (String.utf8EncodeChar c) := by
  obtain ⟨hbytes, hunit⟩ := ofChars_controlEscape c.toNat h
  rw [Char.ofNat_toNat] at hbytes
  have hspells := spells_unit hunit (by omega)
  rw [Char.ofNat_toNat] at hspells
  rw [hbytes]
  exact hspells

/-- A character that needs no escape stands for itself. -/
theorem spells_char {c : Char} (hquote : c ≠ '"') (hescape : c ≠ '\\') (hcontrol : ¬ c.toNat < 32) :
    Spells (Bytes.ofChars [c]) ((String.utf8EncodeChar c).map .byte) (String.utf8EncodeChar c) := by
  have hself : Bytes.ofChars [c] = String.utf8EncodeChar c := by simp [Bytes.ofChars]
  rw [hself]
  refine spells_bytes fun b hb => ?_
  by_cases hc : c.toNat < 128
  · rw [Bytes.utf8EncodeChar_of_lt hc, List.mem_singleton] at hb
    have hn : b.toNat = c.toNat := by rw [hb, UInt8.toNat_ofNat', Nat.mod_eq_of_lt (by omega)]
    have hchar : ∀ d : Char, b = UInt8.ofNat d.toNat → d.toNat < 128 → c = d := by
      intro d hd hlt
      have hdn : b.toNat = d.toNat := by rw [hd, UInt8.toNat_ofNat', Nat.mod_eq_of_lt (by omega)]
      rw [← Char.ofNat_toNat c, ← hn, hdn, Char.ofNat_toNat]
    refine ⟨fun h => hquote (hchar _ h (by decide)), fun h => hcontrol ?_,
      fun h => hescape (hchar _ h (by decide))⟩
    rw [← hn]
    exact UInt8.lt_iff_toNat_lt.1 h
  · have hb := Bytes.le_of_mem_utf8EncodeChar (Nat.le_of_not_lt hc) b hb
    refine ⟨?_, fun h => ?_, ?_⟩
    · rintro rfl
      exact absurd hb (by decide)
    · have := UInt8.lt_iff_toNat_lt.1 h
      exact absurd (Nat.lt_of_le_of_lt hb this) (by decide)
    · rintro rfl
      exact absurd hb (by decide)

/-- **The written form of a character stands for the character.** -/
theorem spells_writeChar (c : Char) :
    ∃ pieces, Spells (Bytes.ofChars (writeChar c)) pieces (String.utf8EncodeChar c) := by
  unfold writeChar
  split_ifs with hquote hescape hbackspace hfeed hline hreturn htab hcontrol
  · subst hquote; exact ⟨_, spells_shortEscape (e := 34) rfl⟩
  · subst hescape; exact ⟨_, spells_shortEscape (e := 92) rfl⟩
  · subst hbackspace; exact ⟨_, spells_shortEscape (e := 98) rfl⟩
  · subst hfeed; exact ⟨_, spells_shortEscape (e := 102) rfl⟩
  · subst hline; exact ⟨_, spells_shortEscape (e := 110) rfl⟩
  · subst hreturn; exact ⟨_, spells_shortEscape (e := 114) rfl⟩
  · subst htab; exact ⟨_, spells_shortEscape (e := 116) rfl⟩
  · exact ⟨_, spells_controlEscape hcontrol⟩
  · exact ⟨_, spells_char hquote hescape hcontrol⟩

/-! ## Texts -/

theorem spells_writeChars (cs : List Char) :
    ∃ pieces, Spells (Bytes.ofChars (cs.flatMap writeChar)) pieces (Bytes.ofChars cs) := by
  induction cs with
  | nil => exact ⟨[], .nil⟩
  | cons c cs ih =>
    obtain ⟨first, hfirst⟩ := spells_writeChar c
    obtain ⟨others, hothers⟩ := ih
    rw [List.flatMap_cons, Bytes.ofChars_append, Bytes.ofChars_cons]
    exact ⟨first ++ others, hfirst.append hothers⟩

theorem writeText_eq (s : String) (rest : Bytes) : Bytes.ofChars (writeText s) ++ rest =
    34 :: (Bytes.ofChars (s.toList.flatMap writeChar) ++ 34 :: rest) := by
  rw [writeText, List.cons_append, Bytes.ofChars_cons_of_lt (by decide), Bytes.ofChars_append,
    Bytes.ofChars_cons_of_lt (by decide), Bytes.ofChars_nil, List.cons_append, List.append_assoc]
  rfl

/-- **The token of a written text carries the text.** -/
theorem next?_writeText (s : String) (rest : Bytes) :
    Token.next? 34 (Bytes.ofChars (s.toList.flatMap writeChar) ++ 34 :: rest) =
      some (.text (some s), rest) := by
  obtain ⟨pieces, hspells⟩ := spells_writeChars s.toList
  have hscan : scanPieces [] (Bytes.ofChars (s.toList.flatMap writeChar) ++ 34 :: rest) =
      some (pieces, rest) := by
    rw [hspells.scan, List.append_nil, scanPieces.eq_def]
    simp
  have hread : piecesText? pieces = some s := by
    have hbytes := hspells.read [] []
    rw [List.append_nil, List.append_nil] at hbytes
    rw [piecesText?, hbytes, piecesBytes, List.reverse_reverse, Option.bind_some,
      Bytes.ofChars, ← Bytes.ofText_eq, Bytes.text?_ofText]
  rw [Token.next?]
  simp only [show punctuation? 34 = none from rfl, hscan, Option.map_some, hread]
  rfl

end Json

end FormIntake
