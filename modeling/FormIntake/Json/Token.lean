/-
  FormIntake — the tokens of a JSON document.

  `Token.scan` cuts a document into tokens.  A text or number token carries its
  value, or none where the token is well formed and yet has no value: a text
  with an unpaired surrogate or with bytes that are not UTF-8, a number out of
  range.
-/
import FormIntake.Json.Numeral
import FormIntake.Text.Numeral

namespace FormIntake.Json

/-- A token of a document. -/
inductive Token where
  | openArray
  | closeArray
  | openObject
  | closeObject
  | comma
  | colon
  | null
  | bool (b : Bool)
  | number (n : Option Number)
  | text (s : Option String)
  deriving DecidableEq, Repr

/-! ## Texts -/

/-- A piece of a text as it is written. -/
inductive Piece where
  /-- A byte that stands for itself, or the byte that a short escape stands for. -/
  | byte (b : UInt8)
  /-- A unit of sixteen bits, written as an escape with four digits. -/
  | unit (n : Nat)
  deriving DecidableEq, Repr

/-- The byte that a short escape stands for. -/
def shortEscape? (b : UInt8) : Option UInt8 :=
  if b = 34 then some 34        -- quote
  else if b = 92 then some 92   -- backslash
  else if b = 47 then some 47   -- slash
  else if b = 98 then some 8    -- backspace
  else if b = 102 then some 12  -- form feed
  else if b = 110 then some 10  -- line feed
  else if b = 114 then some 13  -- carriage return
  else if b = 116 then some 9   -- tab
  else none

/-- The unit that four digits of base sixteen stand for. -/
def unit? (a b c d : UInt8) : Option Nat := do
  let a ← Text.hexValue? (Char.ofNat a.toNat)
  let b ← Text.hexValue? (Char.ofNat b.toNat)
  let c ← Text.hexValue? (Char.ofNat c.toNat)
  let d ← Text.hexValue? (Char.ofNat d.toNat)
  some (((a * 16 + b) * 16 + c) * 16 + d)

/-- The pieces up to the closing quote, and the bytes after it; `done` are the
    pieces before, the last one first.  Controls must be escaped. -/
def scanPieces (done : List Piece) : Bytes → Option (List Piece × Bytes)
  | [] => none
  | b :: rest =>
    if b = 34 then some (done.reverse, rest)
    else if b < 32 then none
    else if b = 92 then
      match rest with
      | [] => none
      | e :: rest =>
        match shortEscape? e with
        | some c => scanPieces (.byte c :: done) rest
        | none =>
          if e = 117 then
            match rest with
            | h₁ :: h₂ :: h₃ :: h₄ :: rest =>
              match unit? h₁ h₂ h₃ h₄ with
              | some n => scanPieces (.unit n :: done) rest
              | none => none
            | _ => none
          else none
    else scanPieces (.byte b :: done) rest

/-- The first unit of a pair. -/
def isHighSurrogate (n : Nat) : Bool := 0xD800 ≤ n && n ≤ 0xDBFF

/-- The second unit of a pair. -/
def isLowSurrogate (n : Nat) : Bool := 0xDC00 ≤ n && n ≤ 0xDFFF

/-- The code point of a pair of units. -/
def pairCodePoint (high low : Nat) : Nat := 0x10000 + (high - 0xD800) * 0x400 + (low - 0xDC00)

/-- The UTF-8 bytes of a code point, the last one first. -/
def reversedUtf8 (n : Nat) : Bytes := (String.utf8EncodeChar (Char.ofNat n)).reverse

/-- The bytes that pieces stand for; `done` are the bytes before, the last one
    first.  Surrogates must come in pairs. -/
def piecesBytes (done : Bytes) : List Piece → Option Bytes
  | [] => some done.reverse
  | .byte b :: rest => piecesBytes (b :: done) rest
  | .unit n :: rest =>
    if isHighSurrogate n then
      match rest with
      | .unit low :: rest =>
        if isLowSurrogate low then piecesBytes (reversedUtf8 (pairCodePoint n low) ++ done) rest
        else none
      | _ => none
    else if isLowSurrogate n then none
    else piecesBytes (reversedUtf8 n ++ done) rest

/-- The text that pieces stand for, if they stand for one. -/
def piecesText? (pieces : List Piece) : Option String :=
  (piecesBytes [] pieces).bind Bytes.text?

theorem length_scanPieces {done pieces : List Piece} {b rest : Bytes}
    (h : scanPieces done b = some (pieces, rest)) : rest.length < b.length := by
  fun_induction scanPieces done b with
  | case1 => simp at h
  | case2 =>
    obtain ⟨-, rfl⟩ := Prod.mk.inj (Option.some.inj h)
    simp
  | case3 => simp at h
  | case4 => simp at h
  | case5 =>
    rename_i ih
    have := ih h
    simp at this ⊢; omega
  | case6 =>
    rename_i ih
    have := ih h
    simp at this ⊢; omega
  | case7 => simp at h
  | case8 => simp at h
  | case9 => simp at h
  | case10 =>
    rename_i ih
    have := ih h
    simp at this ⊢; omega

/-! ## Tokens -/

/-- Space, tab, line feed and carriage return. -/
def isBlankByte (b : UInt8) : Bool := b == 32 || b == 9 || b == 10 || b == 13

/-- A byte that a numeral may hold. -/
def isNumeralByte (b : UInt8) : Bool :=
  Numeral.isDigit b || b == 43 || b == 45 || b == 46 || b == 69 || b == 101

/-- The punctuation that a byte is. -/
def punctuation? (b : UInt8) : Option Token :=
  if b = 91 then some .openArray
  else if b = 93 then some .closeArray
  else if b = 123 then some .openObject
  else if b = 125 then some .closeObject
  else if b = 44 then some .comma
  else if b = 58 then some .colon
  else none

/-- The literals and the tokens that they are. -/
def literals : List (Bytes × Token) :=
  [(Bytes.ofText "null", .null), (Bytes.ofText "true", .bool true),
    (Bytes.ofText "false", .bool false)]

/-- The token that starts with `b`, and the bytes of `rest` after it. -/
def Token.next? (b : UInt8) (rest : Bytes) : Option (Token × Bytes) :=
  match punctuation? b with
  | some t => some (t, rest)
  | none =>
    if b = 34 then (scanPieces [] rest).map fun p => (.text (piecesText? p.1), p.2)
    else if isNumeralByte b then
      (Numeral.read? (b :: rest.takeWhile isNumeralByte)).map fun n =>
        (.number n.number?, rest.dropWhile isNumeralByte)
    else
      (literals.find? fun l => l.1.isPrefixOf (b :: rest)).map fun l =>
        (l.2, rest.drop (l.1.length - 1))

theorem Token.length_next? {b : UInt8} {rest after : Bytes} {t : Token}
    (h : Token.next? b rest = some (t, after)) : after.length ≤ rest.length := by
  unfold Token.next? at h
  split at h
  · obtain ⟨-, rfl⟩ := Prod.mk.inj (Option.some.inj h)
    exact Nat.le_refl _
  · split at h
    · obtain ⟨⟨pieces, r⟩, hp, he⟩ := Option.map_eq_some_iff.1 h
      obtain ⟨-, rfl⟩ := Prod.mk.inj he
      exact Nat.le_of_lt (length_scanPieces hp)
    · split at h
      · obtain ⟨n, -, he⟩ := Option.map_eq_some_iff.1 h
        obtain ⟨-, rfl⟩ := Prod.mk.inj he
        exact (List.dropWhile_sublist _).length_le
      · obtain ⟨l, -, he⟩ := Option.map_eq_some_iff.1 h
        obtain ⟨-, rfl⟩ := Prod.mk.inj he
        simp

/-- Scan on; `done` are the tokens before, the last one first. -/
def Token.scanFrom (done : List Token) : Bytes → Option (List Token)
  | [] => some done.reverse
  | b :: rest =>
    if isBlankByte b then scanFrom done rest
    else
      match _h : Token.next? b rest with
      | some (t, after) => scanFrom (t :: done) after
      | none => none
termination_by b => b.length
decreasing_by
  · simp
  · have := Token.length_next? _h
    simp; omega

/-- The tokens of a document. -/
def Token.scan (b : Bytes) : Option (List Token) := Token.scanFrom [] b

end FormIntake.Json
