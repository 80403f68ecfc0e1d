/-
  FormIntake — the UTF-8 bytes of a text.

  `Bytes.ofText` and `Bytes.text?` undo each other, and a byte below 128 in the
  bytes of a text stands for a character of the text.
-/
import FormIntake.Bytes
import Mathlib.Data.List.Basic

namespace FormIntake.Bytes

theorem ofText_eq (s : String) : ofText s = s.toList.flatMap String.utf8EncodeChar := by
  rw [ofText, String.toUTF8_eq_toByteArray, ← String.utf8Encode_toList]
  simp [List.utf8Encode]

theorem ofText_append (s t : String) : ofText (s ++ t) = ofText s ++ ofText t := by
  simp [ofText]

/-- The bytes of a text spell it. -/
theorem text?_ofText (s : String) : text? (ofText s) = some s := by
  have h : (⟨(ofText s).toArray⟩ : ByteArray) = s.toByteArray := by simp [ofText]
  simp only [text?, h, String.fromUTF8?, s.isValidUTF8, dif_pos]
  rfl

/-- A character from 128 on is spelt by bytes from 128 on. -/
theorem le_of_mem_utf8EncodeChar {c : Char} (hc : 128 ≤ c.toNat) :
    ∀ b ∈ String.utf8EncodeChar c, 128 ≤ b.toNat := by
  intro b hb
  have hlt : c.toNat < 0x110000 := by
    rcases c.valid with h | h
    · exact Nat.lt_trans h (by decide)
    · exact h.2
  have high : ∀ n, 128 ≤ n → n < 256 → 128 ≤ (UInt8.ofNat n).toNat := by
    intro n h1 h2
    rw [UInt8.toNat_ofNat', Nat.mod_eq_of_lt h2]; exact h1
  unfold String.utf8EncodeChar at hb
  rw [show c.val.toNat = c.toNat from rfl, if_neg (by omega)] at hb
  -- one byte is ruled out: two, three or four are left
  split at hb
  · simp only [List.mem_cons, List.not_mem_nil, or_false] at hb
    rcases hb with rfl | rfl <;> exact high _ (by omega) (by omega)
  · split at hb
    · simp only [List.mem_cons, List.not_mem_nil, or_false] at hb
      rcases hb with rfl | rfl | rfl <;> exact high _ (by omega) (by omega)
    · simp only [List.mem_cons, List.not_mem_nil, or_false] at hb
      rcases hb with rfl | rfl | rfl | rfl <;> exact high _ (by omega) (by omega)

theorem utf8EncodeChar_of_lt {c : Char} (hc : c.toNat < 128) :
    String.utf8EncodeChar c = [UInt8.ofNat c.toNat] := by
  unfold String.utf8EncodeChar
  rw [show c.val.toNat = c.toNat from rfl, if_pos (by omega)]

/-- A byte below 128 stands for the character of its number. -/
theorem mem_toList_of_mem_ofText {s : String} {b : UInt8} (hb : b.toNat < 128)
    (h : b ∈ ofText s) : Char.ofNat b.toNat ∈ s.toList := by
  rw [ofText_eq, List.mem_flatMap] at h
  obtain ⟨c, hc, hbc⟩ := h
  have hlow : c.toNat < 128 := by
    refine Nat.lt_of_not_le fun hge => ?_
    have := le_of_mem_utf8EncodeChar hge b hbc
    omega
  rw [utf8EncodeChar_of_lt hlow, List.mem_singleton] at hbc
  have hn : b.toNat = c.toNat := by rw [hbc, UInt8.toNat_ofNat', Nat.mod_eq_of_lt (by omega)]
  rw [hn, Char.ofNat_toNat]
  exact hc

theorem cr_notMem_ofText {s : String} (h : '\r' ∉ s.toList) : cr ∉ ofText s :=
  fun hm => h (mem_toList_of_mem_ofText (by decide) hm)

theorem lf_notMem_ofText {s : String} (h : '\n' ∉ s.toList) : lf ∉ ofText s :=
  fun hm => h (mem_toList_of_mem_ofText (by decide) hm)

/-- Each character below 128 takes one byte. -/
theorem utf8ByteSize_of_ascii {s : String} (h : ∀ c ∈ s.toList, c.toNat < 128) :
    s.utf8ByteSize = s.toList.length := by
  have hbytes : ofText s = s.toList.map fun c => UInt8.ofNat c.toNat := by
    rw [ofText_eq, List.map_eq_flatMap]
    exact List.flatMap_congr fun c hc => utf8EncodeChar_of_lt (h c hc)
  have hlength := congrArg List.length hbytes
  rw [List.length_map] at hlength
  rw [← hlength]
  simp [ofText]

end FormIntake.Bytes
