/-
The bytes of a string read as the characters of the string.
-/
import AppExport.Text.Glyph
import Mathlib

namespace AppExport.Text

/-! ## Bytes of a string -/

theorem byteArray_toList_loop (bytes : ByteArray) (i : Nat) (acc : List UInt8) :
    ByteArray.toList.loop bytes i acc = acc.reverse ++ bytes.data.toList.drop i := by
  fun_induction ByteArray.toList.loop bytes i acc with
  | case1 i acc h ih =>
    have hi : i < bytes.data.toList.length := by simpa using h
    rw [ih, List.drop_eq_getElem_cons hi]
    simp [ByteArray.get!, h]
  | case2 i acc h =>
    rw [List.drop_eq_nil_of_le (by simpa using Nat.le_of_not_lt h)]
    simp

theorem toList_toUTF8 (s : String) : s.toUTF8.toList = s.toList.flatMap String.utf8EncodeChar := by
  have hbytes : s.toUTF8 = s.toList.utf8Encode := by
    rw [String.toUTF8_eq_toByteArray, ← String.toByteArray_ofList, String.ofList_toList]
  rw [hbytes, ByteArray.toList, byteArray_toList_loop]
  simp [List.utf8Encode]

/-! ## Characters -/

theorem tailBits?_ofNat (n : Nat) : tailBits? (UInt8.ofNat (n % 64 + 128)) = some (n % 64) := by
  have hlt : n % 64 + 128 < 256 := by omega
  have hbyte := UInt8.toNat_ofNat_of_lt' hlt
  simp only [tailBits?, UInt8.le_iff_toNat_le, hbyte]
  rw [if_pos ⟨by simp, by simp; omega⟩]
  simp

theorem charFrom?_eq {c : Char} {least code : Nat} (hcode : code = c.toNat) (h : least ≤ code) :
    charFrom? least code = some c := by
  subst hcode
  rw [charFrom?, dif_pos ⟨h, c.valid⟩]
  rfl

/-- Whether a lead byte is in a range, by its number. -/
theorem lead_range {n : Nat} (h : n < 256) (low high : UInt8) :
    (low ≤ UInt8.ofNat n ∧ UInt8.ofNat n < high) ↔ low.toNat ≤ n ∧ n < high.toNat := by
  rw [UInt8.le_iff_toNat_le, UInt8.lt_iff_toNat_lt, UInt8.toNat_ofNat_of_lt' h]

/-- The bits of a lead byte. -/
theorem lead_bits {n base : Nat} (h : n + base < 256) :
    (UInt8.ofNat (n + base)).toNat - base = n := by
  rw [UInt8.toNat_ofNat_of_lt' h, Nat.add_sub_cancel]

theorem not_ascii {n : Nat} (h : n < 256) (hlow : 128 ≤ n) : ¬UInt8.ofNat n < 0x80 := by
  rw [UInt8.lt_iff_toNat_lt, UInt8.toNat_ofNat_of_lt' h]
  simpa using hlow

section Encoded

variable {c : Char} (rest : List UInt8)

theorem firstChar?_one (h : c.toNat ≤ 127) :
    firstChar? (UInt8.ofNat c.toNat :: rest) = some (c, 1) := by
  have hlt : c.toNat < 256 := by omega
  have hlead := UInt8.toNat_ofNat_of_lt' hlt
  have hascii : UInt8.ofNat c.toNat < 0x80 := by
    rw [UInt8.lt_iff_toNat_lt, hlead]
    simp
    omega
  have hchar : charFrom? 0 c.toNat = some c := charFrom?_eq rfl (Nat.zero_le _)
  rw [firstChar?.eq_def]
  dsimp only
  rw [if_pos hascii, hlead, hchar]
  rfl

theorem firstChar?_two (hlow : 127 < c.toNat) (hhigh : c.toNat ≤ 2047) :
    firstChar? (UInt8.ofNat (c.toNat / 64 % 32 + 192) :: UInt8.ofNat (c.toNat % 64 + 128) :: rest) =
      some (c, 2) := by
  have hbyte : c.toNat / 64 % 32 + 192 < 256 := by omega
  have hlead := lead_bits hbyte
  have hrange := (lead_range hbyte 0xC0 0xE0).2 (by simp; omega)
  have hchar : charFrom? 0x80 (c.toNat / 64 % 32 * 0x40 + c.toNat % 64) = some c :=
    charFrom?_eq (by omega) (by omega)
  rw [firstChar?.eq_def]
  dsimp only
  rw [if_neg (not_ascii hbyte (by omega)), if_pos hrange, hlead]
  simp only [tailBits?_ofNat, Option.bind_eq_bind, Option.bind_some, hchar]
  rfl

theorem firstChar?_three (hlow : 2047 < c.toNat) (hhigh : c.toNat ≤ 65535) :
    firstChar? (UInt8.ofNat (c.toNat / 4096 % 16 + 224) :: UInt8.ofNat (c.toNat / 64 % 64 + 128) ::
      UInt8.ofNat (c.toNat % 64 + 128) :: rest) = some (c, 3) := by
  have hbyte : c.toNat / 4096 % 16 + 224 < 256 := by omega
  have hlead := lead_bits hbyte
  have htwo := mt (lead_range hbyte 0xC0 0xE0).1 (by simp)
  have hrange := (lead_range hbyte 0xE0 0xF0).2 (by simp; omega)
  have hchar : charFrom? 0x800 (c.toNat / 4096 % 16 * 0x1000 +
      c.toNat / 64 % 64 * 0x40 + c.toNat % 64) = some c := charFrom?_eq (by omega) (by omega)
  rw [firstChar?.eq_def]
  dsimp only
  rw [if_neg (not_ascii hbyte (by omega)), if_neg htwo, if_pos hrange, hlead]
  simp only [tailBits?_ofNat, Option.bind_eq_bind, Option.bind_some, hchar]
  rfl

/-- The character of four bytes. What the first two say is abstract, as large factors of numerals are
slow to compare. -/
theorem charFrom?_tails {b d e : UInt8} {x y z : Nat} (hb : tailBits? b = some x)
    (hd : tailBits? d = some y) (he : tailBits? e = some z) (high : Nat → Nat)
    (hchar : charFrom? 0x10000 (high x + y * 0x40 + z) = some c) :
    (do
      let high := high (← tailBits? b)
      let c ← charFrom? 0x10000 (high + (← tailBits? d) * 0x40 + (← tailBits? e))
      return (c, 4)) = some (c, 4) := by
  simp only [hb, hd, he, Option.bind_eq_bind, Option.bind_some, hchar]
  rfl

theorem firstChar?_four (hlow : 65535 < c.toNat) (hhigh : c.toNat < 0x110000) :
    firstChar? (UInt8.ofNat (c.toNat / 262144 % 8 + 240) :: UInt8.ofNat (c.toNat / 4096 % 64 + 128) ::
      UInt8.ofNat (c.toNat / 64 % 64 + 128) :: UInt8.ofNat (c.toNat % 64 + 128) :: rest) =
        some (c, 4) := by
  have hbyte : c.toNat / 262144 % 8 + 240 < 256 := by omega
  have hlead := lead_bits hbyte
  have htwo := mt (lead_range hbyte 0xC0 0xE0).1 (by simp)
  have hthree := mt (lead_range hbyte 0xE0 0xF0).1 (by simp)
  have hrange := (lead_range hbyte 0xF0 0xF8).2 (by simp; omega)
  have hchar : charFrom? 0x10000 (c.toNat / 262144 % 8 * 0x40000 +
      c.toNat / 4096 % 64 * 0x1000 + c.toNat / 64 % 64 * 0x40 + c.toNat % 64) = some c :=
    charFrom?_eq (by omega) (by omega)
  rw [firstChar?.eq_def]
  dsimp only
  rw [if_neg (not_ascii hbyte (by omega)), if_neg htwo, if_neg hthree, if_pos hrange,
    hlead]
  exact charFrom?_tails (tailBits?_ofNat _) (tailBits?_ofNat _) (tailBits?_ofNat _)
    (fun x => c.toNat / 262144 % 8 * 0x40000 + x * 0x1000) hchar

end Encoded

theorem firstChar?_encode (c : Char) (rest : List UInt8) :
    firstChar? (String.utf8EncodeChar c ++ rest) = some (c, (String.utf8EncodeChar c).length) := by
  have hvalue : c.val.toNat = c.toNat := rfl
  have hmax : c.toNat < 0x110000 := Nat.lt_succ_of_le c.toNat_le_max
  simp only [String.utf8EncodeChar, hvalue]
  split
  next hone => exact firstChar?_one rest hone
  next hone =>
    split
    next htwo => exact firstChar?_two rest (by omega) htwo
    next htwo =>
      split
      next hthree => exact firstChar?_three rest (by omega) hthree
      next hthree => exact firstChar?_four rest (by omega) hmax

/-! ## Strings -/

theorem glyphsWithin_encode (cs : List Char) {count : Nat}
    (h : (cs.flatMap String.utf8EncodeChar).length ≤ count) :
    glyphsWithin count (cs.flatMap String.utf8EncodeChar) = cs.map .char := by
  induction cs generalizing count with
  | nil => cases count <;> rfl
  | cons c cs ih =>
    have hlength := String.length_utf8EncodeChar c
    have hpos := c.utf8Size_pos
    obtain ⟨a, tail, hencode⟩ := List.exists_cons_of_length_pos (hlength ▸ hpos)
    have hfirst := firstChar?_encode c (cs.flatMap String.utf8EncodeChar)
    rw [List.flatMap_cons] at h ⊢
    rw [hencode] at h hfirst ⊢
    simp only [List.cons_append, List.length_cons, List.length_append] at h hfirst ⊢
    obtain ⟨count, rfl⟩ := Nat.exists_eq_succ_of_ne_zero (n := count) (by omega)
    rw [glyphsWithin, hfirst]
    have hcount : (cs.flatMap String.utf8EncodeChar).length ≤ count := by omega
    simp only [Nat.add_sub_cancel, List.drop_left, List.map_cons, ih hcount]

theorem glyphsOfBytes_toUTF8 (s : String) : glyphsOfBytes s.toUTF8.toList = glyphsOfString s := by
  rw [glyphsOfBytes, toList_toUTF8, glyphsWithin_encode _ (Nat.le_refl _), glyphsOfString]

end AppExport.Text
