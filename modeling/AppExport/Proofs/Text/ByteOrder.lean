/-
The order of strings by their characters is that of their bytes. Of two characters the lesser one has
the lesser byte at the first place where the two differ, however many bytes they have.
-/
import AppExport.Proofs.Text.Utf8

namespace AppExport.Text

/-- Whether two byte sequences differ at a place, and the first has the lesser byte where they first do. -/
inductive Before : List UInt8 → List UInt8 → Prop
  | here {a b : UInt8} {as bs : List UInt8} (h : a < b) : Before (a :: as) (b :: bs)
  | later {a : UInt8} {as bs : List UInt8} (h : Before as bs) : Before (a :: as) (a :: bs)

/-- What follows makes no difference any more. -/
theorem Before.append_lt {as bs : List UInt8} (h : Before as bs) (as' bs' : List UInt8) :
    as ++ as' < bs ++ bs' := by
  induction h with
  | here h => exact .rel h
  | later _ ih => exact .cons ih

theorem before_ofNat {m n : Nat} {as bs : List UInt8} (hn : n < 256)
    (h : m < n ∨ m = n ∧ Before as bs) : Before (UInt8.ofNat m :: as) (UInt8.ofNat n :: bs) := by
  rcases h with hlt | ⟨rfl, hbefore⟩
  · refine .here ?_
    rw [UInt8.lt_iff_toNat_lt, UInt8.toNat_ofNat_of_lt' (Nat.lt_trans hlt hn),
      UInt8.toNat_ofNat_of_lt' hn]
    exact hlt
  · exact .later hbefore

/-! ## Characters -/

section SameLength

variable {m n : Nat}

theorem before_one (hn : n ≤ 127) (h : m < n) : Before [UInt8.ofNat m] [UInt8.ofNat n] :=
  before_ofNat (by omega) (.inl h)

theorem before_tail (h : m % 64 < n % 64) :
    Before [UInt8.ofNat (m % 64 + 128)] [UInt8.ofNat (n % 64 + 128)] :=
  before_ofNat (by omega) (.inl (by omega))

theorem before_two (hn : n ≤ 2047) (h : m < n) :
    Before [UInt8.ofNat (m / 64 % 32 + 192), UInt8.ofNat (m % 64 + 128)]
      [UInt8.ofNat (n / 64 % 32 + 192), UInt8.ofNat (n % 64 + 128)] := by
  refine before_ofNat (by omega) ?_
  rcases Nat.lt_or_ge (m / 64) (n / 64) with hlead | hlead
  · exact .inl (by omega)
  · exact .inr ⟨by omega, before_tail (by omega)⟩

theorem before_tails (h : m % 4096 < n % 4096) :
    Before [UInt8.ofNat (m / 64 % 64 + 128), UInt8.ofNat (m % 64 + 128)]
      [UInt8.ofNat (n / 64 % 64 + 128), UInt8.ofNat (n % 64 + 128)] := by
  refine before_ofNat (by omega) ?_
  rcases Nat.lt_or_ge (m / 64 % 64) (n / 64 % 64) with hlead | hlead
  · exact .inl (by omega)
  · exact .inr ⟨by omega, before_tail (by omega)⟩

theorem before_three (hn : n ≤ 65535) (h : m < n) :
    Before [UInt8.ofNat (m / 4096 % 16 + 224), UInt8.ofNat (m / 64 % 64 + 128),
        UInt8.ofNat (m % 64 + 128)]
      [UInt8.ofNat (n / 4096 % 16 + 224), UInt8.ofNat (n / 64 % 64 + 128),
        UInt8.ofNat (n % 64 + 128)] := by
  refine before_ofNat (by omega) ?_
  rcases Nat.lt_or_ge (m / 4096) (n / 4096) with hlead | hlead
  · exact .inl (by omega)
  · exact .inr ⟨by omega, before_tails (by omega)⟩

theorem before_four (hn : n < 0x110000) (h : m < n) :
    Before [UInt8.ofNat (m / 262144 % 8 + 240), UInt8.ofNat (m / 4096 % 64 + 128),
        UInt8.ofNat (m / 64 % 64 + 128), UInt8.ofNat (m % 64 + 128)]
      [UInt8.ofNat (n / 262144 % 8 + 240), UInt8.ofNat (n / 4096 % 64 + 128),
        UInt8.ofNat (n / 64 % 64 + 128), UInt8.ofNat (n % 64 + 128)] := by
  refine before_ofNat (by omega) ?_
  rcases Nat.lt_or_ge (m / 262144) (n / 262144) with hlead | hlead
  · exact .inl (by omega)
  · refine .inr ⟨by omega, before_ofNat (by omega) ?_⟩
    rcases Nat.lt_or_ge (m / 4096) (n / 4096) with hsecond | hsecond
    · exact .inl (by omega)
    · exact .inr ⟨by omega, before_tails (by omega)⟩

end SameLength

/-- A character of fewer bytes has the lesser lead byte. -/
theorem before_encode {c d : Char} (h : c < d) :
    Before (String.utf8EncodeChar c) (String.utf8EncodeChar d) := by
  have hlt : c.toNat < d.toNat := h
  have hmax : d.toNat < 0x110000 := Nat.lt_succ_of_le d.toNat_le_max
  have hc : c.val.toNat = c.toNat := rfl
  have hd : d.val.toNat = d.toNat := rfl
  simp only [String.utf8EncodeChar, hc, hd]
  generalize c.toNat = m at *
  generalize d.toNat = n at *
  by_cases hone : n ≤ 127
  · rw [if_pos hone, if_pos (by omega)]
    exact before_one hone hlt
  rw [if_neg hone]
  by_cases htwo : n ≤ 2047
  · rw [if_pos htwo]
    split
    · exact before_ofNat (by omega) (.inl (by omega))
    · rw [if_pos (by omega)]
      exact before_two htwo hlt
  rw [if_neg htwo]
  by_cases hthree : n ≤ 65535
  · rw [if_pos hthree]
    split
    · exact before_ofNat (by omega) (.inl (by omega))
    · split
      · exact before_ofNat (by omega) (.inl (by omega))
      · rw [if_pos (by omega)]
        exact before_three hthree hlt
  rw [if_neg hthree]
  split
  · exact before_ofNat (by omega) (.inl (by omega))
  · split
    · exact before_ofNat (by omega) (.inl (by omega))
    · split
      · exact before_ofNat (by omega) (.inl (by omega))
      · exact before_four hmax hlt

/-! ## Strings -/

theorem flatMap_encode_lt {cs ds : List Char} (h : cs < ds) :
    cs.flatMap String.utf8EncodeChar < ds.flatMap String.utf8EncodeChar := by
  induction h with
  | @nil d ds =>
    obtain ⟨a, tail, hencode⟩ := List.exists_cons_of_length_pos
      (String.length_utf8EncodeChar d ▸ d.utf8Size_pos)
    rw [List.flatMap_nil, List.flatMap_cons, hencode]
    exact .nil
  | rel h => exact (before_encode h).append_lt _ _
  | @cons c cs ds h ih => exact List.append_left_lt ih

/-- The lesser of two strings has the lesser bytes. -/
theorem toUTF8_lt_of_lt {s t : String} (h : s < t) : s.toUTF8.toList < t.toUTF8.toList := by
  rw [toList_toUTF8, toList_toUTF8]
  exact flatMap_encode_lt h

end AppExport.Text
