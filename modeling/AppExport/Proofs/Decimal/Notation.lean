/-
The characters that numbers are written with: digits, signs, the point and the letter of an
exponent. None of them means anything in the texts that numbers stand in.
-/
import AppExport.Decimal.Notation
import Mathlib.Data.Bool.AllAny
import Mathlib.Data.List.Basic

namespace AppExport.Decimal

/-- Whether a character occurs in numbers. -/
def isNumeral (c : Char) : Bool := isDigit c || c == '-' || c == '+' || c == '.' || c == 'e'

theorem isNumeral_of_isDigit {c : Char} (h : isDigit c) : isNumeral c := by simp [isNumeral, h]

theorem isDigit_of_mem_digitChars {n : Nat} {c : Char} (h : c ∈ digitChars n) : isDigit c := by
  have hd := Nat.isDigit_of_mem_toDigits (by decide) (by decide) h
  simpa [Char.isDigit, isDigit, Char.le_def] using hd

theorem digitChars_ne_nil (n : Nat) : digitChars n ≠ [] := Nat.toDigits_ne_nil

theorem isNumeral_of_mem_digitChars {n : Nat} {c : Char} (h : c ∈ digitChars n) : isNumeral c :=
  isNumeral_of_isDigit (isDigit_of_mem_digitChars h)

theorem isNumeral_of_mem_intChars {i : Int} {c : Char} (h : c ∈ intChars i) : isNumeral c := by
  unfold intChars at h
  split at h
  · rcases List.mem_cons.1 h with rfl | h
    · rfl
    · exact isNumeral_of_mem_digitChars h
  · exact isNumeral_of_mem_digitChars h

theorem isNumeral_of_mem_zeros {n : Nat} {c : Char} (h : c ∈ List.replicate n '0') :
    isNumeral c := by
  rw [List.eq_of_mem_replicate h]; rfl

theorem isNumeral_of_mem_positional {n : Nat} {leading : Int} {c : Char}
    (h : c ∈ positional (digitChars n) leading) : isNumeral c := by
  unfold positional at h
  dsimp only at h
  split at h
  · simp only [List.cons_append, List.mem_cons, List.mem_append] at h
    rcases h with rfl | rfl | h | h
    · rfl
    · rfl
    · exact isNumeral_of_mem_zeros h
    · exact isNumeral_of_mem_digitChars h
  · split at h
    · simp only [List.mem_append, List.mem_cons, List.not_mem_nil, or_false] at h
      rcases h with (h | h) | rfl | rfl
      · exact isNumeral_of_mem_digitChars h
      · exact isNumeral_of_mem_zeros h
      · rfl
      · rfl
    · simp only [List.mem_append, List.mem_cons] at h
      rcases h with h | rfl | h
      · exact isNumeral_of_mem_digitChars (List.mem_of_mem_take h)
      · rfl
      · exact isNumeral_of_mem_digitChars (List.mem_of_mem_drop h)

/-- The digits of a mantissa, a point behind the first of several. -/
theorem mem_scientific {digits : List Char} {leading : Int} {c : Char}
    (h : c ∈ scientific digits leading) :
    c ∈ digits ∨ c ∈ ['.', 'e', '-', '+'] ∨ c ∈ digitChars leading.natAbs := by
  unfold scientific at h
  dsimp only at h
  simp only [List.mem_append, List.mem_cons] at h
  rcases h with h | rfl | rfl | h
  · split at h
    · simp at h
    · exact .inl h
    · simp only [List.mem_cons] at h
      rcases h with rfl | rfl | h
      · simp
      · simp
      · exact .inl (by simp [h])
  · simp
  · split <;> simp
  · exact .inr (.inr h)

theorem isNumeral_of_mem_scientific {n : Nat} {leading : Int} {c : Char}
    (h : c ∈ scientific (digitChars n) leading) : isNumeral c := by
  rcases mem_scientific h with h | h | h
  · exact isNumeral_of_mem_digitChars h
  · have hall : ∀ c ∈ ['.', 'e', '-', '+'], isNumeral c = true :=
      List.all_eq_true.1 (by decide)
    exact hall c h
  · exact isNumeral_of_mem_digitChars h

theorem Binary64.isNumeral_of_mem_chars {x : Binary64} {c : Char} (h : c ∈ x.chars) :
    isNumeral c := by
  have hmagnitude : ∀ {m : List Char}, (∀ d ∈ m, isNumeral d = true) →
      c ∈ (if x.negative then '-' :: m else m) → isNumeral c := by
    intro m hm hc
    split at hc
    · rcases List.mem_cons.1 hc with rfl | hc
      · rfl
      · exact hm c hc
    · exact hm c hc
  refine hmagnitude (fun d hd => ?_) h
  split at hd
  · have hall : ∀ c ∈ ['0', '.', '0'], isNumeral c = true :=
      List.all_eq_true.1 (by decide)
    exact hall d hd
  · split at hd
    · exact isNumeral_of_mem_positional hd
    · exact isNumeral_of_mem_scientific hd

end AppExport.Decimal
