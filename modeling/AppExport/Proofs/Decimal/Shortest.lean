/-
How far the shortest decimal of a number can lie above it: no farther than the middle of the gap to
the next number. A decimal that reads back does so by definition, moving zeros into the exponent
does not change what it stands for, and the exact value that is the last resort is not above the
number at all. So the digits, cut off anywhere, stay below the limit of rounding unless the number
is one of the last two.
-/
import AppExport.Decimal.Shortest
import AppExport.Proofs.Decimal.Rounding

namespace AppExport.Decimal

/-- Whether digits stand for something, and for no more than the middle of the gap above a number. -/
structure Shortest.Below (x : Binary64) (s : Shortest) : Prop where
  pos : 0 < s.digits
  le : s.digits * (Binary64.gridRatio s.exponent).2 ≤
    (4 * x.scaled + x.upperQuarters) * (Binary64.gridRatio s.exponent).1

namespace Binary64

variable {x : Binary64}

theorem gridRatio_of_nonneg {exponent : Int} (h : 0 ≤ exponent) :
    gridRatio exponent = (1, 4 * one * 10 ^ exponent.toNat) := by
  have hzero : (-exponent).toNat = 0 := by omega
  rw [gridRatio, hzero, Nat.pow_eq, Nat.pow_eq, Nat.pow_zero]

theorem gridRatio_of_nonpos {exponent : Int} (h : exponent ≤ 0) :
    gridRatio exponent = (10 ^ (-exponent).toNat, 4 * one) := by
  have hzero : exponent.toNat = 0 := by omega
  rw [gridRatio, hzero, Nat.pow_eq, Nat.pow_eq, Nat.pow_zero, Nat.mul_one]

theorem gridRatio_pos (exponent : Int) : 0 < (gridRatio exponent).1 :=
  Nat.pow_pos (by decide)

theorem exists_scaled (x : Binary64) : ∃ d r, x.position = block * d + r ∧
    (d = 0 ∨ block ≤ r) ∧ r < 2 * block ∧ x.scaled = r * 2 ^ d ∧ x.upperQuarters = 2 * 2 ^ d ∧
    x.lowerQuarters ≤ 2 * 2 ^ d := by
  obtain ⟨d, r, hposition, hlow, hhigh, hdoublings, hunits⟩ := exists_units x.position
  refine ⟨d, r, hposition, hlow, hhigh, ?_, ?_, ?_⟩
  · rw [scaled, hdoublings, hunits, Nat.shiftLeft_eq]
  · rw [upperQuarters, hdoublings, Nat.shiftLeft_eq]
  · rw [lowerQuarters, hdoublings, Nat.shiftLeft_eq]
    split <;> omega

/-- The gap below a number that is not zero does not reach down to zero. -/
theorem lowerQuarters_lt (h : x.isZero = false) : x.lowerQuarters < 4 * x.scaled := by
  obtain ⟨d, r, hposition, hlow, -, hscaled, -, hlower⟩ := exists_scaled x
  have hne : x.position ≠ 0 := by simpa [isZero] using h
  have hpos : 0 < r := by
    have hblock := block_pos
    rcases hlow with rfl | hlow <;> omega
  have hunit : 2 ^ d ≤ r * 2 ^ d := Nat.le_mul_of_pos_left _ hpos
  have hpow := Nat.two_pow_pos d
  rw [hscaled]
  omega

theorem below_of_readsBack (hzero : x.isZero = false) {digits : Nat} {exponent : Int}
    (h : x.readsBack digits exponent = true) : Shortest.Below x ⟨digits, exponent⟩ := by
  have hlow := Nat.mul_pos (Nat.sub_pos_of_lt (lowerQuarters_lt hzero)) (gridRatio_pos exponent)
  rw [readsBack] at h
  dsimp only at h
  have hbounds : (4 * x.scaled - x.lowerQuarters) * (gridRatio exponent).1 ≤
        digits * (gridRatio exponent).2 ∧
      digits * (gridRatio exponent).2 ≤
        (4 * x.scaled + x.upperQuarters) * (gridRatio exponent).1 := by
    split at h <;> simp only [Bool.and_eq_true, decide_eq_true_eq] at h <;> omega
  exact ⟨Nat.pos_of_mul_pos_right (hlow.trans_le hbounds.1), hbounds.2⟩

theorem below_of_onGrid? (hzero : x.isZero = false) {exponent : Int} {s : Shortest}
    (h : x.onGrid? exponent = some s) : Shortest.Below x s := by
  rw [onGrid?] at h
  dsimp only at h
  generalize hbelow : 4 * x.scaled * (gridRatio exponent).1 / (gridRatio exponent).2 = below at h
  cases hlow : x.readsBack below exponent with
  | true =>
    cases hhigh : x.readsBack (below + 1) exponent with
    | true =>
      simp only [hlow, hhigh] at h
      split at h
      · cases h
        exact below_of_readsBack hzero hlow
      split at h
      · cases h
        exact below_of_readsBack hzero hhigh
      · cases h
        rcases Nat.mod_two_eq_zero_or_one below with heven | hodd
        · rw [heven]
          exact below_of_readsBack hzero hlow
        · rw [hodd]
          exact below_of_readsBack hzero hhigh
    | false =>
      simp only [hlow, hhigh] at h
      cases h
      exact below_of_readsBack hzero hlow
  | false =>
    cases hhigh : x.readsBack (below + 1) exponent with
    | true =>
      simp only [hlow, hhigh] at h
      cases h
      exact below_of_readsBack hzero hhigh
    | false => simp [hlow, hhigh] at h

end Binary64

open Binary64

/-- A zero that moves into the exponent leaves the value as it is. -/
theorem Shortest.Below.drop {x : Binary64} {s : Shortest} (h : s.Below x)
    (hten : s.digits % 10 = 0) : Shortest.Below x ⟨s.digits / 10, s.exponent + 1⟩ := by
  obtain ⟨hpos, hle⟩ := h
  have hdigits : s.digits = s.digits / 10 * 10 := by omega
  refine ⟨by simp only; omega, ?_⟩
  rw [hdigits] at hle
  generalize s.digits / 10 = digits at *
  generalize 4 * x.scaled + x.upperQuarters = high at *
  simp only at hle ⊢
  rcases lt_or_ge s.exponent 0 with hneg | hnonneg
  · have hpow : (-s.exponent).toNat = (-(s.exponent + 1)).toNat + 1 := by omega
    rw [gridRatio_of_nonpos (by omega)] at hle ⊢
    rw [hpow, Nat.pow_succ] at hle
    simp only at hle ⊢
    linarith
  · have hpow : (s.exponent + 1).toNat = s.exponent.toNat + 1 := by omega
    rw [gridRatio_of_nonneg (by omega)] at hle ⊢
    rw [hpow, Nat.pow_succ]
    simp only at hle ⊢
    calc digits * (4 * one * (10 ^ s.exponent.toNat * 10))
        = digits * 10 * (4 * one * 10 ^ s.exponent.toNat) := by ring
      _ ≤ high * 1 := hle

theorem Shortest.Below.trim {x : Binary64} (count : Nat) {s : Shortest} (h : s.Below x) :
    (s.trim count).Below x := by
  induction count generalizing s with
  | zero => exact h
  | succ count ih =>
    rw [Shortest.trim]
    split
    · next hten => exact ih (h.drop hten)
    · exact h

namespace Binary64

variable {x : Binary64}

/-- The exact value is a decimal, since a power of two is one. -/
theorem below_exact (h : 0 < x.scaled) {k : Nat} (hone : one = 2 ^ k) :
    Shortest.Below x ⟨x.scaled * Nat.pow 5 k, -(k : Int)⟩ := by
  refine ⟨Nat.mul_pos h (Nat.pow_pos (by decide)), ?_⟩
  have hten : 10 ^ k = 5 ^ k * 2 ^ k := by rw [← Nat.mul_pow]
  have hratio : gridRatio (-(k : Int)) = (5 ^ k * 2 ^ k, 4 * 2 ^ k) := by
    rw [gridRatio_of_nonpos (by omega), neg_neg, Int.toNat_natCast, hten, hone]
  rw [hratio, Nat.pow_eq]
  calc x.scaled * 5 ^ k * (4 * 2 ^ k) = 4 * x.scaled * (5 ^ k * 2 ^ k) := by ring
    _ ≤ (4 * x.scaled + x.upperQuarters) * (5 ^ k * 2 ^ k) :=
      Nat.mul_le_mul_right _ (Nat.le_add_right _ _)

/-- The shortest digits of a number lie below the middle of the gap above it. -/
theorem below_shortest (h : x.isZero = false) : x.shortest.Below x := by
  rw [shortest, if_neg (by simp [h])]
  dsimp only
  split
  · next s hs =>
    obtain ⟨exponent, -, hgrid⟩ := List.exists_of_findSome?_eq_some hs
    exact (below_of_onGrid? h hgrid).trim 17
  · have hpos : 0 < x.scaled := by
      have := lowerQuarters_lt h
      omega
    obtain ⟨k, hk⟩ : ∃ k : Nat, k = 1074 := ⟨_, rfl⟩
    have hexponent : (-1074 : Int) = -(k : Int) := by omega
    have hone : one = 2 ^ k := by rw [one, ← hk, Nat.shiftLeft_eq, Nat.one_mul]
    rw [hexponent, ← hk]
    exact below_exact hpos hone

/-! ## Digits that are cut off -/

/-- The first digits of a decimal, those behind them left out, lie below what the decimal does. -/
theorem cut_le {s : Shortest} (h : s.Below x) {m j n : Nat} (hcut : m * 10 ^ j ≤ s.digits)
    (hn : (n : Int) = s.exponent + j) :
    4 * one * (m * 10 ^ n) ≤ 4 * x.scaled + x.upperQuarters := by
  obtain ⟨-, hle⟩ := h
  generalize 4 * x.scaled + x.upperQuarters = high at *
  rcases le_or_gt 0 s.exponent with hnonneg | hneg
  · have hpow : n = j + s.exponent.toNat := by omega
    rw [gridRatio_of_nonneg hnonneg, Nat.mul_one] at hle
    calc 4 * one * (m * 10 ^ n) = m * 10 ^ j * (4 * one * 10 ^ s.exponent.toNat) := by
          rw [hpow, Nat.pow_add]
          ring
      _ ≤ s.digits * (4 * one * 10 ^ s.exponent.toNat) := Nat.mul_le_mul_right _ hcut
      _ ≤ high := hle
  · have hpow : j = n + (-s.exponent).toNat := by omega
    rw [gridRatio_of_nonpos hneg.le] at hle
    refine Nat.le_of_mul_le_mul_right ?_ (Nat.pow_pos (n := (-s.exponent).toNat) (by decide : 0 < 10))
    calc 4 * one * (m * 10 ^ n) * 10 ^ (-s.exponent).toNat = m * 10 ^ j * (4 * one) := by
          rw [hpow, Nat.pow_add]
          ring
      _ ≤ s.digits * (4 * one) := Nat.mul_le_mul_right _ hcut
      _ ≤ high * 10 ^ (-s.exponent).toNat := hle

/-- What lies below the middle of the gap above a number is below the limit by far more than two
roundings add, unless the number is one of the last two. -/
theorem lt_limit_of_le (hlast : x.position + 2 < positions) {n : Nat}
    (h : 4 * one * n ≤ 4 * x.scaled + x.upperQuarters) :
    (2 * block + 1) ^ 2 * (one * n) < (2 * block) ^ 2 * limit := by
  obtain ⟨d, r, hposition, hlow, hhigh, hscaled, hupper, -⟩ := exists_scaled x
  have hpos : 0 < 2 ^ (lastDoublings - 1) := Nat.two_pow_pos _
  have hquarters : 4 * x.scaled + x.upperQuarters ≤
      (16 * block - 20) * 2 ^ (lastDoublings - 1) := by
    have hfactor : 4 * x.scaled + x.upperQuarters = (4 * r + 2) * 2 ^ d := by
      rw [hscaled, hupper]
      ring
    rw [hfactor]
    rw [hposition, positions] at hlast
    rcases Nat.lt_or_ge d lastDoublings with hd | hd
    · have hpow : 2 ^ d ≤ 2 ^ (lastDoublings - 1) := Nat.pow_le_pow_right Nat.two_pos (by omega)
      have hunits : 4 * r + 2 ≤ 16 * block - 20 := by
        rw [block] at *
        omega
      exact Nat.mul_le_mul hunits hpow
    · have hd' : d = lastDoublings - 1 + 1 := by
        rw [block, lastDoublings] at *
        omega
      have hunits : (4 * r + 2) * 2 ≤ 16 * block - 20 := by
        rw [block, lastDoublings] at *
        omega
      calc (4 * r + 2) * 2 ^ d = (4 * r + 2) * 2 * 2 ^ (lastDoublings - 1) := by
            rw [hd', Nat.pow_succ]
            ring
        _ ≤ (16 * block - 20) * 2 ^ (lastDoublings - 1) := Nat.mul_le_mul_right _ hunits
  rw [limit]
  generalize 2 ^ (lastDoublings - 1) = top at *
  have hn : one * n ≤ (4 * block - 5) * top := by
    have hfour : 16 * block - 20 = 4 * (4 * block - 5) := by decide
    rw [hfour, Nat.mul_assoc] at hquarters
    rw [Nat.mul_assoc] at h
    omega
  calc (2 * block + 1) ^ 2 * (one * n)
      ≤ (2 * block + 1) ^ 2 * ((4 * block - 5) * top) := Nat.mul_le_mul_left _ hn
    _ = (2 * block + 1) ^ 2 * (4 * block - 5) * top := (Nat.mul_assoc _ _ _).symm
    _ < (2 * block) ^ 2 * (4 * block - 1) * top := Nat.mul_lt_mul_of_pos_right (by decide) hpos
    _ = (2 * block) ^ 2 * ((4 * block - 1) * top) := Nat.mul_assoc _ _ _

end Binary64
end AppExport.Decimal
