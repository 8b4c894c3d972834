/-
Rounding to a binary64 number. A quotient that is below the middle between the last number and the
next power of two rounds to a number (`nearest?_isSome`), and what a natural count of least units
rounds to exceeds it by one part in `2^53` at most (`scaled_le_of_nearest?`). The number of least
units in a number is its units times a power of two, and the same of a place `r` units into a block,
where the first unit of the next block may be counted as the last one of this block.
-/
import AppExport.Decimal.Binary64
import Mathlib.Tactic.Linarith
import Mathlib.Tactic.Ring

namespace AppExport.Decimal

/-! ## Nearest naturals, ties to even -/

theorem roundQuotient_cases (num den : Nat) :
    roundQuotient num den = num / den ∨
      roundQuotient num den = num / den + 1 ∧ den ≤ 2 * (num % den) := by
  unfold roundQuotient
  dsimp only
  split
  · exact .inl rfl
  split
  · exact .inr ⟨rfl, by omega⟩
  · rcases Nat.mod_two_eq_zero_or_one (num / den) with heven | hodd
    · exact .inl (by rw [heven, Nat.add_zero])
    · exact .inr ⟨by rw [hodd], by omega⟩

/-- Rounding adds half a unit at most. -/
theorem two_mul_roundQuotient_le (num den : Nat) :
    2 * (den * roundQuotient num den) ≤ 2 * num + den := by
  have hparts := Nat.div_add_mod num den
  rcases roundQuotient_cases num den with h | ⟨h, hhalf⟩ <;> rw [h]
  · omega
  · rw [Nat.mul_add, Nat.mul_one]
    omega

theorem div_le_roundQuotient (num den : Nat) : num / den ≤ roundQuotient num den := by
  rcases roundQuotient_cases num den with h | ⟨h, -⟩ <;> omega

namespace Binary64

/-! ## Places and least units -/

theorem block_pos : 0 < block := by decide

/-- The place `r` units into the block that is doubled `d` times. -/
theorem doublings_units {d r : Nat} (hlow : d = 0 ∨ block ≤ r) (hhigh : r < 2 * block) :
    doublings (block * d + r) = d ∧ units (block * d + r) = r := by
  have hdiv : (block * d + r) / block = d + r / block := Nat.mul_add_div block_pos d r
  have hdoublings : doublings (block * d + r) = d := by
    rw [doublings, hdiv]
    rcases hlow with rfl | hlow
    · have : r / block < 2 := Nat.div_lt_of_lt_mul (by rwa [Nat.mul_comm])
      omega
    · have : r / block = 1 := Nat.div_eq_of_lt_le (by rwa [Nat.one_mul]) hhigh
      omega
  refine ⟨hdoublings, ?_⟩
  rw [units, hdoublings, Nat.add_sub_cancel_left]

theorem units_shift {d r : Nat} (hlow : d = 0 ∨ block ≤ r) (hhigh : r ≤ 2 * block) :
    units (block * d + r) <<< doublings (block * d + r) = r * 2 ^ d := by
  rw [Nat.shiftLeft_eq]
  rcases Nat.lt_or_eq_of_le hhigh with hlt | rfl
  · obtain ⟨hdoublings, hunits⟩ := doublings_units hlow hlt
    rw [hdoublings, hunits]
  · -- the end of a block is the beginning of the next one
    have hnext : block * d + 2 * block = block * (d + 1) + block := by ring
    obtain ⟨hdoublings, hunits⟩ :=
      doublings_units (d := d + 1) (.inr (Nat.le_refl block)) (by decide)
    rw [hnext, hdoublings, hunits, Nat.pow_succ]
    ring

/-- Every position is one of a block. -/
theorem exists_units (position : Nat) :
    ∃ d r, position = block * d + r ∧ (d = 0 ∨ block ≤ r) ∧ r < 2 * block ∧
      doublings position = d ∧ units position = r := by
  have hparts := Nat.div_add_mod position block
  have hmod := Nat.mod_lt position block_pos
  refine ⟨doublings position, units position, ?_, ?_, ?_, rfl, rfl⟩
  all_goals
    rw [units, doublings]
    cases hquotient : position / block with
    | zero =>
      rw [hquotient] at hparts
      omega
    | succ q =>
      rw [hquotient, Nat.mul_succ] at hparts
      rw [Nat.add_sub_cancel]
      omega

/-! ## Rounding -/

/-- How often the unit is doubled at which a quotient is rounded. -/
def roundedAt (num den : Nat) : Nat := Nat.log2 (num / den) - 52

theorem nearestPosition_eq (num den : Nat) : nearestPosition num den =
    block * roundedAt num den + roundQuotient num (den * 2 ^ roundedAt num den) := by
  rw [nearestPosition, roundedAt, Nat.shiftLeft_eq]

theorem two_pow_le_div {num den : Nat} (h : roundedAt num den ≠ 0) :
    block * 2 ^ roundedAt num den ≤ num / den := by
  have hne : num / den ≠ 0 := by
    rintro hzero
    rw [roundedAt, hzero] at h
    exact h rfl
  have hlog : Nat.log2 (num / den) = roundedAt num den + 52 := by
    rw [roundedAt] at h ⊢
    omega
  have hpow := Nat.log2_self_le hne
  rwa [hlog, Nat.pow_add, Nat.mul_comm] at hpow

theorem div_lt_two_pow (num den : Nat) : num / den < 2 * block * 2 ^ roundedAt num den := by
  have hle : Nat.log2 (num / den) + 1 ≤ 53 + roundedAt num den := by
    rw [roundedAt]
    omega
  have hpow := Nat.lt_of_lt_of_le Nat.lt_log2_self (Nat.pow_le_pow_right Nat.two_pos hle)
  rwa [Nat.pow_add] at hpow

theorem roundQuotient_bounds (num den : Nat) :
    (roundedAt num den = 0 ∨
      block ≤ roundQuotient num (den * 2 ^ roundedAt num den)) ∧
      roundQuotient num (den * 2 ^ roundedAt num den) ≤ 2 * block := by
  have hdiv : num / (den * 2 ^ roundedAt num den) = num / den / 2 ^ roundedAt num den :=
    (Nat.div_div_eq_div_mul num den _).symm
  have hpos : 0 < 2 ^ roundedAt num den := Nat.two_pow_pos _
  have hhigh : num / den / 2 ^ roundedAt num den < 2 * block :=
    Nat.div_lt_of_lt_mul (by rw [Nat.mul_comm]; exact div_lt_two_pow num den)
  constructor
  · by_cases hzero : roundedAt num den = 0
    · exact .inl hzero
    · have hlow : block ≤ num / den / 2 ^ roundedAt num den :=
        (Nat.le_div_iff_mul_le hpos).2 (two_pow_le_div hzero)
      exact .inr (hlow.trans (hdiv ▸ div_le_roundQuotient _ _))
  · rcases roundQuotient_cases num (den * 2 ^ roundedAt num den) with h | ⟨h, -⟩ <;> omega

/-- The magnitude of what a quotient rounds to. -/
theorem scaled_of_nearest? {negative : Bool} {num den : Nat} {x : Binary64}
    (h : nearest? negative num den = some x) :
    x.scaled = roundQuotient num (den * 2 ^ roundedAt num den) * 2 ^ roundedAt num den := by
  obtain ⟨hlow, hhigh⟩ := roundQuotient_bounds num den
  rw [nearest?] at h
  split at h
  · cases h
    change units (nearestPosition num den) <<< doublings (nearestPosition num den) = _
    rw [nearestPosition_eq, units_shift hlow hhigh]
  · cases h

/-- Rounding a natural number of least units adds one part in `2^53` at most. -/
theorem scaled_le_of_nearest? {negative : Bool} {n : Nat} {x : Binary64}
    (h : nearest? negative n 1 = some x) : 2 * block * x.scaled ≤ (2 * block + 1) * n := by
  have hrounded := two_mul_roundQuotient_le n (1 * 2 ^ roundedAt n 1)
  rw [scaled_of_nearest? h]
  rw [Nat.one_mul] at hrounded ⊢
  by_cases hzero : roundedAt n 1 = 0
  · rw [hzero, Nat.pow_zero] at hrounded ⊢
    have hle : roundQuotient n 1 ≤ n := by omega
    rw [Nat.mul_one, Nat.add_mul, Nat.one_mul]
    exact (Nat.mul_le_mul_left _ hle).trans (Nat.le_add_right _ _)
  · have hunit := two_pow_le_div hzero
    rw [Nat.div_one] at hunit
    have hscale := Nat.mul_le_mul_left block hrounded
    calc 2 * block * (roundQuotient n (2 ^ roundedAt n 1) * 2 ^ roundedAt n 1)
        = block * (2 * (2 ^ roundedAt n 1 * roundQuotient n (2 ^ roundedAt n 1))) := by ring
      _ ≤ block * (2 * n + 2 ^ roundedAt n 1) := hscale
      _ = 2 * block * n + block * 2 ^ roundedAt n 1 := by ring
      _ ≤ (2 * block + 1) * n := by linarith

/-- How often the unit of the last numbers is doubled. -/
def lastDoublings : Nat := 2045

/-- The middle between the last number and the next power of two, in least units. -/
def limit : Nat := (4 * block - 1) * 2 ^ (lastDoublings - 1)

theorem two_mul_limit : 2 * limit = (4 * block - 1) * 2 ^ lastDoublings := by
  have hlast : lastDoublings = lastDoublings - 1 + 1 := rfl
  rw [limit, hlast, Nat.add_sub_cancel, Nat.pow_succ]
  ring

theorem roundedAt_le {num den : Nat} (h : num / den < limit) :
    roundedAt num den ≤ lastDoublings := by
  by_contra hlarge
  have hpow : 2 ^ (lastDoublings + 1) ≤ 2 ^ roundedAt num den :=
    Nat.pow_le_pow_right Nat.two_pos (by omega)
  have hlow := (Nat.mul_le_mul_left block hpow).trans (two_pow_le_div (by omega))
  have hlimit : 2 * limit ≤ 2 * (block * 2 ^ (lastDoublings + 1)) := by
    calc 2 * limit = (4 * block - 1) * 2 ^ lastDoublings := two_mul_limit
      _ ≤ 4 * block * 2 ^ lastDoublings := Nat.mul_le_mul_right _ (Nat.sub_le _ _)
      _ = 2 * (block * 2 ^ (lastDoublings + 1)) := by rw [Nat.pow_succ]; ring
  omega

/-- Where the unit is the greatest one, a quotient below the limit does not reach the end of its
block. -/
theorem roundQuotient_lt {num den : Nat} (h : num < den * limit) :
    roundQuotient num (den * 2 ^ lastDoublings) < 2 * block := by
  have hrounded := two_mul_roundQuotient_le num (den * 2 ^ lastDoublings)
  have hnum : 2 * num < den * 2 ^ lastDoublings * (4 * block - 1) := by
    calc 2 * num < 2 * (den * limit) := by omega
      _ = den * (2 * limit) := by ring
      _ = den * 2 ^ lastDoublings * (4 * block - 1) := by rw [two_mul_limit]; ring
  generalize roundQuotient num (den * 2 ^ lastDoublings) = r at *
  generalize den * 2 ^ lastDoublings = unit at *
  have hless : unit * (2 * r) < unit * (4 * block) := by
    calc unit * (2 * r) = 2 * (unit * r) := by ring
      _ ≤ 2 * num + unit := hrounded
      _ < unit * (4 * block - 1) + unit := by omega
      _ = unit * (4 * block) := by rw [← Nat.mul_succ]; rfl
  have := Nat.lt_of_mul_lt_mul_left hless
  omega

/-- A quotient below the limit rounds to a number. -/
theorem nearest?_isSome (negative : Bool) {num den : Nat} (h : num < den * limit) :
    (nearest? negative num den).isSome = true := by
  have hlt : nearestPosition num den < positions := by
    obtain ⟨-, hhigh⟩ := roundQuotient_bounds num den
    have hrounded := roundedAt_le (Nat.div_lt_of_lt_mul h)
    have hlast : roundedAt num den = lastDoublings →
        roundQuotient num (den * 2 ^ roundedAt num den) < 2 * block :=
      fun hlast => hlast ▸ roundQuotient_lt h
    rw [nearestPosition_eq, positions]
    generalize roundQuotient num (den * 2 ^ roundedAt num den) = r at *
    generalize roundedAt num den = d at *
    rw [block, lastDoublings] at *
    omega
  rw [nearest?, dif_pos hlt]
  rfl

end Binary64
end AppExport.Decimal
