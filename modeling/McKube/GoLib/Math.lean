import Mathlib.Algebra.Order.Floor.Ring
import Mathlib.Data.Rat.Floor
import Mathlib.Tactic.Linarith

/-!
# Rounding

`math.Round` on exact numbers: the nearest integer, halves away from zero.
-/

namespace GoLib

namespace math

/-- `math.Round`. -/
def round (x : ℚ) : ℤ := if x < 0 then ⌈x - 1 / 2⌉ else ⌊x + 1 / 2⌋

theorem round_of_nonneg {x : ℚ} (hx : 0 ≤ x) : round x = ⌊x + 1 / 2⌋ := if_neg (not_lt.mpr hx)

theorem round_natCast (n : ℕ) : round n = n := by
  have hhalf : ⌊(1 / 2 : ℚ)⌋ = 0 := by
    rw [Int.floor_eq_zero_iff]
    constructor <;> norm_num
  rw [round_of_nonneg (Nat.cast_nonneg n), add_comm, Int.floor_add_natCast, hhalf, zero_add]

/-- Rounding stays within bounds that are natural numbers. -/
theorem round_mem {x : ℚ} {n : ℕ} (hx : 0 ≤ x) (hn : x ≤ n) : 0 ≤ round x ∧ round x ≤ n := by
  constructor
  · rw [round_of_nonneg hx, Int.floor_nonneg]
    linarith
  · rw [← round_natCast n, round_of_nonneg hx, round_of_nonneg (Nat.cast_nonneg n)]
    apply Int.floor_le_floor
    linarith

end math

end GoLib
