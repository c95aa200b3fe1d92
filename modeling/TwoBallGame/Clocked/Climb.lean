import Mathlib

/-! A height that climbs by equal steps until it has passed a limit. It stops at
the first multiple of the step above the limit, however many steps are tried. -/
namespace Clocked

/-- One step up, unless the limit has been passed. -/
def climb (limit step height : Nat) : Nat := if limit < height then height else height + step

variable {limit step : Nat}

/-- The steps that it takes to pass the limit. -/
theorem lt_mul_iff_ceilDiv_le (h : 0 < step) (count : Nat) :
    limit < step * count ↔ (limit + 1) ⌈/⌉ step ≤ count := by
  rw [ceilDiv_le_iff_le_mul h, mul_comm, Nat.succ_le_iff]

theorem climb_of_lt {height : Nat} (h : limit < height) : climb limit step height = height :=
  if_pos h

theorem climb_of_le {height : Nat} (h : height ≤ limit) :
    climb limit step height = height + step := if_neg (Nat.not_lt.mpr h)

/-- The height after any number of steps from the ground. -/
theorem iterate_climb (h : 0 < step) (count : Nat) :
    (climb limit step)^[count] 0 = step * min count ((limit + 1) ⌈/⌉ step) := by
  induction count with
  | zero => simp
  | succ count ih =>
      rw [Function.iterate_succ_apply', ih]
      rcases Nat.lt_or_ge count ((limit + 1) ⌈/⌉ step) with hBelow | hAbove
      · have hLow : step * count ≤ limit := by
          rw [← Nat.not_lt, lt_mul_iff_ceilDiv_le h]
          omega
        rw [min_eq_left hBelow.le, min_eq_left hBelow, climb_of_le hLow, Nat.mul_succ]
      · have hHigh : limit < step * ((limit + 1) ⌈/⌉ step) :=
          (lt_mul_iff_ceilDiv_le h _).mpr le_rfl
        rw [min_eq_right hAbove, min_eq_right (hAbove.trans count.le_succ), climb_of_lt hHigh]

end Clocked
