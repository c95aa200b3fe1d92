import Mathlib

/-! A clock divider: a counter that starts again at its limit and then turns a
flag. The flag alone gives the counter away to whoever watches it for long. What
happens once in every turn of a counter is found once in every such stretch. -/
namespace Clocked

/-- A counter of `w` bits and the flag that it turns. -/
structure Divider (w : Nat) where
  count : BitVec w
  flag : Bool
deriving DecidableEq

namespace Divider

variable {w : Nat} (limit : BitVec w)

/-- One clock edge. A counter beyond the limit runs on until it wraps. -/
def step (d : Divider w) : Divider w :=
  if d.count = limit then ⟨0, !d.flag⟩ else ⟨d.count + 1, d.flag⟩

/-- The edges before the one that turns the flag. -/
def delay (d : Divider w) : Nat := (limit - d.count).toNat

variable {limit} {d : Divider w}

theorem step_of_delay_zero (h : d.delay limit = 0) : (d.step limit).flag = !d.flag := by
  have hZero : limit - d.count = 0 := BitVec.eq_of_toNat_eq h
  have hLimit : d.count = limit := (sub_eq_zero.mp hZero).symm
  rw [step, if_pos hLimit]

/-- An edge that does not turn the flag brings the next turn one edge nearer. -/
theorem step_of_delay_pos (h : 0 < d.delay limit) :
    (d.step limit).flag = d.flag ∧ (d.step limit).delay limit + 1 = d.delay limit := by
  have hNot : d.count ≠ limit := by
    intro hLimit
    rw [delay, hLimit, sub_self] at h
    exact absurd h (Nat.lt_irrefl 0)
  rw [step, if_neg hNot]
  refine ⟨rfl, ?_⟩
  have hSplit : limit - (d.count + 1) = limit - d.count - 1 := sub_add_eq_sub_sub _ _ _
  have hLt : d.delay limit < 2 ^ w := (limit - d.count).isLt
  have hOne : (1 : BitVec w).toNat = 1 := by
    rw [BitVec.ofNat_eq_ofNat, BitVec.toNat_ofNat]
    exact Nat.mod_eq_of_lt (lt_of_le_of_lt (Nat.succ_le_of_lt h) hLt)
  have hLe : (1 : BitVec w) ≤ limit - d.count := by
    rw [BitVec.le_def, hOne]
    exact h
  change (limit - (d.count + 1)).toNat + 1 = (limit - d.count).toNat
  rw [hSplit, BitVec.toNat_sub_of_le hLe, hOne]
  exact Nat.sub_add_cancel h

/-- Up to its delay a divider keeps its flag. -/
theorem iterate_step {n : Nat} (h : n ≤ d.delay limit) :
    ((step limit)^[n] d).flag = d.flag ∧ ((step limit)^[n] d).delay limit + n = d.delay limit := by
  induction n with
  | zero => exact ⟨rfl, rfl⟩
  | succ n ih =>
      obtain ⟨hFlag, hDelay⟩ := ih (by omega)
      have hPos : 0 < ((step limit)^[n] d).delay limit := by omega
      obtain ⟨hFlag', hDelay'⟩ := step_of_delay_pos hPos
      rw [Function.iterate_succ_apply']
      exact ⟨hFlag'.trans hFlag, by omega⟩

theorem delay_injective (limit : BitVec w) {d' : Divider w}
    (h : d.delay limit = d'.delay limit) :
    d.count = d'.count :=
  sub_right_injective (BitVec.eq_of_toNat_eq h)

/-- Of two dividers with equal flags the one with the smaller delay turns first. -/
theorem flags_differ {d' : Divider w} (hFlag : d.flag = d'.flag)
    (hLess : d.delay limit < d'.delay limit) :
    ((step limit)^[d.delay limit + 1] d).flag ≠ ((step limit)^[d.delay limit + 1] d').flag := by
  obtain ⟨hKept, hDelay⟩ := iterate_step (le_refl (d.delay limit))
  obtain ⟨hKept', -⟩ := iterate_step (d := d') (Nat.succ_le_of_lt hLess)
  rw [hKept', Function.iterate_succ_apply', step_of_delay_zero (by omega), hKept, hFlag]
  cases d'.flag <;> decide

/-- Two dividers whose flags agree for ever are equal. -/
theorem eq_of_flags_agree (limit : BitVec w) {d d' : Divider w}
    (h : ∀ n, ((step limit)^[n] d).flag = ((step limit)^[n] d').flag) : d = d' := by
  have hFlag : d.flag = d'.flag := h 0
  have hCount : d.count = d'.count := by
    apply delay_injective limit
    rcases Nat.lt_trichotomy (d.delay limit) (d'.delay limit) with hLess | hEq | hMore
    · exact absurd (h _) (flags_differ hFlag hLess)
    · exact hEq
    · exact absurd (h _).symm (flags_differ hFlag.symm hMore)
  cases d
  cases d'
  obtain rfl : _ = _ := hFlag
  obtain rfl : _ = _ := hCount
  rfl

end Divider

/-- An event that comes at one place of every period comes exactly once in every
stretch of that length, wherever the stretch begins. -/
theorem existsUnique_turn {period place start : Nat} {Event : Nat → Prop} (hPlace : place < period)
    (h : ∀ k, start ≤ k → (Event k ↔ k % period = place)) :
    ∃! k, start ≤ k ∧ k < start + period ∧ Event k := by
  have hSplit := Nat.div_add_mod start period
  have hLt := Nat.mod_lt start (Nat.zero_lt_of_lt hPlace)
  have hFound : ∃ turns, start ≤ period * turns + place ∧
      period * turns + place < start + period := by
    rcases Nat.lt_or_ge place (start % period) with hPassed | hAhead
    · exact ⟨start / period + 1, by rw [Nat.mul_succ]; omega, by rw [Nat.mul_succ]; omega⟩
    · exact ⟨start / period, by omega, by omega⟩
  obtain ⟨turns, hLow, hHigh⟩ := hFound
  refine ⟨period * turns + place, ⟨hLow, hHigh, ?_⟩, ?_⟩
  · rw [h _ hLow, Nat.mul_add_mod, Nat.mod_eq_of_lt hPlace]
  · rintro k ⟨hLow', hHigh', hEvent⟩
    rw [h k hLow'] at hEvent
    have hTurns := Nat.div_add_mod k period
    rw [hEvent] at hTurns
    have hSame : k / period = turns := by
      rcases Nat.lt_trichotomy (k / period) turns with hLess | hEq | hMore
      · have hMul := Nat.mul_le_mul_left period hLess
        rw [Nat.mul_succ] at hMul
        omega
      · exact hEq
      · have hMul := Nat.mul_le_mul_left period hMore
        rw [Nat.mul_succ] at hMul
        omega
    rw [← hTurns, hSame]

end Clocked
