import TwoBallGame.Clocked.Run
import TwoBallGame.Game.Seconds

/-! The deadlines of `block_SM` on its own. Its inputs may change at will and
its three edges may come in any order, and still no exit test is overshot. -/
namespace TwoBallGame

open Clocked

/-- The value that the exit of a state compares `seconds` with, if it has one. -/
def State.exitSecond : State → Option Nat
  | .level1 => some 1
  | .block1 => some 3
  | .block2 => some 5
  | .block3 => some 7
  | .block4 => some 9
  | .block5 => some 11
  | .block6 => some 13
  | .block7 => some 15
  | .block8 => some 17
  | .block9 => some 19
  | .mid1to2 => some 3
  | .level2 => some 5
  | .block11 => some 6
  | .block12 => some 7
  | .block13 => some 8
  | .block14 => some 9
  | .block15 => some 10
  | .block16 => some 11
  | .block17 => some 12
  | .block18 => some 13
  | .block19 => some 14
  | .mid2tofinal => some 3
  | .final => some 5
  | .block21 => some 6
  | .block22 => some 7
  | .block23 => some 8
  | .block24 => some 9
  | .block25 => some 10
  | .block26 => some 11
  | .block27 => some 12
  | .block28 => some 13
  | .block29 => some 14
  | .win => some 5
  | .reset | .block10 | .block20 | .block30 => none

theorem State.phase_deadline (s : State) : s.phase.deadline = s.exitSecond := by
  cases s <;> rfl

/-- The exit of a state is taken at its second and at no other. -/
theorem nextState_ne_iff {s : State} {d : Nat} (h : s.exitSecond = some d) (keycode : BitVec 8)
    (seconds : BitVec 10) (endLevel : Fin 30 → Bool) :
    nextState s false keycode seconds endLevel ≠ s ↔ seconds.toNat = d := by
  have hSeconds (d : Nat) (h : d < 1024) : seconds = BitVec.ofNat 10 d ↔ seconds.toNat = d := by
    rw [← BitVec.toNat_inj, BitVec.toNat_ofNat, Nat.mod_eq_of_lt h]
  cases s <;> cases h <;> simp (disch := decide) [nextState, hSeconds]

namespace BlockSM

/-- The registers of the clock are in range, and `seconds` has not passed the
second of the state, which it reaches only as it is counted up. -/
structure OnTime (sm : BlockSM) : Prop where
  counter_le : sm.counter.toNat ≤ 50000000
  seconds_le : sm.seconds.toNat ≤ 19
  not_overshot : ∀ d, sm.state.exitSecond = some d → sm.seconds.toNat ≤ d
  counter_eq : ∀ d, sm.state.exitSecond = some d → sm.seconds.toNat = d → sm.counter = 0

theorem Timed.onTime {sm : BlockSM} (h : sm.Timed) : sm.OnTime := by
  have hTicks (d : Nat) (hd : sm.state.exitSecond = some d) :
      50000001 * sm.seconds.toNat + sm.counter.toNat ≤ 50000001 * d :=
    h.ticks_le d ((State.phase_deadline sm.state).trans hd)
  refine ⟨h.counter_le, h.seconds_le, ?_, ?_⟩
  · intro d hd
    have hLe := hTicks d hd
    omega
  · intro d hd hEq
    have hLe := hTicks d hd
    have hZero : (0 : BitVec 28).toNat = 0 := rfl
    apply BitVec.eq_of_toNat_eq
    omega

/-- Every edge keeps the clock in range, whatever it finds on the inputs. -/
theorem Timed.step {sm : BlockSM} (h : sm.Timed) (event : SMEvent) : (sm.step event).Timed := by
  cases event with
  | posedgeClk reset collision keycode endLevel =>
      exact h.posedge reset collision keycode endLevel
  | posedgeReset collision keycode endLevel =>
      exact h.posedge true collision keycode endLevel
  | posedgeCollision reset seen keycode endLevel =>
      obtain ⟨hSeconds, hCounter, -⟩ := sm.posedge_cleared
        (nextState sm.state seen keycode sm.seconds endLevel) reset true (Bool.or_true reset)
      exact timed_of_cleared hSeconds hCounter

/-- `block_SM` never misses a deadline: once `counter` and `seconds` are zero, as
they are in its initial state, the clock is on time after every further edge. -/
theorem onTime_of_initial {sm : BlockSM} (hCounter : sm.counter = 0) (hSeconds : sm.seconds = 0)
    {finish : BlockSM} (h : Reaches step sm finish) : finish.OnTime := by
  have hTimed := h.invariant (timed_of_cleared hSeconds hCounter) fun _ event hs => hs.step event
  exact hTimed.onTime

/-- The title is left with the start key, a `Collision` is met on the way, and
the first level begins on time. -/
theorem onTime_of_initial_start :
    (run step ⟨.reset, 0, 0, 0, false, false, 0⟩
      [.posedgeClk false false 40 fun _ => false, .posedgeCollision false false 0 fun _ => true,
        .posedgeClk false true 0 fun _ => false]).OnTime :=
  onTime_of_initial rfl rfl ⟨_, rfl⟩

end BlockSM

end TwoBallGame
