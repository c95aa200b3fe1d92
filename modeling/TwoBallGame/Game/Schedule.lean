import TwoBallGame.Design.FinalProject

/-! The schedule behind `block_SM`: three levels of ten elements, each with a
waiting phase, one phase for every launch, and a closing phase. -/
namespace TwoBallGame

instance neZero_levels : NeZero 3 := ⟨by decide⟩

instance neZero_launches : NeZero 10 := ⟨by decide⟩

theorem lastOf_lt (level : Fin 3) : 10 * level.val + 9 < 30 := by omega

theorem elementOf_lt (level : Fin 3) (k : Fin 10) : 10 * level.val + k.val < 30 := by omega

/-- What the state machine is doing. Levels are numbered from 0 to 2, and
`last` is the element of the level launched last. -/
inductive Phase where
  | title
  | wait (level : Fin 3)
  | play (level : Fin 3) (last : Fin 10)
  | closing (level : Fin 3)
deriving DecidableEq

namespace Phase

/-- All elements below this number have been launched since the title. -/
def frontier : Phase → Nat
  | title => 0
  | wait level => 10 * level.val
  | play level last => 10 * level.val + last.val + 1
  | closing level => 10 * level.val + 10

/-- Some element is in flight, so that a collision restarts the level. -/
def playing : Phase → Bool
  | play _ _ => true
  | _ => false

/-- The first element of the level in flight, or the frontier if there is none. -/
def first : Phase → Nat
  | play level _ => 10 * level.val
  | p => p.frontier

/-- The second at which a phase ends. The title and the last launch of a level
have none: they wait for a key and for the last element. -/
def deadline : Phase → Option Nat
  | title => none
  | wait level => some (if level = 0 then 1 else 5)
  | play level last =>
      if last = 9 then none
      else some (if level = 0 then 2 * last.val + 3 else last.val + 6)
  | closing level => some (if level = 2 then 5 else 3)

/-- The test that ends a phase. -/
def leaves (keycode : BitVec 8) (seconds : BitVec 10) (endLevel : Fin 30 → Bool) : Phase → Bool
  | title => decide (keycode = 40)
  | play level last =>
      if last = 9 then endLevel ⟨10 * level.val + 9, lastOf_lt level⟩
      else decide ((play level last).deadline = some seconds.toNat)
  | p => decide (p.deadline = some seconds.toNat)

/-- The phase after one that ends. -/
def succ : Phase → Phase
  | title => wait 0
  | wait level => play level 0
  | play level last => if last = 9 then closing level else play level (last + 1)
  | closing level => if level = 2 then title else wait (level + 1)

/-- The phase to which a collision leads. The first level is restarted with its
first element already launched. -/
def restart : Phase → Phase
  | play level _ => if level = 0 then play 0 0 else wait level
  | p => p

/-- One step of the schedule. -/
def next (collision : Bool) (keycode : BitVec 8) (seconds : BitVec 10)
    (endLevel : Fin 30 → Bool) (p : Phase) : Phase :=
  if collision && p.playing then p.restart
  else if p.leaves keycode seconds endLevel then p.succ
  else p

/-- The state that carries out a phase. -/
def state : Phase → State
  | title => .reset
  | wait level => ![.level1, .level2, .final] level
  | play level last => ![![.block1, .block2, .block3, .block4, .block5, .block6, .block7,
      .block8, .block9, .block10],
    ![.block11, .block12, .block13, .block14, .block15, .block16, .block17, .block18,
      .block19, .block20],
    ![.block21, .block22, .block23, .block24, .block25, .block26, .block27, .block28,
      .block29, .block30]] level last
  | closing level => ![.mid1to2, .mid2tofinal, .win] level

end Phase

/-- The phase that a state carries out. -/
def State.phase : State → Phase
  | .reset => .title
  | .level1 => .wait 0
  | .level2 => .wait 1
  | .final => .wait 2
  | .mid1to2 => .closing 0
  | .mid2tofinal => .closing 1
  | .win => .closing 2
  | .block1 => .play 0 0
  | .block2 => .play 0 1
  | .block3 => .play 0 2
  | .block4 => .play 0 3
  | .block5 => .play 0 4
  | .block6 => .play 0 5
  | .block7 => .play 0 6
  | .block8 => .play 0 7
  | .block9 => .play 0 8
  | .block10 => .play 0 9
  | .block11 => .play 1 0
  | .block12 => .play 1 1
  | .block13 => .play 1 2
  | .block14 => .play 1 3
  | .block15 => .play 1 4
  | .block16 => .play 1 5
  | .block17 => .play 1 6
  | .block18 => .play 1 7
  | .block19 => .play 1 8
  | .block20 => .play 1 9
  | .block21 => .play 2 0
  | .block22 => .play 2 1
  | .block23 => .play 2 2
  | .block24 => .play 2 3
  | .block25 => .play 2 4
  | .block26 => .play 2 5
  | .block27 => .play 2 6
  | .block28 => .play 2 7
  | .block29 => .play 2 8
  | .block30 => .play 2 9

theorem State.phase_state (s : State) : s.phase.state = s := by
  cases s <;> rfl

theorem Phase.state_phase (p : Phase) : p.state.phase = p := by
  cases p with
  | title => rfl
  | wait level => fin_cases level <;> rfl
  | play level last => fin_cases level <;> fin_cases last <;> rfl
  | closing level => fin_cases level <;> rfl

theorem State.phase_injective : Function.Injective State.phase :=
  Function.LeftInverse.injective State.phase_state

section NextState

variable (s : State) (keycode : BitVec 8) (seconds : BitVec 10) (endLevel : Fin 30 → Bool)

theorem nextState_of_playing (h : s.phase.playing = true) :
    (nextState s true keycode seconds endLevel).phase = s.phase.restart := by
  cases s <;> first | rfl | cases h

theorem nextState_of_calm :
    (nextState s false keycode seconds endLevel).phase =
      if s.phase.leaves keycode seconds endLevel then s.phase.succ else s.phase := by
  have hSeconds (d : Nat) (h : d < 1024) :
      d = seconds.toNat ↔ seconds = BitVec.ofNat 10 d := by
    rw [← BitVec.toNat_inj, BitVec.toNat_ofNat]
    omega
  cases s <;> simp (disch := decide) [nextState, State.phase, Phase.leaves, Phase.deadline,
    hSeconds] <;> split_ifs <;> rfl

/-- Outside the launches a collision makes no difference. -/
theorem nextState_of_not_playing (collision : Bool) (h : s.phase.playing = false) :
    nextState s collision keycode seconds endLevel =
      nextState s false keycode seconds endLevel := by
  cases s <;> first | rfl | cases h

/-- The state machine follows the schedule. -/
theorem nextState_phase (collision : Bool) :
    (nextState s collision keycode seconds endLevel).phase =
      s.phase.next collision keycode seconds endLevel := by
  cases hPlaying : s.phase.playing with
  | false =>
      rw [nextState_of_not_playing _ _ _ _ _ hPlaying, nextState_of_calm]
      simp [Phase.next, hPlaying]
  | true =>
      cases collision with
      | false => exact nextState_of_calm s keycode seconds endLevel
      | true =>
          rw [nextState_of_playing _ _ _ _ hPlaying]
          simp [Phase.next, hPlaying]

end NextState

/-- The elements that are ready are those of the level in flight that have been
launched. -/
theorem Game.ready_eq (g : Game) (n : Fin 30) :
    g.ready n = (decide (g.sm.state.phase.first ≤ n.val) &&
      decide (n.val < g.sm.state.phase.frontier)) := by
  have hAll : ∀ s : State, ∀ n : Fin 30,
      (instanceAt n).element.ready ⟨s, 0, 0, 0, false, false, 0⟩ =
        (decide (s.phase.first ≤ n.val) && decide (n.val < s.phase.frontier)) := by
    intro s
    cases s <;> decide
  rw [← hAll g.sm.state n, Game.ready]
  cases (instanceAt n).element <;> rfl

end TwoBallGame
