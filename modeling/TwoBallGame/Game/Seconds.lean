import TwoBallGame.Game.Schedule

/-! The clock of the state machine. `seconds` and `counter` together count the
`Clk` edges of a level attempt, 50,000,001 to the second, and the schedule
leaves a phase exactly when the count reaches its deadline. -/
namespace TwoBallGame

namespace Phase

theorem deadline_le {p : Phase} {d : Nat} (h : p.deadline = some d) : 1 ≤ d ∧ d ≤ 19 := by
  cases p with
  | title => cases h
  | wait level =>
      simp only [deadline, Option.some.injEq] at h
      split_ifs at h <;> omega
  | play level last =>
      have hLast := last.isLt
      simp only [deadline] at h
      split_ifs at h <;> simp only [Option.some.injEq] at h <;> omega
  | closing level =>
      simp only [deadline, Option.some.injEq] at h
      split_ifs at h <;> omega

/-- Deadlines only grow from one phase to the next. -/
theorem deadline_succ {p : Phase} {d d' : Nat} (h : p.deadline = some d)
    (h' : p.succ.deadline = some d') : d < d' := by
  cases p with
  | title => cases h
  | wait level =>
      revert h h'
      fin_cases level <;> simp [deadline, succ] <;> omega
  | play level last =>
      revert h h'
      fin_cases level <;> fin_cases last <;> simp [deadline, succ] <;> omega
  | closing level =>
      revert h h'
      fin_cases level <;> simp [deadline, succ] <;> omega

end Phase

namespace BlockSM

/-- The `Clk` edges counted since `seconds` and `counter` were last cleared. -/
def ticks (sm : BlockSM) : Nat := 50000001 * sm.seconds.toNat + sm.counter.toNat

def phase (sm : BlockSM) : Phase := sm.state.phase

/-- The `next_state` that the register process finds settled. -/
def next (collision : Bool) (keycode : BitVec 8) (endLevel : Fin 30 → Bool)
    (sm : BlockSM) : State :=
  nextState sm.state collision keycode sm.seconds endLevel

/-- The count is within its ranges and has not passed the deadline. -/
structure Timed (sm : BlockSM) : Prop where
  counter_le : sm.counter.toNat ≤ 50000000
  seconds_le : sm.seconds.toNat ≤ 19
  ticks_le : ∀ d, sm.phase.deadline = some d → sm.ticks ≤ 50000001 * d

section Posedge

variable (sm : BlockSM) (loaded : State)

theorem deadline_eq_none_iff (s : State) :
    s.phase.deadline = none ↔ (s = .block10 ∨ s = .block20 ∨ s = .block30) ∨ s = .reset := by
  cases s <;> decide

/-- An edge with `Reset` or a `Collision` high clears the count. -/
theorem posedge_cleared (reset collision : Bool) (h : (reset || collision) = true) :
    (sm.posedge reset collision loaded).seconds = 0 ∧
      (sm.posedge reset collision loaded).counter = 0 ∧
      (sm.posedge reset collision loaded).state = (if reset then .reset else loaded) := by
  cases reset with
  | true => exact ⟨rfl, rfl, rfl⟩
  | false =>
      cases collision with
      | true => exact ⟨rfl, rfl, rfl⟩
      | false => cases h

theorem assignHidden_fields (old new : BlockSM) :
    (assignHidden old new).state = new.state ∧
      (assignHidden old new).pstart = new.pstart ∧
      (assignHidden old new).pstartCounter = new.pstartCounter := by
  unfold assignHidden
  split_ifs <;> exact ⟨rfl, rfl, rfl⟩

theorem assignSeconds_state (old new : BlockSM) :
    (assignSeconds old new).state = new.state := by
  unfold assignSeconds
  split_ifs <;> rfl

@[simp]
theorem posedge_calm_state : (sm.posedge false false loaded).state = loaded := by
  have hHidden := (assignHidden_fields sm { sm with state := loaded }).1
  exact (assignSeconds_state _ _).trans hHidden

/-- The phases without a deadline keep the count at zero. -/
theorem posedge_idle (h : sm.phase.deadline = none) :
    (sm.posedge false false loaded).seconds = 0 ∧
      (sm.posedge false false loaded).counter = 0 := by
  change (assignSeconds sm _).seconds = 0 ∧ (assignSeconds sm _).counter = 0
  unfold assignSeconds
  rcases (deadline_eq_none_iff sm.state).mp h with hLast | hReset
  · rw [if_pos hLast]
    exact ⟨rfl, rfl⟩
  · have hNot : ¬(sm.state = .block10 ∨ sm.state = .block20 ∨ sm.state = .block30) := by
      rw [hReset]
      decide
    have hStay : ¬(sm.counter = 50000000 ∧ sm.state ≠ .reset) := fun hGo => hGo.2 hReset
    rw [if_neg hNot, if_neg hStay, if_pos hReset]
    exact ⟨rfl, rfl⟩

variable {sm}

/-- The phases with a deadline count every edge. -/
theorem Timed.posedge_ticks (h : sm.Timed) {d : Nat} (hd : sm.phase.deadline = some d) :
    (sm.posedge false false loaded).ticks = sm.ticks + 1 ∧
      (sm.posedge false false loaded).counter.toNat ≤ 50000000 := by
  have hCounter := h.counter_le
  have hSeconds := h.seconds_le
  have hSome : ¬((sm.state = .block10 ∨ sm.state = .block20 ∨ sm.state = .block30) ∨
      sm.state = .reset) := by
    rw [← deadline_eq_none_iff]
    exact fun hNone => by simp [show sm.state.phase.deadline = some d from hd] at hNone
  obtain ⟨hLast, hReset⟩ := not_or.mp hSome
  have hOne : (1 : BitVec 28).toNat = 1 := rfl
  have hOne' : (1 : BitVec 10).toNat = 1 := rfl
  unfold ticks
  change 50000001 * (assignSeconds sm _).seconds.toNat + (assignSeconds sm _).counter.toNat = _ ∧
    (assignSeconds sm _).counter.toNat ≤ _
  unfold assignSeconds
  rw [if_neg hLast]
  by_cases hFull : sm.counter = 50000000
  · have hFullNat : sm.counter.toNat = 50000000 := by rw [hFull]; rfl
    rw [if_pos ⟨hFull, hReset⟩]
    have hNext : (sm.seconds + 1).toNat = sm.seconds.toNat + 1 := by
      rw [BitVec.toNat_add]
      omega
    simp only [hNext, hFullNat]
    exact ⟨by rw [show (0 : BitVec 28).toNat = 0 from rfl]; omega, Nat.zero_le _⟩
  · have hLess : sm.counter.toNat ≠ 50000000 := fun hEq =>
      hFull (BitVec.eq_of_toNat_eq hEq)
    rw [if_neg fun hGo => hFull hGo.1, if_neg hReset]
    have hNext : (sm.counter + 1).toNat = sm.counter.toNat + 1 := by
      rw [BitVec.toNat_add]
      omega
    have hSame : (assignHidden sm { sm with state := loaded }).seconds = sm.seconds := by
      unfold assignHidden
      split_ifs <;> rfl
    simp only [hNext, hSame]
    omega

/-- A phase is left exactly when the count is its deadline. -/
theorem Timed.leaves_iff (h : sm.Timed) {d : Nat} (hd : sm.phase.deadline = some d)
    (keycode : BitVec 8) (endLevel : Fin 30 → Bool) :
    sm.phase.leaves keycode sm.seconds endLevel = true ↔ sm.ticks = 50000001 * d := by
  have hCounter := h.counter_le
  have hTicks := h.ticks_le d hd
  have hLeaves : sm.phase.leaves keycode sm.seconds endLevel =
      decide (sm.phase.deadline = some sm.seconds.toNat) := by
    cases hPhase : sm.phase with
    | title => rw [hPhase] at hd; cases hd
    | wait level => rfl
    | play level last =>
        rw [hPhase] at hd
        have hLast : last ≠ 9 := by
          rintro rfl
          cases hd
        simp [Phase.leaves, hLast]
    | closing level => rfl
  rw [hLeaves, decide_eq_true_eq, hd, Option.some.injEq]
  unfold ticks at hTicks ⊢
  constructor <;> intro hEq <;> omega

theorem ticks_of_cleared (hSeconds : sm.seconds = 0) (hCounter : sm.counter = 0) :
    sm.ticks = 0 := by
  rw [ticks, hSeconds, hCounter]
  rfl

/-- A cleared count is in range in every phase. -/
theorem timed_of_cleared (hSeconds : sm.seconds = 0) (hCounter : sm.counter = 0) : sm.Timed := by
  have hTicks := ticks_of_cleared hSeconds hCounter
  refine ⟨by rw [hCounter]; decide, by rw [hSeconds]; decide, fun d _ => ?_⟩
  rw [hTicks]
  exact Nat.zero_le _

/-- A calm edge moves the phase along the schedule. -/
theorem posedge_calm_phase (sm : BlockSM) (keycode : BitVec 8) (endLevel : Fin 30 → Bool) :
    (sm.posedge false false (sm.next false keycode endLevel)).phase =
      if sm.phase.leaves keycode sm.seconds endLevel then sm.phase.succ else sm.phase := by
  rw [phase, posedge_calm_state]
  exact nextState_of_calm sm.state keycode sm.seconds endLevel

/-- No edge of any input takes the count out of its ranges. -/
theorem Timed.posedge (h : sm.Timed) (reset collision : Bool) (keycode : BitVec 8)
    (endLevel : Fin 30 → Bool) :
    (sm.posedge reset collision (sm.next collision keycode endLevel)).Timed := by
  cases hAsync : (reset || collision) with
  | true =>
      obtain ⟨hSeconds, hCounter, -⟩ :=
        sm.posedge_cleared (sm.next collision keycode endLevel) reset collision hAsync
      exact timed_of_cleared hSeconds hCounter
  | false =>
      obtain ⟨rfl, rfl⟩ := Bool.or_eq_false_iff.mp hAsync
      cases hDeadline : sm.phase.deadline with
      | none =>
          obtain ⟨hSeconds, hCounter⟩ :=
            sm.posedge_idle (sm.next false keycode endLevel) hDeadline
          exact timed_of_cleared hSeconds hCounter
      | some d =>
          obtain ⟨hTicks, hCounter⟩ := h.posedge_ticks (sm.next false keycode endLevel) hDeadline
          have hLeaves := h.leaves_iff hDeadline keycode endLevel
          have hOld := h.ticks_le d hDeadline
          have hRange := Phase.deadline_le hDeadline
          have hPhase := sm.posedge_calm_phase keycode endLevel
          have hSeconds : (sm.posedge false false (sm.next false keycode endLevel)).ticks =
              50000001 * (sm.posedge false false
                (sm.next false keycode endLevel)).seconds.toNat +
              (sm.posedge false false (sm.next false keycode endLevel)).counter.toNat := rfl
          refine ⟨hCounter, by omega, fun d' hd' => ?_⟩
          rw [hPhase] at hd'
          by_cases hGo : sm.phase.leaves keycode sm.seconds endLevel = true
          · rw [if_pos hGo] at hd'
            have hLater := Phase.deadline_succ hDeadline hd'
            omega
          · rw [if_neg hGo, hDeadline] at hd'
            obtain rfl := Option.some.inj hd'
            have hNot : sm.ticks ≠ 50000001 * d := fun hEq => hGo (hLeaves.mpr hEq)
            omega

end Posedge

end BlockSM

end TwoBallGame
