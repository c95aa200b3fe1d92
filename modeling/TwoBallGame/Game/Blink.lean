import TwoBallGame.Clocked.Divider
import TwoBallGame.Clocked.Run
import TwoBallGame.Game.Seconds

/-! The two flags of `block_SM` that make the screen blink, and the counters
behind them. `FINAL` clears `hidden` but not its counter, whose later assignment
overrides the first, so the blinking of the last level keeps its old phase. -/
namespace TwoBallGame

open Clocked

namespace BlockSM

/-- `hidden` and its counter. -/
def hiddenDivider (sm : BlockSM) : Divider 28 := ⟨sm.hiddenCounter, sm.hidden⟩

/-- `pstart` and its counter. -/
def pstartDivider (sm : BlockSM) : Divider 28 := ⟨sm.pstartCounter, sm.pstart⟩

theorem assignSeconds_hidden (old new : BlockSM) :
    (assignSeconds old new).hiddenDivider = new.hiddenDivider := by
  unfold assignSeconds
  split_ifs <;> rfl

/-- Outside `FINAL` the first divider runs freely. -/
theorem posedge_hidden (sm : BlockSM) (loaded : State) (h : sm.state ≠ .final) :
    (sm.posedge false false loaded).hiddenDivider = sm.hiddenDivider.step 25000000 := by
  refine (assignSeconds_hidden _ _).trans ?_
  unfold assignHidden
  rw [if_neg h]
  by_cases hFull : sm.hiddenCounter = 25000000
  · have hStep : sm.hiddenDivider.step 25000000 = ⟨0, !sm.hidden⟩ := if_pos hFull
    rw [if_pos hFull, hStep]
    rfl
  · have hStep : sm.hiddenDivider.step 25000000 = ⟨sm.hiddenCounter + 1, sm.hidden⟩ :=
      if_neg hFull
    rw [if_neg hFull, hStep]
    rfl

/-- In `RESET` the second one runs too. -/
theorem posedge_pstart (sm : BlockSM) (loaded : State) (h : sm.state = .reset) :
    (sm.posedge false false loaded).pstartDivider = sm.pstartDivider.step 50000000 := by
  obtain ⟨-, hPstart, hCounter⟩ := assignHidden_fields sm { sm with state := loaded }
  change (assignSeconds sm (assignHidden sm { sm with state := loaded })).pstartDivider = _
  have hNot : ¬(sm.state = .block10 ∨ sm.state = .block20 ∨ sm.state = .block30) := by
    rw [h]
    decide
  have hStay : ¬(sm.counter = 50000000 ∧ sm.state ≠ .reset) := fun hGo => hGo.2 h
  unfold assignSeconds
  rw [if_neg hNot, if_neg hStay, if_pos h]
  by_cases hFull : sm.pstartCounter = 50000000
  · have hStep : sm.pstartDivider.step 50000000 = ⟨0, !sm.pstart⟩ := if_pos hFull
    rw [if_pos hFull, hStep]
    rfl
  · have hStep : sm.pstartDivider.step 50000000 = ⟨sm.pstartCounter + 1, sm.pstart⟩ :=
      if_neg hFull
    rw [if_neg hFull, hStep]
    change (⟨sm.pstartCounter + 1, _⟩ : Divider 28) = _
    rw [hPstart]

/-- In `FINAL` the counter of `hidden` runs on, and only the flag is cleared. -/
theorem posedge_hidden_final (sm : BlockSM) (loaded : State) (h : sm.state = .final) :
    (sm.posedge false false loaded).hiddenDivider =
      if sm.hiddenCounter = 25000000 then ⟨0, !sm.hidden⟩ else ⟨sm.hiddenCounter + 1, false⟩ := by
  refine (assignSeconds_hidden _ _).trans ?_
  unfold assignHidden
  rw [if_pos h]
  by_cases hFull : sm.hiddenCounter = 25000000
  · rw [if_pos hFull, if_pos hFull]
    rfl
  · rw [if_neg hFull, if_neg hFull]
    rfl

/-- Equal in everything that the schedule depends on. -/
structure Alongside (s t : BlockSM) : Prop where
  state : s.state = t.state
  seconds : s.seconds = t.seconds
  counter : s.counter = t.counter

section TwoRuns

variable {s t : BlockSM}

theorem Alongside.posedge (h : s.Alongside t) (reset collision : Bool) (loaded : State) :
    (s.posedge reset collision loaded).Alongside (t.posedge reset collision loaded) := by
  cases reset with
  | true => exact ⟨rfl, rfl, rfl⟩
  | false =>
      cases collision with
      | true => exact ⟨rfl, rfl, rfl⟩
      | false =>
          have hKeep (old new : BlockSM) : (assignHidden old new).seconds = new.seconds := by
            unfold assignHidden
            split_ifs <;> rfl
          refine ⟨by rw [posedge_calm_state, posedge_calm_state], ?_, ?_⟩
          · change (assignSeconds s _).seconds = (assignSeconds t _).seconds
            simp only [assignSeconds, h.state, h.counter, h.seconds]
            split_ifs <;> simp only [hKeep]
          · change (assignSeconds s _).counter = (assignSeconds t _).counter
            simp only [assignSeconds, h.state, h.counter]
            split_ifs <;> rfl

theorem Alongside.step (h : s.Alongside t) (event : SMEvent) :
    (s.step event).Alongside (t.step event) := by
  cases event with
  | posedgeClk reset collision keycode endLevel =>
      simp only [BlockSM.step, h.state, h.seconds]
      exact h.posedge reset collision _
  | posedgeReset collision keycode endLevel =>
      simp only [BlockSM.step, h.state, h.seconds]
      exact h.posedge true collision _
  | posedgeCollision reset seen keycode endLevel =>
      simp only [BlockSM.step, h.state, h.seconds]
      exact h.posedge reset true _

/-- The next value of `hidden` and its counter depends on them and the state. -/
theorem posedge_hidden_congr (hState : s.state = t.state)
    (h : s.hiddenDivider = t.hiddenDivider) (reset collision : Bool) (loaded : State) :
    (s.posedge reset collision loaded).hiddenDivider =
      (t.posedge reset collision loaded).hiddenDivider := by
  cases reset with
  | true => exact h
  | false =>
      cases collision with
      | true => exact h
      | false =>
          by_cases hFinal : s.state = .final
          · have hCount : s.hiddenCounter = t.hiddenCounter := congrArg Divider.count h
            have hFlag : s.hidden = t.hidden := congrArg Divider.flag h
            rw [posedge_hidden_final s loaded hFinal,
              posedge_hidden_final t loaded (hState ▸ hFinal), hCount, hFlag]
          · rw [posedge_hidden s loaded hFinal, posedge_hidden t loaded (hState ▸ hFinal), h]

/-- Runs that are alongside each other with one divider stay so. -/
theorem Alongside.run (h : s.Alongside t) (hHidden : s.hiddenDivider = t.hiddenDivider)
    (events : List SMEvent) :
    (run BlockSM.step s events).hiddenDivider = (run BlockSM.step t events).hiddenDivider := by
  induction events generalizing s t with
  | nil => exact hHidden
  | cons event rest ih =>
      have hNext : (s.step event).hiddenDivider = (t.step event).hiddenDivider := by
        cases event with
        | posedgeClk reset collision keycode endLevel =>
            simp only [BlockSM.step, h.state, h.seconds]
            exact posedge_hidden_congr h.state hHidden reset collision _
        | posedgeReset collision keycode endLevel => exact hHidden
        | posedgeCollision reset seen keycode endLevel =>
            simp only [BlockSM.step, h.state, h.seconds]
            exact posedge_hidden_congr h.state hHidden reset true _
      exact ih (h.step event) hNext

end TwoRuns

/-- A `Clk` edge with no other input. -/
def quietEdge : SMEvent := .posedgeClk false false 0 fun _ => false

/-- On the title screen the divider of `hidden` runs freely. -/
theorem run_title (n : Nat) {sm : BlockSM} (h : sm.state = .reset) :
    (run step sm (List.replicate n quietEdge)).hiddenDivider =
      (Divider.step 25000000)^[n] sm.hiddenDivider := by
  induction n generalizing sm with
  | zero => rfl
  | succ n ih =>
      have hNot : sm.state ≠ .final := by
        rw [h]
        decide
      have hStay : (sm.step quietEdge).state = .reset := by
        change (sm.posedge false false (nextState sm.state false 0 sm.seconds _)).state = _
        rw [posedge_calm_state, h]
        rfl
      rw [List.replicate_succ, run_cons, ih hStay, Function.iterate_succ_apply]
      exact congrArg _ (posedge_hidden sm _ hNot)

/-- After `Reset` the flag alone shows the whole divider, so two runs that
always show the same flag have equal dividers. -/
theorem hiddenDivider_eq_of_agree {s t : BlockSM}
    (h : ∀ events, (run step s events).hidden = (run step t events).hidden) :
    s.hiddenDivider = t.hiddenDivider := by
  let pulse : SMEvent := .posedgeReset false 0 fun _ => false
  apply Divider.eq_of_flags_agree 25000000
  intro n
  have hShown := h (pulse :: List.replicate n quietEdge)
  have hFree (sm : BlockSM) : (run step sm (pulse :: List.replicate n quietEdge)).hiddenDivider =
      (Divider.step 25000000)^[n] sm.hiddenDivider := run_title n rfl
  have hFlag := congrArg Divider.flag (hFree s)
  have hFlag' := congrArg Divider.flag (hFree t)
  exact hFlag.symm.trans (hShown.trans hFlag')

/-- Two visits of `FINAL` blink alike, for every continuation, exactly when the
counters of `hidden` agree already, and the flags too if the counter is full. -/
theorem blink_agrees_iff {s t : BlockSM} (hs : s.state = .final) (ht : t.state = .final)
    (hSeconds : s.seconds = t.seconds) (hCounter : s.counter = t.counter)
    (hRange : s.hiddenCounter.toNat ≤ 25000000) (hRange' : t.hiddenCounter.toNat ≤ 25000000)
    (keycode : BitVec 8) (endLevel : Fin 30 → Bool) :
    (∀ events, (run step s (.posedgeClk false false keycode endLevel :: events)).hidden =
        (run step t (.posedgeClk false false keycode endLevel :: events)).hidden) ↔
      s.hiddenCounter = t.hiddenCounter ∧
        (s.hiddenCounter = 25000000 → s.hidden = t.hidden) := by
  have hAlong : s.Alongside t := ⟨hs.trans ht.symm, hSeconds, hCounter⟩
  let edge : SMEvent := .posedgeClk false false keycode endLevel
  have hLeft : (s.step edge).hiddenDivider = _ := posedge_hidden_final s _ hs
  have hRight : (t.step edge).hiddenDivider = _ := posedge_hidden_final t _ ht
  have hNoWrap (c : BitVec 28) (h : c.toNat ≤ 25000000) : c + 1 ≠ 0 := by
    intro hZero
    have hNat := congrArg BitVec.toNat hZero
    rw [BitVec.toNat_add] at hNat
    have hOne : (1 : BitVec 28).toNat = 1 := rfl
    have hNil : (0 : BitVec 28).toNat = 0 := rfl
    omega
  have hExact : (s.step edge).hiddenDivider = (t.step edge).hiddenDivider ↔
      s.hiddenCounter = t.hiddenCounter ∧
        (s.hiddenCounter = 25000000 → s.hidden = t.hidden) := by
    rw [hLeft, hRight]
    by_cases hFull : s.hiddenCounter = 25000000
    · by_cases hFull' : t.hiddenCounter = 25000000
      · simp [hFull, hFull']
      · have hDiffer : s.hiddenCounter ≠ t.hiddenCounter := fun hEq => hFull' (hEq ▸ hFull)
        have hMoved := (hNoWrap _ hRange').symm
        rw [if_pos hFull, if_neg hFull', Divider.mk.injEq]
        exact ⟨fun hBad => absurd hBad.1 hMoved, fun hBad => absurd hBad.1 hDiffer⟩
    · by_cases hFull' : t.hiddenCounter = 25000000
      · have hDiffer : s.hiddenCounter ≠ t.hiddenCounter := fun hEq => hFull (hEq ▸ hFull')
        have hMoved := hNoWrap _ hRange
        rw [if_neg hFull, if_pos hFull', Divider.mk.injEq]
        exact ⟨fun hBad => absurd hBad.1 hMoved, fun hBad => absurd hBad.1 hDiffer⟩
      · rw [if_neg hFull, if_neg hFull', Divider.mk.injEq, add_left_inj]
        exact ⟨fun hEq => ⟨hEq.1, fun hBad => absurd hBad hFull⟩, fun hEq => ⟨hEq.1, rfl⟩⟩
  rw [← hExact]
  constructor
  · intro hAgree
    exact hiddenDivider_eq_of_agree hAgree
  · intro hSame events
    exact congrArg Divider.flag ((hAlong.step edge).run hSame events)

/-- Two visits that differ only in the counter of `hidden`: two edges later one
of them hides its elements and the other does not. -/
theorem not_blink_agrees :
    ¬∀ s t : BlockSM, s.state = .final → t.state = .final → s.seconds = t.seconds →
      s.counter = t.counter → s.hiddenCounter.toNat ≤ 25000000 →
      t.hiddenCounter.toNat ≤ 25000000 → ∀ keycode endLevel events,
      (run step s (.posedgeClk false false keycode endLevel :: events)).hidden =
        (run step t (.posedgeClk false false keycode endLevel :: events)).hidden := by
  intro hAll
  have hSame := hAll ⟨.final, 0, 0, 24999999, false, false, 0⟩ ⟨.final, 0, 0, 0, false, false, 0⟩
    rfl rfl rfl rfl (by decide) (by decide) 0 (fun _ => false) [quietEdge]
  revert hSame
  decide

/-- Equal counters blink alike, whatever the flags were. -/
theorem blink_agrees_iff_equal :
    (run step ⟨.final, 7, 0, 41, false, true, 3⟩
        [.posedgeClk false false 0 fun _ => false, quietEdge]).hidden =
      (run step ⟨.final, 7, 9, 41, true, false, 3⟩
        [.posedgeClk false false 0 fun _ => false, quietEdge]).hidden :=
  (blink_agrees_iff (s := ⟨.final, 7, 0, 41, false, true, 3⟩)
    (t := ⟨.final, 7, 9, 41, true, false, 3⟩) rfl rfl rfl rfl (by decide) (by decide) 0
    fun _ => false).mpr ⟨rfl, fun h => absurd h (by decide)⟩ [quietEdge]

end BlockSM

end TwoBallGame
