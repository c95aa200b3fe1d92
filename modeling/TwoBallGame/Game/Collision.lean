import TwoBallGame.Balls.Symmetry
import TwoBallGame.Game.Step

/-! What a collision does to the whole game. The state machine answers to the
level of `Collision`, and that level is gone at once if both balls raise it. -/
namespace TwoBallGame

open Clocked

namespace Game

/-- A level is in flight, nothing is reset, and its last element has not ended. -/
structure InPlay (g : Game) : Prop where
  playing : g.sm.phase.playing = true
  resetLow : g.reset = false
  blueLow : g.balls.blue.collision = false
  redLow : g.balls.red.collision = false
  lastLow : ∀ level last, g.sm.phase = .play level last →
    g.endLevel ⟨10 * level.val + 9, lastOf_lt level⟩ = false

/-- The level of `s` is started again: `BLOCK1`, `LEVEL2` or `FINAL`, the clock,
both balls and all elements are as a collision should leave them. -/
structure Restarted (s : State) (g : Game) : Prop where
  elements : ∀ n, (g.elements n).blockYPos = 0 ∧ g.endLevel n = false
  blueX : g.balls.blue.ballXPos = 260
  blueY : g.balls.blue.ballYPos = 390
  blueIndex : g.balls.blue.nextIndex = 31
  redX : g.balls.red.ballXPos = 380
  redY : g.balls.red.ballYPos = 390
  redIndex : g.balls.red.nextIndex = 1
  seconds : g.sm.seconds = 0
  counter : g.sm.counter = 0
  state : g.sm.state = s.phase.restart.state

/-- The game is put back properly from the first `Clk` edge after this frame
edge until the next one, whatever keys are down. -/
def RestartsLevel (keycode : BitVec 8) (g : Game) : Prop :=
  ∀ (keys : Nat → BitVec 8) (n : Nat), 1 ≤ n →
    (∀ m < n, ((g.posedgeFrameClk keycode).afterClk keys m).frameEdge = false) →
    Restarted g.sm.state ((g.posedgeFrameClk keycode).afterClk keys n)

section Frame

variable {g : Game} {keycode : BitVec 8}

/-- At the frame edge a level in flight moves to its next launch at most. -/
theorem InPlay.phase_frame (h : g.InPlay) (hRises : g.rises keycode = true) :
    ∃ level last last', g.sm.phase = .play level last ∧
      (g.posedgeFrameClk keycode).sm.phase = .play level last' := by
  have hPlaying := h.playing
  cases hPhase : g.sm.phase with
  | title => rw [hPhase] at hPlaying; cases hPlaying
  | wait level => rw [hPhase] at hPlaying; cases hPlaying
  | closing level => rw [hPhase] at hPlaying; cases hPlaying
  | play level last =>
      have hCollision : g.collision = false := by
        rw [collision, h.blueLow, h.redLow]
        rfl
      have hNext : (g.posedgeFrameClk keycode).sm.phase =
          if g.sm.phase.leaves keycode g.sm.seconds g.endLevel then g.sm.phase.succ
          else g.sm.phase := by
        rw [posedgeFrameClk_of_rises hRises, h.resetLow, next_eq, hCollision]
        exact nextState_of_calm _ _ _ _
      rw [hPhase] at hNext
      by_cases hLast : last = 9
      · refine ⟨level, last, last, rfl, ?_⟩
        rw [hNext]
        simp [Phase.leaves, hLast, h.lastLow level last hPhase]
      · by_cases hGo :
            (Phase.play level last).leaves keycode g.sm.seconds g.endLevel = true
        · refine ⟨level, last, last + 1, rfl, ?_⟩
          rw [hNext, if_pos hGo, Phase.succ, if_neg hLast]
        · exact ⟨level, last, last, rfl, by rw [hNext, if_neg hGo]⟩

/-- The balls, the elements and the count right after the frame edge. -/
theorem InPlay.frame (h : g.InPlay) (hRises : g.rises keycode = true) :
    (g.posedgeFrameClk keycode).reset = false ∧ (g.posedgeFrameClk keycode).AllClear ∧
      (g.posedgeFrameClk keycode).sm.seconds = 0 ∧
      (g.posedgeFrameClk keycode).sm.counter = 0 := by
  rw [posedgeFrameClk_of_rises hRises]
  obtain ⟨hSeconds, hCounter, -⟩ :=
    g.sm.posedge_cleared (g.next keycode) g.reset true (Bool.or_true _)
  exact ⟨h.resetLow, fun _ => rfl, hSeconds, hCounter⟩

theorem InPlay.hits (h : g.InPlay) :
    g.balls.blue.hits g.reset g.elementPorts g.balls.red =
        g.balls.blue.collides g.elementPorts ∧
      g.balls.red.hits g.reset g.elementPorts g.balls.blue =
        g.balls.red.collides g.elementPorts := by
  simp [Ball.hits, h.resetLow, h.blueLow, h.redLow]

theorem InPlay.rises_of_touch (h : g.InPlay) (keycode : BitVec 8)
    (hTouch : g.balls.blue.collides g.elementPorts = true ∨
      g.balls.red.collides g.elementPorts = true) : g.rises keycode = true := by
  obtain ⟨hBlue, hRed⟩ := h.hits
  rw [rises, Balls.rises_eq, hBlue, hRed, h.blueLow, h.redLow]
  simpa using hTouch

/-- Both balls are put back to their start points. -/
theorem InPlay.respawned (h : g.InPlay) (keycode : BitVec 8)
    (hTouch : g.balls.blue.collides g.elementPorts = true ∨
      g.balls.red.collides g.elementPorts = true) :
    (g.posedgeFrameClk keycode).balls.blue.ballXPos = 260 ∧
      (g.posedgeFrameClk keycode).balls.blue.ballYPos = 390 ∧
      (g.posedgeFrameClk keycode).balls.blue.nextIndex = 31 ∧
      (g.posedgeFrameClk keycode).balls.red.ballXPos = 380 ∧
      (g.posedgeFrameClk keycode).balls.red.ballYPos = 390 ∧
      (g.posedgeFrameClk keycode).balls.red.nextIndex = 1 := by
  obtain ⟨hBlue, hRed⟩ := h.hits
  have hBlueBack : g.balls.blue.respawns g.reset g.elementPorts g.balls.red = true := by
    rw [Ball.respawns, hBlue, hRed]
    rcases hTouch with hTouch | hTouch <;> simp [hTouch]
  have hRedBack : g.balls.red.respawns g.reset g.elementPorts g.balls.blue = true := by
    rw [Ball.respawns, hBlue, hRed]
    rcases hTouch with hTouch | hTouch <;> simp [hTouch]
  obtain ⟨hBlueIndex, hBlueX, hBlueY⟩ :=
    Ball.frame_of_respawns false g.reset keycode g.elementPorts _ _ hBlueBack
  obtain ⟨hRedIndex, hRedX, hRedY⟩ :=
    Ball.frame_of_respawns true g.reset keycode g.elementPorts _ _ hRedBack
  rw [posedgeFrameClk_balls]
  exact ⟨hBlueX, hBlueY, hBlueIndex, hRedX, hRedY, hRedIndex⟩

theorem InPlay.collision_frame (h : g.InPlay) :
    (g.posedgeFrameClk keycode).collision =
      (g.balls.blue.collides g.elementPorts ^^ g.balls.red.collides g.elementPorts) := by
  obtain ⟨hBlue, hRed⟩ := h.hits
  rw [collision, posedgeFrameClk_balls, Balls.posedgeFrameClk_blue, Balls.posedgeFrameClk_red,
    Ball.frame_collision, Ball.frame_collision, hBlue, hRed]
  cases g.balls.blue.collides g.elementPorts <;>
    cases g.balls.red.collides g.elementPorts <;> rfl

end Frame

/-- While a `Collision` is held: elements clear, and the state machine already
in its restart phase or one edge from it. -/
structure Held (target : Phase) (balls : Balls) (g : Game) : Prop where
  resetLow : g.reset = false
  high : g.collision = true
  clear : g.AllClear
  balls : g.balls = balls
  target : g.sm.phase.playing = true ∧ g.sm.phase.restart = target ∨
    g.sm.phase.playing = false ∧ g.sm.phase = target ∧ g.sm.phase ≠ .title ∧ g.sm.seconds = 0

/-- One `Clk` edge of a held collision reaches the restart phase and stays. -/
theorem Held.clockEdge {target : Phase} {balls : Balls} {g : Game} (h : g.Held target balls)
    (hTarget : target.playing = true ∧ target.restart = target ∨
      target.playing = false ∧ target ≠ .title) (keycode : BitVec 8) :
    (g.clockEdge keycode).Held target balls ∧ (g.clockEdge keycode).sm.phase = target ∧
      (g.clockEdge keycode).sm.seconds = 0 ∧ (g.clockEdge keycode).sm.counter = 0 := by
  have hSm : (g.clockEdge keycode).sm = g.sm.posedge false true (g.next keycode) := by
    rw [clockEdge_sm, h.resetLow, h.high]
  obtain ⟨hSeconds, hCounter, hState⟩ :=
    g.sm.posedge_cleared (g.next keycode) false true rfl
  have hPhase : (g.clockEdge keycode).sm.phase = target := by
    have hNext := clockEdge_phase h.resetLow keycode
    rw [h.high] at hNext
    rw [hNext, Phase.next]
    rcases h.target with ⟨hPlaying, hRestart⟩ | ⟨hIdle, hSame, hNotTitle, hZero⟩
    · rw [hPlaying]
      exact hRestart
    · have hStay : g.sm.phase.leaves keycode g.sm.seconds g.endLevel = false := by
        rw [hZero]
        cases hCase : g.sm.phase with
        | title => exact absurd hCase hNotTitle
        | wait level => fin_cases level <;> rfl
        | play level last => rw [hCase] at hIdle; cases hIdle
        | closing level => fin_cases level <;> rfl
      rw [hIdle, hStay]
      exact hSame
  rw [← hSm] at hSeconds hCounter
  refine ⟨⟨h.resetLow, h.high, ?_, h.balls, ?_⟩, hPhase, hSeconds, hCounter⟩
  · intro n
    rw [clockEdge_elements]
    split_ifs
    · exact moveBlocks_clear n
    · exact h.clear n
  · rw [hPhase]
    rcases hTarget with ⟨hPlaying, hRestart⟩ | ⟨hIdle, hNotTitle⟩
    · exact Or.inl ⟨hPlaying, hRestart⟩
    · exact Or.inr ⟨hIdle, rfl, hNotTitle, hSeconds⟩

/-- The hold lasts until the next frame edge. -/
theorem Held.afterClk {target : Phase} {balls : Balls} {g : Game} (h : g.Held target balls)
    (hTarget : target.playing = true ∧ target.restart = target ∨
      target.playing = false ∧ target ≠ .title) (keys : Nat → BitVec 8) (n : Nat)
    (hQuiet : ∀ m < n, (g.afterClk keys m).frameEdge = false) :
    (g.afterClk keys n).Held target balls := by
  induction n with
  | zero => exact h
  | succ n ih =>
      have hHeld := ih fun m hm => hQuiet m (by omega)
      rw [afterClk_succ, posedgeClk_of_quiet (hQuiet n (by omega))]
      exact (hHeld.clockEdge hTarget (keys n)).1

/-- The phase in which a level starts again is itself kept by a collision. -/
theorem restart_target (level : Fin 3) (last : Fin 10) :
    (Phase.play level last).restart.playing = true ∧
        (Phase.play level last).restart.restart = (Phase.play level last).restart ∨
      (Phase.play level last).restart.playing = false ∧
        (Phase.play level last).restart ≠ .title := by
  revert level last
  decide

theorem restart_ne_last (level : Fin 3) (last : Fin 10) :
    (Phase.play level last).restart ≠ .play level 9 := by
  revert level last
  decide

section Exact

variable {g : Game} {keycode : BitVec 8}

/-- A single `Collision` is held, and everything is put back. -/
theorem InPlay.restartsLevel (h : g.InPlay)
    (hOne : (g.balls.blue.collides g.elementPorts ^^
      g.balls.red.collides g.elementPorts) = true) : g.RestartsLevel keycode := by
  intro keys n hn hQuiet
  have hTouch : g.balls.blue.collides g.elementPorts = true ∨
      g.balls.red.collides g.elementPorts = true := by
    revert hOne
    cases g.balls.blue.collides g.elementPorts <;> simp
  have hRises := h.rises_of_touch keycode hTouch
  obtain ⟨level, last, last', hPhase, hPhase'⟩ := h.phase_frame hRises
  obtain ⟨hReset, hClear, -, -⟩ := h.frame hRises
  have hTarget := restart_target level last
  have hHeld : (g.posedgeFrameClk keycode).Held (Phase.play level last).restart
      (g.posedgeFrameClk keycode).balls := by
    refine ⟨hReset, ?_, hClear, rfl, Or.inl ?_⟩
    · rw [h.collision_frame, hOne]
    · rw [hPhase']
      exact ⟨rfl, rfl⟩
  obtain ⟨m, rfl⟩ : ∃ m, n = m + 1 := ⟨n - 1, by omega⟩
  have hBefore := hHeld.afterClk hTarget keys m fun i hi => hQuiet i (by omega)
  have hLast := hBefore.clockEdge hTarget (keys m)
  rw [← posedgeClk_of_quiet (hQuiet m (by omega)), ← afterClk_succ] at hLast
  obtain ⟨hHeldNow, hPhaseNow, hSeconds, hCounter⟩ := hLast
  obtain ⟨hBlueX, hBlueY, hBlueIndex, hRedX, hRedY, hRedIndex⟩ :=
    h.respawned keycode hTouch
  have hBalls := hHeldNow.balls
  refine ⟨fun i => ?_, by rw [hBalls, hBlueX], by rw [hBalls, hBlueY], by rw [hBalls, hBlueIndex],
    by rw [hBalls, hRedX], by rw [hBalls, hRedY], by rw [hBalls, hRedIndex], hSeconds, hCounter, ?_⟩
  · rw [endLevel, hHeldNow.clear i]
    exact ⟨rfl, rfl⟩
  · have hState : g.sm.state.phase = .play level last := hPhase
    rw [hState, ← hPhaseNow]
    exact (State.phase_state _).symm

/-- With two hits no `Collision` is left high, and the state machine goes on
counting from the launch it has reached. -/
theorem InPlay.not_restartsLevel (h : g.InPlay) (hVs : g.vga.vs = true)
    (hBlue : g.balls.blue.collides g.elementPorts = true)
    (hRed : g.balls.red.collides g.elementPorts = true) : ¬g.RestartsLevel keycode := by
  intro hRestarts
  have hRises := h.rises_of_touch keycode (Or.inl hBlue)
  obtain ⟨level, last, last', hPhase, hPhase'⟩ := h.phase_frame hRises
  obtain ⟨hReset, hClear, hSeconds, hCounter⟩ := h.frame hRises
  have hLow : (g.posedgeFrameClk keycode).collision = false := by
    rw [h.collision_frame, hBlue, hRed]
    rfl
  have hQuiet : (g.posedgeFrameClk keycode).frameEdge = false := by
    rw [frameEdge, VgaController.vsRises, posedgeFrameClk_vga, hVs]
    simp
  have hNow := hRestarts (fun _ => 0) 1 (le_refl 1) fun m hm => by
    obtain rfl : m = 0 := by omega
    exact hQuiet
  rw [afterClk_succ, afterClk_zero, posedgeClk_of_quiet hQuiet] at hNow
  have hSm : ((g.posedgeFrameClk keycode).clockEdge 0).sm =
      (g.posedgeFrameClk keycode).sm.posedge false false
        ((g.posedgeFrameClk keycode).sm.next false 0 (g.posedgeFrameClk keycode).endLevel) := by
    rw [clockEdge_sm, hReset, next_eq, hLow]
  by_cases hLast : last' = 9
  · -- the last launch waits for an element that has just been cleared
    have hStay := (g.posedgeFrameClk keycode).sm.posedge_calm_phase 0
      (g.posedgeFrameClk keycode).endLevel
    rw [← hSm, hPhase', hLast] at hStay
    have hEnd : (g.posedgeFrameClk keycode).endLevel ⟨10 * level.val + 9, by omega⟩ = false := by
      rw [endLevel, hClear]
    rw [Phase.leaves, if_pos rfl, hEnd] at hStay
    have hState : g.sm.state.phase = .play level last := hPhase
    have hPhaseNow := congrArg State.phase hNow.state
    rw [Phase.state_phase, hState] at hPhaseNow
    rw [BlockSM.phase] at hStay
    rw [hStay, if_neg Bool.false_ne_true] at hPhaseNow
    exact restart_ne_last level last hPhaseNow.symm
  · -- the other launches count on
    obtain ⟨d, hDeadline⟩ : ∃ d, (g.posedgeFrameClk keycode).sm.phase.deadline = some d := by
      rw [hPhase']
      exact ⟨_, if_neg hLast⟩
    have hTimed := BlockSM.timed_of_cleared hSeconds hCounter
    have hTicks := (hTimed.posedge_ticks ((g.posedgeFrameClk keycode).sm.next false 0
      (g.posedgeFrameClk keycode).endLevel) hDeadline).1
    rw [← hSm] at hTicks
    rw [BlockSM.ticks_of_cleared hNow.seconds hNow.counter] at hTicks
    omega

end Exact

/-- In every state in play with `vs` high, a frame edge at which some ball
touches an element restarts the level properly exactly when only one does. -/
theorem restartsLevel_iff (g : Game) (keycode : BitVec 8) (h : g.InPlay)
    (hVs : g.vga.vs = true)
    (hTouch : g.balls.blue.collides g.elementPorts = true ∨
      g.balls.red.collides g.elementPorts = true) :
    g.RestartsLevel keycode ↔
      ¬(g.balls.blue.collides g.elementPorts = true ∧
        g.balls.red.collides g.elementPorts = true) := by
  constructor
  · rintro hRestarts ⟨hBlue, hRed⟩
    exact h.not_restartsLevel hVs hBlue hRed hRestarts
  · intro hNot
    apply h.restartsLevel
    revert hTouch hNot
    cases g.balls.blue.collides g.elementPorts <;>
      cases g.balls.red.collides g.elementPorts <;> simp

/-- `BLOCK3` in its fourth second, with the elements at the given lines. -/
def inFlight (lines : Fin 30 → BitVec 10) : Game :=
  { reset := false
    vga := { clkdiv := true, hc := 1, vc := 491, hs := true, vs := true }
    sm :=
      { state := .block3, counter := 100, pstartCounter := 0, hiddenCounter := 0
        pstart := false, hidden := false, seconds := 6 }
    balls := Balls.settled
    elements := fun n => ⟨lines n, 1, false⟩ }

theorem inPlay_inFlight (lines : Fin 30 → BitVec 10) : (inFlight lines).InPlay :=
  ⟨rfl, rfl, rfl, rfl, fun _ _ _ => rfl⟩

/-- `block3` at line 380 meets blue alone. -/
theorem restartsLevel_iff_oneHit :
    (inFlight fun n => if n = 2 then 380 else 0).RestartsLevel 0 ↔
      ¬((inFlight fun n => if n = 2 then 380 else 0).balls.blue.collides
            (inFlight fun n => if n = 2 then 380 else 0).elementPorts = true ∧
        (inFlight fun n => if n = 2 then 380 else 0).balls.red.collides
            (inFlight fun n => if n = 2 then 380 else 0).elementPorts = true) :=
  restartsLevel_iff _ 0 (inPlay_inFlight _) rfl (Or.inl (by decide))

/-- `block1` and `block3` at line 380 meet both balls, which clear each other's
`Collision`; the state machine is still in `BLOCK3` one edge later. -/
theorem not_restartsLevel_twoHits :
    (inFlight fun n => if n = 0 ∨ n = 2 then 380 else 0).InPlay ∧
      (inFlight fun n => if n = 0 ∨ n = 2 then 380 else 0).balls.blue.collides
        (inFlight fun n => if n = 0 ∨ n = 2 then 380 else 0).elementPorts = true ∧
      ¬(inFlight fun n => if n = 0 ∨ n = 2 then 380 else 0).RestartsLevel 0 := by
  refine ⟨inPlay_inFlight _, by decide, fun hRestarts => ?_⟩
  have hNow := hRestarts (fun _ => 0) 1 (le_refl 1) fun m hm => by
    obtain rfl : m = 0 := by omega
    decide
  have hState := hNow.state
  revert hState
  decide

end Game

end TwoBallGame
