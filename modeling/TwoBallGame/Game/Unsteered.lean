import TwoBallGame.Game.FirstLevel

/-! The game without a rotation key. Whatever else is pressed, blue rests on the left
point of the circle when `block3` comes down there, so the first level is never
passed, and a game that was started is hit again and again. -/
namespace TwoBallGame

open Clocked

namespace Ball

/-- The blue ball as a ball is left whose keys are not touched: on the left side of
the circle and not above its centre. -/
structure LeftAlone (b : Ball) : Prop where
  index : b.nextIndex = 31
  half : b.ballXPos.toNat ≤ 320
  lower : 390 ≤ b.ballYPos.toNat

variable {mine : Ball} {keycode : BitVec 8}

theorem leftAlone_of_start (hIndex : mine.nextIndex = startIndex false)
    (hX : mine.ballXPos = startX false) (hY : mine.ballYPos = ballYCenter) : mine.LeftAlone := by
  refine ⟨hIndex, ?_, ?_⟩
  · rw [hX]
    decide
  · rw [hY]
    decide

theorem LeftAlone.onCircle (h : mine.LeftAlone) : OnCircle mine.nextIndex := by
  rw [h.index]
  decide

/-- The signs that the default case reads off the position. -/
theorem LeftAlone.signs (h : mine.LeftAlone) (hRight : keycode ≠ 7) (hLeft : keycode ≠ 4) :
    mine.plusX keycode = false ∧ mine.plusY keycode = true := by
  have hHalf : mine.ballXPos ≤ ballXCenter := BitVec.le_def.mpr h.half
  have hLower : ballYCenter ≤ mine.ballYPos := BitVec.le_def.mpr h.lower
  rw [plusX, plusY, if_neg hRight, if_neg hLeft, if_neg hRight, if_neg hLeft,
    decide_eq_true hHalf, decide_eq_true hLower]
  exact ⟨rfl, rfl⟩

/-- A frame edge without a rotation key, the first one with an old table included. -/
theorem LeftAlone.frame (h : mine.LeftAlone) (hTables : mine.tables.InRange)
    (hRight : keycode ≠ 7) (hLeft : keycode ≠ 4) (reset : Bool) (e : ElementPorts)
    (other : Ball) : (mine.frame false reset keycode e other).LeftAlone := by
  cases hBack : mine.respawns reset e other with
  | true =>
      obtain ⟨hIndex, hX, hY⟩ := frame_of_respawns false reset keycode e mine other hBack
      exact leftAlone_of_start hIndex hX hY
  | false =>
      have hFrame := frame_of_turns false reset keycode e mine other hBack
      obtain ⟨hX, hY⟩ := rotateBranch_toNat h.onCircle hTables keycode
      obtain ⟨hPlusX, hPlusY⟩ := h.signs hRight hLeft
      rw [hPlusX] at hX
      rw [hPlusY] at hY
      refine ⟨?_, ?_, ?_⟩
      · rw [frame_nextIndex, hBack, turn_idle hRight hLeft]
        exact h.index
      · rw [hFrame]
        exact hX.trans_le (Nat.sub_le _ _)
      · rw [hFrame]
        exact (Nat.le_add_right _ _).trans_eq hY.symm

/-- The edge reads the row of the left point. -/
theorem LeftAlone.frame_getVals (h : mine.LeftAlone) (reset : Bool) (e : ElementPorts)
    (other : Ball) : (mine.frame false reset keycode e other).tables.getVals = ⟨0, 1000⟩ := by
  rw [frame_tables, h.index]
  rfl

/-- With that row read, the next edge puts the ball on the left point. -/
theorem LeftAlone.frame_point (h : mine.LeftAlone) (hVals : mine.tables.getVals = ⟨0, 1000⟩)
    (hRight : keycode ≠ 7) (hLeft : keycode ≠ 4) (reset : Bool) (e : ElementPorts)
    (other : Ball) : (mine.frame false reset keycode e other).ballXPos = 260 ∧
      (mine.frame false reset keycode e other).ballYPos = 390 := by
  cases hBack : mine.respawns reset e other with
  | true => exact (frame_of_respawns false reset keycode e mine other hBack).2
  | false =>
      have hRead : mine.readVals keycode = ⟨0, 1000⟩ := by
        rw [readVals, if_neg hRight, if_neg hLeft, hVals]
      obtain ⟨hX, hY⟩ := rotateBranch_point h.onCircle keycode
      obtain ⟨hPlusX, hPlusY⟩ := h.signs hRight hLeft
      rw [hPlusX, hRead] at hX
      rw [hPlusY, hRead] at hY
      rw [frame_of_turns false reset keycode e mine other hBack]
      exact ⟨hX, hY⟩

end Ball

/-- A key that turns the balls. -/
def GameEvent.Steers : GameEvent → Prop
  | .posedgeClk keycode => keycode = 7 ∨ keycode = 4
  | _ => False

namespace Game

/-- The title or the first level, not steered: blue reads its row in the first frame
of an element and is back on the left point after the second, and `block3` has not
come past it. -/
structure Unsteered (g : Game) : Prop where
  phase : g.sm.phase = .title ∨ g.sm.phase.InFirst
  blue : g.balls.blue.LeftAlone
  table : 0 < g.y 0 → g.balls.blue.tables.getVals = ⟨0, 1000⟩
  point : 1 < g.y 0 → g.balls.blue.ballXPos = 260 ∧ g.balls.blue.ballYPos = 390
  above : g.y 2 ≤ 370

section Unsteered

variable {g : Game} {keycode : BitVec 8}

theorem unsteered_of_clear (hPhase : g.sm.phase = .title ∨ g.sm.phase.InFirst)
    (hBlue : g.balls.blue.LeftAlone) (hClear : g.AllClear) : g.Unsteered := by
  have hZero (n : Fin 30) : g.y n = 0 := by
    rw [y, hClear n]
    rfl
  have hFirst := hZero 0
  have hThird := hZero 2
  exact ⟨hPhase, hBlue, fun hPos => by omega, fun hPos => by omega, by omega⟩

theorem unsteered_posedgeReset (g : Game) (keycode : BitVec 8) :
    (g.posedgeReset keycode).Unsteered := by
  refine unsteered_of_clear (Or.inl rfl) ?_ fun _ => rfl
  change (g.balls.posedgeReset keycode g.elementPorts).blue.LeftAlone
  rw [Balls.posedgeReset_eq]
  exact Ball.leftAlone_of_start rfl rfl rfl

/-- While `block3` is above blue, the last element of the level has not ended. -/
theorem Unsteered.last_low (h : g.Unsteered) (ho : g.Ordered) : g.endLevel 9 = false := by
  refine Bool.eq_false_iff.mpr fun hEnd => ?_
  have hGone := ho.ended 9 hEnd
  have hAbove := h.above
  rcases h.phase with hTitle | hFirst
  · have hZero := ho.ahead 9 (by rw [hTitle]; exact Nat.zero_le 9)
    omega
  · by_cases hLaunched : g.sm.phase.frontier ≤ 9
    · have hZero := ho.ahead 9 hLaunched
      omega
    · have hStart : g.sm.phase.first ≤ 2 := hFirst.flight.1.trans_le (Nat.zero_le 2)
      rcases ho.order 2 9 hStart (by decide) (Nat.lt_of_not_le hLaunched) with hLe | hDone <;>
        omega

/-- Nothing leads out of the first level but the end of its last element. -/
theorem Unsteered.phase_next (h : g.Unsteered) (ho : g.Ordered) (collision : Bool) :
    g.sm.phase.next collision keycode g.sm.seconds g.endLevel = .title ∨
      (g.sm.phase.next collision keycode g.sm.seconds g.endLevel).InFirst := by
  rcases h.phase with hTitle | hFirst
  · rw [hTitle, Phase.next]
    split_ifs with hHit
    · exact Or.inl rfl
    · exact Or.inr (Or.inl rfl)
    · exact Or.inl rfl
  · exact Or.inr (hFirst.next collision keycode g.sm.seconds (h.last_low ho))

theorem Unsteered.clockEdge (h : g.Unsteered) (ho : g.Ordered) (keycode : BitVec 8) :
    (g.clockEdge keycode).Unsteered := by
  have hPhase : (g.clockEdge keycode).sm.phase = .title ∨
      (g.clockEdge keycode).sm.phase.InFirst := by
    cases hReset : g.reset with
    | true =>
        refine Or.inl ?_
        rw [clockEdge_sm, hReset]
        rfl
    | false =>
        rw [clockEdge_phase hReset]
        exact h.phase_next ho g.collision
  by_cases hCleared : ((g.clockEdge keycode).sm.restart && !g.sm.restart) = true
  · refine unsteered_of_clear hPhase h.blue fun n => ?_
    rw [clockEdge_elements, if_pos hCleared]
    rfl
  · have hSame (n : Fin 30) : (g.clockEdge keycode).y n = g.y n := by
      rw [y, clockEdge_elements, if_neg hCleared]
      rfl
    refine ⟨hPhase, h.blue, fun hPos => ?_, fun hPos => ?_, ?_⟩
    · rw [hSame] at hPos
      exact h.table hPos
    · rw [hSame] at hPos
      exact h.point hPos
    · rw [hSame]
      exact h.above

/-- With `block3` launched, so is the first element, and it is not behind. -/
theorem Unsteered.point_of_third (h : g.Unsteered) (ho : g.Ordered) (hReady : g.ready 2 = true)
    (hLine : 1 < g.y 2) :
    g.balls.blue.ballXPos = 260 ∧ g.balls.blue.ballYPos = 390 := by
  obtain ⟨hFirst, hFront⟩ := (ready_iff g 2).mp hReady
  have hZero : g.sm.phase.first ≤ 0 := by
    rcases h.phase with hTitle | hIn
    · rw [hTitle]
      exact Nat.le_refl 0
    · exact hIn.flight.1.le
  have hOrder := ho.order 0 2 hZero (by decide) hFront
  exact h.point (by omega)

/-- `block3` does not pass the line at which it meets the left point. -/
theorem Unsteered.not_at_line (h : g.Unsteered) (ho : g.Ordered) (hRises : g.rises keycode = false)
    (hFree : (g.reset || g.sm.restart || g.collision) = false) (hReady : g.ready 2 = true) :
    g.y 2 ≠ 370 := by
  intro hLine
  obtain ⟨hX, hY⟩ := h.point_of_third ho hReady (by omega)
  have hTouch : g.balls.blue.collides g.elementPorts = true := by
    refine (g.balls.blue.collides_iff _).mpr ⟨.block 2, ?_⟩
    have hBlockX : g.elementPorts.blockX 2 = 250 := rfl
    have hBlockY : g.elementPorts.blockY 2 = 370 := BitVec.eq_of_toNat_eq hLine
    have hBlockS : g.elementPorts.blockS 2 = 20 := rfl
    change g.balls.blue.blockCollision g.elementPorts 2 = true
    unfold Ball.blockCollision
    rw [hX, hY, hBlockX, hBlockY, hBlockS]
    decide
  obtain ⟨⟨hReset, -⟩, hBlue, hRed⟩ : (g.reset = false ∧ g.sm.restart = false) ∧
      g.balls.blue.collision = false ∧ g.balls.red.collision = false := by
    simpa [collision, Bool.or_eq_false_iff] using hFree
  have hNone : g.balls.rises g.reset keycode g.elementPorts = false := hRises
  rw [Balls.rises_eq, Ball.hits, hReset, hBlue, hRed, hTouch] at hNone
  simp at hNone

/-- The second half of a `Clk` edge, if it is a frame edge. -/
theorem Unsteered.posedgeFrameClk (h : g.Unsteered) (hs : g.Steady) (ho : g.Ordered)
    (hRight : keycode ≠ 7) (hLeft : keycode ≠ 4)
    (hPhase : (g.posedgeFrameClk keycode).sm.phase = .title ∨
      (g.posedgeFrameClk keycode).sm.phase.InFirst) : (g.posedgeFrameClk keycode).Unsteered := by
  have hFrame : (g.posedgeFrameClk keycode).balls.blue =
      g.balls.blue.frame false g.reset keycode g.elementPorts g.balls.red := by
    rw [posedgeFrameClk_balls, Balls.posedgeFrameClk_blue]
  have hBlue : (g.posedgeFrameClk keycode).balls.blue.LeftAlone := by
    rw [hFrame]
    exact h.blue.frame hs.blue.tables hRight hLeft g.reset g.elementPorts g.balls.red
  cases hRises : g.rises keycode with
  | true =>
      refine unsteered_of_clear hPhase hBlue ?_
      rw [posedgeFrameClk_of_rises hRises]
      exact fun _ => rfl
  | false =>
      cases hFree : (g.reset || g.sm.restart || g.collision) with
      | true =>
          refine unsteered_of_clear hPhase hBlue ?_
          rw [posedgeFrameClk_of_not_rises hRises, hFree]
          exact fun _ => rfl
      | false =>
          refine ⟨hPhase, hBlue, fun _ => ?_, fun hPos => ?_, ?_⟩
          · rw [hFrame]
            exact h.blue.frame_getVals g.reset g.elementPorts g.balls.red
          · -- the first element came from line 1 at least
            have hBefore : 0 < g.y 0 := by
              rcases ho.frame_cases hRises hFree 0 with ⟨-, hSame, -⟩ | ⟨-, -, hSame, -⟩ |
                ⟨-, -, hFall, -⟩
              · omega
              · omega
              · simp only [Fin.val_zero, Nat.zero_div] at hFall
                omega
            rw [hFrame]
            exact h.blue.frame_point (h.table hBefore) hRight hLeft g.reset g.elementPorts
              g.balls.red
          · have hAbove := h.above
            rcases ho.frame_cases hRises hFree 2 with ⟨-, hSame, -⟩ | ⟨-, -, hSame, -⟩ |
              ⟨-, hReady, hFall, -⟩
            · omega
            · omega
            · have hNot := h.not_at_line ho hRises hFree hReady
              change (g.posedgeFrameClk keycode).y 2 = g.y 2 + 1 at hFall
              omega

/-- The phase after a rising `Collision` has been read once more. -/
theorem Unsteered.phase_frame (h : g.Unsteered) (ho : g.Ordered) (keycode : BitVec 8) :
    (g.posedgeFrameClk keycode).sm.phase = .title ∨
      (g.posedgeFrameClk keycode).sm.phase.InFirst := by
  cases hRises : g.rises keycode with
  | false =>
      rw [posedgeFrameClk_sm_of_not_rises hRises]
      exact h.phase
  | true =>
      rw [posedgeFrameClk_of_rises hRises]
      cases hReset : g.reset with
      | true => exact Or.inl rfl
      | false =>
          change (g.next keycode).phase = .title ∨ (g.next keycode).phase.InFirst
          rw [next_eq, BlockSM.next, nextState_phase]
          exact h.phase_next ho g.collision

theorem Unsteered.step (h : g.Unsteered) (hs : g.Steady) (ho : g.Ordered) {event : GameEvent}
    (hKey : ¬event.Steers) : (g.step event).Unsteered := by
  cases event with
  | posedgeReset keycode => exact unsteered_posedgeReset g keycode
  | negedgeReset => exact ⟨h.phase, h.blue, h.table, h.point, h.above⟩
  | posedgeClk keycode =>
      obtain ⟨hRight, hLeft⟩ := not_or.mp hKey
      have hHalf := h.clockEdge ho keycode
      have hHalfOrdered := ho.clockEdge keycode
      change (g.posedgeClk keycode).Unsteered
      cases hEdge : g.frameEdge with
      | false =>
          rw [posedgeClk_of_quiet hEdge]
          exact hHalf
      | true =>
          rw [posedgeClk_of_frame hEdge]
          exact hHalf.posedgeFrameClk (hs.clockEdge keycode) hHalfOrdered hRight hLeft
            (hHalf.phase_frame hHalfOrdered keycode)

theorem unsteered_run {events : List GameEvent} (h : g.Unsteered) (hReach : Reachable g)
    (hKeys : ∀ event ∈ events, ¬event.Steers) : (run Game.step g events).Unsteered := by
  induction events generalizing g with
  | nil => exact h
  | cons event rest ih =>
      obtain ⟨hNow, hLater⟩ := List.forall_mem_cons.mp hKeys
      exact ih (h.step hReach.steady hReach.ordered hNow) (hReach.step event) hLater

/-- Once started, the game leaves the first level neither way. -/
theorem Unsteered.inFirst_posedgeClk (h : g.Unsteered) (ho : g.Ordered) (hReset : g.reset = false)
    (hFirst : g.sm.phase.InFirst) (keycode : BitVec 8) :
    (g.posedgeClk keycode).sm.phase.InFirst := by
  have hHalf : (g.clockEdge keycode).sm.phase.InFirst := by
    rw [clockEdge_phase hReset]
    exact hFirst.next g.collision keycode g.sm.seconds (h.last_low ho)
  cases hHit : g.collisionAt keycode with
  | false =>
      rw [calm_sm hHit]
      exact hHalf
  | true =>
      obtain ⟨hEdge, hRises⟩ := Bool.and_eq_true_iff.mp hHit
      rw [posedgeClk_of_frame hEdge, posedgeFrameClk_of_rises hRises, clockEdge_reset, hReset]
      change ((g.clockEdge keycode).next keycode).phase.InFirst
      rw [next_eq, BlockSM.next, nextState_phase]
      exact hHalf.next _ keycode _ ((h.clockEdge ho keycode).last_low (ho.clockEdge keycode))

/-- A started game, as the `Clk` edges without a rotation key leave it. -/
structure Unattended (g : Game) : Prop where
  reachable : Reachable g
  resetLow : g.reset = false
  unsteered : g.Unsteered
  phase : g.sm.phase.InFirst

theorem Unattended.posedgeClk (h : g.Unattended) (hRight : keycode ≠ 7) (hLeft : keycode ≠ 4) :
    (g.posedgeClk keycode).Unattended := by
  have hs := h.reachable.steady
  have ho := h.reachable.ordered
  refine ⟨h.reachable.step (.posedgeClk keycode), ?_, ?_, ?_⟩
  · rw [posedgeClk_reset, h.resetLow]
  · have hKey : ¬(GameEvent.posedgeClk keycode).Steers := not_or.mpr ⟨hRight, hLeft⟩
    exact h.unsteered.step hs ho hKey
  · exact h.unsteered.inFirst_posedgeClk ho h.resetLow h.phase keycode

theorem Unattended.afterClk (h : g.Unattended) {keys : Nat → BitVec 8}
    (hKeys : ∀ n, keys n ≠ 7 ∧ keys n ≠ 4) (n : Nat) : (g.afterClk keys n).Unattended := by
  induction n with
  | zero => exact h
  | succ n ih =>
      rw [afterClk_succ]
      exact ih.posedgeClk (hKeys n).1 (hKeys n).2

/-- What is left of an attempt drops until the next hit. -/
theorem Unattended.next_hit (h : g.Unattended) {keys : Nat → BitVec 8}
    (hKeys : ∀ n, keys n ≠ 7 ∧ keys n ≠ 4) :
    ∃ n, (g.afterClk keys n).collisionAt (keys n) = true := by
  obtain ⟨n, -, hHit, -⟩ := exists_first_stop
    (fun n => (g.afterClk keys n).collisionAt (keys n) = true)
    (fun n => (g.afterClk keys n).remaining) fun n hGo => by
      have hNow := h.afterClk hKeys n
      exact remaining_drops hNow.reachable.steady hNow.reachable.ordered hNow.resetLow
        (Bool.eq_false_iff.mpr hGo) hNow.phase.flight.2.2
  exact ⟨n, hHit⟩

theorem startAndWait_not_steers (n : Nat) : ∀ event ∈ startAndWait n, ¬event.Steers := by
  intro event hMem
  rcases List.mem_cons.mp hMem with rfl | hWait
  · simp [GameEvent.Steers]
  · rw [List.eq_of_mem_replicate hWait]
    simp [GameEvent.Steers]

/-- The game right after the start key. -/
theorem unattended_started : started.Unattended := by
  have hKeys : ∀ event ∈ .negedgeReset :: startAndWait 0, ¬event.Steers :=
    List.forall_mem_cons.mpr ⟨fun hBad => hBad, startAndWait_not_steers 0⟩
  exact ⟨reachable_started, rfl, unsteered_run (unsteered_posedgeReset zero 0) reachable_zero hKeys,
    Or.inl rfl⟩

end Unsteered

/-- With any start keys and resets but no rotation key, the first level is never
passed: its third element does not get below blue. -/
theorem first_level_of_unsteered (g : Game) (hReach : Reachable g) (keycode : BitVec 8)
    (events : List GameEvent) (hKeys : ∀ event ∈ events, ¬event.Steers) :
    ((run Game.step (g.posedgeReset keycode) events).sm.phase = .title ∨
      (run Game.step (g.posedgeReset keycode) events).sm.phase.InFirst) ∧
      (run Game.step (g.posedgeReset keycode) events).y 2 ≤ 370 := by
  have hEnd := unsteered_run (unsteered_posedgeReset g keycode)
    (hReach.step (.posedgeReset keycode)) hKeys
  exact ⟨hEnd.phase, hEnd.above⟩

/-- Forty seconds after the start key, with several attempts in them. -/
theorem first_level_of_unsteered_fortySeconds :
    ((run Game.step ((zero.posedgeReset 0).posedgeReset 0)
        (.negedgeReset :: startAndWait 2000000000)).sm.phase = .title ∨
      (run Game.step ((zero.posedgeReset 0).posedgeReset 0)
        (.negedgeReset :: startAndWait 2000000000)).sm.phase.InFirst) ∧
      (run Game.step ((zero.posedgeReset 0).posedgeReset 0)
        (.negedgeReset :: startAndWait 2000000000)).y 2 ≤ 370 :=
  first_level_of_unsteered (zero.posedgeReset 0) reachable_zero 0
    (.negedgeReset :: startAndWait 2000000000)
    (List.forall_mem_cons.mpr ⟨fun hBad => hBad, startAndWait_not_steers 2000000000⟩)

/-- A game that has been started and is not steered is hit again and again. -/
theorem hit_again_of_unsteered (g : Game) (hReach : Reachable g) (keycode : BitVec 8)
    (events : List GameEvent) (hBefore : ∀ event ∈ events, ¬event.Steers)
    (hReset : (run Game.step (g.posedgeReset keycode) events).reset = false)
    (hStarted : (run Game.step (g.posedgeReset keycode) events).sm.phase ≠ .title)
    (keys : Nat → BitVec 8) (hKeys : ∀ n, keys n ≠ 7 ∧ keys n ≠ 4) (start : Nat) :
    ∃ n, start ≤ n ∧ ((run Game.step (g.posedgeReset keycode) events).afterClk keys n).collisionAt
      (keys n) = true := by
  have hResetReach := hReach.step (.posedgeReset keycode)
  have hNow := unsteered_run (unsteered_posedgeReset g keycode) hResetReach hBefore
  have hFirst := hNow.phase.resolve_left hStarted
  have hStart := Unattended.afterClk
    ⟨hResetReach.run_events events, hReset, hNow, hFirst⟩ hKeys start
  have hLater (n : Nat) : keys (start + n) ≠ 7 ∧ keys (start + n) ≠ 4 := hKeys (start + n)
  obtain ⟨n, hHit⟩ := hStart.next_hit hLater
  rw [← afterClk_add] at hHit
  exact ⟨start + n, Nat.le_add_right _ _, hHit⟩

/-- From the first `Clk` edge after power-up on. -/
theorem hit_again_of_unsteered_zero :
    ∃ n, 5 ≤ n ∧ ((run Game.step ((zero.posedgeReset 0).posedgeReset 0)
      [.negedgeReset, .posedgeClk 40]).afterClk (fun _ => 0) n).collisionAt 0 = true :=
  hit_again_of_unsteered _ reachable_zero 0 [.negedgeReset, .posedgeClk 40]
    (by simp [GameEvent.Steers]) (by decide) (by decide) (fun _ => 0)
    (fun _ => ⟨by decide, by decide⟩) 5

end Game

end TwoBallGame
