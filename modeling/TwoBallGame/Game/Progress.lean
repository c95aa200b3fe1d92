import TwoBallGame.Game.Elements

/-! The game never gets stuck. A natural number that counts phases, seconds,
lines and frames drops at every calm `Clk` edge until the title is back. -/
namespace TwoBallGame

open Clocked

namespace Phase

/-- How many phases are left until the title. -/
def rank : Phase → Nat
  | title => 0
  | wait level => 12 * (2 - level.val) + 12
  | play level last => 12 * (2 - level.val) + 11 - last.val
  | closing level => 12 * (2 - level.val) + 1

theorem rank_le (p : Phase) : p.rank ≤ 36 := by
  cases p with
  | title => decide
  | wait level => revert level; decide
  | play level last => revert level last; decide
  | closing level => revert level; decide

theorem rank_succ {p : Phase} (h : p ≠ title) : p.succ.rank + 1 = p.rank := by
  cases p with
  | title => exact absurd rfl h
  | wait level => revert level; decide
  | play level last => revert level last; decide
  | closing level => revert level; decide

theorem rank_restart {p : Phase} (h : p.playing = true) : p.restart ≠ title := by
  cases p with
  | play level last => revert level last; decide
  | title => cases h
  | wait level => cases h
  | closing level => cases h

end Phase

namespace Game

/-- The element whose end the last launch of a level waits for. -/
def lastOf (level : Fin 3) : Fin 30 := ⟨10 * level.val + 9, lastOf_lt level⟩

/-- An upper bound on the calm `Clk` edges left in the phase: up to its deadline,
or until the last element has fallen off the screen and been seen to. -/
def left (g : Game) : Nat :=
  match g.sm.phase with
  | .title => 0
  | .play level last =>
      if last = 9 then
        if g.endLevel (lastOf level) then 0
        else 840000 * (480 - g.y (lastOf level)) + (840000 - g.vga.phase)
      else 50000001 * ((Phase.play level last).deadline.getD 0) - g.sm.ticks
  | p => 50000001 * (p.deadline.getD 0) - g.sm.ticks

/-- The measure. A held `Collision` is let go by the next frame edge. -/
def remaining (g : Game) : Nat :=
  if g.collision then 37000000000 + (840000 - g.vga.phase)
  else 1000000000 * g.sm.phase.rank + g.left

theorem left_of_deadline {g : Game} {d : Nat} (h : g.sm.phase.deadline = some d) :
    g.left = 50000001 * d - g.sm.ticks := by
  unfold left
  cases hPhase : g.sm.phase with
  | title => rw [hPhase] at h; cases h
  | wait level => rw [hPhase] at h; simp only [h, Option.getD_some]
  | closing level => rw [hPhase] at h; simp only [h, Option.getD_some]
  | play level last =>
      rw [hPhase] at h
      have hNine : last ≠ 9 := by
        rintro rfl
        cases h
      simp only [if_neg hNine, h, Option.getD_some]

theorem left_of_last {g : Game} {level : Fin 3} (h : g.sm.phase = .play level 9) :
    g.left = if g.endLevel (lastOf level) then 0
      else 840000 * (480 - g.y (lastOf level)) + (840000 - g.vga.phase) := by
  unfold left
  rw [h]
  exact if_pos rfl

theorem left_lt (g : Game) : g.left < 1000000000 := by
  cases hDeadline : g.sm.phase.deadline with
  | some d =>
      have hLe := (Phase.deadline_le hDeadline).2
      rw [left_of_deadline hDeadline]
      omega
  | none =>
      cases hPhase : g.sm.phase with
      | title =>
          unfold left
          rw [hPhase]
          exact Nat.zero_lt_of_ne_zero (by decide)
      | wait level => rw [hPhase] at hDeadline; cases hDeadline
      | closing level => rw [hPhase] at hDeadline; cases hDeadline
      | play level last =>
          have hNine : last = 9 := by
            by_contra hNot
            rw [hPhase, Phase.deadline, if_neg hNot] at hDeadline
            cases hDeadline
          rw [left_of_last (hNine ▸ hPhase)]
          split_ifs <;> omega

theorem remaining_le (g : Game) : g.remaining ≤ 37000840000 := by
  have hRank := g.sm.phase.rank_le
  have hLeft := g.left_lt
  unfold remaining
  split_ifs <;> omega

section Drop

variable {g : Game} {keycode : BitVec 8}

/-- Where every element is at the top, no ball touches any. -/
theorem not_collides_of_clear (ho : g.Ordered) (hClear : g.AllClear) {b : Ball}
    (hb : b.InBounds) : b.collides g.elementPorts = false := by
  refine Bool.eq_false_iff.mpr fun hTouch => ?_
  obtain ⟨x, hMeets⟩ := (b.collides_iff _).mp hTouch
  obtain ⟨-, -, hLow, -⟩ := ho.ready_of_meets hb hMeets
  rw [y, hClear x.wire] at hLow
  exact absurd hLow (by decide)

theorem not_rises_of_clear (hs : g.Steady) (ho : g.Ordered) (hClear : g.AllClear) :
    g.rises keycode = false := by
  refine Bool.eq_false_iff.mpr fun hRises => ?_
  obtain ⟨b, hb, hTouch⟩ := hs.touch_of_rises hRises
  rw [not_collides_of_clear ho hClear hb] at hTouch
  cases hTouch

theorem collision_low_of_rises (hs : g.Steady) (ho : g.Ordered) (hRises : g.rises keycode = true) :
    g.collision = false := by
  refine Bool.eq_false_iff.mpr fun hHigh => ?_
  rw [not_rises_of_clear hs ho (ho.clear (Or.inr (Or.inr hHigh)))] at hRises
  cases hRises

/-- While a `Collision` is high nothing can be touched, so a frame edge ends it. -/
theorem collision_released (hs : g.Steady) (ho : g.Ordered) (hHigh : g.collision = true) :
    (g.posedgeFrameClk keycode).collision = false := by
  have hClear := ho.clear (Or.inr (Or.inr hHigh))
  rw [collision, posedgeFrameClk_balls, Balls.posedgeFrameClk_blue, Balls.posedgeFrameClk_red,
    Ball.frame_collision, Ball.frame_collision, Ball.hits, Ball.hits,
    not_collides_of_clear ho hClear hs.blue, not_collides_of_clear ho hClear hs.red]
  simp

theorem remaining_of_low (h : g.collision = false) :
    g.remaining = 1000000000 * g.sm.phase.rank + g.left := by
  rw [remaining, h]
  exact if_neg Bool.false_ne_true

theorem remaining_of_high (h : g.collision = true) :
    g.remaining = 37000000000 + (840000 - g.vga.phase) := by
  rw [remaining, h]
  exact if_pos rfl

/-- A calm `Clk` edge leaves the state machine where its clock takes it. -/
theorem calm_sm (hCalm : g.collisionAt keycode = false) :
    (g.posedgeClk keycode).sm = (g.clockEdge keycode).sm := by
  cases hEdge : g.frameEdge with
  | true =>
      rw [collisionAt, hEdge, Bool.true_and] at hCalm
      rw [posedgeClk_of_frame hEdge, posedgeFrameClk_sm_of_not_rises hCalm]
  | false => rw [posedgeClk_of_quiet hEdge]

/-- A calm `Clk` edge raises no `Collision`. -/
theorem calm_collision (hCalm : g.collisionAt keycode = false) (hLow : g.collision = false) :
    (g.posedgeClk keycode).collision = false := by
  cases hEdge : g.frameEdge with
  | true =>
      rw [collisionAt, hEdge, Bool.true_and] at hCalm
      rw [posedgeClk_of_frame hEdge]
      exact collision_of_not_rises hCalm hLow
  | false =>
      rw [posedgeClk_of_quiet hEdge]
      exact hLow

/-- A held `Collision` is one edge nearer to its release. -/
theorem remaining_drops_held (hs : g.Steady) (ho : g.Ordered) (hReset : g.reset = false)
    (hHigh : g.collision = true) : (g.posedgeClk keycode).remaining < g.remaining := by
  have hLt := g.vga.phase_lt
  rw [remaining_of_high hHigh]
  cases hEdge : g.frameEdge with
  | true =>
      have hRelease : (g.posedgeClk keycode).collision = false := by
        rw [posedgeClk_of_frame hEdge]
        exact collision_released (hs.clockEdge keycode) (ho.clockEdge keycode) hHigh
      have hRank := (g.posedgeClk keycode).sm.phase.rank_le
      have hLeft := (g.posedgeClk keycode).left_lt
      rw [remaining_of_low hRelease]
      omega
  | false =>
      have hStill : (g.posedgeClk keycode).collision = true := by
        rw [posedgeClk_of_quiet hEdge]
        exact hHigh
      have hPhase := hs.phase_of_quiet hReset hEdge keycode
      rw [remaining_of_high hStill, hPhase]
      omega

/-- The wait for the last element of a level. -/
theorem left_drops_last (hs : g.Steady) (ho : g.Ordered) (hReset : g.reset = false)
    (hLow : g.collision = false) (hCalm : g.collisionAt keycode = false) {level : Fin 3}
    (hPhase : g.sm.phase = .play level 9)
    (hSame : (g.clockEdge keycode).sm.phase = .play level 9)
    (hWait : g.endLevel (lastOf level) = false) : (g.posedgeClk keycode).left < g.left := by
  have hLt := g.vga.phase_lt
  have hTop := ho.top (lastOf level)
  have hSm := calm_sm hCalm
  have hNow : (g.posedgeClk keycode).sm.phase = .play level 9 := by rw [hSm, hSame]
  have hNotTitle : (g.clockEdge keycode).sm.phase ≠ .title := by
    rw [hSame]
    exact fun hBad => nomatch hBad
  have hY := clockEdge_y_of_ne_title hNotTitle (lastOf level)
  have hEnd : (g.clockEdge keycode).endLevel (lastOf level) = g.endLevel (lastOf level) := by
    rw [endLevel, clockEdge_elements_of_ne_title hNotTitle]
    rfl
  rw [left_of_last hNow, left_of_last hPhase, hWait, if_neg Bool.false_ne_true]
  cases hEdge : g.frameEdge with
  | false =>
      have hVga := hs.phase_of_quiet hReset hEdge keycode
      have hVgaLt := (g.posedgeClk keycode).vga.phase_lt
      rw [hVga] at hVgaLt
      rw [hVga, posedgeClk_of_quiet hEdge, hY, hEnd, hWait, if_neg Bool.false_ne_true]
      omega
  | true =>
      rw [collisionAt, hEdge, Bool.true_and] at hCalm
      have hFree := free_of_ne_title hNotTitle hReset hLow
      have hMoves := (ho.clockEdge keycode).frame_cases hCalm hFree (lastOf level)
      rw [posedgeClk_of_frame hEdge]
      rcases hMoves with ⟨-, -, hEnded⟩ | ⟨-, hNot, -⟩ | ⟨hOn, -, hFall, -⟩
      · rw [hEnded, if_pos rfl]
        omega
      · rw [ready_eq_false_iff, hSame] at hNot
        simp only [lastOf, Phase.first, Phase.frontier] at hNot
        have hNine : (9 : Fin 10).val = 9 := rfl
        omega
      · rw [hFall]
        split_ifs <;> omega

/-- Every calm `Clk` edge outside the title brings it nearer. -/
theorem remaining_drops (hs : g.Steady) (ho : g.Ordered) (hReset : g.reset = false)
    (hCalm : g.collisionAt keycode = false) (hPhase : g.sm.phase ≠ .title) :
    (g.posedgeClk keycode).remaining < g.remaining := by
  cases hHigh : g.collision with
  | true => exact remaining_drops_held hs ho hReset hHigh
  | false =>
      rw [remaining_of_low hHigh, remaining_of_low (calm_collision hCalm hHigh)]
      have hSm : (g.posedgeClk keycode).sm =
          g.sm.posedge false false (g.sm.next false keycode g.endLevel) := by
        rw [calm_sm hCalm, clockEdge_sm, hReset, next_eq, hHigh]
      have hNext := g.sm.posedge_calm_phase keycode g.endLevel
      rw [← hSm] at hNext
      have hLeft := (g.posedgeClk keycode).left_lt
      by_cases hGo : g.sm.phase.leaves keycode g.sm.seconds g.endLevel = true
      · rw [if_pos hGo] at hNext
        have hRank := Phase.rank_succ hPhase
        rw [hNext]
        omega
      · rw [if_neg hGo] at hNext
        rw [hNext]
        refine Nat.add_lt_add_left ?_ _
        cases hDeadline : g.sm.phase.deadline with
        | some d =>
            have hTicks := (hs.timed.posedge_ticks (g.sm.next false keycode g.endLevel)
              hDeadline).1
            have hOld := hs.timed.ticks_le d hDeadline
            have hNot := (hs.timed.leaves_iff hDeadline keycode g.endLevel).not.mp hGo
            rw [left_of_deadline hDeadline, left_of_deadline (hNext ▸ hDeadline), hSm, hTicks]
            omega
        | none =>
            obtain ⟨level, hPlay⟩ : ∃ level, g.sm.phase = .play level 9 := by
              cases hCase : g.sm.phase with
              | title => exact absurd hCase hPhase
              | wait level => rw [hCase] at hDeadline; cases hDeadline
              | closing level => rw [hCase] at hDeadline; cases hDeadline
              | play level last =>
                  refine ⟨level, ?_⟩
                  by_cases hNine : last = 9
                  · rw [hNine]
                  · rw [hCase, Phase.deadline, if_neg hNine] at hDeadline
                    cases hDeadline
            have hWait : g.endLevel (lastOf level) = false := by
              rw [hPlay, Phase.leaves, if_pos rfl] at hGo
              exact Bool.eq_false_iff.mpr hGo
            exact left_drops_last hs ho hReset hHigh hCalm hPlay
              (by rw [← calm_sm hCalm, hNext, hPlay]) hWait

/-- The title is reached from `WIN` only. -/
theorem win_before_title (hReset : g.reset = false) (hCalm : g.collisionAt keycode = false)
    (hPhase : g.sm.phase ≠ .title) (hNext : (g.posedgeClk keycode).sm.phase = .title) :
    g.sm.phase = .closing 2 := by
  have hSucc : ∀ p : Phase, p ≠ .title → p.succ = .title → p = .closing 2 := by
    intro p hp h
    cases p with
    | title => exact absurd rfl hp
    | wait level => cases h
    | play level last => revert level last; decide
    | closing level => revert level; decide
  have hStep : g.sm.phase.next g.collision keycode g.sm.seconds g.endLevel = .title := by
    rw [← hNext, calm_sm hCalm, clockEdge_phase hReset keycode]
  rw [Phase.next] at hStep
  split_ifs at hStep with hHit hGo
  · exact absurd hStep (Phase.rank_restart (Bool.and_eq_true_iff.mp hHit).2)
  · exact hSucc _ hPhase hStep
  · exact absurd hStep hPhase

end Drop

/-- From every reachable state outside the title, if `Reset` stays low, either
some `Collision` rises within 37,000,840,001 edges of `Clk`, or within as many
`WIN` is reached and then the title, whatever keys are down. -/
theorem win_and_title_of_calm (g : Game) (keys : Nat → BitVec 8) (h : Reachable g)
    (hReset : g.reset = false) (hState : g.sm.state ≠ .reset) :
    (∃ n ≤ 37000840000, (g.afterClk keys n).collisionAt (keys n) = true) ∨
      ∃ m n, m ≤ n ∧ n ≤ 37000840000 ∧ (g.afterClk keys m).sm.state = .win ∧
        (g.afterClk keys n).sm.state = .reset := by
  have hLow (n : Nat) : (g.afterClk keys n).reset = false := (afterClk_reset g keys n).trans hReset
  have hTitle (g' : Game) : g'.sm.phase = .title ↔ g'.sm.state = .reset :=
    ⟨fun hPhase => State.phase_injective hPhase, fun hIs => by rw [BlockSM.phase, hIs]; rfl⟩
  obtain ⟨n, hn, hStop, hBefore⟩ := exists_first_stop (fun n =>
      (g.afterClk keys n).collisionAt (keys n) = true ∨ (g.afterClk keys n).sm.phase = .title)
    (fun n => (g.afterClk keys n).remaining) (by
    intro n hGo
    obtain ⟨hCalm, hPhase⟩ := not_or.mp hGo
    have hReach := h.afterClk keys n
    exact remaining_drops hReach.steady hReach.ordered (hLow n)
      (Bool.eq_false_iff.mpr hCalm) hPhase)
  have hBound : n ≤ 37000840000 := hn.trans g.remaining_le
  rcases hStop with hCollides | hPhase
  · exact Or.inl ⟨n, hBound, hCollides⟩
  · right
    cases n with
    | zero => exact absurd ((hTitle g).mp hPhase) hState
    | succ m =>
        obtain ⟨hCalm, hNotTitle⟩ := not_or.mp (hBefore m (Nat.lt_succ_self m))
        have hWin := win_before_title (hLow m) (Bool.eq_false_iff.mpr hCalm) hNotTitle hPhase
        exact ⟨m, m + 1, Nat.le_succ m, hBound, State.phase_injective hWin, (hTitle _).mp hPhase⟩

/-- The first attempt, without a key. -/
theorem win_and_title_started :
    (∃ n ≤ 37000840000, (started.afterClk (fun _ => 0) n).collisionAt 0 = true) ∨
      ∃ m n, m ≤ n ∧ n ≤ 37000840000 ∧ (started.afterClk (fun _ => 0) m).sm.state = .win ∧
        (started.afterClk (fun _ => 0) n).sm.state = .reset :=
  win_and_title_of_calm started (fun _ => 0) reachable_started rfl (by decide)

end Game

end TwoBallGame
