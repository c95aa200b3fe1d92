import TwoBallGame.Game.Progress

/-! The first level, and how long it is calm. Its elements come down a line with every
frame, so from a clear start nothing of it reaches a ball for more than five seconds,
whatever keys are down. -/
namespace TwoBallGame

open Clocked

namespace Phase

/-- The waiting phase and the launches of the first level. -/
def InFirst (p : Phase) : Prop := p = wait 0 ∨ ∃ last, p = play 0 last

theorem InFirst.flight {p : Phase} (h : p.InFirst) :
    p.first = 0 ∧ p.frontier ≤ 10 ∧ p ≠ title := by
  rcases h with rfl | ⟨last, rfl⟩
  · exact ⟨rfl, by decide, by decide⟩
  · refine ⟨rfl, ?_, Phase.noConfusion⟩
    have hLast := last.isLt
    change 10 * 0 + last.val + 1 ≤ 10
    omega

/-- The first level is left only when its last element has ended. -/
theorem InFirst.next {p : Phase} (h : p.InFirst) (collision : Bool) (keycode : BitVec 8)
    (seconds : BitVec 10) {endLevel : Fin 30 → Bool} (hLast : endLevel 9 = false) :
    (p.next collision keycode seconds endLevel).InFirst := by
  unfold Phase.next
  split_ifs with hHit hGo
  · rcases h with rfl | ⟨last, rfl⟩
    · exact Or.inl rfl
    · exact Or.inr ⟨0, rfl⟩
  · rcases h with rfl | ⟨last, rfl⟩
    · exact Or.inr ⟨0, rfl⟩
    · by_cases hNine : last = 9
      · rw [leaves, if_pos hNine] at hGo
        exact absurd hGo (Bool.eq_false_iff.mp hLast)
      · exact Or.inr ⟨last + 1, by rw [succ, if_neg hNine]⟩
  · exact h

end Phase

namespace Game

/-- The first level, no element of it lower than the frames of `elapsed` edges
can have taken it. -/
structure FirstLevel (elapsed : Nat) (g : Game) : Prop where
  resetLow : g.reset = false
  phase : g.sm.phase.InFirst
  lines : ∀ n : Fin 30, n.val < 10 → 840000 * g.y n + g.vga.phase ≤ elapsed

section FirstLevel

variable {g : Game} {elapsed : Nat} {keycode : BitVec 8}

theorem FirstLevel.scanning (h : g.FirstLevel elapsed) (hs : g.Steady) : g.vga.Scanning := by
  rcases hs.scans with hFresh | hScan
  · refine absurd ?_ h.phase.flight.2.2
    rw [BlockSM.phase, hs.fresh hFresh]
    rfl
  · exact hScan

/-- The first half of a `Clk` edge: the phase stays in the level, and nothing falls. -/
theorem FirstLevel.clockEdge (h : g.FirstLevel elapsed) (ho : g.Ordered)
    (hTime : elapsed < 257040000) (keycode : BitVec 8) :
    (g.clockEdge keycode).sm.phase.InFirst ∧ ∀ n, (g.clockEdge keycode).y n = g.y n := by
  have hLast : g.endLevel 9 = false := by
    refine Bool.eq_false_iff.mpr fun hEnd => ?_
    have hGone := ho.ended 9 hEnd
    have hLine := h.lines 9 (by decide)
    omega
  have hPhase : (g.clockEdge keycode).sm.phase.InFirst := by
    rw [clockEdge_phase h.resetLow]
    exact h.phase.next _ _ _ hLast
  exact ⟨hPhase, clockEdge_y_of_ne_title hPhase.flight.2.2⟩

/-- Nothing of the level has come down to a ball yet. -/
theorem FirstLevel.not_collisionAt (h : g.FirstLevel elapsed) (hReach : Reachable g)
    (hTime : elapsed < 257040000) (keycode : BitVec 8) : g.collisionAt keycode = false := by
  refine Bool.eq_false_iff.mpr fun hBad => ?_
  obtain ⟨hPhase, hSame⟩ := h.clockEdge hReach.ordered hTime keycode
  have hs := hReach.steady.clockEdge keycode
  have ho := hReach.ordered.clockEdge keycode
  obtain ⟨x, hReady, hLow, -⟩ := ho.ready_of_rises hs (Bool.and_eq_true_iff.mp hBad).2
  rw [ready_iff] at hReady
  have hFlight := hPhase.flight.2.1
  have hLine := h.lines x.wire (by omega)
  rw [hSame] at hLow
  omega

/-- One `Clk` edge, whatever keys are down and whether or not a `Collision` is
still held. -/
theorem FirstLevel.posedgeClk (h : g.FirstLevel elapsed) (hReach : Reachable g)
    (hTime : elapsed < 257040000) (keycode : BitVec 8) :
    (g.posedgeClk keycode).FirstLevel (elapsed + 1) := by
  have hs := hReach.steady
  have hCalm := h.not_collisionAt hReach hTime keycode
  obtain ⟨hPhase, hSame⟩ := h.clockEdge hReach.ordered hTime keycode
  obtain ⟨-, hNext, hWrap⟩ := (h.scanning hs).posedgeClk
  refine ⟨by rw [posedgeClk_reset, h.resetLow], by rw [calm_sm hCalm]; exact hPhase,
    fun n hn => ?_⟩
  have hLine := h.lines n hn
  rw [posedgeClk_vga, h.resetLow, hNext]
  cases hEdge : g.frameEdge with
  | false =>
      have hLt := g.vga.phase_lt
      rw [posedgeClk_of_quiet hEdge, hSame]
      omega
  | true =>
      have hFull : g.vga.phase = 839999 := by
        rw [frameEdge, h.resetLow, hWrap] at hEdge
        exact of_decide_eq_true hEdge
      rw [collisionAt, hEdge, Bool.true_and] at hCalm
      rw [posedgeClk_of_frame hEdge, hFull]
      cases hHeld : ((g.clockEdge keycode).reset || (g.clockEdge keycode).sm.restart ||
          (g.clockEdge keycode).collision) with
      | true =>
          have hZero : ((g.clockEdge keycode).posedgeFrameClk keycode).y n = 0 := by
            rw [y, posedgeFrameClk_of_not_rises hCalm, hHeld]
            rfl
          rw [hZero]
          omega
      | false =>
          have hMoves := (hReach.ordered.clockEdge keycode).frame_cases hCalm hHeld n
          rw [hSame] at hMoves
          rcases hMoves with ⟨-, hStay, -⟩ | ⟨-, -, hStay, -⟩ | ⟨-, -, hFall, -⟩
          · rw [hStay]; omega
          · rw [hStay]; omega
          · rw [hFall]; omega

/-- From a clear start the first level is calm for more than five seconds. -/
theorem FirstLevel.calm (h : g.FirstLevel elapsed) (hReach : Reachable g)
    (keys : Nat → BitVec 8) (r : Nat) (hTime : elapsed + r < 257040000) :
    (g.afterClk keys r).FirstLevel (elapsed + r) ∧
      (g.afterClk keys r).collisionAt (keys r) = false := by
  have hNow : (g.afterClk keys r).FirstLevel (elapsed + r) := by
    induction r with
    | zero => exact h
    | succ r ih =>
        rw [afterClk_succ]
        exact (ih (by omega)).posedgeClk (hReach.afterClk keys r) (by omega) (keys r)
  exact ⟨hNow, hNow.not_collisionAt (hReach.afterClk keys r) hTime (keys r)⟩

theorem firstLevel_of_clear (hReset : g.reset = false) (hPhase : g.sm.phase.InFirst)
    (hClear : g.AllClear) : g.FirstLevel g.vga.phase := by
  refine ⟨hReset, hPhase, fun n _ => ?_⟩
  have hZero : g.y n = 0 := by
    rw [y, hClear n]
    rfl
  omega

end FirstLevel

theorem started_clear : started.AllClear := by
  unfold AllClear
  decide

theorem firstLevel_started : started.FirstLevel 54400 := by
  have hPhase : started.vga.phase = 54400 := by decide
  rw [← hPhase]
  exact firstLevel_of_clear rfl (Or.inl rfl) started_clear

/-- Nothing is hit in the first five seconds after the start key. -/
theorem started_calm (keys : Nat → BitVec 8) {n : Nat} (h : n < 256985600) :
    (started.afterClk keys n).collisionAt (keys n) = false :=
  (firstLevel_started.calm reachable_started keys n (by omega)).2

end Game

end TwoBallGame
