import TwoBallGame.Display.Frames
import TwoBallGame.Game.Progress
import TwoBallGame.Game.Separation

/-! Distances over whole runs. A collision sends all elements back to the top while
the state machine still shows them; one `Clk` edge later it has launched none but the
first. So elements stay apart in every run, up to the first frame in which both balls
hit and nobody restarts the level. -/
namespace TwoBallGame

open Clocked

namespace VgaController

variable {v : VgaController}

/-- `vs` rises below the last line that is displayed. -/
theorem Scanning.line_of_rises (h : v.Scanning) (hRises : v.vsRises false = true) :
    480 ≤ (v.posedgeClk false).drawY.toNat := by
  obtain ⟨hNext, hPhase, hWrap⟩ := h.posedgeClk
  rw [hWrap, decide_eq_true_eq] at hRises
  rw [hRises] at hPhase
  have hLine := hNext.draw.2
  have hBound : (v.posedgeClk false).place ≤ 419999 := by
    have hHc := hNext.hc_le
    have hVc := hNext.vc_le
    unfold place
    omega
  rw [hLine]
  cases hDiv : (v.posedgeClk false).clkdiv with
  | true =>
      rw [phase_of_high hDiv] at hPhase
      omega
  | false =>
      rw [phase_of_low hDiv] at hPhase
      omega

end VgaController

namespace Game

/-- Both balls hit at the frame edge that comes with this event. -/
def DoubleHit (g : Game) : GameEvent → Prop
  | .posedgeClk keycode => g.frameEdge = true ∧
      g.balls.blue.hits g.reset (g.clockEdge keycode).elementPorts g.balls.red = true ∧
      g.balls.red.hits g.reset (g.clockEdge keycode).elementPorts g.balls.blue = true
  | _ => False

/-- Right after the frame edge of a hit: all elements are back, and the state machine
has not moved yet. -/
structure Caught (g : Game) : Prop where
  resetLow : g.reset = false
  high : g.collision = true
  clear : g.AllClear
  vs : g.vga.vs = true
  line : 480 ≤ g.vga.drawY.toNat

/-- Elements are apart, or have just been sent back. -/
def Kept (g : Game) : Prop := g.Spaced g.vga.phase ∨ g.Caught

section Kept

variable {g : Game} {keycode : BitVec 8}

/-- A hit of one ball alone leaves its `Collision` high. -/
theorem collision_of_rises (h : g.rises keycode = true)
    (hSingle : ¬(g.balls.blue.hits g.reset g.elementPorts g.balls.red = true ∧
      g.balls.red.hits g.reset g.elementPorts g.balls.blue = true)) :
    (g.posedgeFrameClk keycode).collision = true := by
  have hRises : g.balls.rises g.reset keycode g.elementPorts = true := h
  rw [Balls.rises_eq] at hRises
  rw [collision, posedgeFrameClk_balls, Balls.posedgeFrameClk_blue, Balls.posedgeFrameClk_red,
    Ball.frame_collision, Ball.frame_collision]
  revert hRises hSingle
  cases g.balls.blue.hits g.reset g.elementPorts g.balls.red <;>
    cases g.balls.red.hits g.reset g.elementPorts g.balls.blue <;> simp

/-- Nothing is hit at the first `Clk` edge after `Reset`. -/
theorem not_rises_of_fresh (hs : g.Steady) (ho : g.Ordered)
    (hFresh : g.vga = VgaController.posedgeReset) :
    (g.clockEdge keycode).rises keycode = false := by
  have hClear : g.AllClear := ho.clear (Or.inr (Or.inl (by
    rw [BlockSM.restart, hs.fresh hFresh]
    rfl)))
  have hHalf : (g.clockEdge keycode).AllClear := by
    intro n
    rw [clockEdge_elements]
    split_ifs
    · rfl
    · exact hClear n
  exact not_rises_of_clear (hs.clockEdge keycode) (ho.clockEdge keycode) hHalf

/-- The frame edge of a single hit catches the game. -/
theorem caught_of_rises (hs : g.Steady) (ho : g.Ordered) (hReset : g.reset = false)
    (hEdge : g.frameEdge = true) (hHit : (g.clockEdge keycode).rises keycode = true)
    (hSingle : ¬g.DoubleHit (.posedgeClk keycode)) : (g.posedgeClk keycode).Caught := by
  have hScan : g.vga.Scanning := by
    rcases hs.scans with hFresh | hScan
    · rw [not_rises_of_fresh hs ho hFresh] at hHit
      cases hHit
    · exact hScan
  have hRises : g.vga.vsRises false = true := hReset ▸ hEdge
  have hHigh : ((g.clockEdge keycode).posedgeFrameClk keycode).collision = true :=
    collision_of_rises hHit fun hBoth => hSingle ⟨hEdge, hBoth.1, hBoth.2⟩
  rw [posedgeClk_of_frame hEdge]
  refine ⟨?_, hHigh, ?_, ?_, ?_⟩
  · rw [posedgeFrameClk_reset, clockEdge_reset, hReset]
  · intro n
    rw [posedgeFrameClk_of_rises hHit]
    rfl
  · rw [posedgeFrameClk_vga]
    exact vs_of_frameEdge hEdge
  · rw [posedgeFrameClk_vga, clockEdge_vga, hReset]
    exact hScan.line_of_rises hRises

/-- One event, without a double hit. -/
theorem Kept.step (h : g.Kept) (hs : g.Steady) (ho : g.Ordered) {event : GameEvent}
    (hSingle : ¬g.DoubleHit event) : (g.step event).Kept := by
  cases event with
  | posedgeReset keycode => exact Or.inl (spaced_of_not_playing rfl)
  | negedgeReset =>
      rcases h with hSpaced | hCaught
      · exact Or.inl ⟨hSpaced.pace, hSpaced.gaps, hSpaced.held⟩
      · exact Or.inr ⟨rfl, hCaught.high, hCaught.clear, hCaught.vs, hCaught.line⟩
  | posedgeClk keycode =>
      change (g.posedgeClk keycode).Kept
      cases hReset : g.reset with
      | true =>
          have hEdge : g.frameEdge = false := by
            rw [frameEdge, hReset, hs.held hReset]
            rfl
          rw [posedgeClk_of_quiet hEdge]
          refine Or.inl (spaced_of_not_playing ?_)
          rw [clockEdge_sm, hReset]
          rfl
      | false =>
          rcases h with hSpaced | hCaught
          · cases hHit : g.collisionAt keycode with
            | false => exact Or.inl (hSpaced.posedgeClk hs ho hReset hHit)
            | true =>
                obtain ⟨hEdge, hRises⟩ := Bool.and_eq_true_iff.mp hHit
                exact Or.inr (caught_of_rises hs ho hReset hEdge hRises hSingle)
          · have hEdge : g.frameEdge = false := by
              rw [frameEdge, VgaController.vsRises, hCaught.vs, Bool.not_true, Bool.and_false]
            rw [posedgeClk_of_quiet hEdge]
            exact Or.inl (spaced_clockEdge_of_collision hReset hCaught.high keycode)

theorem kept_run {events : List GameEvent} (h : g.Kept) (hReach : Reachable g)
    (hSingle : EachStep Game.step (fun g event => ¬g.DoubleHit event) g events) :
    (run Game.step g events).Kept := by
  induction events generalizing g with
  | nil => exact h
  | cons event rest ih =>
      exact ih (h.step hReach.steady hReach.ordered hSingle.1) (hReach.step event) hSingle.2

/-- Any two elements in flight, neighbours or not, those at the top included. -/
theorem Spaced.apart {passed : Nat} (h : g.Spaced passed) (ho : g.Ordered) {n m : Fin 30}
    (hFirst : g.sm.phase.first ≤ n.val) (hLt : n.val < m.val)
    (hFront : m.val < g.sm.phase.frontier) :
    479 < g.y n ∨ g.y m + 118 ≤ g.y n := by
  have hNext : n.val + 1 < 30 := by omega
  have hGap := h.gaps n ⟨n.val + 1, hNext⟩ hFirst rfl (by simp only; omega)
  have hOrder := ho.order ⟨n.val + 1, hNext⟩ m (by simp only; omega)
    (Fin.le_def.mpr (by simp only; omega)) hFront
  omega

theorem Kept.separated (h : g.Kept) (ho : g.Ordered) : g.Separated := by
  rcases h with hSpaced | hCaught
  · exact hSpaced.separated ho
  · intro e e' _ _ hPos
    rw [y, hCaught.clear e] at hPos
    exact absurd hPos (lt_irrefl 0)

end Kept

/-- A hit of both balls raises some `Collision`. -/
theorem not_doubleHit_of_calm {g : Game} {keycode : BitVec 8}
    (hCalm : g.collisionAt keycode = false) : ¬g.DoubleHit (.posedgeClk keycode) := by
  rintro ⟨hEdge, hBlue, hRed⟩
  have hLow : g.balls.blue.collision = false := by
    rw [Ball.hits] at hRed
    cases hHigh : g.balls.blue.collision with
    | true => simp [hHigh] at hRed
    | false => rfl
  rw [collisionAt, hEdge, rises, Balls.rises_eq, clockEdge_reset, clockEdge_balls, hBlue, hLow]
    at hCalm
  cases hCalm

/-- For five seconds nothing is hit, by both balls or by one. -/
theorem single_startAndWait {n : Nat} (h : n ≤ 256985600) :
    EachStep Game.step (fun g event => ¬g.DoubleHit event) (zero.posedgeReset 0).negedgeReset
      (startAndWait n) := by
  refine ⟨fun hBoth => absurd hBoth.2.1 (by decide), ?_⟩
  apply eachStep_replicate
  intro m hm
  change ¬(run Game.step started _).DoubleHit _
  rw [run_replicate_posedgeClk]
  exact not_doubleHit_of_calm (started_calm (fun _ => 0) (by omega))

/-- Collisions and resets at any moments, but never a hit of both balls at the same
frame edge: the elements on the screen are kept apart in every state of the run. -/
theorem separated_of_run (g : Game) (hReach : Reachable g) (hTitle : g.sm.title = true)
    (events : List GameEvent)
    (hSingle : EachStep Game.step (fun g event => ¬g.DoubleHit event) g events) :
    (run Game.step g events).Separated := by
  have hState : g.sm.state = .reset := of_decide_eq_true hTitle
  have hKept : g.Kept := Or.inl (spaced_of_not_playing (by rw [BlockSM.phase, hState]; rfl))
  exact (kept_run hKept hReach hSingle).separated (hReach.run_events events).ordered

/-- Four seconds of the first attempt, with two elements in flight. -/
theorem separated_of_run_fourSeconds :
    (run Game.step (zero.posedgeReset 0).negedgeReset (startAndWait 200000000)).Separated :=
  separated_of_run _ (reachable_zero.step .negedgeReset) (by decide) (startAndWait 200000000)
    (single_startAndWait (by decide))

end Game

end TwoBallGame
