import TwoBallGame.Game.Seconds
import TwoBallGame.Display.Scan
import TwoBallGame.Balls.Position

/-! One `Clk` edge of the game, taken apart: first the state machine and the
clock divider, then, if `vs` rises, the balls and the elements. -/
namespace TwoBallGame

open Clocked

namespace Game

section Parts

variable (keycode : BitVec 8) (g : Game)

/-- `vs` rises at the next `Clk` edge. -/
def frameEdge : Bool := g.vga.vsRises g.reset

/-- The registers after the processes that `Clk` and the pixel clock wake. -/
def clockEdge : Game := { g.clockSM keycode with vga := g.vga.posedgeClk g.reset }

/-- Some `Collision` rises at a frame edge in this state. -/
def rises : Bool := g.balls.rises g.reset keycode g.elementPorts

/-- Some `Collision` rises at the next `Clk` edge. -/
def collisionAt : Bool := g.frameEdge && (g.clockEdge keycode).rises keycode

/-- The vertical position of an element, counted from the top of the screen. -/
def y (n : Fin 30) : Nat := (g.elements n).blockYPos.toNat

/-- Every element is where `Reset` puts it. -/
def AllClear : Prop := ∀ n, g.elements n = ⟨0, 0, false⟩

variable {keycode g}

theorem posedgeClk_of_frame (h : g.frameEdge = true) :
    g.posedgeClk keycode = (g.clockEdge keycode).posedgeFrameClk keycode := by
  have hEdge : ((g.vga.posedgeClk g.reset).vs && !g.vga.vs) = true := h
  rw [posedgeClk, if_pos hEdge]
  rfl

theorem posedgeClk_of_quiet (h : g.frameEdge = false) :
    g.posedgeClk keycode = g.clockEdge keycode := by
  have hEdge : ¬((g.vga.posedgeClk g.reset).vs && !g.vga.vs) = true := by
    rw [Bool.not_eq_true]
    exact h
  rw [posedgeClk, if_neg hEdge]
  rfl

theorem posedgeFrameClk_of_rises (h : g.rises keycode = true) :
    g.posedgeFrameClk keycode =
      { g with
        balls := g.balls.posedgeFrameClk g.reset keycode g.elementPorts
        elements := g.moveBlocks true
        sm := g.sm.posedge g.reset true (g.next keycode) } := by
  have hRises : g.balls.rises g.reset keycode g.elementPorts = true := h
  rw [posedgeFrameClk, if_pos hRises]

theorem posedgeFrameClk_of_not_rises (h : g.rises keycode = false) :
    g.posedgeFrameClk keycode =
      { g with
        balls := g.balls.posedgeFrameClk g.reset keycode g.elementPorts
        elements := g.moveBlocks (g.reset || g.sm.restart || g.collision) } := by
  have hRises : ¬g.balls.rises g.reset keycode g.elementPorts = true := by
    rw [Bool.not_eq_true]
    exact h
  rw [posedgeFrameClk, if_neg hRises]

@[simp] theorem clockEdge_reset : (g.clockEdge keycode).reset = g.reset := rfl
@[simp] theorem clockEdge_balls : (g.clockEdge keycode).balls = g.balls := rfl
@[simp] theorem clockEdge_vga : (g.clockEdge keycode).vga = g.vga.posedgeClk g.reset := rfl
@[simp] theorem clockEdge_sm : (g.clockEdge keycode).sm =
    g.sm.posedge g.reset g.collision (g.next keycode) := rfl
@[simp] theorem clockEdge_collision : (g.clockEdge keycode).collision = g.collision := rfl

theorem clockEdge_elements : (g.clockEdge keycode).elements =
    if (g.clockEdge keycode).sm.restart && !g.sm.restart then g.moveBlocks true
    else g.elements := rfl

theorem next_eq : g.next keycode = g.sm.next g.collision keycode g.endLevel := rfl

/-- With `Reset` low the first half moves the phase along the schedule. -/
theorem clockEdge_phase (hReset : g.reset = false) (keycode : BitVec 8) :
    (g.clockEdge keycode).sm.phase =
      g.sm.phase.next g.collision keycode g.sm.seconds g.endLevel := by
  have hLoaded : (g.clockEdge keycode).sm.state = g.next keycode := by
    rw [clockEdge_sm, hReset]
    cases g.collision with
    | true => rfl
    | false => exact g.sm.posedge_calm_state _
  rw [BlockSM.phase, hLoaded]
  exact nextState_phase _ _ _ _ _

@[simp] theorem posedgeFrameClk_reset : (g.posedgeFrameClk keycode).reset = g.reset := by
  unfold posedgeFrameClk
  split_ifs <;> rfl

@[simp] theorem posedgeFrameClk_vga : (g.posedgeFrameClk keycode).vga = g.vga := by
  unfold posedgeFrameClk
  split_ifs <;> rfl

@[simp] theorem posedgeFrameClk_balls : (g.posedgeFrameClk keycode).balls =
    g.balls.posedgeFrameClk g.reset keycode g.elementPorts := by
  unfold posedgeFrameClk
  split_ifs <;> rfl

@[simp] theorem posedgeClk_reset : (g.posedgeClk keycode).reset = g.reset := by
  cases h : g.frameEdge with
  | true => rw [posedgeClk_of_frame h, posedgeFrameClk_reset, clockEdge_reset]
  | false => rw [posedgeClk_of_quiet h, clockEdge_reset]

@[simp] theorem posedgeClk_vga : (g.posedgeClk keycode).vga = g.vga.posedgeClk g.reset := by
  cases h : g.frameEdge with
  | true => rw [posedgeClk_of_frame h, posedgeFrameClk_vga, clockEdge_vga]
  | false => rw [posedgeClk_of_quiet h, clockEdge_vga]

/-- The frame edge comes with `vs` high. -/
theorem vs_of_frameEdge (h : g.frameEdge = true) : (g.clockEdge keycode).vga.vs = true := by
  rw [frameEdge, VgaController.vsRises, Bool.and_eq_true] at h
  exact h.1

theorem moveBlocks_clear (n : Fin 30) : g.moveBlocks true n = ⟨0, 0, false⟩ := rfl

/-- Without a rising `Collision`, none becomes high. -/
theorem collision_of_not_rises (h : g.rises keycode = false) (hLow : g.collision = false) :
    (g.posedgeFrameClk keycode).collision = false := by
  obtain ⟨hBlue, hRed⟩ := Bool.or_eq_false_iff.mp hLow
  have hRises : g.balls.rises g.reset keycode g.elementPorts = false := h
  rw [Balls.rises_eq, hBlue, hRed] at hRises
  simp only [Bool.not_false, Bool.and_true, Bool.or_eq_false_iff] at hRises
  rw [collision, posedgeFrameClk_balls, Balls.posedgeFrameClk_blue, Balls.posedgeFrameClk_red,
    Ball.frame_collision, Ball.frame_collision, hRises.1, hRises.2]
  rfl

/-- A `Collision` rises only when some ball touches an element. -/
theorem collides_of_rises (h : g.rises keycode = true) :
    g.balls.blue.collides g.elementPorts = true ∨
      g.balls.red.collides g.elementPorts = true := by
  have hRises : g.balls.rises g.reset keycode g.elementPorts = true := h
  rw [Balls.rises_eq, Bool.or_eq_true, Bool.and_eq_true, Bool.and_eq_true] at hRises
  simp only [Ball.hits, Bool.and_eq_true] at hRises
  rcases hRises with ⟨⟨-, hTouch⟩, -⟩ | ⟨⟨-, hTouch⟩, -⟩
  · exact Or.inl hTouch
  · exact Or.inr hTouch

end Parts

/-- What both parts of a `Clk` edge and both edges of `Reset` preserve is
preserved by every step. -/
theorem step_invariant {Inv : Game → Prop}
    (hClock : ∀ g keycode, Inv g → Inv (g.clockEdge keycode))
    (hFrame : ∀ g keycode, g.vga.vs = true → Inv g → Inv (g.posedgeFrameClk keycode))
    (hReset : ∀ g keycode, Inv g → Inv (g.posedgeReset keycode))
    (hRelease : ∀ g, Inv g → Inv g.negedgeReset) (g : Game) (event : GameEvent) (h : Inv g) :
    Inv (g.step event) := by
  cases event with
  | posedgeClk keycode =>
      change Inv (g.posedgeClk keycode)
      cases hEdge : g.frameEdge with
      | true =>
          rw [posedgeClk_of_frame hEdge]
          exact hFrame _ keycode (vs_of_frameEdge hEdge) (hClock g keycode h)
      | false =>
          rw [posedgeClk_of_quiet hEdge]
          exact hClock g keycode h
  | posedgeReset keycode => exact hReset g keycode h
  | negedgeReset => exact hRelease g h

/-- Power-up: the `int` outputs of the tables are zero, as two-state variables
are, and every other register may hold anything. -/
def PowerUp (g : Game) : Prop :=
  g.balls.blue.tables = ⟨⟨0, 0⟩, ⟨0, 0⟩, ⟨0, 0⟩, ⟨0, 0⟩, ⟨0, 0⟩⟩ ∧
    g.balls.red.tables = ⟨⟨0, 0⟩, ⟨0, 0⟩, ⟨0, 0⟩, ⟨0, 0⟩, ⟨0, 0⟩⟩

/-- Power-up with every register at zero, `Reset` low. -/
def zero : Game :=
  { reset := false, vga := VgaController.posedgeReset
    sm :=
      { state := .reset, counter := 0, pstartCounter := 0, hiddenCounter := 0
        pstart := false, hidden := false, seconds := 0 }
    balls := Balls.zero
    elements := fun _ => ⟨0, 0, false⟩ }

/-- The states of the game after a first `Reset`. -/
def Reachable (g : Game) : Prop :=
  ∃ g₀ keycode, PowerUp g₀ ∧ Reaches Game.step (g₀.posedgeReset keycode) g

theorem reachable_zero : Reachable (zero.posedgeReset 0) :=
  ⟨zero, 0, ⟨rfl, rfl⟩, Reaches.refl _ _⟩

theorem Reachable.step {g : Game} (h : Reachable g) (event : GameEvent) :
    Reachable (g.step event) := by
  obtain ⟨g₀, keycode, hPower, hReaches⟩ := h
  exact ⟨g₀, keycode, hPower, hReaches.next event⟩

theorem Reachable.run_events {g : Game} (h : Reachable g) (events : List GameEvent) :
    Reachable (run Game.step g events) := by
  induction events generalizing g with
  | nil => exact h
  | cons event rest ih => exact ih (h.step event)

/-- What every `Reset` establishes and every step preserves holds of every
reachable state. -/
theorem Reachable.invariant {g : Game} (h : Reachable g) {Inv : Game → Prop}
    (hStart : ∀ g₀ keycode, PowerUp g₀ → Inv (g₀.posedgeReset keycode))
    (hStep : ∀ g event, Inv g → Inv (g.step event)) : Inv g := by
  obtain ⟨g₀, keycode, hPower, hReaches⟩ := h
  exact hReaches.invariant (hStart g₀ keycode hPower) hStep

/-- The game after `n` edges of `Clk`, with the keys held at them. -/
def afterClk (g : Game) (keys : Nat → BitVec 8) (n : Nat) : Game :=
  after Game.step g (fun i => .posedgeClk (keys i)) n

@[simp]
theorem afterClk_zero (g : Game) (keys : Nat → BitVec 8) : g.afterClk keys 0 = g := rfl

theorem afterClk_succ (g : Game) (keys : Nat → BitVec 8) (n : Nat) :
    g.afterClk keys (n + 1) = (g.afterClk keys n).posedgeClk (keys n) := rfl

theorem afterClk_add (g : Game) (keys : Nat → BitVec 8) (first second : Nat) :
    g.afterClk keys (first + second) =
      (g.afterClk keys first).afterClk (fun i => keys (first + i)) second :=
  after_add Game.step g _ first second

theorem Reachable.afterClk {g : Game} (h : Reachable g) (keys : Nat → BitVec 8) (n : Nat) :
    Reachable (g.afterClk keys n) := by
  obtain ⟨g₀, keycode, hPower, hReaches⟩ := h
  exact ⟨g₀, keycode, hPower, hReaches.after _ n⟩

/-- No edge of `Clk` moves `Reset`. -/
@[simp]
theorem afterClk_reset (g : Game) (keys : Nat → BitVec 8) (n : Nat) :
    (g.afterClk keys n).reset = g.reset := by
  induction n with
  | zero => rfl
  | succ n ih => rw [afterClk_succ, posedgeClk_reset, ih]

/-- Between frame edges the balls stand still. -/
theorem balls_of_quiet {g : Game} {keys : Nat → BitVec 8} {n : Nat}
    (hQuiet : ∀ m < n, (g.afterClk keys m).frameEdge = false) :
    (g.afterClk keys n).balls = g.balls := by
  induction n with
  | zero => rfl
  | succ n ih =>
      rw [afterClk_succ, posedgeClk_of_quiet (hQuiet n (by omega)), clockEdge_balls,
        ih fun m hm => hQuiet m (by omega)]

/-- A held key is the same event again and again. -/
theorem run_replicate_posedgeClk (g : Game) (keycode : BitVec 8) (n : Nat) :
    run Game.step g (List.replicate n (.posedgeClk keycode)) = g.afterClk (fun _ => keycode) n := by
  induction n with
  | zero => rfl
  | succ n ih => rw [List.replicate_succ', run_concat, ih, afterClk_succ, Game.step]

/-- `LEVEL1` right after the start key, at the first `Clk` edge after `Reset`. -/
def started : Game := ((zero.posedgeReset 0).negedgeReset).posedgeClk 40

/-- The start key, and then no key for a number of edges. -/
def startAndWait (n : Nat) : List GameEvent :=
  .posedgeClk 40 :: List.replicate n (.posedgeClk 0)

theorem run_startAndWait (n : Nat) :
    run Game.step (zero.posedgeReset 0).negedgeReset (startAndWait n) =
      started.afterClk (fun _ => 0) n :=
  run_replicate_posedgeClk started 0 n

theorem reachable_started : Reachable started :=
  (reachable_zero.step .negedgeReset).step (.posedgeClk 40)

/-- The invariants of all modules other than the elements. -/
structure Steady (g : Game) : Prop where
  scans : g.vga.Scans
  fresh : g.vga = VgaController.posedgeReset → g.sm.state = .reset
  held : g.reset = true → g.vga = VgaController.posedgeReset
  timed : g.sm.Timed
  blue : g.balls.blue.InBounds
  red : g.balls.red.InBounds
  settled : g.balls.Settled

/-- A `Collision` rises only when a ball that is in its bounds touches an element. -/
theorem Steady.touch_of_rises {g : Game} (hs : g.Steady) {keycode : BitVec 8}
    (h : g.rises keycode = true) : ∃ b : Ball, b.InBounds ∧ b.collides g.elementPorts = true := by
  rcases collides_of_rises h with hTouch | hTouch
  · exact ⟨g.balls.blue, hs.blue, hTouch⟩
  · exact ⟨g.balls.red, hs.red, hTouch⟩

theorem not_fresh_of_scanning {v : VgaController} (h : v.Scanning) :
    v ≠ VgaController.posedgeReset := by
  rintro rfl
  have hVs := h.vs_eq
  revert hVs
  decide

theorem Steady.clockEdge {g : Game} (h : g.Steady) (keycode : BitVec 8) :
    (g.clockEdge keycode).Steady := by
  have hTimed : (g.clockEdge keycode).sm.Timed :=
    h.timed.posedge g.reset g.collision keycode g.endLevel
  cases hReset : g.reset with
  | true =>
      have hHeld := h.held hReset
      have hVga : (g.clockEdge keycode).vga = VgaController.posedgeReset := by
        rw [clockEdge_vga, hReset, hHeld, VgaController.posedgeClk_reset]
      refine ⟨Or.inl hVga, fun _ => ?_, fun _ => hVga, hTimed, h.blue, h.red, h.settled⟩
      rw [clockEdge_sm, hReset]
      rfl
  | false =>
      have hScan : (g.clockEdge keycode).vga.Scanning := by
        rw [clockEdge_vga, hReset]
        exact h.scans.posedgeClk
      refine ⟨Or.inr hScan, fun hFresh => absurd hFresh (not_fresh_of_scanning hScan),
        fun hHigh => ?_, hTimed, h.blue, h.red, h.settled⟩
      rw [clockEdge_reset, hReset] at hHigh
      cases hHigh

/-- Between frame edges the phase of the scan counts every `Clk` edge. -/
theorem Steady.phase_of_quiet {g : Game} (h : g.Steady) (hReset : g.reset = false)
    (hEdge : g.frameEdge = false) (keycode : BitVec 8) :
    (g.posedgeClk keycode).vga.phase = g.vga.phase + 1 := by
  rw [frameEdge, hReset] at hEdge
  rw [posedgeClk_vga, hReset]
  exact h.scans.phase_of_not_rises hEdge

theorem Steady.posedgeFrameClk {g : Game} (hVs : g.vga.vs = true) (h : g.Steady)
    (keycode : BitVec 8) : (g.posedgeFrameClk keycode).Steady := by
  have hNotFresh : g.vga ≠ VgaController.posedgeReset := by
    intro hFresh
    rw [hFresh] at hVs
    cases hVs
  have hTimed : (g.posedgeFrameClk keycode).sm.Timed := by
    cases hRises : g.rises keycode with
    | true =>
        rw [posedgeFrameClk_of_rises hRises]
        obtain ⟨hSeconds, hCounter, -⟩ :=
          g.sm.posedge_cleared (g.next keycode) g.reset true (Bool.or_true _)
        exact BlockSM.timed_of_cleared hSeconds hCounter
    | false =>
        rw [posedgeFrameClk_of_not_rises hRises]
        exact h.timed
  refine ⟨?_, ?_, ?_, hTimed, ?_, ?_, ?_⟩
  · rw [posedgeFrameClk_vga]
    exact h.scans
  · rw [posedgeFrameClk_vga]
    exact fun hFresh => absurd hFresh hNotFresh
  · rw [posedgeFrameClk_vga, posedgeFrameClk_reset]
    exact h.held
  · rw [posedgeFrameClk_balls, Balls.posedgeFrameClk_blue]
    exact h.blue.frame _ _ _ _ _
  · rw [posedgeFrameClk_balls, Balls.posedgeFrameClk_red]
    exact h.red.frame _ _ _ _ _
  · rw [posedgeFrameClk_balls]
    exact Balls.settled_posedgeFrameClk _ _ _ _

/-- `Reset` establishes the invariants as soon as the tables are in range. -/
theorem steady_posedgeReset {g : Game} (keycode : BitVec 8)
    (hBlue : g.balls.blue.tables.InRange) (hRed : g.balls.red.tables.InRange) :
    (g.posedgeReset keycode).Steady := by
  have hBalls := Balls.posedgeReset_eq keycode g.elementPorts g.balls
  refine ⟨Or.inl rfl, fun _ => rfl, fun _ => rfl, BlockSM.timed_of_cleared rfl rfl, ?_, ?_, ?_⟩
  · change (g.balls.posedgeReset keycode g.elementPorts).blue.InBounds
    rw [hBalls]
    exact Ball.inBounds_of_start false hBlue rfl rfl rfl
  · change (g.balls.posedgeReset keycode g.elementPorts).red.InBounds
    rw [hBalls]
    exact Ball.inBounds_of_start true hRed rfl rfl rfl
  · exact Balls.settled_posedgeReset keycode g.elementPorts g.balls

theorem Steady.step {g : Game} (h : g.Steady) (event : GameEvent) : (g.step event).Steady :=
  step_invariant (fun _ keycode hs => hs.clockEdge keycode)
    (fun _ keycode hVs hs => hs.posedgeFrameClk hVs keycode)
    (fun _ keycode hs => steady_posedgeReset keycode hs.blue.tables hs.red.tables)
    (fun _ hs => ⟨hs.scans, hs.fresh, (nomatch ·), hs.timed, hs.blue, hs.red, hs.settled⟩)
    g event h

theorem Reachable.steady {g : Game} (h : Reachable g) : g.Steady := by
  refine h.invariant (fun g₀ keycode hPower => ?_) (fun g event hs => hs.step event)
  have hZero : BallTables.InRange ⟨⟨0, 0⟩, ⟨0, 0⟩, ⟨0, 0⟩, ⟨0, 0⟩, ⟨0, 0⟩⟩ := by
    constructor <;> decide
  exact steady_posedgeReset keycode (hPower.1 ▸ hZero) (hPower.2 ▸ hZero)

end Game

end TwoBallGame
