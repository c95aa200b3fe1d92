import TwoBallGame.Balls.Alike
import TwoBallGame.Game.Blink
import TwoBallGame.Game.Progress

/-! What `Reset` does not erase. The two flags that make the screen blink, the
counters behind them, and the tables of the balls have no reset branch; whoever
watches the game for long enough can tell what they were. -/
namespace TwoBallGame

open Clocked

/-- Everything that the game shows. -/
structure Outputs where
  drawX : BitVec 10
  drawY : BitVec 10
  hs : Bool
  vs : Bool
  ballX : Fin 2 → BitVec 10
  ballY : Fin 2 → BitVec 10
  elements : ElementPorts
  bluePaint : Fin 30 → Bool
  orangePaint : Fin 30 → Bool
  title : Bool
  pstart : Bool
  hidden : Bool
  levelOne : Bool
  levelTwo : Bool
  levelFinal : Bool
  win : Bool
  seconds : BitVec 10
  pixel : BitVec 10 → BitVec 10 → Rgb

namespace Game

/-- The outputs in one state, with the colour of every pixel. -/
def outputs (g : Game) : Outputs :=
  { drawX := g.vga.drawX
    drawY := g.vga.drawY
    hs := g.vga.hs
    vs := g.vga.vs
    ballX := g.colorPorts.ballX
    ballY := g.colorPorts.ballY
    elements := g.elementPorts
    bluePaint := g.balls.blue.paint
    orangePaint := g.balls.red.paint
    title := g.sm.title
    pstart := g.sm.pstart
    hidden := g.sm.hidden
    levelOne := g.sm.levelOne
    levelTwo := g.sm.levelTwo
    levelFinal := g.sm.levelFinal
    win := g.sm.win
    seconds := g.sm.seconds
    pixel := fun x y => { g.colorPorts with drawX := x, drawY := y }.rgbDisplay }

/-- `Reset` rises, stays high for some edges of `Clk`, and falls. -/
def pulseReset (keycode : BitVec 8) (held : List (BitVec 8)) (g : Game) : Game :=
  (run Game.step (g.posedgeReset keycode) (held.map .posedgeClk)).negedgeReset

/-- From the release of the same `Reset` on, nothing that follows can tell the
two games apart. -/
def ErasesHistory (g h : Game) : Prop :=
  ∀ (keycode : BitVec 8) (held : List (BitVec 8)) (events : Nat → GameEvent) (n : Nat),
    (after Game.step (g.pulseReset keycode held) events n).outputs =
      (after Game.step (h.pulseReset keycode held) events n).outputs

/-- The condition on the registers before the `Reset`. -/
structure SameRemains (g h : Game) : Prop where
  hidden : g.sm.hidden = h.sm.hidden
  hiddenCounter : g.sm.hiddenCounter = h.sm.hiddenCounter
  pstart : g.sm.pstart = h.sm.pstart
  pstartCounter : g.sm.pstartCounter = h.sm.pstartCounter
  blue : g.balls.blue.tables.AlikeAtStart false h.balls.blue.tables
  red : g.balls.red.tables.AlikeAtStart true h.balls.red.tables

structure Alike (g h : Game) : Prop where
  reset : g.reset = h.reset
  vga : g.vga = h.vga
  sm : g.sm = h.sm
  elements : g.elements = h.elements
  balls : g.balls.Alike h.balls

section Alike

variable {g h : Game}

theorem Alike.collision (ha : g.Alike h) : g.collision = h.collision := by
  rw [Game.collision, Game.collision, ha.balls.blue.collision, ha.balls.red.collision]

theorem Alike.elementPorts (ha : g.Alike h) : g.elementPorts = h.elementPorts := by
  rw [Game.elementPorts, Game.elementPorts, ha.elements]

theorem Alike.moveBlocks (ha : g.Alike h) (clear : Bool) :
    g.moveBlocks clear = h.moveBlocks clear := by
  funext n
  rw [Game.moveBlocks, Game.moveBlocks, ready, ready, ha.elements, ha.sm]

theorem Alike.next (ha : g.Alike h) (keycode : BitVec 8) : g.next keycode = h.next keycode := by
  have hEnd : g.endLevel = h.endLevel := by
    funext n
    rw [endLevel, endLevel, ha.elements]
  rw [Game.next, Game.next, ha.sm, ha.collision, hEnd]

theorem Alike.outputs (ha : g.Alike h) : g.outputs = h.outputs := by
  have hPorts : g.colorPorts = h.colorPorts := by
    unfold colorPorts
    rw [ha.elementPorts, ha.vga, ha.sm, ha.balls.blue.x, ha.balls.red.x, ha.balls.blue.y,
      ha.balls.red.y, ha.balls.blue.paint, ha.balls.red.paint]
  unfold Game.outputs
  rw [hPorts, ha.elementPorts, ha.vga, ha.sm, ha.balls.blue.paint, ha.balls.red.paint]

theorem Alike.clockEdge (ha : g.Alike h) (keycode : BitVec 8) :
    (g.clockEdge keycode).Alike (h.clockEdge keycode) := by
  have hSm : (g.clockEdge keycode).sm = (h.clockEdge keycode).sm := by
    rw [clockEdge_sm, clockEdge_sm, ha.sm, ha.reset, ha.collision, ha.next]
  refine ⟨ha.reset, ?_, hSm, ?_, ha.balls⟩
  · rw [clockEdge_vga, clockEdge_vga, ha.vga, ha.reset]
  · rw [clockEdge_elements, clockEdge_elements, hSm, ha.sm, ha.moveBlocks, ha.elements]

theorem Alike.posedgeFrameClk (ha : g.Alike h) (keycode : BitVec 8) :
    (g.posedgeFrameClk keycode).Alike (h.posedgeFrameClk keycode) := by
  have hBalls := ha.balls.posedgeFrameClk g.reset keycode g.elementPorts
  have hRises : g.rises keycode = h.rises keycode := by
    rw [rises, rises, ha.balls.rises_eq, ha.reset, ha.elementPorts]
  cases hHit : g.rises keycode with
  | true =>
      rw [posedgeFrameClk_of_rises hHit, posedgeFrameClk_of_rises (hRises ▸ hHit)]
      refine ⟨ha.reset, ha.vga, ?_, ha.moveBlocks true, ?_⟩
      · change g.sm.posedge _ _ _ = h.sm.posedge _ _ _
        rw [ha.sm, ha.reset, ha.next]
      · rw [← ha.reset, ← ha.elementPorts]
        exact hBalls
  | false =>
      rw [posedgeFrameClk_of_not_rises hHit, posedgeFrameClk_of_not_rises (hRises ▸ hHit)]
      refine ⟨ha.reset, ha.vga, ha.sm, ?_, ?_⟩
      · change g.moveBlocks _ = h.moveBlocks _
        rw [ha.moveBlocks, ha.reset, ha.sm, ha.collision]
      · rw [← ha.reset, ← ha.elementPorts]
        exact hBalls

/-- Every edge of any input keeps two games alike. -/
theorem Alike.step (ha : g.Alike h) (event : GameEvent) :
    (g.step event).Alike (h.step event) := by
  cases event with
  | posedgeClk keycode =>
      change (g.posedgeClk keycode).Alike (h.posedgeClk keycode)
      have hEdges : g.frameEdge = h.frameEdge := by rw [frameEdge, frameEdge, ha.vga, ha.reset]
      cases hEdge : g.frameEdge with
      | true =>
          rw [posedgeClk_of_frame hEdge, posedgeClk_of_frame (hEdges ▸ hEdge)]
          exact (ha.clockEdge keycode).posedgeFrameClk keycode
      | false =>
          rw [posedgeClk_of_quiet hEdge, posedgeClk_of_quiet (hEdges ▸ hEdge)]
          exact ha.clockEdge keycode
  | posedgeReset keycode =>
      refine ⟨rfl, rfl, ?_, ha.moveBlocks true, ha.balls.posedgeReset keycode _ _⟩
      change g.sm.posedge true g.collision (g.next keycode) =
        h.sm.posedge true h.collision (h.next keycode)
      rw [ha.sm, ha.collision, ha.next]
  | negedgeReset => exact ⟨rfl, ha.vga, ha.sm, ha.elements, ha.balls⟩

end Alike

section Pulse

variable (keycode : BitVec 8)

/-- While `Reset` is high, `Clk` changes nothing. -/
theorem posedgeClk_posedgeReset (key : BitVec 8) (g : Game) :
    (g.posedgeReset keycode).posedgeClk key = g.posedgeReset keycode := rfl

theorem pulseReset_eq (held : List (BitVec 8)) (g : Game) :
    g.pulseReset keycode held = (g.posedgeReset keycode).negedgeReset := by
  have hHeld : run Game.step (g.posedgeReset keycode) (held.map .posedgeClk) =
      g.posedgeReset keycode := by
    induction held with
    | nil => rfl
    | cons key rest ih =>
        rw [List.map_cons, run_cons, step, posedgeClk_posedgeReset]
        exact ih
  rw [pulseReset, hHeld]

/-- Equal remains make two games alike from the release on. -/
theorem SameRemains.alike {g h : Game} (hs : g.SameRemains h) (hg : g.Steady) (hh : h.Steady) :
    (g.posedgeReset keycode).negedgeReset.Alike (h.posedgeReset keycode).negedgeReset := by
  refine ⟨rfl, rfl, ?_, rfl, ?_⟩
  · change g.sm.posedge true g.collision (g.next keycode) =
      h.sm.posedge true h.collision (h.next keycode)
    simp only [BlockSM.posedge, if_true, hs.hidden, hs.hiddenCounter, hs.pstart, hs.pstartCounter]
  · change (g.balls.posedgeReset keycode g.elementPorts).Alike
      (h.balls.posedgeReset keycode h.elementPorts)
    rw [Balls.posedgeReset_eq, Balls.posedgeReset_eq]
    exact ⟨Ball.alike_resetBranch hg.blue hh.blue hs.blue rfl rfl,
      Ball.alike_resetBranch hg.red hh.red hs.red rfl rfl⟩

end Pulse

/-- The title screen, before the start key. -/
structure AtTitle (g : Game) : Prop where
  resetLow : g.reset = false
  state : g.sm.state = .reset
  collisionLow : g.collision = false

section AtTitle

variable {g : Game} {keycode : BitVec 8}

/-- Every other key leaves the state machine in `RESET`, with nothing to touch. -/
theorem AtTitle.clockEdge (h : g.AtTitle) (hKey : keycode ≠ 40) :
    (g.clockEdge keycode).AtTitle ∧
      (g.clockEdge keycode).sm = g.sm.posedge false false .reset := by
  have hNext : g.next keycode = .reset := by
    rw [Game.next, h.state, nextState, if_neg hKey]
  have hSm : (g.clockEdge keycode).sm = g.sm.posedge false false .reset := by
    rw [clockEdge_sm, h.resetLow, h.collisionLow, hNext]
  exact ⟨⟨h.resetLow, by rw [hSm, BlockSM.posedge_calm_state], h.collisionLow⟩, hSm⟩

theorem AtTitle.untouched (h : g.AtTitle) (ho : g.Ordered) (hs : g.Steady) :
    g.balls.blue.collides g.elementPorts = false ∧
      g.balls.red.collides g.elementPorts = false := by
  have hClear := ho.clear (Or.inr (Or.inl (by rw [BlockSM.restart, h.state]; rfl)))
  exact ⟨not_collides_of_clear ho hClear hs.blue, not_collides_of_clear ho hClear hs.red⟩

theorem AtTitle.not_rises (h : g.AtTitle) (ho : g.Ordered) (hs : g.Steady) :
    g.rises keycode = false := by
  exact not_rises_of_clear hs ho
    (ho.clear (Or.inr (Or.inl (by rw [BlockSM.restart, h.state]; rfl))))

/-- One `Clk` edge of the title screen. -/
theorem AtTitle.posedgeClk (h : g.AtTitle) (hReach : Reachable g) (hKey : keycode ≠ 40) :
    (g.posedgeClk keycode).AtTitle ∧
      (g.posedgeClk keycode).sm = g.sm.posedge false false .reset := by
  obtain ⟨hHalf, hSm⟩ := h.clockEdge hKey
  have hRises : (g.clockEdge keycode).rises keycode = false :=
    hHalf.not_rises (hReach.ordered.clockEdge keycode) (hReach.steady.clockEdge keycode)
  have hCalm : g.collisionAt keycode = false := by
    rw [collisionAt, hRises, Bool.and_false]
  have hSm' : (g.posedgeClk keycode).sm = g.sm.posedge false false .reset := by
    rw [calm_sm hCalm, hSm]
  exact ⟨⟨by rw [posedgeClk_reset, h.resetLow], by rw [hSm', BlockSM.posedge_calm_state],
    calm_collision hCalm h.collisionLow⟩, hSm'⟩

/-- At a frame edge of the title screen both balls turn. -/
theorem AtTitle.balls_of_frame (h : g.AtTitle) (hReach : Reachable g) (hKey : keycode ≠ 40)
    (hEdge : g.frameEdge = true) :
    (g.posedgeClk keycode).balls.blue =
        { g.balls.blue.rotateBranch keycode g.balls.blue.nextIndex with
          tables := g.balls.blue.tables.posedgeClk g.balls.blue.nextIndex } ∧
      (g.posedgeClk keycode).balls.red =
        { g.balls.red.rotateBranch keycode g.balls.red.nextIndex with
          tables := g.balls.red.tables.posedgeClk g.balls.red.nextIndex } := by
  obtain ⟨hBlue, hRed⟩ := (h.clockEdge hKey).1.untouched (hReach.ordered.clockEdge keycode)
    (hReach.steady.clockEdge keycode)
  obtain ⟨hBlueLow, hRedLow⟩ := Bool.or_eq_false_iff.mp h.collisionLow
  rw [clockEdge_balls] at hBlue hRed
  rw [posedgeClk_of_frame hEdge, posedgeFrameClk_balls, clockEdge_balls, clockEdge_reset,
    h.resetLow]
  constructor
  · refine Ball.frame_of_turns false false keycode _ g.balls.blue g.balls.red ?_
    simp [Ball.respawns, Ball.hits, hBlue, hRed, hRedLow]
  · refine Ball.frame_of_turns true false keycode _ g.balls.red g.balls.blue ?_
    simp [Ball.respawns, Ball.hits, hBlue, hRed, hBlueLow]

/-- On the title screen both dividers run with every edge. -/
theorem AtTitle.afterClk (h : g.AtTitle) (hReach : Reachable g) {keys : Nat → BitVec 8}
    (hKeys : ∀ i, keys i ≠ 40) (n : Nat) :
    (g.afterClk keys n).AtTitle ∧
      (g.afterClk keys n).sm.hiddenDivider = (Divider.step 25000000)^[n] g.sm.hiddenDivider ∧
      (g.afterClk keys n).sm.pstartDivider = (Divider.step 50000000)^[n] g.sm.pstartDivider := by
  induction n with
  | zero => exact ⟨h, rfl, rfl⟩
  | succ n ih =>
      obtain ⟨hTitle, hHidden, hPstart⟩ := ih
      obtain ⟨hNext, hSm⟩ := hTitle.posedgeClk (hReach.afterClk keys n) (hKeys n)
      have hState : (g.afterClk keys n).sm.state ≠ .final := by
        rw [hTitle.state]
        decide
      rw [afterClk_succ, Function.iterate_succ_apply', Function.iterate_succ_apply', ← hHidden,
        ← hPstart, hSm]
      exact ⟨hNext, BlockSM.posedge_hidden _ _ hState, BlockSM.posedge_pstart _ _ hTitle.state⟩

/-- The next frame edge of the title screen, the balls at rest until then. -/
theorem AtTitle.next_frame (h : g.AtTitle) (hReach : Reachable g) (hKey : keycode ≠ 40) :
    ∃ n, (g.afterClk (fun _ => keycode) n).frameEdge = true ∧
      ∀ m < n, (g.afterClk (fun _ => keycode) m).frameEdge = false := by
  obtain ⟨n, -, hStop, hBefore⟩ := exists_first_stop
    (fun n => (g.afterClk (fun _ => keycode) n).frameEdge = true)
    (fun n => 840000 - (g.afterClk (fun _ => keycode) n).vga.phase) (by
    intro n hQuiet
    rw [Bool.not_eq_true] at hQuiet
    obtain ⟨hTitle, -⟩ := h.afterClk hReach (fun _ => hKey) n
    have hPhase := (hReach.afterClk (fun _ => keycode) n).steady.phase_of_quiet hTitle.resetLow
      hQuiet keycode
    have hLt := (g.afterClk (fun _ => keycode) n).vga.phase_lt
    simp only [afterClk_succ, hPhase]
    omega)
  exact ⟨n, hStop, fun m hm => Bool.eq_false_iff.mpr (hBefore m hm)⟩

/-- The scan depends on nothing but itself. -/
theorem afterClk_vga {h : Game} (hReset : g.reset = h.reset) (hVga : g.vga = h.vga)
    (keys : Nat → BitVec 8) (n : Nat) :
    (g.afterClk keys n).vga = (h.afterClk keys n).vga ∧
      (g.afterClk keys n).reset = (h.afterClk keys n).reset := by
  induction n with
  | zero => exact ⟨hVga, hReset⟩
  | succ n ih =>
      rw [afterClk_succ, afterClk_succ, posedgeClk_vga, posedgeClk_vga, posedgeClk_reset,
        posedgeClk_reset, ih.1, ih.2]
      exact ⟨rfl, rfl⟩

end AtTitle

section Release

variable (g : Game)

/-- The game after one short `Reset`. -/
def released : Game := (g.posedgeReset 0).negedgeReset

variable {g}

theorem released_atTitle : g.released.AtTitle := by
  refine ⟨rfl, rfl, ?_⟩
  change ((g.balls.posedgeReset 0 g.elementPorts).blue.collision ||
    (g.balls.posedgeReset 0 g.elementPorts).red.collision) = false
  rw [Balls.posedgeReset_eq]
  rfl

theorem released_balls : g.released.balls =
    { blue := g.balls.blue.resetBranch false
        (framePorts true 0 g.elementPorts g.balls.blue g.balls.red)
      red := g.balls.red.resetBranch true
        (framePorts true 0 g.elementPorts g.balls.red g.balls.blue) } :=
  Balls.posedgeReset_eq 0 g.elementPorts g.balls

theorem Reachable.released (h : Reachable g) : Reachable g.released :=
  (h.step (.posedgeReset 0)).step .negedgeReset

theorem released_frameEdge : g.released.frameEdge = true :=
  VgaController.posedgeClk_fresh.2.2

end Release

section Watch

variable {g h : Game}

/-- Agreement on every run of keys after a short `Reset`. -/
theorem ErasesHistory.afterClk (hSame : g.ErasesHistory h) (keys : Nat → BitVec 8) (n : Nat) :
    (g.released.afterClk keys n).outputs = (h.released.afterClk keys n).outputs := by
  have hRun := hSame 0 [] (fun i => .posedgeClk (keys i)) n
  rw [pulseReset_eq, pulseReset_eq] at hRun
  exact hRun

/-- Equal outputs put both balls at equal points. -/
theorem points_of_outputs (hSame : g.outputs = h.outputs) :
    (g.balls.blue.ballXPos = h.balls.blue.ballXPos ∧
        g.balls.blue.ballYPos = h.balls.blue.ballYPos) ∧
      g.balls.red.ballXPos = h.balls.red.ballXPos ∧
        g.balls.red.ballYPos = h.balls.red.ballYPos :=
  ⟨⟨congrFun (congrArg Outputs.ballX hSame) 0, congrFun (congrArg Outputs.ballY hSame) 0⟩,
    congrFun (congrArg Outputs.ballX hSame) 1, congrFun (congrArg Outputs.ballY hSame) 1⟩

/-- A frame edge of the title screen shows the offsets that were read at it. -/
theorem AtTitle.alike_of_frame (hg : g.AtTitle) (hh : h.AtTitle) (hReach : Reachable g)
    (hReach' : Reachable h) {keycode : BitVec 8} (hKey : keycode ≠ 40)
    (hEdge : g.frameEdge = true) (hEdge' : h.frameEdge = true)
    (hNow : g.outputs = h.outputs) (hBlue : g.balls.blue.nextIndex = h.balls.blue.nextIndex)
    (hRed : g.balls.red.nextIndex = h.balls.red.nextIndex)
    (hNext : (g.posedgeClk keycode).outputs = (h.posedgeClk keycode).outputs) :
    (g.balls.blue.readVals keycode).Alike (h.balls.blue.readVals keycode) ∧
      (g.balls.red.readVals keycode).Alike (h.balls.red.readVals keycode) := by
  obtain ⟨⟨hX, hY⟩, hX', hY'⟩ := points_of_outputs hNow
  obtain ⟨⟨hNewX, hNewY⟩, hNewX', hNewY'⟩ := points_of_outputs hNext
  obtain ⟨hTurn, hTurn'⟩ := hg.balls_of_frame hReach hKey hEdge
  obtain ⟨hOther, hOther'⟩ := hh.balls_of_frame hReach' hKey hEdge'
  rw [hTurn, hOther] at hNewX hNewY
  rw [hTurn', hOther'] at hNewX' hNewY'
  exact ⟨Ball.alike_of_rotateBranch hReach.steady.blue hReach'.steady.blue hBlue hX hY keycode
      hNewX hNewY,
    Ball.alike_of_rotateBranch hReach.steady.red hReach'.steady.red hRed hX' hY' keycode
      hNewX' hNewY'⟩

theorem ErasesHistory.dividers (hSame : g.ErasesHistory h) (hg : Reachable g) (hh : Reachable h) :
    g.sm.hiddenDivider = h.sm.hiddenDivider ∧ g.sm.pstartDivider = h.sm.pstartDivider := by
  let keys : Nat → BitVec 8 := fun _ => 0
  have hKeys : ∀ i, keys i ≠ 40 := fun _ => show (0 : BitVec 8) ≠ 40 by decide
  constructor
  · refine Divider.eq_of_flags_agree 25000000 fun n => ?_
    obtain ⟨-, hHidden, -⟩ := released_atTitle.afterClk hg.released hKeys n
    obtain ⟨-, hHidden', -⟩ := released_atTitle.afterClk hh.released hKeys n
    have hShown := congrArg Outputs.hidden (hSame.afterClk keys n)
    exact (congrArg Divider.flag hHidden).symm.trans
      (hShown.trans (congrArg Divider.flag hHidden'))
  · refine Divider.eq_of_flags_agree 50000000 fun n => ?_
    obtain ⟨-, -, hPstart⟩ := released_atTitle.afterClk hg.released hKeys n
    obtain ⟨-, -, hPstart'⟩ := released_atTitle.afterClk hh.released hKeys n
    have hShown := congrArg Outputs.pstart (hSame.afterClk keys n)
    exact (congrArg Divider.flag hPstart).symm.trans
      (hShown.trans (congrArg Divider.flag hPstart'))

/-- The first frame edge after `Reset` reads one register of each ball for a key. -/
theorem ErasesHistory.first_frame (hSame : g.ErasesHistory h) (hg : Reachable g)
    (hh : Reachable h) {keycode : BitVec 8} (hKey : keycode ≠ 40) :
    (g.released.balls.blue.readVals keycode).Alike (h.released.balls.blue.readVals keycode) ∧
      (g.released.balls.red.readVals keycode).Alike (h.released.balls.red.readVals keycode) :=
  released_atTitle.alike_of_frame released_atTitle hg.released hh.released hKey
    released_frameEdge released_frameEdge (hSame.afterClk (fun _ => keycode) 0) rfl rfl
    (hSame.afterClk (fun _ => keycode) 1)

/-- After one turn to the right red reads, for the left key, the register below
its start index, which that frame has not written. -/
theorem released_right (hg : Reachable g) :
    (g.released.posedgeClk 7).AtTitle ∧
      (g.released.posedgeClk 7).balls.blue.nextIndex = 32 ∧
      (g.released.posedgeClk 7).balls.red.nextIndex = 2 ∧
      (g.released.posedgeClk 7).balls.red.readVals 4 = g.balls.red.tables.downIndexVal := by
  obtain ⟨hTitle, -⟩ := released_atTitle.posedgeClk hg.released (show (7 : BitVec 8) ≠ 40 by decide)
  obtain ⟨hBlue, hRed⟩ := released_atTitle.balls_of_frame hg.released
    (show (7 : BitVec 8) ≠ 40 by decide) released_frameEdge
  have hBlueIndex : (g.released.posedgeClk 7).balls.blue.nextIndex = 32 := by
    rw [hBlue]
    exact Ball.rotateBranch_nextIndex _ _
  have hRedIndex : (g.released.posedgeClk 7).balls.red.nextIndex = 2 := by
    rw [hRed]
    exact Ball.rotateBranch_nextIndex _ _
  refine ⟨hTitle, hBlueIndex, hRedIndex, ?_⟩
  have hTables : (g.released.posedgeClk 7).balls.red.tables = g.balls.red.tables.posedgeClk 1 := by
    rw [hRed]
    rfl
  rw [Ball.readVals, if_neg (by decide), if_pos rfl, hRedIndex, if_neg (by decide), hTables]
  rfl

theorem ErasesHistory.downIndexVal (hSame : g.ErasesHistory h) (hg : Reachable g)
    (hh : Reachable h) :
    g.balls.red.tables.downIndexVal.Alike h.balls.red.tables.downIndexVal := by
  obtain ⟨hTitle, hBlue, hRed, hDown⟩ := released_right hg
  obtain ⟨hTitle', hBlue', hRed', hDown'⟩ := released_right hh
  have hReach := hg.released.step (.posedgeClk 7)
  have hReach' := hh.released.step (.posedgeClk 7)
  have hKey : (4 : BitVec 8) ≠ 40 := by decide
  obtain ⟨n, hEdge, hQuiet⟩ := hTitle.next_frame hReach hKey
  have hVga (m : Nat) : ((g.released.posedgeClk 7).afterClk (fun _ => 4) m).frameEdge =
      ((h.released.posedgeClk 7).afterClk (fun _ => 4) m).frameEdge := by
    have hScan := afterClk_vga (g := g.released.posedgeClk 7) (h := h.released.posedgeClk 7)
      (by rw [posedgeClk_reset, posedgeClk_reset]; rfl)
      (by rw [posedgeClk_vga, posedgeClk_vga]; rfl) (fun _ => 4) m
    rw [frameEdge, frameEdge, hScan.1, hScan.2]
  -- the run with the right key first and the left key from then on
  have hOutputs (m : Nat) : ((g.released.posedgeClk 7).afterClk (fun _ => 4) m).outputs =
      ((h.released.posedgeClk 7).afterClk (fun _ => 4) m).outputs := by
    have hRun := hSame.afterClk (fun i => if i = 0 then 7 else 4) (1 + m)
    have hTail : (fun i : Nat => if 1 + i = 0 then (7 : BitVec 8) else 4) = fun _ => 4 := by
      funext i
      exact if_neg (by omega)
    rw [afterClk_add, afterClk_add, hTail] at hRun
    exact hRun
  have hBalls := balls_of_quiet hQuiet
  have hBalls' : ((h.released.posedgeClk 7).afterClk (fun _ => 4) n).balls =
      (h.released.posedgeClk 7).balls :=
    balls_of_quiet fun m hm => by rw [← hVga, hQuiet m hm]
  have hRead := (AtTitle.alike_of_frame (hTitle.afterClk hReach (fun _ => hKey) n).1
    (hTitle'.afterClk hReach' (fun _ => hKey) n).1 (hReach.afterClk _ n) (hReach'.afterClk _ n)
    hKey hEdge (hVga n ▸ hEdge) (hOutputs n) (by rw [hBalls, hBalls', hBlue, hBlue'])
    (by rw [hBalls, hBalls', hRed, hRed']) (hOutputs (n + 1))).2
  rw [hBalls, hBalls', hDown, hDown'] at hRead
  exact hRead

/-- All that agreement for ever gives away. -/
theorem ErasesHistory.sameRemains (hSame : g.ErasesHistory h) (hg : Reachable g)
    (hh : Reachable h) : g.SameRemains h := by
  obtain ⟨hHidden, hPstart⟩ := hSame.dividers hg hh
  have hIdle := hSame.first_frame hg hh (show (0 : BitVec 8) ≠ 40 by decide)
  have hRight := hSame.first_frame hg hh (show (7 : BitVec 8) ≠ 40 by decide)
  have hLeft := hSame.first_frame hg hh (show (4 : BitVec 8) ≠ 40 by decide)
  rw [released_balls, released_balls] at hIdle hRight hLeft
  exact ⟨congrArg Divider.flag hHidden, congrArg Divider.count hHidden,
    congrArg Divider.flag hPstart, congrArg Divider.count hPstart,
    ⟨hIdle.1, hRight.1, hLeft.1, (nomatch ·)⟩,
    ⟨hIdle.2, hRight.2, hSame.downIndexVal hg hh, fun _ => hLeft.2⟩⟩

end Watch

/-- Two reachable games agree for ever after the same `Reset`, whatever follows,
exactly when the registers without a reset branch that can still be seen agree. -/
theorem erasesHistory_iff (g h : Game) (hg : Reachable g) (hh : Reachable h) :
    g.ErasesHistory h ↔ g.SameRemains h := by
  refine ⟨fun hSame => hSame.sameRemains hg hh, fun hs keycode held events n => ?_⟩
  rw [pulseReset_eq, pulseReset_eq]
  exact (after_related (R := Alike) (fun _ _ event ha => ha.step event)
    (hs.alike keycode hg.steady hh.steady) events n).outputs

/-- A game that has left the title screen and one that has not. -/
theorem erasesHistory_iff_started :
    started.ErasesHistory ((zero.posedgeReset 0).negedgeReset.posedgeClk 0) ↔
      started.SameRemains ((zero.posedgeReset 0).negedgeReset.posedgeClk 0) :=
  erasesHistory_iff _ _ reachable_started ((reachable_zero.step .negedgeReset).step (.posedgeClk 0))

/-- Reset again right away, or after one `Clk` edge has loaded the tables: at
the first frame blue stands in column 320 or in column 260. -/
theorem not_erasesHistory_started :
    Reachable (zero.posedgeReset 0) ∧ Reachable started ∧
      ¬(zero.posedgeReset 0).ErasesHistory started := by
  refine ⟨reachable_zero, reachable_started, fun hSame => ?_⟩
  have hX := congrFun (congrArg Outputs.ballX (hSame 0 [] (fun _ => .posedgeClk 0) 1)) 0
  revert hX
  decide

end Game

end TwoBallGame
