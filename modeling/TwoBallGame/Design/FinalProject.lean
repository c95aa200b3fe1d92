import TwoBallGame.Clocked.Run
import TwoBallGame.Design.Ball
import TwoBallGame.Design.Block
import TwoBallGame.Design.BlockSM
import TwoBallGame.Design.ColorMapper
import TwoBallGame.Design.VgaController

/-! `FinalProject`: the two balls wired to each other, and the whole game. A
step is one edge of an input together with every edge it causes. Processes
woken by the same edge read the registers as they were before it; processes
woken by an edge of a register read that register's new value. -/
namespace TwoBallGame

/-- `blue` and `red`, with `Collision` and `block_hit` cross-connected and each
`next_index` fed back to its own `index`. -/
structure Balls where
  blue : Ball
  red : Ball

namespace Balls

/-- The ports of `blue`: the `other` ball is `red`. -/
def bluePorts (reset : Bool) (keycode : BitVec 8) (e : ElementPorts) (s : Balls) : BallPorts :=
  { reset, keycode, elements := e, collisionOther := s.red.collision
    blockHitOther := s.red.blockHit, index := s.blue.nextIndex }

/-- The ports of `red`: the `other` ball is `blue`. -/
def redPorts (reset : Bool) (keycode : BitVec 8) (e : ElementPorts) (s : Balls) : BallPorts :=
  { reset, keycode, elements := e, collisionOther := s.blue.collision
    blockHitOther := s.blue.blockHit, index := s.red.nextIndex }

/-- The processes woken by `posedge frame_clk` itself. -/
def sample (reset : Bool) (keycode : BitVec 8) (e : ElementPorts) (s : Balls) : Balls :=
  { blue := s.blue.posedgeFrameClk false (s.bluePorts reset keycode e)
    red := s.red.posedgeFrameClk true (s.redPorts reset keycode e) }

/-- `Collision[0]` rises between two states of the balls. -/
def blueRises (before after : Balls) : Bool := after.blue.collision && !before.blue.collision

/-- `Collision[1]` rises between two states of the balls. -/
def redRises (before after : Balls) : Bool := after.red.collision && !before.red.collision

/-- The processes woken by the `Collision` edges that `sample` caused. Each
ball is woken by the other's edge and finds `Collision_other` high. -/
def settle (reset : Bool) (keycode : BitVec 8) (e : ElementPorts) (before s : Balls) : Balls :=
  { blue :=
      if redRises before s then
        s.blue.moveBall false { s.bluePorts reset keycode e with collisionOther := true }
      else s.blue
    red :=
      if blueRises before s then
        s.red.moveBall true { s.redPorts reset keycode e with collisionOther := true }
      else s.red }

/-- `posedge frame_clk` and what it causes. -/
def posedgeFrameClk (reset : Bool) (keycode : BitVec 8) (e : ElementPorts) (s : Balls) : Balls :=
  settle reset keycode e s (s.sample reset keycode e)

/-- Some `Collision` rises at this frame edge. -/
def rises (reset : Bool) (keycode : BitVec 8) (e : ElementPorts) (s : Balls) : Bool :=
  blueRises s (s.sample reset keycode e) || redRises s (s.sample reset keycode e)

/-- `posedge Reset`. Both balls take the reset branch; no table is clocked. -/
def posedgeReset (keycode : BitVec 8) (e : ElementPorts) (s : Balls) : Balls :=
  { blue := s.blue.moveBall false (s.bluePorts true keycode e)
    red := s.red.moveBall true (s.redPorts true keycode e) }

end Balls

/-- The inputs of the two balls on their own: `Reset` rises, or `frame_clk`
rises with some level of `Reset`, some key and some elements. -/
inductive BallEvent where
  | posedgeReset (keycode : BitVec 8) (e : ElementPorts)
  | posedgeFrameClk (reset : Bool) (keycode : BitVec 8) (e : ElementPorts)

def Balls.step (s : Balls) : BallEvent → Balls
  | .posedgeReset keycode e => s.posedgeReset keycode e
  | .posedgeFrameClk reset keycode e => s.posedgeFrameClk reset keycode e

/-- Every register of a ball at zero, as the device powers up. -/
def Ball.zero : Ball :=
  { ballXPos := 0, ballYPos := 0, ballXMotion := 0, ballYMotion := 0
    paint := fun _ => false, blockHit := 0, collision := false, nextIndex := 0
    tables := ⟨⟨0, 0⟩, ⟨0, 0⟩, ⟨0, 0⟩, ⟨0, 0⟩, ⟨0, 0⟩⟩ }

def Balls.zero : Balls := ⟨Ball.zero, Ball.zero⟩

/-- The element driven by one instance of `block`. -/
inductive Element where
  | block (i : Fin 18)
  | rect (j : Fin 12)
deriving DecidableEq

/-- The connections of one instance of `block`. -/
structure Instance where
  element : Element
  blockXCenter : BitVec 10
  blockYStep : BitVec 10

/-- The instances `block1` to `block18` and `rect1` to `rect12` in the order of
their `end_level` wires. -/
def instances : List Instance :=
  [⟨.block 0, 370, 1⟩, ⟨.block 1, 320, 1⟩, ⟨.block 2, 250, 1⟩, ⟨.block 3, 340, 1⟩,
   ⟨.block 4, 310, 1⟩, ⟨.block 5, 290, 1⟩, ⟨.block 6, 365, 1⟩, ⟨.block 7, 300, 1⟩,
   ⟨.block 8, 250, 1⟩, ⟨.block 9, 300, 1⟩, ⟨.rect 0, 300, 2⟩, ⟨.rect 1, 350, 2⟩,
   ⟨.rect 2, 250, 2⟩, ⟨.block 10, 300, 2⟩, ⟨.block 11, 360, 2⟩, ⟨.rect 3, 250, 2⟩,
   ⟨.block 12, 300, 2⟩, ⟨.rect 4, 350, 2⟩, ⟨.rect 5, 300, 2⟩, ⟨.block 13, 280, 2⟩,
   ⟨.block 14, 300, 3⟩, ⟨.rect 6, 350, 3⟩, ⟨.rect 7, 250, 3⟩, ⟨.block 15, 300, 3⟩,
   ⟨.rect 8, 360, 3⟩, ⟨.block 16, 250, 3⟩, ⟨.rect 9, 300, 3⟩, ⟨.rect 10, 350, 3⟩,
   ⟨.rect 11, 300, 3⟩, ⟨.block 17, 280, 3⟩]

def instanceAt (n : Fin 30) : Instance := instances.get n

/-- The `end_level` wire of the instance that drives `BlockX[i]`, `BlockY[i]`. -/
def blockWire (i : Fin 18) : Fin 30 :=
  [0, 1, 2, 3, 4, 5, 6, 7, 8, 9, 13, 14, 16, 19, 20, 23, 25, 29].get i

/-- The `end_level` wire of the instance that drives `RectX[j]`, `RectY[j]`. -/
def rectWire (j : Fin 12) : Fin 30 :=
  [10, 11, 12, 15, 17, 18, 21, 22, 24, 26, 27, 28].get j

/-- The constants assigned to `BlockS`. -/
def blockS (_ : Fin 18) : BitVec 10 := 20

/-- The constants assigned to `RectS`. -/
def rectS (j : Fin 12) : BitVec 10 :=
  [40, 40, 40, 70, 70, 60, 70, 80, 70, 60, 70, 80].get j

def Element.ready (sm : BlockSM) : Element → Bool
  | .block i => sm.blockReady i
  | .rect j => sm.rectReady j

/-- The element wires of the design, when instance `n` stands at line `y n`. -/
def wiredPorts (y : Fin 30 → BitVec 10) : ElementPorts :=
  { blockX := fun i => (instanceAt (blockWire i)).blockXCenter
    blockY := fun i => y (blockWire i)
    blockS := blockS
    rectX := fun j => (instanceAt (rectWire j)).blockXCenter
    rectY := fun j => y (rectWire j)
    rectS := rectS }

/-- The registers of the whole design and the level of `Reset`. Elements are
numbered by their `end_level` wires. -/
structure Game where
  reset : Bool
  vga : VgaController
  sm : BlockSM
  balls : Balls
  elements : Fin 30 → Block

namespace Game

def elementPorts (g : Game) : ElementPorts :=
  wiredPorts fun n => (g.elements n).blockYPos

/-- `Collision[0] || Collision[1]`. -/
def collision (g : Game) : Bool := g.balls.blue.collision || g.balls.red.collision

def endLevel (g : Game) (n : Fin 30) : Bool := (g.elements n).endLevel

def ready (g : Game) (n : Fin 30) : Bool := (instanceAt n).element.ready g.sm

/-- The settled value of `next_state`. -/
def next (keycode : BitVec 8) (g : Game) : State :=
  nextState g.sm.state g.collision keycode g.sm.seconds g.endLevel

/-- One activation of `Move_Block` in every instance. -/
def moveBlocks (clear : Bool) (g : Game) : Fin 30 → Block :=
  fun n => (g.elements n).moveBlock clear (instanceAt n).blockYStep (g.ready n)

/-- `posedge frame_clk`. If a `Collision` rises it wakes the other ball, the
elements and the state machine, which loads the `next_state` settled before. -/
def posedgeFrameClk (keycode : BitVec 8) (g : Game) : Game :=
  let balls := g.balls.posedgeFrameClk g.reset keycode g.elementPorts
  if g.balls.rises g.reset keycode g.elementPorts then
    { g with
      balls
      elements := g.moveBlocks true
      sm := g.sm.posedge g.reset true (g.next keycode) }
  else
    { g with
      balls
      elements := g.moveBlocks (g.reset || g.sm.restart || g.collision) }

/-- `block_SM` at `posedge Clk`; entering `RESET` raises `restart`. -/
def clockSM (keycode : BitVec 8) (g : Game) : Game :=
  let sm := g.sm.posedge g.reset g.collision (g.next keycode)
  { g with
    sm
    elements := if sm.restart && !g.sm.restart then g.moveBlocks true else g.elements }

/-- `posedge Clk`. The state machine and the clock divider take the edge; the
divided clock may raise `vs`, which is the `frame_clk` of balls and elements. -/
def posedgeClk (keycode : BitVec 8) (g : Game) : Game :=
  let vga := g.vga.posedgeClk g.reset
  let g' := { g.clockSM keycode with vga }
  if vga.vs && !g.vga.vs then g'.posedgeFrameClk keycode else g'

/-- `posedge Reset`: every module with a reset branch takes it. -/
def posedgeReset (keycode : BitVec 8) (g : Game) : Game :=
  { reset := true
    vga := VgaController.posedgeReset
    sm := g.sm.posedge true g.collision (g.next keycode)
    balls := g.balls.posedgeReset keycode g.elementPorts
    elements := g.moveBlocks true }

def negedgeReset (g : Game) : Game := { g with reset := false }

/-- The connections of `color_instance`. -/
def colorPorts (g : Game) : ColorMapper :=
  { ballX := ![g.balls.blue.ballXPos, g.balls.red.ballXPos]
    ballY := ![g.balls.blue.ballYPos, g.balls.red.ballYPos]
    ballS := fun _ => ballSize
    elements := g.elementPorts
    drawX := g.vga.drawX
    drawY := g.vga.drawY
    blockReady := g.sm.blockReady
    rectReady := g.sm.rectReady
    levelOne := g.sm.levelOne
    levelTwo := g.sm.levelTwo
    title := g.sm.title
    win := g.sm.win
    pstart := g.sm.pstart
    levelFinal := g.sm.levelFinal
    hidden := g.sm.hidden
    bluePaint := g.balls.blue.paint
    orangePaint := g.balls.red.paint }

end Game

/-- The edges of the inputs of the game, each with the key held at it. -/
inductive GameEvent where
  | posedgeClk (keycode : BitVec 8)
  | posedgeReset (keycode : BitVec 8)
  | negedgeReset

def Game.step (g : Game) : GameEvent → Game
  | .posedgeClk keycode => g.posedgeClk keycode
  | .posedgeReset keycode => g.posedgeReset keycode
  | .negedgeReset => g.negedgeReset

end TwoBallGame
