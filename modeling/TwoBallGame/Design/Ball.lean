import TwoBallGame.Design.Block
import TwoBallGame.Design.SinCos
import TwoBallGame.Clocked.Loops

/-! `ball`: one of the two balls. It turns on a circle with the keys, tests
itself against every element, and records the elements it has hit. -/
namespace TwoBallGame

open Clocked

instance neZero_balls : NeZero 2 := ⟨by decide⟩

def ballXCenter : BitVec 10 := 320

def ballXRight : BitVec 10 := 380

def ballXLeft : BitVec 10 := 260

def ballYCenter : BitVec 10 := 390

def ballSize : BitVec 10 := 4

def radius : BitVec 32 := 60

/-- The element ports of `ball`: corners and sizes of all blocks and rects. -/
structure ElementPorts where
  blockX : Fin 18 → BitVec 10
  blockY : Fin 18 → BitVec 10
  blockS : Fin 18 → BitVec 10
  rectX : Fin 12 → BitVec 10
  rectY : Fin 12 → BitVec 10
  rectS : Fin 12 → BitVec 10

/-- The five `Sin_Cos` instances of one ball. -/
structure BallTables where
  getVals : SinCos
  upIndexVal : SinCos
  downIndexVal : SinCos
  zeroIndexVal : SinCos
  lastIndexVal : SinCos
deriving DecidableEq

/-- All five tables are clocked together; `index` is the value before the edge. -/
def BallTables.posedgeClk (index : BitVec 6) (t : BallTables) : BallTables :=
  { getVals := t.getVals.posedgeClk index
    upIndexVal := t.upIndexVal.posedgeClk (index + 1)
    downIndexVal := t.downIndexVal.posedgeClk (index - 1)
    zeroIndexVal := t.zeroIndexVal.posedgeClk 1
    lastIndexVal := t.lastIndexVal.posedgeClk 60 }

/-- The registers of one ball, its tables included. `next_index` is wired back
to `index`, so it is the ball's index between edges. -/
structure Ball where
  ballXPos : BitVec 10
  ballYPos : BitVec 10
  ballXMotion : BitVec 10
  ballYMotion : BitVec 10
  paint : Fin 30 → Bool
  blockHit : BitVec 6
  collision : Bool
  nextIndex : BitVec 6
  tables : BallTables

/-- What `Move_Ball` reads besides the ball's own registers. -/
structure BallPorts where
  reset : Bool
  collisionOther : Bool
  blockHitOther : BitVec 6
  keycode : BitVec 8
  index : BitVec 6
  elements : ElementPorts

namespace Ball

/-- `lo <= p && p <= lo + len`, all in 10 bits. -/
def inSpan (p lo len : BitVec 10) : Bool := decide (lo ≤ p) && decide (p ≤ lo + len)

/-- One entry of `block_collision`: left, right, top and bottom point of the
ball against the square of the block. -/
def blockCollision (b : Ball) (e : ElementPorts) (i : Fin 18) : Bool :=
  (inSpan (b.ballXPos - ballSize) (e.blockX i) (e.blockS i) &&
      inSpan b.ballYPos (e.blockY i) (e.blockS i)) ||
    (inSpan (b.ballXPos + ballSize) (e.blockX i) (e.blockS i) &&
      inSpan b.ballYPos (e.blockY i) (e.blockS i)) ||
    (inSpan b.ballXPos (e.blockX i) (e.blockS i) &&
      inSpan (b.ballYPos - ballSize) (e.blockY i) (e.blockS i)) ||
    (inSpan b.ballXPos (e.blockX i) (e.blockS i) &&
      inSpan (b.ballYPos + ballSize) (e.blockY i) (e.blockS i))

/-- `lo <= p && p' <= lo + len / 4`. The literal makes the second comparison
one of 32 bits, where `p'` is the operand before it is cut to 10. -/
def inRectSpan (p : BitVec 10) (p' : BitVec 32) (lo len : BitVec 10) : Bool :=
  decide (lo ≤ p) && decide (p' ≤ lo.setWidth 32 + len.setWidth 32 / 4)

/-- One entry of `rect_collision`; a rect is a quarter as high as it is wide. -/
def rectCollision (b : Ball) (e : ElementPorts) (j : Fin 12) : Bool :=
  let y := b.ballYPos.setWidth 32
  let size := ballSize.setWidth 32
  (inSpan (b.ballXPos - ballSize) (e.rectX j) (e.rectS j) &&
      inRectSpan b.ballYPos y (e.rectY j) (e.rectS j)) ||
    (inSpan (b.ballXPos + ballSize) (e.rectX j) (e.rectS j) &&
      inRectSpan b.ballYPos y (e.rectY j) (e.rectS j)) ||
    (inSpan b.ballXPos (e.rectX j) (e.rectS j) &&
      inRectSpan (b.ballYPos - ballSize) (y - size) (e.rectY j) (e.rectS j)) ||
    (inSpan b.ballXPos (e.rectX j) (e.rectS j) &&
      inRectSpan (b.ballYPos + ballSize) (y + size) (e.rectY j) (e.rectS j))

/-- The condition of the collision branch: any entry of either array. -/
def collides (b : Ball) (e : ElementPorts) : Bool :=
  (List.finRange 18).any (b.blockCollision e) || (List.finRange 12).any (b.rectCollision e)

/-- The assignments shared by the reset and the collision branch: back to the
start point of this ball's colour. -/
def respawn (color : Bool) (b : Ball) : Ball :=
  { b with
    ballYMotion := 0
    ballXMotion := 0
    ballYPos := ballYCenter
    ballXPos := if color then ballXRight else ballXLeft
    nextIndex := if color then 1 else 31 }

/-- `paint[block_hit_other] <= 0`; a number above 29 selects no entry. -/
def clearPaint (hit : BitVec 6) (paint : Fin 30 → Bool) : Fin 30 → Bool :=
  fun k => if k.val = hit.toNat then false else paint k

/-- The asynchronous branch, taken while `Reset || Collision_other`. -/
def resetBranch (color : Bool) (p : BallPorts) (b : Ball) : Ball :=
  let paint := if p.reset then fun _ => false else b.paint
  { b with paint := clearPaint p.blockHitOther paint, collision := false }.respawn color

/-- The two loops of the collision branch, over blocks and then over rects. -/
def paintLoops (b : Ball) (e : ElementPorts) : (Fin 30 → Bool) × BitVec 6 :=
  let blocks := markLoop (b.blockCollision e) (fun i => (⟨i, block_lt_elements i⟩ : Fin 30))
    (fun i => BitVec.ofNat 6 i) (List.finRange 18) (b.paint, b.blockHit)
  markLoop (b.rectCollision e) (fun j => (⟨j + 18, rect_add_lt_elements j⟩ : Fin 30))
    (fun j => BitVec.ofNat 6 (j + 18)) (List.finRange 12) blocks

/-- The synchronous branch of a ball that touches some element. -/
def collisionBranch (color : Bool) (e : ElementPorts) (b : Ball) : Ball :=
  let marked := b.paintLoops e
  { b with paint := marked.1, blockHit := marked.2, collision := true }.respawn color

/-- `value*radius/1000` next to an unsigned 10-bit parameter: the whole
expression is unsigned and 32 bits wide. -/
def scaled (value : BitVec 32) : BitVec 32 := value * radius / 1000

def plusScaled (center : BitVec 10) (value : BitVec 32) : BitVec 10 :=
  (center.setWidth 32 + scaled value).setWidth 10

def minusScaled (center : BitVec 10) (value : BitVec 32) : BitVec 10 :=
  (center.setWidth 32 - scaled value).setWidth 10

/-- Assign both motion registers, the horizontal one first. -/
def setMotion (x y : BitVec 10) (b : Ball) : Ball :=
  { b with ballXMotion := x, ballYMotion := y }

/-- The four ranges of `index` that fix the signs while a key is down. An
index of zero is in none of them and leaves the motion registers alone. -/
def quadrantMotion (index : BitVec 6) (v : SinCos) (b : Ball) : Ball :=
  if 0 < index.toNat ∧ index.toNat < 16 then
    b.setMotion (plusScaled ballXCenter v.cosine) (plusScaled ballYCenter v.sine)
  else if 16 ≤ index.toNat ∧ index.toNat ≤ 30 then
    b.setMotion (minusScaled ballXCenter v.cosine) (plusScaled ballYCenter v.sine)
  else if 30 < index.toNat ∧ index.toNat < 46 then
    b.setMotion (minusScaled ballXCenter v.cosine) (minusScaled ballYCenter v.sine)
  else if 46 ≤ index.toNat then
    b.setMotion (plusScaled ballXCenter v.cosine) (minusScaled ballYCenter v.sine)
  else b

/-- `case (keycode)`, item 7: one index up, clockwise. -/
def rightKey (index : BitVec 6) (b : Ball) : Ball :=
  if index = 60 then
    { b with nextIndex := 1 }.setMotion
      (plusScaled ballXCenter b.tables.zeroIndexVal.cosine)
      (plusScaled ballYCenter b.tables.zeroIndexVal.sine)
  else
    { b with nextIndex := index + 1 }.quadrantMotion index b.tables.upIndexVal

/-- `case (keycode)`, item 4: one index down, counter clockwise. -/
def leftKey (index : BitVec 6) (b : Ball) : Ball :=
  if index = 1 then
    { b with nextIndex := 60 }.setMotion
      (plusScaled ballXCenter b.tables.lastIndexVal.cosine)
      (plusScaled ballYCenter b.tables.lastIndexVal.sine)
  else
    { b with nextIndex := index - 1 }.quadrantMotion index b.tables.downIndexVal

/-- `case (keycode)`, default: the signs come from the position, not the index. -/
def noKey (b : Ball) : Ball :=
  b.setMotion
    (if b.ballXPos ≤ ballXCenter then minusScaled ballXCenter b.tables.getVals.cosine
      else plusScaled ballXCenter b.tables.getVals.cosine)
    (if ballYCenter ≤ b.ballYPos then plusScaled ballYCenter b.tables.getVals.sine
      else minusScaled ballYCenter b.tables.getVals.sine)

def caseKeycode (keycode : BitVec 8) (index : BitVec 6) (b : Ball) : Ball :=
  if keycode = 7 then b.rightKey index
  else if keycode = 4 then b.leftKey index
  else b.noKey

/-- The synchronous branch of a ball that touches nothing. -/
def rotateBranch (keycode : BitVec 8) (index : BitVec 6) (b : Ball) : Ball :=
  let b := { b with collision := false }.caseKeycode keycode index
  { b with ballYPos := b.ballYMotion, ballXPos := b.ballXMotion }

/-- One activation of `Move_Ball`. -/
def moveBall (color : Bool) (p : BallPorts) (b : Ball) : Ball :=
  if p.reset || p.collisionOther then b.resetBranch color p
  else if b.collides p.elements then b.collisionBranch color p.elements
  else b.rotateBranch p.keycode p.index

/-- Everything in the ball that is clocked by `frame_clk`. The tables and
`Move_Ball` all read the registers as they were before the edge. -/
def posedgeFrameClk (color : Bool) (p : BallPorts) (b : Ball) : Ball :=
  { b.moveBall color p with tables := b.tables.posedgeClk p.index }

end Ball

end TwoBallGame
