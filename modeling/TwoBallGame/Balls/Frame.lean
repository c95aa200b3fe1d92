import TwoBallGame.Design.FinalProject

/-! What one frame edge does to one of the two cross-connected balls. Later
proofs about the pair use these facts and never unfold `Move_Ball` again. -/
namespace TwoBallGame

open Clocked

/-- The index a ball starts with: 31 on the left for blue, 1 on the right for red. -/
def startIndex (color : Bool) : BitVec 6 := if color then 1 else 31

def startX (color : Bool) : BitVec 10 := if color then ballXRight else ballXLeft

/-- One key press moves the index by one around the sixty places. -/
def turn (keycode : BitVec 8) (index : BitVec 6) : BitVec 6 :=
  if keycode = 7 then (if index = 60 then 1 else index + 1)
  else if keycode = 4 then (if index = 1 then 60 else index - 1)
  else index

namespace Ball

variable (color : Bool) (p : BallPorts) (b : Ball)

theorem moveBall_of_reset (h : (p.reset || p.collisionOther) = true) :
    b.moveBall color p = b.resetBranch color p := by
  simp only [moveBall, h, if_true]

theorem moveBall_of_collides (h : (p.reset || p.collisionOther) = false)
    (hit : b.collides p.elements = true) :
    b.moveBall color p = b.collisionBranch color p.elements := by
  simp [moveBall, h, hit]

theorem moveBall_of_free (h : (p.reset || p.collisionOther) = false)
    (free : b.collides p.elements = false) :
    b.moveBall color p = b.rotateBranch p.keycode p.index := by
  simp [moveBall, h, free]

section Branches

variable (e : ElementPorts) (keycode : BitVec 8) (index : BitVec 6)

@[simp] theorem resetBranch_collision : (b.resetBranch color p).collision = false := rfl
@[simp] theorem resetBranch_paint : (b.resetBranch color p).paint =
    clearPaint p.blockHitOther (if p.reset then fun _ => false else b.paint) := rfl

@[simp] theorem collisionBranch_collision : (b.collisionBranch color e).collision = true := rfl
@[simp] theorem collisionBranch_paint :
    (b.collisionBranch color e).paint = (b.paintLoops e).1 := rfl

/-- The key cases touch motion and index only. -/
theorem caseKeycode_frame :
    (b.caseKeycode keycode index).collision = b.collision ∧
    (b.caseKeycode keycode index).paint = b.paint ∧
    (b.caseKeycode keycode index).blockHit = b.blockHit ∧
    (b.caseKeycode keycode index).tables = b.tables := by
  unfold caseKeycode rightKey leftKey noKey quadrantMotion setMotion
  split_ifs <;> exact ⟨rfl, rfl, rfl, rfl⟩

@[simp] theorem rotateBranch_collision :
    (b.rotateBranch keycode index).collision = false :=
  (caseKeycode_frame _ keycode index).1

@[simp] theorem rotateBranch_paint : (b.rotateBranch keycode index).paint = b.paint :=
  (caseKeycode_frame { b with collision := false } keycode index).2.1

theorem quadrantMotion_nextIndex (v : SinCos) :
    (b.quadrantMotion index v).nextIndex = b.nextIndex := by
  unfold quadrantMotion setMotion
  split_ifs <;> rfl

/-- With `index` fed back from `next_index`, turning is a function of the index. -/
theorem rotateBranch_nextIndex :
    (b.rotateBranch keycode b.nextIndex).nextIndex = turn keycode b.nextIndex := by
  unfold rotateBranch caseKeycode rightKey leftKey turn
  split_ifs <;> simp only [setMotion, quadrantMotion_nextIndex, noKey]

end Branches

end Ball

/-- The ports of one ball of the pair, seen from either side. -/
def framePorts (reset : Bool) (keycode : BitVec 8) (e : ElementPorts)
    (mine other : Ball) : BallPorts :=
  { reset, keycode, elements := e, collisionOther := other.collision
    blockHitOther := other.blockHit, index := mine.nextIndex }

namespace Ball

/-- One ball after the processes of the frame edge itself. -/
def sampled (color reset : Bool) (keycode : BitVec 8) (e : ElementPorts)
    (mine other : Ball) : Ball :=
  mine.posedgeFrameClk color (framePorts reset keycode e mine other)

/-- The final registers of one ball at a frame edge, the other ball's answer to
the same edge included. Both colours are instances of this one function. -/
def frame (color reset : Bool) (keycode : BitVec 8) (e : ElementPorts)
    (mine other : Ball) : Ball :=
  let m := mine.sampled color reset keycode e other
  let o := other.sampled (!color) reset keycode e mine
  if o.collision && !other.collision then
    m.moveBall color { framePorts reset keycode e m o with collisionOther := true }
  else m

/-- The ball takes its collision branch at this edge. -/
def hits (reset : Bool) (e : ElementPorts) (mine other : Ball) : Bool :=
  !reset && !other.collision && mine.collides e

/-- The ball ends the edge back at its start point. -/
def respawns (reset : Bool) (e : ElementPorts) (mine other : Ball) : Bool :=
  reset || other.collision || mine.hits reset e other || other.hits reset e mine

variable (color reset : Bool) (keycode : BitVec 8) (e : ElementPorts) (mine other : Ball)

theorem sampled_of_hits (h : mine.hits reset e other = true) :
    mine.sampled color reset keycode e other =
      { mine.collisionBranch color e with tables := mine.tables.posedgeClk mine.nextIndex } := by
  simp only [hits, Bool.and_eq_true, Bool.not_eq_true'] at h
  obtain ⟨⟨hReset, hOther⟩, hTouch⟩ := h
  have hSync : ((framePorts reset keycode e mine other).reset ||
      (framePorts reset keycode e mine other).collisionOther) = false := by
    simp only [framePorts, hReset, hOther, Bool.or_false]
  rw [sampled, posedgeFrameClk, moveBall_of_collides _ _ _ hSync hTouch]
  rfl

theorem sampled_of_reset (h : (reset || other.collision) = true) :
    mine.sampled color reset keycode e other =
      { mine.resetBranch color (framePorts reset keycode e mine other) with
        tables := mine.tables.posedgeClk mine.nextIndex } := by
  have hAsync : ((framePorts reset keycode e mine other).reset ||
      (framePorts reset keycode e mine other).collisionOther) = true := h
  rw [sampled, posedgeFrameClk, moveBall_of_reset _ _ _ hAsync]
  rfl

theorem sampled_of_free (h : (reset || other.collision) = false)
    (free : mine.collides e = false) :
    mine.sampled color reset keycode e other =
      { mine.rotateBranch keycode mine.nextIndex with
        tables := mine.tables.posedgeClk mine.nextIndex } := by
  have hSync : ((framePorts reset keycode e mine other).reset ||
      (framePorts reset keycode e mine other).collisionOther) = false := h
  rw [sampled, posedgeFrameClk, moveBall_of_free _ _ _ hSync free]
  rfl

/-- After the edge itself, `Collision` is high just when the ball hit something. -/
theorem sampled_collision :
    (mine.sampled color reset keycode e other).collision = mine.hits reset e other := by
  cases hHit : mine.hits reset e other with
  | true => rw [sampled_of_hits _ _ _ _ _ _ hHit, collisionBranch_collision]
  | false =>
      cases hAsync : (reset || other.collision) with
      | true => rw [sampled_of_reset _ _ _ _ _ _ hAsync, resetBranch_collision]
      | false =>
          have hFree : mine.collides e = false := by
            obtain ⟨hReset, hOther⟩ := Bool.or_eq_false_iff.mp hAsync
            simpa [hits, hReset, hOther] using hHit
          rw [sampled_of_free _ _ _ _ _ _ hAsync hFree, rotateBranch_collision]

/-- Woken by the other ball's rising `Collision`: the second activation. -/
theorem frame_of_woken (h : other.hits reset e mine = true) (low : other.collision = false) :
    mine.frame color reset keycode e other =
      (mine.sampled color reset keycode e other).resetBranch color
        { framePorts reset keycode e (mine.sampled color reset keycode e other)
            (other.sampled (!color) reset keycode e mine) with collisionOther := true } := by
  have hWake : ((other.sampled (!color) reset keycode e mine).collision &&
      !other.collision) = true := by
    rw [sampled_collision, h, low]
    rfl
  rw [frame, if_pos hWake]
  exact moveBall_of_reset _ _ _ (Bool.or_true _)

/-- Not woken: the other ball hit nothing, or its `Collision` was high before. -/
theorem frame_of_not_woken (h : (other.hits reset e mine && !other.collision) = false) :
    mine.frame color reset keycode e other = mine.sampled color reset keycode e other := by
  have hWake : ((other.sampled (!color) reset keycode e mine).collision &&
      !other.collision) = false := by
    rw [sampled_collision, h]
  simp only [frame, hWake, Bool.false_eq_true, if_false]

/-- When the other ball's `Collision` was high, this ball cannot hit anything. -/
theorem hits_eq_false_of_other (h : other.collision = true) :
    mine.hits reset e other = false := by
  simp [hits, h]

/-- Two simultaneous hits clear both flags; a single hit stays recorded. -/
theorem frame_collision :
    (mine.frame color reset keycode e other).collision =
      (mine.hits reset e other && !other.hits reset e mine) := by
  cases hOther : other.hits reset e mine with
  | false =>
      rw [frame_of_not_woken _ _ _ _ _ _ (by simp [hOther]), sampled_collision]
      simp
  | true =>
      cases hLow : other.collision with
      | false => rw [frame_of_woken _ _ _ _ _ _ hOther hLow]; simp
      | true =>
          rw [frame_of_not_woken _ _ _ _ _ _ (by simp [hLow]), sampled_collision,
            hits_eq_false_of_other _ _ _ _ hLow]
          rfl

/-- The tables are clocked once, with the index before the edge. -/
theorem frame_tables :
    (mine.frame color reset keycode e other).tables =
      mine.tables.posedgeClk mine.nextIndex := by
  cases hWoken : (other.hits reset e mine && !other.collision) with
  | true =>
      obtain ⟨hOther, hLow⟩ : other.hits reset e mine = true ∧ other.collision = false := by
        simpa using hWoken
      rw [frame_of_woken _ _ _ _ _ _ hOther hLow]
      rfl
  | false =>
      rw [frame_of_not_woken _ _ _ _ _ _ hWoken]
      rfl

/-- A ball that meets nothing and is not reset just turns. -/
theorem frame_of_turns (h : mine.respawns reset e other = false) :
    mine.frame color reset keycode e other =
      { mine.rotateBranch keycode mine.nextIndex with
        tables := mine.tables.posedgeClk mine.nextIndex } := by
  obtain ⟨⟨⟨hReset, hHigh⟩, hMine⟩, hOther⟩ :
      ((reset = false ∧ other.collision = false) ∧ mine.hits reset e other = false) ∧
        other.hits reset e mine = false := by
    simpa [respawns, Bool.or_eq_false_iff] using h
  rw [frame_of_not_woken _ _ _ _ _ _ (by simp [hOther])]
  exact sampled_of_free _ _ _ _ _ _ (by simp [hReset, hHigh])
    (by simpa [hits, hReset, hHigh] using hMine)

/-- Every other ball is back at the start point of its colour. -/
theorem frame_of_respawns (h : mine.respawns reset e other = true) :
    (mine.frame color reset keycode e other).nextIndex = startIndex color ∧
    (mine.frame color reset keycode e other).ballXPos = startX color ∧
    (mine.frame color reset keycode e other).ballYPos = ballYCenter := by
  cases hWoken : (other.hits reset e mine && !other.collision) with
  | true =>
      obtain ⟨hOther, hLow⟩ : other.hits reset e mine = true ∧ other.collision = false := by
        simpa using hWoken
      rw [frame_of_woken _ _ _ _ _ _ hOther hLow]
      exact ⟨rfl, rfl, rfl⟩
  | false =>
      rw [frame_of_not_woken _ _ _ _ _ _ hWoken]
      cases hMine : mine.hits reset e other with
      | true => rw [sampled_of_hits _ _ _ _ _ _ hMine]; exact ⟨rfl, rfl, rfl⟩
      | false =>
          have hAsync : (reset || other.collision) = true := by
            cases hHigh : other.collision <;> simp_all [respawns]
          rw [sampled_of_reset _ _ _ _ _ _ hAsync]
          exact ⟨rfl, rfl, rfl⟩

/-- The index after an edge, with the branch taken read off the state before. -/
theorem frame_nextIndex :
    (mine.frame color reset keycode e other).nextIndex =
      if mine.respawns reset e other then startIndex color else turn keycode mine.nextIndex := by
  cases h : mine.respawns reset e other with
  | true => exact (frame_of_respawns _ _ _ _ _ _ h).1
  | false =>
      rw [frame_of_turns _ _ _ _ _ _ h]
      exact rotateBranch_nextIndex _ _

end Ball

namespace Balls

variable (reset : Bool) (keycode : BitVec 8) (e : ElementPorts) (s : Balls)

theorem posedgeFrameClk_blue : (s.posedgeFrameClk reset keycode e).blue =
    s.blue.frame false reset keycode e s.red := rfl

theorem posedgeFrameClk_red : (s.posedgeFrameClk reset keycode e).red =
    s.red.frame true reset keycode e s.blue := rfl

/-- Some `Collision` rises just when a ball hits that was not already high. -/
theorem rises_eq : s.rises reset keycode e =
    ((s.blue.hits reset e s.red && !s.blue.collision) ||
      (s.red.hits reset e s.blue && !s.red.collision)) := by
  rw [← s.blue.sampled_collision false reset keycode e s.red,
    ← s.red.sampled_collision true reset keycode e s.blue]
  rfl

/-- Between edges at most one `Collision` is high, and a ball whose
`Collision` is high has not left its start point. -/
structure Settled (s : Balls) : Prop where
  notBoth : (s.blue.collision && s.red.collision) = false
  blueStart : s.blue.collision = true → s.blue.nextIndex = 31
  redStart : s.red.collision = true → s.red.nextIndex = 1

theorem settled_posedgeFrameClk : (s.posedgeFrameClk reset keycode e).Settled := by
  have hBlue := s.blue.frame_collision false reset keycode e s.red
  have hRed := s.red.frame_collision true reset keycode e s.blue
  refine ⟨?_, fun h => ?_, fun h => ?_⟩
  · rw [posedgeFrameClk_blue, posedgeFrameClk_red, hBlue, hRed]
    cases s.blue.hits reset e s.red <;> simp
  · rw [posedgeFrameClk_blue, hBlue, Bool.and_eq_true] at h
    have hRespawns : s.blue.respawns reset e s.red = true := by simp [Ball.respawns, h.1]
    exact (Ball.frame_of_respawns false _ _ _ _ _ hRespawns).1
  · rw [posedgeFrameClk_red, hRed, Bool.and_eq_true] at h
    have hRespawns : s.red.respawns reset e s.blue = true := by simp [Ball.respawns, h.1]
    exact (Ball.frame_of_respawns true _ _ _ _ _ hRespawns).1

/-- `posedge Reset` puts both balls at their start points, paint cleared. -/
theorem posedgeReset_eq : s.posedgeReset keycode e =
    { blue := s.blue.resetBranch false (framePorts true keycode e s.blue s.red)
      red := s.red.resetBranch true (framePorts true keycode e s.red s.blue) } := by
  unfold posedgeReset
  rw [Ball.moveBall_of_reset _ _ _ (Bool.true_or _), Ball.moveBall_of_reset _ _ _ (Bool.true_or _)]
  rfl

theorem settled_posedgeReset : (s.posedgeReset keycode e).Settled := by
  rw [posedgeReset_eq]
  exact ⟨rfl, fun _ => rfl, fun _ => rfl⟩

/-- Every event leaves the pair settled. -/
theorem settled_step (event : BallEvent) : (s.step event).Settled := by
  cases event with
  | posedgeReset keycode e => exact settled_posedgeReset keycode e s
  | posedgeFrameClk reset keycode e => exact settled_posedgeFrameClk reset keycode e s

end Balls

end TwoBallGame
