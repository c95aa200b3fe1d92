import TwoBallGame.Balls.Position

/-! One ball of the pair, chosen by its colour, over runs of both. In a frame
without `Reset` and collision it is held at its start point or it turns. -/
namespace TwoBallGame

open Clocked

/-- A table clocked with an index that has a row holds that row. -/
theorem posedgeClk_row {index : BitVec 6} (h : (sinCosRow index).isSome) (r : SinCos) :
    sinCosRow index = some (r.posedgeClk index) := by
  obtain ⟨row, hRow⟩ := Option.isSome_iff_exists.mp h
  rw [SinCos.posedgeClk, hRow]
  rfl

/-- The places with rows: the circle, its upper neighbours, and its lower
neighbours but the one of index 1. -/
theorem isSome_sinCosRow {index : BitVec 6} (h : OnCircle index) :
    (sinCosRow index).isSome ∧ (sinCosRow (index + 1)).isSome ∧
      (index ≠ 1 → (sinCosRow (index - 1)).isSome) := by
  have hAll : ∀ k : Fin 64, OnCircle (BitVec.ofFin k) →
      let i : BitVec 6 := BitVec.ofFin k
      (sinCosRow i).isSome ∧ (sinCosRow (i + 1)).isSome ∧
        (i ≠ 1 → (sinCosRow (i - 1)).isSome) := by decide
  exact hAll index.toFin h

namespace Ball

/-- A ball at the start point of its colour. -/
structure AtStart (color : Bool) (b : Ball) : Prop where
  index : b.nextIndex = startIndex color
  x : b.ballXPos = startX color
  y : b.ballYPos = ballYCenter

/-- The registers after a frame that began at index `before`. With index 0 on
its port the lower one keeps what it had. -/
structure Tracks (before : BitVec 6) (b : Ball) : Prop where
  onCircle : OnCircle before
  index : b.nextIndex = before ∨ b.nextIndex = turn 7 before ∨ b.nextIndex = turn 4 before
  getVals : sinCosRow before = some b.tables.getVals
  upIndexVal : sinCosRow (before + 1) = some b.tables.upIndexVal
  downIndexVal : before ≠ 1 → sinCosRow (before - 1) = some b.tables.downIndexVal
  zeroIndexVal : sinCosRow 1 = some b.tables.zeroIndexVal
  lastIndexVal : sinCosRow 60 = some b.tables.lastIndexVal

theorem tracks_of_posedgeClk {b b' : Ball} (h : OnCircle b.nextIndex)
    (hIndex : b'.nextIndex = b.nextIndex ∨ b'.nextIndex = turn 7 b.nextIndex ∨
      b'.nextIndex = turn 4 b.nextIndex)
    (hTables : b'.tables = b.tables.posedgeClk b.nextIndex) : b'.Tracks b.nextIndex := by
  obtain ⟨hRow, hUp, hDown⟩ := isSome_sinCosRow h
  refine ⟨h, hIndex, ?_, ?_, fun h1 => ?_, ?_, ?_⟩
  all_goals rw [hTables, BallTables.posedgeClk]
  · exact posedgeClk_row hRow b.tables.getVals
  · exact posedgeClk_row hUp b.tables.upIndexVal
  · exact posedgeClk_row (hDown h1) b.tables.downIndexVal
  · exact posedgeClk_row rfl b.tables.zeroIndexVal
  · exact posedgeClk_row rfl b.tables.lastIndexVal

end Ball

namespace Balls

/-- The ball of a colour, red for 1 and blue for 0. -/
def ball (color : Bool) (s : Balls) : Ball := if color then s.red else s.blue

/-- No `Reset` and no collision of either ball at this event. -/
def Calm (s : Balls) : BallEvent → Prop
  | .posedgeReset _ _ => False
  | .posedgeFrameClk reset _ e =>
      reset = false ∧ s.blue.hits reset e s.red = false ∧ s.red.hits reset e s.blue = false

instance decidableCalm (s : Balls) : (event : BallEvent) → Decidable (s.Calm event)
  | .posedgeReset _ _ => inferInstanceAs (Decidable False)
  | .posedgeFrameClk reset _ e =>
      inferInstanceAs (Decidable (reset = false ∧ s.blue.hits reset e s.red = false ∧
        s.red.hits reset e s.blue = false))

/-- The states after `Reset`, with any magnitudes in the tables before it. -/
def AfterReset (s : Balls) : Prop :=
  ∃ (start : Balls) (keycode : BitVec 8) (e : ElementPorts),
    (∀ color, (start.ball color).tables.InRange) ∧
      Reaches Balls.step (start.posedgeReset keycode e) s

/-- What every state after `Reset` promises for the ball of one colour. While
the other ball's `Collision` is high it has not left its start point. -/
structure Ready (color : Bool) (s : Balls) : Prop where
  tables : (s.ball color).tables.InRange
  index : OnCircle (s.ball color).nextIndex
  held : (s.ball (!color)).collision = true → (s.ball color).AtStart color

section Single

variable {s : Balls} {color reset : Bool} {keycode : BitVec 8} {e : ElementPorts}

theorem AfterReset.run (h : s.AfterReset) (events : List BallEvent) :
    (Clocked.run Balls.step s events).AfterReset := by
  obtain ⟨start, keycode, e, hTables, before, rfl⟩ := h
  exact ⟨start, keycode, e, hTables, before ++ events, run_append Balls.step _ before events⟩

theorem ball_posedgeFrameClk (s : Balls) (color reset : Bool) (keycode : BitVec 8)
    (e : ElementPorts) : (s.posedgeFrameClk reset keycode e).ball color =
      (s.ball color).frame color reset keycode e (s.ball (!color)) := by
  cases color <;> rfl

theorem ball_posedgeReset (s : Balls) (color : Bool) (keycode : BitVec 8) (e : ElementPorts) :
    (s.posedgeReset keycode e).ball color = (s.ball color).resetBranch color
      (framePorts true keycode e (s.ball color) (s.ball (!color))) := by
  rw [posedgeReset_eq]
  cases color <;> rfl

theorem Calm.reset_low (h : s.Calm (.posedgeFrameClk reset keycode e)) : reset = false := h.1

theorem Calm.hits_eq_false (h : s.Calm (.posedgeFrameClk reset keycode e)) (color : Bool) :
    (s.ball color).hits reset e (s.ball (!color)) = false := by
  cases color with
  | false => exact h.2.1
  | true => exact h.2.2

/-- Back at the start point after a frame that puts the ball there. -/
theorem atStart_of_respawns (h : (s.ball color).respawns reset e (s.ball (!color)) = true) :
    ((s.posedgeFrameClk reset keycode e).ball color).AtStart color := by
  rw [ball_posedgeFrameClk]
  obtain ⟨hIndex, hX, hY⟩ := Ball.frame_of_respawns color reset keycode e _ _ h
  exact ⟨hIndex, hX, hY⟩

/-- A `Collision` that is high after a frame has put the other ball back. -/
theorem atStart_of_collision
    (h : ((s.posedgeFrameClk reset keycode e).ball (!color)).collision = true) :
    ((s.posedgeFrameClk reset keycode e).ball color).AtStart color := by
  rw [ball_posedgeFrameClk, Ball.frame_collision, Bool.not_not, Bool.and_eq_true] at h
  apply atStart_of_respawns
  rw [Ball.respawns, h.1, Bool.or_true]

theorem atStart_posedgeReset (s : Balls) (color : Bool) (keycode : BitVec 8)
    (e : ElementPorts) : ((s.posedgeReset keycode e).ball color).AtStart color := by
  rw [ball_posedgeReset]
  exact ⟨rfl, rfl, rfl⟩

theorem ready_posedgeReset (h : (s.ball color).tables.InRange) (keycode : BitVec 8)
    (e : ElementPorts) : (s.posedgeReset keycode e).Ready color := by
  have hStart := s.atStart_posedgeReset color keycode e
  refine ⟨?_, ?_, fun _ => hStart⟩
  · rw [ball_posedgeReset]
    exact h
  · rw [hStart.index]
    exact startIndex_onCircle color

theorem tables_posedgeFrameClk (s : Balls) (color reset : Bool) (keycode : BitVec 8)
    (e : ElementPorts) : ((s.posedgeFrameClk reset keycode e).ball color).tables =
      (s.ball color).tables.posedgeClk (s.ball color).nextIndex := by
  rw [ball_posedgeFrameClk, Ball.frame_tables]

theorem Ready.posedgeFrameClk (h : s.Ready color) (reset : Bool) (keycode : BitVec 8)
    (e : ElementPorts) : (s.posedgeFrameClk reset keycode e).Ready color := by
  refine ⟨?_, ?_, atStart_of_collision⟩
  · rw [tables_posedgeFrameClk]
    exact h.tables.posedgeClk _
  · rw [ball_posedgeFrameClk, Ball.frame_nextIndex]
    split_ifs
    · exact startIndex_onCircle color
    · exact turn_onCircle keycode h.index

/-- Every event keeps the promises, so every run from `Reset` does. -/
theorem Ready.step (h : s.Ready color) (event : BallEvent) : (s.step event).Ready color := by
  cases event with
  | posedgeReset keycode e => exact ready_posedgeReset h.tables keycode e
  | posedgeFrameClk reset keycode e => exact h.posedgeFrameClk reset keycode e

theorem Ready.run (h : s.Ready color) (events : List BallEvent) :
    (run Balls.step s events).Ready color :=
  Reaches.invariant ⟨events, rfl⟩ h fun _ event hs => hs.step event

theorem AfterReset.ready (h : s.AfterReset) (color : Bool) : s.Ready color := by
  obtain ⟨start, keycode, e, hTables, events, rfl⟩ := h
  exact (ready_posedgeReset (hTables color) keycode e).run events

/-- After a frame without a collision no `Collision` is high. -/
theorem Calm.collision_low (h : s.Calm (.posedgeFrameClk reset keycode e)) (color : Bool) :
    ((s.posedgeFrameClk reset keycode e).ball color).collision = false := by
  rw [ball_posedgeFrameClk, Ball.frame_collision, h.hits_eq_false, Bool.false_and]

/-- A ball held by the other ball's `Collision` stays at its start point. -/
theorem atStart_of_held (hHigh : (s.ball (!color)).collision = true) :
    ((s.posedgeFrameClk reset keycode e).ball color).AtStart color := by
  apply atStart_of_respawns
  rw [Ball.respawns, hHigh, Bool.or_true, Bool.true_or, Bool.true_or]

/-- In a calm frame in which nothing holds it, the ball turns by the key. -/
theorem Calm.turns (h : s.Calm (.posedgeFrameClk reset keycode e))
    (hLow : (s.ball (!color)).collision = false) :
    (s.posedgeFrameClk reset keycode e).ball color =
      { (s.ball color).rotateBranch keycode (s.ball color).nextIndex with
        tables := (s.ball color).tables.posedgeClk (s.ball color).nextIndex } := by
  have hTurns : (s.ball color).respawns reset e (s.ball (!color)) = false := by
    have hOther := h.hits_eq_false (!color)
    rw [Bool.not_not] at hOther
    rw [Ball.respawns, h.hits_eq_false, hOther, hLow, h.reset_low]
    rfl
  rw [ball_posedgeFrameClk]
  exact Ball.frame_of_turns color reset keycode e _ _ hTurns

/-- Index and point of a turned ball. -/
theorem Ready.turned (h : s.Ready color) (hCalm : s.Calm (.posedgeFrameClk reset keycode e))
    (hLow : (s.ball (!color)).collision = false) :
    ((s.posedgeFrameClk reset keycode e).ball color).nextIndex =
        turn keycode (s.ball color).nextIndex ∧
      ((s.posedgeFrameClk reset keycode e).ball color).ballXPos.toNat =
        displaced 320 ((s.ball color).plusX keycode)
          (offset ((s.ball color).readVals keycode).cosine) ∧
      ((s.posedgeFrameClk reset keycode e).ball color).ballYPos.toNat =
        displaced 390 ((s.ball color).plusY keycode)
          (offset ((s.ball color).readVals keycode).sine) := by
  rw [hCalm.turns hLow]
  exact ⟨Ball.rotateBranch_nextIndex _ keycode, Ball.rotateBranch_toNat h.index h.tables keycode⟩

/-- After a calm frame, held or turned, the registers track the index before it. -/
theorem Ready.tracks (h : s.Ready color) (hCalm : s.Calm (.posedgeFrameClk reset keycode e)) :
    ((s.posedgeFrameClk reset keycode e).ball color).Tracks (s.ball color).nextIndex := by
  apply Ball.tracks_of_posedgeClk h.index
  · cases hHigh : (s.ball (!color)).collision with
    | true => exact Or.inl ((atStart_of_held hHigh).index.trans (h.held hHigh).index.symm)
    | false =>
        rw [(h.turned hCalm hHigh).1]
        by_cases hRight : keycode = 7
        · exact Or.inr (Or.inl (by rw [hRight]))
        · by_cases hLeft : keycode = 4
          · exact Or.inr (Or.inr (by rw [hLeft]))
          · exact Or.inl (turn_idle hRight hLeft _)
  · exact tables_posedgeFrameClk s color reset keycode e

end Single

/-- The device right after power-up and `Reset`, all elements at line 0. -/
def poweredReset : Balls := Balls.zero.posedgeReset 0 (wiredPorts fun _ => 0)

/-- A frame with a key down and no element near the balls. -/
def keyFrame (keycode : BitVec 8) : BallEvent :=
  .posedgeFrameClk false keycode (wiredPorts fun _ => 0)

theorem afterReset_poweredReset : poweredReset.AfterReset := by
  refine ⟨Balls.zero, 0, wiredPorts fun _ => 0, fun color => ?_, Reaches.refl _ _⟩
  cases color <;> constructor <;> decide

end Balls

end TwoBallGame
