import TwoBallGame.Balls.Single

/-! How far the point of a ball lags behind its index. Every table register is
tied to the index before the last frame, except the one that would need a row
for index 0. -/
namespace TwoBallGame

open Clocked

/-- A row of `index - 1`, `index` or `index + 1` around the sixty places. -/
def Beside (k index : BitVec 6) : Prop :=
  k.toNat + 1 ≡ index.toNat [MOD 60] ∨ k.toNat ≡ index.toNat [MOD 60] ∨
    k.toNat ≡ index.toNat + 1 [MOD 60]

instance decidableBeside (k index : BitVec 6) : Decidable (Beside k index) :=
  inferInstanceAs (Decidable (_ ∨ _ ∨ _))

/-- The register has the offsets of a row beside the index. -/
def SinCos.ShowsBeside (v : SinCos) (index : BitVec 6) : Prop :=
  ∃ k row, Beside k index ∧ sinCosRow k = some row ∧
    offset v.cosine = offset row.cosine ∧ offset v.sine = offset row.sine

theorem showsBeside_of_row {v : SinCos} {k index : BitVec 6} (hBeside : Beside k index)
    (hRow : sinCosRow k = some v) : v.ShowsBeside index :=
  ⟨k, v, hBeside, hRow, rfl, rfl⟩

/-- Neighbouring places stay neighbours when both move up. -/
theorem Beside.succ {k index : BitVec 6} (h : Beside k index) (hk : OnCircle k)
    (hIndex : OnCircle index) : Beside (k + 1) (index + 1) := by
  obtain ⟨-, hkHigh⟩ := hk
  obtain ⟨-, hHigh⟩ := hIndex
  have hkNat : (k + 1).toNat = k.toNat + 1 := by bv_omega
  have hNat : (index + 1).toNat = index.toNat + 1 := by bv_omega
  unfold Beside Nat.ModEq at *
  omega

/-- And when both move down. -/
theorem Beside.pred {k index : BitVec 6} (h : Beside k index) (hk : OnCircle k)
    (hIndex : OnCircle index) : Beside (k - 1) (index - 1) := by
  obtain ⟨hkLow, -⟩ := hk
  obtain ⟨hLow, -⟩ := hIndex
  have hkNat : (k - 1).toNat = k.toNat - 1 := by bv_omega
  have hNat : (index - 1).toNat = index.toNat - 1 := by bv_omega
  unfold Beside Nat.ModEq at *
  omega

/-- A key moves the index to a neighbour, across both wraps. -/
theorem beside_of_turn {before index : BitVec 6} (h : OnCircle before)
    (hIndex : index = before ∨ index = turn 7 before ∨ index = turn 4 before) :
    Beside before index ∧ OnCircle index := by
  rcases hIndex with rfl | rfl | rfl
  · exact ⟨Or.inr (Or.inl rfl), h⟩
  · exact ⟨Or.inl (turn_modEq 7 h).symm, turn_onCircle 7 h⟩
  · have hTurn : (turn 4 before).toNat ≡ before.toNat + 59 [MOD 60] := turn_modEq 4 h
    refine ⟨Or.inr (Or.inr ?_), turn_onCircle 4 h⟩
    unfold Nat.ModEq at *
    omega

namespace Ball

/-- The distances of the ball from the centre are those of a row beside its index. -/
def NearPlace (b : Ball) : Prop :=
  ∃ k row, Beside k b.nextIndex ∧ sinCosRow k = some row ∧
    ((b.ballXPos.toNat : Int) - 320).natAbs = offset row.cosine ∧
    ((b.ballYPos.toNat : Int) - 390).natAbs = offset row.sine

/-- The condition on a key: where the left key reads the lower register right
after a frame that began at index 1, that register happens to fit. -/
def ReadsFresh (keycode : BitVec 8) (b : Ball) : Prop :=
  keycode = 4 → b.nextIndex = 2 ∨ b.nextIndex = 60 → b.tables.getVals = ⟨0, 1000⟩ →
    b.tables.downIndexVal.ShowsBeside (b.nextIndex - 1)

theorem natAbs_displaced {center off : Nat} (plus : Bool) (h : off ≤ center) :
    ((displaced center plus off : Int) - center).natAbs = off := by
  unfold displaced
  split_ifs <;> omega

/-- A point at the offsets of a register is near its place just when the
register is, whatever the signs. -/
theorem nearPlace_iff {b : Ball} {v : SinCos} (hv : v.InRange) {plusX plusY : Bool}
    (hX : b.ballXPos.toNat = displaced 320 plusX (offset v.cosine))
    (hY : b.ballYPos.toNat = displaced 390 plusY (offset v.sine)) :
    b.NearPlace ↔ v.ShowsBeside b.nextIndex := by
  have hc := offset_le hv.2
  have hs := offset_le hv.1
  have hDistX : ((b.ballXPos.toNat : Int) - 320).natAbs = offset v.cosine := by
    rw [hX]
    exact natAbs_displaced plusX (by omega)
  have hDistY : ((b.ballYPos.toNat : Int) - 390).natAbs = offset v.sine := by
    rw [hY]
    exact natAbs_displaced plusY (by omega)
  rw [NearPlace, hDistX, hDistY]
  rfl

theorem nearPlace_of_atStart {b : Ball} {color : Bool} (h : b.AtStart color) : b.NearPlace := by
  rw [NearPlace, h.index, h.x, h.y]
  refine ⟨startIndex color, ⟨0, 1000⟩, Or.inr (Or.inl rfl), ?_⟩
  cases color <;> decide

/-- With registers of the last frame, every key reads a row beside the index it
turns to, but for the lower register. -/
theorem Tracks.showsBeside_iff {before : BitVec 6} {b : Ball} (h : b.Tracks before)
    (keycode : BitVec 8) :
    (b.readVals keycode).ShowsBeside (turn keycode b.nextIndex) ↔ b.ReadsFresh keycode := by
  obtain ⟨hSame, hIndex⟩ := beside_of_turn h.onCircle h.index
  by_cases hRight : keycode = 7
  · have hNotLeft : keycode ≠ 4 := by rw [hRight]; decide
    refine iff_of_true ?_ fun hLeft => absurd hLeft hNotLeft
    rw [readVals, turn, if_pos hRight, if_pos hRight]
    split_ifs with hWrap
    · exact showsBeside_of_row (by decide) h.zeroIndexVal
    · exact showsBeside_of_row (hSame.succ h.onCircle hIndex) h.upIndexVal
  · by_cases hLeft : keycode = 4
    · rw [readVals, turn, if_neg hRight, if_neg hRight, if_pos hLeft, if_pos hLeft]
      by_cases hWrap : b.nextIndex = 1
      · rw [if_pos hWrap, if_pos hWrap]
        refine iff_of_true (showsBeside_of_row (by decide) h.lastIndexVal) fun _ hStale => ?_
        rw [hWrap] at hStale
        exact absurd hStale (by decide)
      · rw [if_neg hWrap, if_neg hWrap]
        by_cases hFirst : before = 1
        · -- the lower register was clocked with index 0 and is stale
          have hStale : b.nextIndex = 2 ∨ b.nextIndex = 60 := by
            rcases h.index with hIdle | hRight | hLeft
            · exact absurd (hIdle.trans hFirst) hWrap
            · rw [hFirst] at hRight
              exact Or.inl hRight
            · rw [hFirst] at hLeft
              exact Or.inr hLeft
          have hVals : b.tables.getVals = ⟨0, 1000⟩ := by
            have hRow := h.getVals
            rw [hFirst] at hRow
            exact (Option.some.inj hRow).symm
          exact ⟨fun hShows _ _ _ => hShows, fun hFresh => hFresh hLeft hStale hVals⟩
        · have hShows := showsBeside_of_row (hSame.pred h.onCircle hIndex) (h.downIndexVal hFirst)
          exact iff_of_true hShows fun _ _ _ => hShows
    · refine iff_of_true ?_ fun hKey => absurd hKey hLeft
      rw [readVals, turn_idle hRight hLeft, if_neg hRight, if_neg hLeft]
      exact showsBeside_of_row hSame h.getVals

end Ball

/-- The pair with the number of frame edges since the last `Reset` or collision. -/
structure Watched where
  balls : Balls
  frames : Nat

namespace Watched

def step (w : Watched) (event : BallEvent) : Watched :=
  { balls := w.balls.step event
    frames := if w.balls.Calm event then w.frames + 1 else 0 }

/-- From the second frame on, the ball is near its place. -/
def Near (color : Bool) (w : Watched) : Prop :=
  2 ≤ w.frames → (w.balls.ball color).NearPlace

/-- The condition on one event: a ball that turns, not in the first frame after
the last `Reset` or collision, does not read a stale register that misfits. -/
def KeepsPace (color : Bool) (w : Watched) : BallEvent → Prop
  | .posedgeReset _ _ => True
  | .posedgeFrameClk reset keycode e =>
      1 ≤ w.frames → w.balls.Calm (.posedgeFrameClk reset keycode e) →
        (w.balls.ball (!color)).collision = false → (w.balls.ball color).ReadsFresh keycode

/-- From the first frame on, the registers are those of the index before it. -/
structure Tracked (color : Bool) (w : Watched) : Prop where
  ready : w.balls.Ready color
  tracks : 1 ≤ w.frames → ∃ before, (w.balls.ball color).Tracks before

section Step

variable {color : Bool} {w : Watched}

theorem step_frames_of_calm {event : BallEvent} (h : w.balls.Calm event) :
    (w.step event).frames = w.frames + 1 := if_pos h

theorem step_frames_of_not_calm {event : BallEvent} (h : ¬w.balls.Calm event) :
    (w.step event).frames = 0 := if_neg h

theorem Tracked.step (h : w.Tracked color) (event : BallEvent) : (w.step event).Tracked color := by
  refine ⟨h.ready.step event, fun hFrames => ?_⟩
  by_cases hCalm : w.balls.Calm event
  · cases event with
    | posedgeReset keycode e => exact hCalm.elim
    | posedgeFrameClk reset keycode e => exact ⟨_, h.ready.tracks hCalm⟩
  · rw [step_frames_of_not_calm hCalm] at hFrames
    omega

/-- The exact condition on one event. -/
theorem Tracked.near_step_iff (h : w.Tracked color) (event : BallEvent) :
    (w.step event).Near color ↔ w.KeepsPace color event := by
  by_cases hCalm : w.balls.Calm event
  · cases event with
    | posedgeReset keycode e => exact hCalm.elim
    | posedgeFrameClk reset keycode e =>
        have hFrames : 2 ≤ (w.step (.posedgeFrameClk reset keycode e)).frames ↔ 1 ≤ w.frames := by
          rw [step_frames_of_calm hCalm]
          omega
        rw [Near, hFrames]
        by_cases hLater : 1 ≤ w.frames
        · cases hHigh : (w.balls.ball (!color)).collision with
          | true =>
              refine iff_of_true (fun _ => ?_) fun _ _ hLow => ?_
              · exact Ball.nearPlace_of_atStart (Balls.atStart_of_held hHigh)
              · exact absurd (hHigh.symm.trans hLow) (by decide)
          | false =>
              obtain ⟨before, hTracks⟩ := h.tracks hLater
              obtain ⟨hIndex, hX, hY⟩ := h.ready.turned hCalm hHigh
              have hVals := Ball.readVals_inRange h.ready.tables keycode
              have hNear : ((w.balls.posedgeFrameClk reset keycode e).ball color).NearPlace ↔
                  (w.balls.ball color).ReadsFresh keycode := by
                rw [Ball.nearPlace_iff hVals hX hY, hIndex, hTracks.showsBeside_iff]
              exact ⟨fun hPlace _ _ _ => hNear.mp (hPlace hLater),
                fun hFresh _ => hNear.mpr (hFresh hLater hCalm hHigh)⟩
        · exact iff_of_true (fun hYes => absurd hYes hLater) fun hYes => absurd hYes hLater
  · refine iff_of_true (fun hFrames => ?_) ?_
    · rw [step_frames_of_not_calm hCalm] at hFrames
      omega
    · cases event with
      | posedgeReset keycode e => trivial
      | posedgeFrameClk reset keycode e => exact fun _ hYes => absurd hYes hCalm

end Step

/-- In a run from `Reset` the point of a ball lags its index by at most one
place, from the second frame after each `Reset` or collision on, exactly when
no turn of the run reads a stale lower register that misfits. -/
theorem near_always_iff (color : Bool) (start : Balls) (keycode : BitVec 8) (e : ElementPorts)
    (events : List BallEvent) (h : (start.ball color).tables.InRange) :
    Always step (Near color) ⟨start.posedgeReset keycode e, 0⟩ events ↔
      EachStep step (KeepsPace color) ⟨start.posedgeReset keycode e, 0⟩ events := by
  apply always_iff_eachStep (Tracked color) (fun _ _ => True)
  · exact fun w event hw _ _ => hw.near_step_iff event
  · exact fun w event hw _ _ _ => hw.step event
  · exact ⟨Balls.ready_posedgeReset h keycode e,
      fun hFrames => absurd hFrames (Nat.not_succ_le_zero 0)⟩
  · exact fun hFrames => absurd hFrames (Nat.not_succ_le_zero 1)
  · exact eachStep_true _ _

/-- Red turned to the right twice after `Reset`. -/
theorem near_always_right :
    Always step (Near true) ⟨Balls.poweredReset, 0⟩
      [Balls.keyFrame 0, Balls.keyFrame 7, Balls.keyFrame 7] := by
  have hTables : (Balls.zero.ball true).tables.InRange := by constructor <;> decide
  refine (near_always_iff true Balls.zero 0 (wiredPorts fun _ => 0)
    [Balls.keyFrame 0, Balls.keyFrame 7, Balls.keyFrame 7] hTables).mpr ⟨?_, ?_, ?_, trivial⟩
  · exact fun _ _ _ hLeft => absurd hLeft (by decide)
  · exact fun _ _ _ hLeft => absurd hLeft (by decide)
  · exact fun _ _ _ hLeft => absurd hLeft (by decide)

/-- Red goes to index 2 and rests, then the left key is held past index 1. At
index 60 the lower register still has the row of index 1, so the ball is back
at (380, 390) when its index is 59. -/
theorem not_near_past_first :
    ¬∀ (color : Bool) (start : Balls) (keycode : BitVec 8) (e : ElementPorts)
      (events : List BallEvent), (start.ball color).tables.InRange →
      Always step (Near color) ⟨start.posedgeReset keycode e, 0⟩ events := by
  intro h
  have hTables : (Balls.zero.ball true).tables.InRange := by constructor <;> decide
  have hLast := (h true Balls.zero 0 (wiredPorts fun _ => 0)
    [Balls.keyFrame 0, Balls.keyFrame 7, Balls.keyFrame 0, Balls.keyFrame 4, Balls.keyFrame 4,
      Balls.keyFrame 4] hTables).last
  obtain ⟨k, row, hBeside, hRow, hX, -⟩ := hLast (by decide)
  have hFar : ∀ k : Fin 64, Beside (BitVec.ofFin k) 59 → ∀ row ∈ sinCosRow (BitVec.ofFin k),
      60 ≠ offset row.cosine := by decide
  exact hFar k.toFin hBeside row hRow hX

end Watched

end TwoBallGame
