import TwoBallGame.Balls.Index

/-! Where a turning ball goes: a register is read, its magnitudes are scaled to
offsets, and each offset is added to or taken from the centre of the circle. -/
namespace TwoBallGame

/-- The exact offset, in pixels, of a table value. -/
def offset (value : BitVec 32) : Nat := value.toNat * 60 / 1000

theorem offset_le {value : BitVec 32} (h : value.toNat ≤ 1000) : offset value ≤ 60 := by
  unfold offset
  omega

section Scaled

variable {center : BitVec 10} {value : BitVec 32}

theorem mul_radius_toNat (h : value.toNat ≤ 1000) :
    (value * radius).toNat = value.toNat * 60 := by
  rw [BitVec.toNat_mul, show radius.toNat = 60 from rfl]
  omega

/-- The unsigned 32-bit product and quotient are exact for table values. -/
theorem scaled_toNat (h : value.toNat ≤ 1000) : (Ball.scaled value).toNat = offset value := by
  rw [Ball.scaled, BitVec.toNat_udiv, mul_radius_toNat h]
  rfl

theorem add_scaled_toNat (h : value.toNat ≤ 1000) :
    (center.setWidth 32 + Ball.scaled value).toNat = center.toNat + offset value := by
  have hOffset := offset_le h
  have hLt := center.isLt
  rw [BitVec.toNat_add, BitVec.toNat_setWidth, scaled_toNat h]
  omega

theorem sub_scaled_toNat (hc : 60 ≤ center.toNat) (h : value.toNat ≤ 1000) :
    (center.setWidth 32 - Ball.scaled value).toNat = center.toNat - offset value := by
  have hOffset := offset_le h
  have hLt := center.isLt
  rw [BitVec.toNat_sub, BitVec.toNat_setWidth, scaled_toNat h]
  omega

theorem plusScaled_toNat (hc : center.toNat ≤ 900) (h : value.toNat ≤ 1000) :
    (Ball.plusScaled center value).toNat = center.toNat + offset value := by
  have hOffset := offset_le h
  rw [Ball.plusScaled, BitVec.toNat_setWidth, add_scaled_toNat h]
  omega

theorem minusScaled_toNat (hc : 60 ≤ center.toNat) (h : value.toNat ≤ 1000) :
    (Ball.minusScaled center value).toNat = center.toNat - offset value := by
  have hLt := center.isLt
  rw [Ball.minusScaled, BitVec.toNat_setWidth, sub_scaled_toNat hc h]
  omega

end Scaled

/-- The centre moved by an offset, to the right and down when `plus`. -/
def displaced (center : Nat) (plus : Bool) (off : Nat) : Nat :=
  if plus then center + off else center - off

/-- All five registers of a ball hold magnitudes. -/
structure BallTables.InRange (t : BallTables) : Prop where
  getVals : t.getVals.InRange
  upIndexVal : t.upIndexVal.InRange
  downIndexVal : t.downIndexVal.InRange
  zeroIndexVal : t.zeroIndexVal.InRange
  lastIndexVal : t.lastIndexVal.InRange

theorem BallTables.InRange.posedgeClk {t : BallTables} (h : t.InRange) (index : BitVec 6) :
    (t.posedgeClk index).InRange :=
  ⟨h.getVals.posedgeClk _, h.upIndexVal.posedgeClk _, h.downIndexVal.posedgeClk _,
    h.zeroIndexVal.posedgeClk _, h.lastIndexVal.posedgeClk _⟩

namespace Ball

/-- The register that the rotation branch reads for a key. -/
def readVals (keycode : BitVec 8) (b : Ball) : SinCos :=
  if keycode = 7 then
    if b.nextIndex = 60 then b.tables.zeroIndexVal else b.tables.upIndexVal
  else if keycode = 4 then
    if b.nextIndex = 1 then b.tables.lastIndexVal else b.tables.downIndexVal
  else b.tables.getVals

/-- Right half of the circle, by index. -/
def rightHalf (index : BitVec 6) : Bool := decide (index.toNat < 16) || decide (46 ≤ index.toNat)

/-- Lower half of the circle, by index. -/
def lowerHalf (index : BitVec 6) : Bool := decide (index.toNat ≤ 30)

/-- The horizontal sign of the rotation branch. -/
def plusX (keycode : BitVec 8) (b : Ball) : Bool :=
  if keycode = 7 then decide (b.nextIndex = 60) || rightHalf b.nextIndex
  else if keycode = 4 then decide (b.nextIndex = 1) || rightHalf b.nextIndex
  else !decide (b.ballXPos ≤ ballXCenter)

/-- The vertical sign of the rotation branch. -/
def plusY (keycode : BitVec 8) (b : Ball) : Bool :=
  if keycode = 7 then decide (b.nextIndex = 60) || lowerHalf b.nextIndex
  else if keycode = 4 then decide (b.nextIndex = 1) || lowerHalf b.nextIndex
  else decide (ballYCenter ≤ b.ballYPos)

theorem readVals_inRange {b : Ball} (h : b.tables.InRange) (keycode : BitVec 8) :
    (b.readVals keycode).InRange := by
  unfold readVals
  split_ifs
  exacts [h.zeroIndexVal, h.upIndexVal, h.lastIndexVal, h.downIndexVal, h.getVals]

/-- On the circle one of the four index ranges applies, so no stale motion is used. -/
theorem quadrantMotion_eq {index : BitVec 6} (h : OnCircle index) (v : SinCos) (b : Ball) :
    b.quadrantMotion index v = b.setMotion
      (if rightHalf index then plusScaled ballXCenter v.cosine
        else minusScaled ballXCenter v.cosine)
      (if lowerHalf index then plusScaled ballYCenter v.sine
        else minusScaled ballYCenter v.sine) := by
  obtain ⟨hLow, hHigh⟩ := h
  unfold quadrantMotion
  have hPos : 0 < index.toNat := hLow
  by_cases h16 : index.toNat < 16
  · have hLower : index.toNat ≤ 30 := by omega
    simp [rightHalf, lowerHalf, hPos, h16, hLower]
  · by_cases h30 : index.toNat ≤ 30
    · have h46 : ¬46 ≤ index.toNat := by omega
      have hGe : 16 ≤ index.toNat := by omega
      simp [rightHalf, lowerHalf, h16, h30, h46, hGe]
    · by_cases h46 : index.toNat < 46
      · have hGt : 30 < index.toNat := by omega
        have hNot : ¬46 ≤ index.toNat := by omega
        simp [rightHalf, lowerHalf, h16, h30, h46, hGt, hNot]
      · have hGe : 46 ≤ index.toNat := by omega
        simp [rightHalf, lowerHalf, h16, h30, h46, hGe]

/-- The bits of a turned ball's point, register and signs picked by the key. -/
theorem rotateBranch_point {b : Ball} (h : OnCircle b.nextIndex) (keycode : BitVec 8) :
    (b.rotateBranch keycode b.nextIndex).ballXPos =
      (if b.plusX keycode then plusScaled ballXCenter (b.readVals keycode).cosine
        else minusScaled ballXCenter (b.readVals keycode).cosine) ∧
    (b.rotateBranch keycode b.nextIndex).ballYPos =
      (if b.plusY keycode then plusScaled ballYCenter (b.readVals keycode).sine
        else minusScaled ballYCenter (b.readVals keycode).sine) := by
  unfold rotateBranch caseKeycode plusX plusY readVals
  by_cases hRight : keycode = 7
  · simp only [if_pos hRight, rightKey]
    by_cases hWrap : b.nextIndex = 60
    · simp only [if_pos hWrap, decide_eq_true hWrap, Bool.true_or, if_true]
      exact ⟨rfl, rfl⟩
    · simp only [if_neg hWrap, decide_eq_false hWrap, Bool.false_or, quadrantMotion_eq h]
      exact ⟨rfl, rfl⟩
  · simp only [if_neg hRight]
    by_cases hLeft : keycode = 4
    · simp only [if_pos hLeft, leftKey]
      by_cases hWrap : b.nextIndex = 1
      · simp only [if_pos hWrap, decide_eq_true hWrap, Bool.true_or, if_true]
        exact ⟨rfl, rfl⟩
      · simp only [if_neg hWrap, decide_eq_false hWrap, Bool.false_or, quadrantMotion_eq h]
        exact ⟨rfl, rfl⟩
    · simp only [if_neg hLeft]
      constructor
      · by_cases hx : b.ballXPos ≤ ballXCenter <;> simp [noKey, setMotion, hx]
      · by_cases hy : ballYCenter ≤ b.ballYPos <;> simp [noKey, setMotion, hy]

/-- The point of a turned ball in exact integers. -/
theorem rotateBranch_toNat {b : Ball} (h : OnCircle b.nextIndex) (hTables : b.tables.InRange)
    (keycode : BitVec 8) :
    (b.rotateBranch keycode b.nextIndex).ballXPos.toNat =
      displaced 320 (b.plusX keycode) (offset (b.readVals keycode).cosine) ∧
    (b.rotateBranch keycode b.nextIndex).ballYPos.toNat =
      displaced 390 (b.plusY keycode) (offset (b.readVals keycode).sine) := by
  obtain ⟨hSine, hCosine⟩ := readVals_inRange hTables keycode
  obtain ⟨hX, hY⟩ := rotateBranch_point h keycode
  rw [hX, hY]
  constructor
  · unfold displaced
    split_ifs
    · exact plusScaled_toNat (by decide) hCosine
    · exact minusScaled_toNat (by decide) hCosine
  · unfold displaced
    split_ifs
    · exact plusScaled_toNat (by decide) hSine
    · exact minusScaled_toNat (by decide) hSine

/-- Tables, index and point of a ball are within the bounds of the circle. -/
structure InBounds (b : Ball) : Prop where
  tables : b.tables.InRange
  index : OnCircle b.nextIndex
  xLow : 260 ≤ b.ballXPos.toNat
  xHigh : b.ballXPos.toNat ≤ 380
  yLow : 330 ≤ b.ballYPos.toNat
  yHigh : b.ballYPos.toNat ≤ 450

theorem displaced_bounds (center : Nat) {off : Nat} (plus : Bool) (h : off ≤ 60) :
    center - 60 ≤ displaced center plus off ∧ displaced center plus off ≤ center + 60 := by
  unfold displaced
  split_ifs <;> omega

theorem startX_bounds (color : Bool) :
    260 ≤ (startX color).toNat ∧ (startX color).toNat ≤ 380 := by
  cases color <;> decide

theorem inBounds_of_start (color : Bool) {b : Ball} (hTables : b.tables.InRange)
    (hIndex : b.nextIndex = startIndex color) (hX : b.ballXPos = startX color)
    (hY : b.ballYPos = ballYCenter) : b.InBounds := by
  obtain ⟨hLow, hHigh⟩ := startX_bounds color
  refine ⟨hTables, ?_, ?_, ?_, ?_, ?_⟩
  · rw [hIndex]; exact startIndex_onCircle color
  · rw [hX]; exact hLow
  · rw [hX]; exact hHigh
  · rw [hY]; decide
  · rw [hY]; decide

/-- A frame edge keeps a ball within bounds, whatever it meets. -/
theorem InBounds.frame {mine : Ball} (h : mine.InBounds) (color reset : Bool)
    (keycode : BitVec 8) (e : ElementPorts) (other : Ball) :
    (mine.frame color reset keycode e other).InBounds := by
  have hTables : (mine.frame color reset keycode e other).tables.InRange := by
    rw [frame_tables]
    exact h.tables.posedgeClk _
  cases hTurns : mine.respawns reset e other with
  | true =>
      obtain ⟨hIndex, hX, hY⟩ := frame_of_respawns color reset keycode e mine other hTurns
      exact inBounds_of_start color hTables hIndex hX hY
  | false =>
      have hIndex := frame_nextIndex color reset keycode e mine other
      rw [hTurns] at hIndex
      have hFrame := frame_of_turns color reset keycode e mine other hTurns
      obtain ⟨hX, hY⟩ := rotateBranch_toNat h.index h.tables keycode
      obtain ⟨hSine, hCosine⟩ := readVals_inRange h.tables keycode
      have hXs := displaced_bounds 320 (mine.plusX keycode) (offset_le hCosine)
      have hYs := displaced_bounds 390 (mine.plusY keycode) (offset_le hSine)
      rw [← hX] at hXs
      rw [← hY] at hYs
      refine ⟨hTables, ?_, ?_, ?_, ?_, ?_⟩
      · rw [hIndex]; exact turn_onCircle keycode h.index
      · rw [hFrame]; exact hXs.1
      · rw [hFrame]; exact hXs.2
      · rw [hFrame]; exact hYs.1
      · rw [hFrame]; exact hYs.2

end Ball

end TwoBallGame
