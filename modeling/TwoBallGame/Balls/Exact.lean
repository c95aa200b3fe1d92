import TwoBallGame.Balls.Contact
import TwoBallGame.Balls.Single

/-! Exact arithmetic of the balls. Within the bounds of the circle every mixed
expression of `Move_Ball` and every operand of the collision tests has its integer
value, and every key takes exactly one of the branches that set the point. -/
namespace TwoBallGame

open Clocked Lattice

/-- The 32 bits are this integer, whether they are read as signed or not. -/
structure Holds (bits : BitVec 32) (value : ℤ) : Prop where
  signed : bits.toInt = value
  unsigned : (bits.toNat : ℤ) = value

theorem holds_of_toNat {bits : BitVec 32} {value : ℕ} (h : bits.toNat = value)
    (hFits : value < 2 ^ 31) : Holds bits value := by
  refine ⟨?_, by rw [h]⟩
  rw [BitVec.toInt_eq_toNat_of_lt (by omega), h]

/-- A table output is a magnitude, and what `Move_Ball` computes from it for
either centre is exact: product, quotient, sum and difference in 32 bits, and
the two results that are cut to ten. -/
structure ExactValue (value : BitVec 32) : Prop where
  magnitude : 0 ≤ value.toInt ∧ value.toInt ≤ 1000
  operand : Holds value value.toInt
  product : Holds (value * radius) (value.toInt * 60)
  quotient : Holds (Ball.scaled value) (value.toInt * 60 / 1000)
  sum : ∀ center ∈ [ballXCenter, ballYCenter],
    Holds (center.setWidth 32 + Ball.scaled value) (center.toNat + value.toInt * 60 / 1000) ∧
      ((Ball.plusScaled center value).toNat : ℤ) = center.toNat + value.toInt * 60 / 1000
  difference : ∀ center ∈ [ballXCenter, ballYCenter],
    Holds (center.setWidth 32 - Ball.scaled value) (center.toNat - value.toInt * 60 / 1000) ∧
      ((Ball.minusScaled center value).toNat : ℤ) = center.toNat - value.toInt * 60 / 1000

theorem toInt_of_le {value : BitVec 32} (h : value.toNat ≤ 1000) :
    value.toInt = value.toNat := (holds_of_toNat rfl (by omega)).signed

theorem offset_toInt {value : BitVec 32} (h : value.toNat ≤ 1000) :
    value.toInt * 60 / 1000 = (offset value : ℕ) := by
  rw [toInt_of_le h, offset]
  omega

/-- Both centres leave room for the radius on either side. -/
theorem center_bounds {center : BitVec 10} (h : center ∈ [ballXCenter, ballYCenter]) :
    60 ≤ center.toNat ∧ center.toNat ≤ 900 := by
  rcases List.mem_pair.mp h with rfl | rfl
  · decide
  · decide

theorem exactValue_of_le {value : BitVec 32} (h : value.toNat ≤ 1000) : ExactValue value := by
  have hValue := toInt_of_le h
  have hOffset := offset_le h
  refine ⟨by omega, ?_, ?_, ?_, fun center hc => ?_, fun center hc => ?_⟩
  · rw [hValue]
    exact holds_of_toNat rfl (by omega)
  · rw [hValue]
    exact_mod_cast holds_of_toNat (mul_radius_toNat h) (by omega)
  · rw [offset_toInt h]
    exact holds_of_toNat (scaled_toNat h) (by omega)
  · obtain ⟨hLow, hHigh⟩ := center_bounds hc
    rw [offset_toInt h]
    constructor
    · exact_mod_cast holds_of_toNat (add_scaled_toNat h) (by omega)
    · rw [plusScaled_toNat hHigh h]
      omega
  · obtain ⟨hLow, hHigh⟩ := center_bounds hc
    have hCast : ((center.toNat - offset value : ℕ) : ℤ) =
        (center.toNat : ℤ) - (offset value : ℕ) := by omega
    rw [offset_toInt h, ← hCast]
    constructor
    · exact holds_of_toNat (sub_scaled_toNat hLow h) (by omega)
    · rw [minusScaled_toNat hLow h]

/-- The ten `int` outputs of the tables of one ball. -/
def BallTables.outputs (t : BallTables) : List (BitVec 32) :=
  [t.getVals, t.upIndexVal, t.downIndexVal, t.zeroIndexVal, t.lastIndexVal].flatMap
    fun r => [r.sine, r.cosine]

theorem BallTables.InRange.exactValue {t : BallTables} (h : t.InRange) {value : BitVec 32}
    (hValue : value ∈ t.outputs) : ExactValue value := by
  obtain ⟨r, hr, hv⟩ := List.mem_flatMap.mp hValue
  have hRange : r.InRange := by
    simp only [List.mem_cons, List.not_mem_nil, or_false] at hr
    rcases hr with rfl | rfl | rfl | rfl | rfl
    exacts [h.getVals, h.upIndexVal, h.downIndexVal, h.zeroIndexVal, h.lastIndexVal]
  rcases List.mem_pair.mp hv with rfl | rfl
  · exact exactValue_of_le hRange.1
  · exact exactValue_of_le hRange.2

/-- One branch of `Move_Ball` that sets the point of a turning ball: its guard,
its two signs and the table it reads. -/
structure PositionBranch where
  taken : Bool
  plusX : Bool
  plusY : Bool
  vals : SinCos

namespace PositionBranch

/-- The column that a branch sets, in integers. -/
def exactX (p : PositionBranch) : ℤ :=
  if p.plusX then 320 + p.vals.cosine.toInt * 60 / 1000
  else 320 - p.vals.cosine.toInt * 60 / 1000

/-- The line that a branch sets, in integers. -/
def exactY (p : PositionBranch) : ℤ :=
  if p.plusY then 390 + p.vals.sine.toInt * 60 / 1000
  else 390 - p.vals.sine.toInt * 60 / 1000

end PositionBranch

namespace Ball

/-- The four ranges of the index, behind the wrap test of their key. -/
def quadrantBranches (index : BitVec 6) (noWrap : Bool) (v : SinCos) : List PositionBranch :=
  [⟨noWrap && decide (0 < index.toNat ∧ index.toNat < 16), true, true, v⟩,
   ⟨noWrap && decide (16 ≤ index.toNat ∧ index.toNat ≤ 30), false, true, v⟩,
   ⟨noWrap && decide (30 < index.toNat ∧ index.toNat < 46), false, false, v⟩,
   ⟨noWrap && decide (46 ≤ index.toNat), true, false, v⟩]

/-- All branches of the `case` item of a key, in source order. The two tests of
the default item make four. -/
def positionBranches (keycode : BitVec 8) (b : Ball) : List PositionBranch :=
  if keycode = 7 then
    ⟨decide (b.nextIndex = 60), true, true, b.tables.zeroIndexVal⟩ ::
      quadrantBranches b.nextIndex (!decide (b.nextIndex = 60)) b.tables.upIndexVal
  else if keycode = 4 then
    ⟨decide (b.nextIndex = 1), true, true, b.tables.lastIndexVal⟩ ::
      quadrantBranches b.nextIndex (!decide (b.nextIndex = 1)) b.tables.downIndexVal
  else
    let left := decide (b.ballXPos ≤ ballXCenter)
    let low := decide (ballYCenter ≤ b.ballYPos)
    let v := b.tables.getVals
    [⟨left && low, false, true, v⟩, ⟨left && !low, false, false, v⟩,
     ⟨!left && low, true, true, v⟩, ⟨!left && !low, true, false, v⟩]

section Branches

variable {b : Ball}

/-- The ranges leave no place of the circle out and share none. -/
theorem countP_quadrantBranches {index : BitVec 6} (h : OnCircle index) (noWrap : Bool)
    (v : SinCos) : (quadrantBranches index noWrap v).countP PositionBranch.taken = noWrap.toNat := by
  obtain ⟨hLow, hHigh⟩ := h
  cases noWrap with
  | false => rfl
  | true =>
      simp only [quadrantBranches, List.countP_cons, List.countP_nil, Bool.true_and,
        decide_eq_true_eq]
      split_ifs <;> first | rfl | omega

/-- Exactly one branch is taken, whatever the key. -/
theorem countP_positionBranches (h : OnCircle b.nextIndex) (keycode : BitVec 8) :
    (b.positionBranches keycode).countP PositionBranch.taken = 1 := by
  unfold positionBranches
  split_ifs
  · rw [List.countP_cons, countP_quadrantBranches h]
    cases decide (b.nextIndex = 60) <;> rfl
  · rw [List.countP_cons, countP_quadrantBranches h]
    cases decide (b.nextIndex = 1) <;> rfl
  · cases decide (b.ballXPos ≤ ballXCenter) <;> cases decide (ballYCenter ≤ b.ballYPos) <;> rfl

/-- The range that is taken has the signs of its half circles. -/
theorem signs_of_mem_quadrantBranches {index : BitVec 6} {noWrap : Bool}
    {v : SinCos} {p : PositionBranch} (hMem : p ∈ quadrantBranches index noWrap v)
    (hTaken : p.taken = true) :
    noWrap = true ∧ p.vals = v ∧ p.plusX = rightHalf index ∧ p.plusY = lowerHalf index := by
  simp only [quadrantBranches, List.mem_cons, List.not_mem_nil, or_false] at hMem
  rcases hMem with rfl | rfl | rfl | rfl
  all_goals
    obtain ⟨hNoWrap, hRange⟩ := Bool.and_eq_true_iff.mp hTaken
    rw [decide_eq_true_eq] at hRange
    refine ⟨hNoWrap, rfl, ?_, ?_⟩
    · simp only [rightHalf, Bool.true_eq, Bool.false_eq, Bool.or_eq_true, Bool.or_eq_false_iff,
        decide_eq_true_eq, decide_eq_false_iff_not]
      omega
    · simp only [lowerHalf, Bool.true_eq, Bool.false_eq, decide_eq_true_eq, decide_eq_false_iff_not]
      omega

/-- Beside the wrap test of its key the branch taken is the wrap or a range. -/
theorem signs_of_mem_keyBranches {index : BitVec 6} {wrap : Bool} {w v : SinCos}
    {p : PositionBranch} (hMem : p ∈ ⟨wrap, true, true, w⟩ :: quadrantBranches index (!wrap) v)
    (hTaken : p.taken = true) :
    p.vals = (if wrap then w else v) ∧ p.plusX = (wrap || rightHalf index) ∧
      p.plusY = (wrap || lowerHalf index) := by
  rcases List.mem_cons.mp hMem with rfl | hRange
  · have hWrap : wrap = true := hTaken
    rw [hWrap]
    exact ⟨rfl, rfl, rfl⟩
  · obtain ⟨hNoWrap, hSigns⟩ := signs_of_mem_quadrantBranches hRange hTaken
    rw [Bool.not_eq_true'] at hNoWrap
    rw [hNoWrap]
    exact hSigns

/-- The branch that is taken reads the table and has the signs of the key. -/
theorem eq_of_mem_positionBranches {keycode : BitVec 8} {p : PositionBranch}
    (hMem : p ∈ b.positionBranches keycode) (hTaken : p.taken = true) :
    p.vals = b.readVals keycode ∧ p.plusX = b.plusX keycode ∧ p.plusY = b.plusY keycode := by
  unfold positionBranches at hMem
  unfold readVals plusX plusY
  by_cases hRight : keycode = 7
  · simp only [if_pos hRight] at hMem ⊢
    have hSigns := signs_of_mem_keyBranches hMem hTaken
    simp only [decide_eq_true_eq] at hSigns
    exact hSigns
  · simp only [if_neg hRight] at hMem ⊢
    by_cases hLeft : keycode = 4
    · simp only [if_pos hLeft] at hMem ⊢
      have hSigns := signs_of_mem_keyBranches hMem hTaken
      simp only [decide_eq_true_eq] at hSigns
      exact hSigns
    · simp only [if_neg hLeft, List.mem_cons, List.not_mem_nil, or_false] at hMem ⊢
      rcases hMem with rfl | rfl | rfl | rfl
      all_goals
        simp only [Bool.and_eq_true, Bool.not_eq_true'] at hTaken
        simp only [hTaken, Bool.not_true, Bool.not_false, and_self]

/-- The point of a turned ball is the one that the branch taken sets, exactly. -/
theorem rotateBranch_exact (h : b.InBounds) {keycode : BitVec 8} {p : PositionBranch}
    (hMem : p ∈ b.positionBranches keycode) (hTaken : p.taken = true) :
    ((b.rotateBranch keycode b.nextIndex).ballXPos.toNat : ℤ) = p.exactX ∧
      ((b.rotateBranch keycode b.nextIndex).ballYPos.toNat : ℤ) = p.exactY := by
  obtain ⟨hVals, hPlusX, hPlusY⟩ := eq_of_mem_positionBranches hMem hTaken
  obtain ⟨hSine, hCosine⟩ := readVals_inRange h.tables keycode
  obtain ⟨hX, hY⟩ := rotateBranch_toNat h.index h.tables keycode
  have hCos := offset_le hCosine
  have hSin := offset_le hSine
  rw [hX, hY, PositionBranch.exactX, PositionBranch.exactY, hVals, hPlusX, hPlusY,
    offset_toInt hCosine, offset_toInt hSine]
  unfold displaced
  constructor
  · split_ifs <;> omega
  · split_ifs <;> omega

/-- The motion registers are overwritten before they are read. -/
theorem caseKeycode_setMotion {index : BitVec 6} (h : OnCircle index) (keycode : BitVec 8)
    (x y : BitVec 10) (b : Ball) :
    (b.setMotion x y).caseKeycode keycode index = b.caseKeycode keycode index := by
  unfold caseKeycode rightKey leftKey
  by_cases hRight : keycode = 7
  · simp only [if_pos hRight, quadrantMotion_eq h]
    split_ifs <;> rfl
  · by_cases hLeft : keycode = 4
    · simp only [if_neg hRight, if_pos hLeft, quadrantMotion_eq h]
      split_ifs <;> rfl
    · simp only [if_neg hRight, if_neg hLeft]
      rfl

theorem rotateBranch_setMotion (h : OnCircle b.nextIndex) (keycode : BitVec 8)
    (x y : BitVec 10) :
    (b.setMotion x y).rotateBranch keycode b.nextIndex = b.rotateBranch keycode b.nextIndex := by
  have hCase := caseKeycode_setMotion h keycode x y { b with collision := false }
  unfold rotateBranch
  rw [← hCase]
  rfl

end Branches

/-- The four extreme points of a ball, as they enter the collision tests. -/
structure ExactExtremes (b : Ball) : Prop where
  left : ((b.ballXPos - ballSize).toNat : ℤ) = b.ballXPos.toNat - 4
  right : ((b.ballXPos + ballSize).toNat : ℤ) = b.ballXPos.toNat + 4
  top : ((b.ballYPos - ballSize).toNat : ℤ) = b.ballYPos.toNat - 4
  bottom : ((b.ballYPos + ballSize).toNat : ℤ) = b.ballYPos.toNat + 4
  topWide : Holds (b.ballYPos.setWidth 32 - ballSize.setWidth 32) (b.ballYPos.toNat - 4)
  bottomWide : Holds (b.ballYPos.setWidth 32 + ballSize.setWidth 32) (b.ballYPos.toNat + 4)

theorem InBounds.exactExtremes {b : Ball} (h : b.InBounds) : b.ExactExtremes := by
  have hXLow := h.xLow
  have hXHigh := h.xHigh
  have hYLow := h.yLow
  have hYHigh := h.yHigh
  refine ⟨?_, ?_, ?_, ?_, ?_, ?_⟩
  · rw [toNat_sub_ballSize (by omega)]
    omega
  · rw [toNat_add_ballSize (by omega)]
    omega
  · rw [toNat_sub_ballSize (by omega)]
    omega
  · rw [toNat_add_ballSize (by omega)]
    omega
  · have hTop := toNat_sub_ballSize_wide (p := b.ballYPos) (by omega)
    have hCast : ((b.ballYPos.toNat - 4 : ℕ) : ℤ) = (b.ballYPos.toNat : ℤ) - 4 := by omega
    rw [← hCast]
    exact holds_of_toNat hTop (by omega)
  · have hBottom := toNat_add_ballSize_wide b.ballYPos
    exact_mod_cast holds_of_toNat hBottom (by omega)

end Ball

namespace Element

/-- The far edges of an element fit ten bits: `X + S` and `Y + S` are below 1024. -/
def Fits (e : ElementPorts) : Element → Prop
  | .block i => (e.blockX i).toNat + (e.blockS i).toNat < 1024 ∧
      (e.blockY i).toNat + (e.blockS i).toNat < 1024
  | .rect j => (e.rectX j).toNat + (e.rectS j).toNat < 1024 ∧
      (e.rectY j).toNat + (e.rectS j).toNat < 1024

/-- The two far edges of an element, as they enter the collision tests. -/
def ExactEdges (e : ElementPorts) : Element → Prop
  | .block i => (e.blockX i + e.blockS i).toNat = (e.blockX i).toNat + (e.blockS i).toNat ∧
      (e.blockY i + e.blockS i).toNat = (e.blockY i).toNat + (e.blockS i).toNat
  | .rect j => (e.rectX j + e.rectS j).toNat = (e.rectX j).toNat + (e.rectS j).toNat ∧
      Holds ((e.rectY j).setWidth 32 + (e.rectS j).setWidth 32 / 4)
        ((e.rectY j).toNat + (e.rectS j).toNat / 4)

variable {e : ElementPorts} {x : Element}

theorem Fits.exactEdges (h : x.Fits e) : x.ExactEdges e := by
  cases x with
  | block i =>
      obtain ⟨hX, hY⟩ := h
      refine ⟨?_, ?_⟩
      · rw [BitVec.toNat_add, Nat.mod_eq_of_lt hX]
      · rw [BitVec.toNat_add, Nat.mod_eq_of_lt hY]
  | rect j =>
      obtain ⟨hX, hY⟩ := h
      refine ⟨?_, ?_⟩
      · rw [BitVec.toNat_add, Nat.mod_eq_of_lt hX]
      · have hFar := toNat_add_quarter (e.rectY j) (e.rectS j)
        exact_mod_cast holds_of_toNat hFar (by omega)

/-- The box of such an element ends before 1024 in both directions. -/
theorem Fits.box (h : x.Fits e) : (x.columns e).hi ≤ 1023 ∧ (x.rows e).hi ≤ 1023 := by
  cases x with
  | block i =>
      obtain ⟨hX, hY⟩ := h
      simp only [columns, rows, Span.ofLength]
      omega
  | rect j =>
      obtain ⟨hX, hY⟩ := h
      simp only [columns, rows, Span.ofLength]
      omega

end Element

namespace Ball

/-- All the arithmetic that `ball` does with its registers is exact. -/
structure ExactArithmetic (b : Ball) : Prop where
  index : 1 ≤ b.nextIndex.toNat ∧ b.nextIndex.toNat ≤ 60
  ballX : 260 ≤ b.ballXPos.toNat ∧ b.ballXPos.toNat ≤ 380
  ballY : 330 ≤ b.ballYPos.toNat ∧ b.ballYPos.toNat ≤ 450
  upIndex : (b.nextIndex + 1).toNat = b.nextIndex.toNat + 1
  downIndex : (b.nextIndex - 1).toNat = b.nextIndex.toNat - 1
  outputs : ∀ value ∈ b.tables.outputs, ExactValue value
  oneBranch : ∀ keycode, (b.positionBranches keycode).countP PositionBranch.taken = 1
  notStale : ∀ keycode x y, (b.setMotion x y).rotateBranch keycode b.nextIndex =
    b.rotateBranch keycode b.nextIndex
  point : ∀ keycode, ∀ p ∈ b.positionBranches keycode, p.taken = true →
    ((b.rotateBranch keycode b.nextIndex).ballXPos.toNat : ℤ) = p.exactX ∧
      ((b.rotateBranch keycode b.nextIndex).ballYPos.toNat : ℤ) = p.exactY
  extremes : b.ExactExtremes
  edges : ∀ e (x : Element), x.Fits e → x.ExactEdges e
  tests : ∀ e (x : Element), x.Fits e → (b.meets e x = true ↔
    TouchesExtreme 4 b.ballXPos.toNat b.ballYPos.toNat (x.columns e) (x.rows e))

theorem InBounds.exactArithmetic {b : Ball} (h : b.InBounds) : b.ExactArithmetic := by
  have hXLow := h.xLow
  have hXHigh := h.xHigh
  have hYLow := h.yLow
  have hYHigh := h.yHigh
  obtain ⟨hLow, hHigh⟩ := h.index
  refine ⟨h.index, ⟨hXLow, hXHigh⟩, ⟨hYLow, hYHigh⟩, by bv_omega, by bv_omega,
    fun _ => h.tables.exactValue,
    countP_positionBranches h.index, rotateBranch_setMotion h.index,
    fun _ _ => rotateBranch_exact h, h.exactExtremes, fun _ _ => Element.Fits.exactEdges,
    fun e x hFits => ?_⟩
  obtain ⟨hColumns, hRows⟩ := hFits.box
  exact meets_iff_touchesExtreme (by omega) (by omega) (by omega) (by omega) hColumns hRows

end Ball

namespace Balls

variable {s : Balls}

theorem inBounds_posedgeReset {color : Bool} (h : (s.ball color).tables.InRange)
    (keycode : BitVec 8) (e : ElementPorts) : ((s.posedgeReset keycode e).ball color).InBounds := by
  have hStart := s.atStart_posedgeReset color keycode e
  refine Ball.inBounds_of_start color ?_ hStart.index hStart.x hStart.y
  rw [ball_posedgeReset]
  exact h

theorem inBounds_step {color : Bool} (h : (s.ball color).InBounds) (event : BallEvent) :
    ((s.step event).ball color).InBounds := by
  cases event with
  | posedgeReset keycode e => exact inBounds_posedgeReset h.tables keycode e
  | posedgeFrameClk reset keycode e =>
      change ((s.posedgeFrameClk reset keycode e).ball color).InBounds
      rw [ball_posedgeFrameClk]
      exact h.frame color reset keycode e _

/-- No run leaves the bounds of the circle. -/
theorem inBounds_run {color : Bool} (h : (s.ball color).InBounds) (events : List BallEvent) :
    ((run Balls.step s events).ball color).InBounds := by
  induction events generalizing s with
  | nil => exact h
  | cons event rest ih => exact ih (inBounds_step h event)

theorem AfterReset.inBounds (h : s.AfterReset) (color : Bool) : (s.ball color).InBounds := by
  obtain ⟨start, keycode, e, hTables, events, rfl⟩ := h
  exact inBounds_run (inBounds_posedgeReset (hTables color) keycode e) events

/-- In every state after `Reset`, whatever keys, collisions and elements came and
whatever magnitudes the tables started with, the arithmetic of both balls is exact. -/
theorem exactArithmetic_of_afterReset (s : Balls) (h : s.AfterReset) (color : Bool) :
    (s.ball color).ExactArithmetic := (h.inBounds color).exactArithmetic

/-- Red after twelve frames with the right key, with the table of its row read. -/
theorem exactArithmetic_turned :
    ((run Balls.step poweredReset (List.replicate 12 (keyFrame 7))).ball true).ExactArithmetic :=
  exactArithmetic_of_afterReset (run Balls.step poweredReset (List.replicate 12 (keyFrame 7)))
    (afterReset_poweredReset.run _) true

end Balls

end TwoBallGame
