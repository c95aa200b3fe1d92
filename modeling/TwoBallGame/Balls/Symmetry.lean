import TwoBallGame.Balls.Position

/-! Whether the two balls are mirror images in the centre of the circle. The
registers that give their offsets run one frame late, and not always alike. -/
namespace TwoBallGame

open Clocked

/-- The place on the other side of the circle. -/
def across (index : BitVec 6) : BitVec 6 := if index.toNat ≤ 30 then index + 30 else index - 30

theorem eq_across {i j : BitVec 6} (hi : OnCircle i) (hj : OnCircle j)
    (h : j.toNat ≡ i.toNat + 30 [MOD 60]) : j = across i := by
  obtain ⟨hi1, hi2⟩ := hi
  obtain ⟨hj1, hj2⟩ := hj
  unfold Nat.ModEq at h
  unfold across
  split_ifs <;> bv_omega

/-- Opposite places, and their upper neighbours, have equal rows in the table. -/
theorem sinCosRow_across {i : BitVec 6} (h : OnCircle i) :
    (sinCosRow (across i) = sinCosRow i ∧ (sinCosRow i).isSome) ∧
      (sinCosRow (across i + 1) = sinCosRow (i + 1) ∧ (sinCosRow (i + 1)).isSome) := by
  have hAll : ∀ k : Fin 64, OnCircle (BitVec.ofFin k) →
      (sinCosRow (across (BitVec.ofFin k)) = sinCosRow (BitVec.ofFin k) ∧
        (sinCosRow (BitVec.ofFin k)).isSome) ∧
      (sinCosRow (across (BitVec.ofFin k) + 1) = sinCosRow (BitVec.ofFin k + 1) ∧
        (sinCosRow (BitVec.ofFin k + 1)).isSome) := by decide
  exact hAll i.toFin h

/-- Two tables clocked with equal rows hold the same values. -/
theorem posedgeClk_congr {i j : BitVec 6} {row : SinCos} (hi : sinCosRow i = some row)
    (hj : sinCosRow j = some row) (r t : SinCos) : r.posedgeClk i = t.posedgeClk j := by
  rw [SinCos.posedgeClk, SinCos.posedgeClk, hi, hj]
  rfl

/-- The signs used while a key is down are opposite at opposite places, except
for the vertical sign where the right key wraps. -/
theorem signs_across {i : BitVec 6} (h : OnCircle i) :
    ((decide (across i = 60) || Ball.rightHalf (across i)) =
        !(decide (i = 60) || Ball.rightHalf i)) ∧
      ((decide (across i = 1) || Ball.rightHalf (across i)) =
        !(decide (i = 1) || Ball.rightHalf i)) ∧
      ((decide (across i = 1) || Ball.lowerHalf (across i)) =
        !(decide (i = 1) || Ball.lowerHalf i)) ∧
      (i ≠ 60 → across i ≠ 60 → Ball.lowerHalf (across i) = !Ball.lowerHalf i) := by
  have hAll : ∀ k : Fin 64, OnCircle (BitVec.ofFin k) →
      let i : BitVec 6 := BitVec.ofFin k
      ((decide (across i = 60) || Ball.rightHalf (across i)) =
          !(decide (i = 60) || Ball.rightHalf i)) ∧
        ((decide (across i = 1) || Ball.rightHalf (across i)) =
          !(decide (i = 1) || Ball.rightHalf i)) ∧
        ((decide (across i = 1) || Ball.lowerHalf (across i)) =
          !(decide (i = 1) || Ball.lowerHalf i)) ∧
        (i ≠ 60 → across i ≠ 60 → Ball.lowerHalf (across i) = !Ball.lowerHalf i) := by decide
  exact hAll i.toFin h

/-- Displacements with opposite signs cancel just when their offsets agree. -/
theorem displaced_sum_opposite (center : Nat) {left right : Nat} {plus minus : Bool}
    (h : minus = !plus) (hl : left ≤ center) (hr : right ≤ center) :
    displaced center plus left + displaced center minus right = 2 * center ↔
      left = right := by
  subst h
  cases plus <;> simp only [displaced, Bool.not_true, Bool.not_false, Bool.false_eq_true,
    if_true, if_false] <;> omega

/-- Displacements with equal signs cancel only when there are none. -/
theorem displaced_sum_same (center : Nat) {left right : Nat} (plus : Bool)
    (hl : left ≤ center) (hr : right ≤ center) :
    displaced center plus left + displaced center plus right = 2 * center ↔
      left = 0 ∧ right = 0 := by
  cases plus <;> simp only [displaced, Bool.false_eq_true, if_true, if_false] <;> omega

namespace Balls

/-- The two points are mirror images in the centre (320, 390). -/
structure Mirrored (s : Balls) : Prop where
  x : s.blue.ballXPos.toNat + s.red.ballXPos.toNat = 640
  y : s.blue.ballYPos.toNat + s.red.ballYPos.toNat = 780

/-- What the balls have in common as long as no collision or reset occurs. The
registers of the index itself and of its upper neighbour hold equal values; the
one of the lower neighbour may be stale in one ball. -/
structure InPhase (s : Balls) : Prop where
  blueLow : s.blue.collision = false
  redLow : s.red.collision = false
  opposite : s.Opposite
  blueTables : s.blue.tables.InRange
  redTables : s.red.tables.InRange
  getVals : s.blue.tables.getVals = s.red.tables.getVals
  upIndexVal : s.blue.tables.upIndexVal = s.red.tables.upIndexVal
  blueZero : s.blue.tables.zeroIndexVal = ⟨0, 1000⟩
  redZero : s.red.tables.zeroIndexVal = ⟨0, 1000⟩

/-- The condition on the registers before a frame edge and on its key. The two
balls read equal offsets, and without a key neither ball is on a centre line
across which it has an offset. -/
structure EqualOffsets (keycode : BitVec 8) (s : Balls) : Prop where
  cosine : offset (s.blue.readVals keycode).cosine = offset (s.red.readVals keycode).cosine
  sine : offset (s.blue.readVals keycode).sine = offset (s.red.readVals keycode).sine
  xLine : keycode ≠ 7 → keycode ≠ 4 → s.blue.ballXPos = ballXCenter →
    offset s.blue.tables.getVals.cosine = 0
  yLine : keycode ≠ 7 → keycode ≠ 4 → s.blue.ballYPos = ballYCenter →
    offset s.blue.tables.getVals.sine = 0

/-- The events of a run in which nothing is hit and `Reset` stays low. -/
def Undisturbed (s : Balls) : BallEvent → Prop
  | .posedgeReset _ _ => False
  | .posedgeFrameClk reset _ e =>
      reset = false ∧ s.blue.collides e = false ∧ s.red.collides e = false

/-- The condition on the events of such a run. -/
def KeepsMirror (s : Balls) : BallEvent → Prop
  | .posedgeReset _ _ => True
  | .posedgeFrameClk _ keycode _ => s.EqualOffsets keycode

section Step

variable {s : Balls} {keycode : BitVec 8} {e : ElementPorts}

theorem InPhase.turns (h : s.InPhase) (hBlue : s.blue.collides e = false)
    (hRed : s.red.collides e = false) :
    s.blue.respawns false e s.red = false ∧ s.red.respawns false e s.blue = false := by
  simp [Ball.respawns, Ball.hits, h.blueLow, h.redLow, hBlue, hRed]

theorem InPhase.red_eq_across (h : s.InPhase) : s.red.nextIndex = across s.blue.nextIndex :=
  eq_across h.opposite.blueOnCircle h.opposite.redOnCircle h.opposite.apart

/-- Being in phase survives every undisturbed frame, mirrored or not. -/
theorem InPhase.posedgeFrameClk (h : s.InPhase) (hBlue : s.blue.collides e = false)
    (hRed : s.red.collides e = false) : (s.posedgeFrameClk false keycode e).InPhase := by
  obtain ⟨hBlueTurns, hRedTurns⟩ := h.turns hBlue hRed
  have hReleased : s.KeysReleased (.posedgeFrameClk false keycode e) := by
    rintro - (⟨hHigh, -⟩ | ⟨hHigh, -⟩)
    · simp [h.blueLow] at hHigh
    · simp [h.redLow] at hHigh
  have hSettled : s.Settled :=
    ⟨by simp [h.blueLow], fun hHigh => by simp [h.blueLow] at hHigh,
      fun hHigh => by simp [h.redLow] at hHigh⟩
  have hAcross := h.red_eq_across
  obtain ⟨⟨hSame, hRow⟩, hSameUp, hRowUp⟩ := sinCosRow_across h.opposite.blueOnCircle
  obtain ⟨row, hRow⟩ := Option.isSome_iff_exists.mp hRow
  obtain ⟨rowUp, hRowUp⟩ := Option.isSome_iff_exists.mp hRowUp
  have hBlueTables := s.blue.frame_tables false false keycode e s.red
  have hRedTables := s.red.frame_tables true false keycode e s.blue
  refine ⟨?_, ?_, (opposite_posedgeFrameClk_iff hSettled h.opposite).mpr hReleased, ?_, ?_, ?_,
    ?_, ?_, ?_⟩
  · rw [posedgeFrameClk_blue, Ball.frame_collision]
    simp [Ball.hits, hBlue]
  · rw [posedgeFrameClk_red, Ball.frame_collision]
    simp [Ball.hits, hRed]
  · rw [posedgeFrameClk_blue, hBlueTables]
    exact h.blueTables.posedgeClk _
  · rw [posedgeFrameClk_red, hRedTables]
    exact h.redTables.posedgeClk _
  · rw [posedgeFrameClk_blue, posedgeFrameClk_red, hBlueTables, hRedTables]
    exact posedgeClk_congr hRow (by rw [hAcross, hSame, hRow]) _ _
  · rw [posedgeFrameClk_blue, posedgeFrameClk_red, hBlueTables, hRedTables]
    exact posedgeClk_congr hRowUp (by rw [hAcross, hSameUp, hRowUp]) _ _
  · rw [posedgeFrameClk_blue, hBlueTables]
    rfl
  · rw [posedgeFrameClk_red, hRedTables]
    rfl

/-- The two new points of an undisturbed frame, in exact integers. -/
theorem InPhase.points (h : s.InPhase) (keycode : BitVec 8) (hBlue : s.blue.collides e = false)
    (hRed : s.red.collides e = false) :
    (s.posedgeFrameClk false keycode e).blue.ballXPos.toNat =
        displaced 320 (s.blue.plusX keycode) (offset (s.blue.readVals keycode).cosine) ∧
      (s.posedgeFrameClk false keycode e).red.ballXPos.toNat =
        displaced 320 (s.red.plusX keycode) (offset (s.red.readVals keycode).cosine) ∧
      (s.posedgeFrameClk false keycode e).blue.ballYPos.toNat =
        displaced 390 (s.blue.plusY keycode) (offset (s.blue.readVals keycode).sine) ∧
      (s.posedgeFrameClk false keycode e).red.ballYPos.toNat =
        displaced 390 (s.red.plusY keycode) (offset (s.red.readVals keycode).sine) := by
  obtain ⟨hBlueTurns, hRedTurns⟩ := h.turns hBlue hRed
  have hBlueFrame := Ball.frame_of_turns false false keycode e s.blue s.red hBlueTurns
  have hRedFrame := Ball.frame_of_turns true false keycode e s.red s.blue hRedTurns
  obtain ⟨hBlueX, hBlueY⟩ :=
    Ball.rotateBranch_toNat h.opposite.blueOnCircle h.blueTables keycode
  obtain ⟨hRedX, hRedY⟩ := Ball.rotateBranch_toNat h.opposite.redOnCircle h.redTables keycode
  rw [posedgeFrameClk_blue, posedgeFrameClk_red, hBlueFrame, hRedFrame]
  exact ⟨hBlueX, hRedX, hBlueY, hRedY⟩

/-- No register that a key selects moves a ball further than the radius. -/
theorem InPhase.offsets_le (h : s.InPhase) (keycode : BitVec 8) :
    (offset (s.blue.readVals keycode).cosine ≤ 60 ∧
        offset (s.red.readVals keycode).cosine ≤ 60) ∧
      offset (s.blue.readVals keycode).sine ≤ 60 ∧
        offset (s.red.readVals keycode).sine ≤ 60 := by
  obtain ⟨hBlueSine, hBlueCosine⟩ := Ball.readVals_inRange h.blueTables keycode
  obtain ⟨hRedSine, hRedCosine⟩ := Ball.readVals_inRange h.redTables keycode
  exact ⟨⟨offset_le hBlueCosine, offset_le hRedCosine⟩, offset_le hBlueSine, offset_le hRedSine⟩

/-- With the right key the horizontal signs are always opposite; the vertical
ones too, except where one ball wraps and reads the register of index 1. -/
theorem InPhase.rightKey_iff (h : s.InPhase) (hKey : keycode = 7) :
    (displaced 320 (s.blue.plusX keycode) (offset (s.blue.readVals keycode).cosine) +
        displaced 320 (s.red.plusX keycode) (offset (s.red.readVals keycode).cosine) = 640 ↔
      offset (s.blue.readVals keycode).cosine = offset (s.red.readVals keycode).cosine) ∧
    (displaced 390 (s.blue.plusY keycode) (offset (s.blue.readVals keycode).sine) +
        displaced 390 (s.red.plusY keycode) (offset (s.red.readVals keycode).sine) = 780 ↔
      offset (s.blue.readVals keycode).sine = offset (s.red.readVals keycode).sine) := by
  obtain ⟨⟨hbc, hrc⟩, hbs, hrs⟩ := h.offsets_le keycode
  obtain ⟨hX, -, -, hY⟩ := signs_across h.opposite.blueOnCircle
  have hAcross := h.red_eq_across
  constructor
  · refine displaced_sum_opposite 320 ?_ (by omega) (by omega)
    rw [Ball.plusX, Ball.plusX, if_pos hKey, if_pos hKey, hAcross]
    exact hX
  · by_cases hBlueWrap : s.blue.nextIndex = 60
    · -- blue wraps: both vertical signs are plus, and blue's own offset is zero
      have hRedWrap : s.red.nextIndex ≠ 60 := by
        rw [hAcross, hBlueWrap]; decide
      have hZero : offset (s.blue.readVals keycode).sine = 0 := by
        rw [Ball.readVals, if_pos hKey, if_pos hBlueWrap, h.blueZero]; rfl
      have hBlueSign : s.blue.plusY keycode = true := by
        rw [Ball.plusY, if_pos hKey, hBlueWrap]; rfl
      have hRedSign : s.red.plusY keycode = true := by
        rw [Ball.plusY, if_pos hKey, hAcross, hBlueWrap]; rfl
      rw [hBlueSign, hRedSign, displaced_sum_same 390 true (by omega) (by omega)]
      omega
    · by_cases hRedWrap : s.red.nextIndex = 60
      · have hBlueIndex : s.blue.nextIndex = 30 := by
          have hi := h.opposite.blueOnCircle
          unfold OnCircle at hi
          rw [hAcross] at hRedWrap
          unfold across at hRedWrap
          split_ifs at hRedWrap <;> bv_omega
        have hZero : offset (s.red.readVals keycode).sine = 0 := by
          rw [Ball.readVals, if_pos hKey, if_pos hRedWrap, h.redZero]; rfl
        have hBlueSign : s.blue.plusY keycode = true := by
          rw [Ball.plusY, if_pos hKey, hBlueIndex]; rfl
        have hRedSign : s.red.plusY keycode = true := by
          rw [Ball.plusY, if_pos hKey, hRedWrap]; rfl
        rw [hBlueSign, hRedSign, displaced_sum_same 390 true (by omega) (by omega)]
        omega
      · refine displaced_sum_opposite 390 ?_ (by omega) (by omega)
        rw [Ball.plusY, Ball.plusY, if_pos hKey, if_pos hKey, decide_eq_false hBlueWrap,
          decide_eq_false hRedWrap, Bool.false_or, Bool.false_or, hAcross]
        exact hY hBlueWrap (hAcross ▸ hRedWrap)

/-- With the left key both pairs of signs are opposite. -/
theorem InPhase.leftKey_iff (h : s.InPhase) (hKey : keycode = 4) :
    (displaced 320 (s.blue.plusX keycode) (offset (s.blue.readVals keycode).cosine) +
        displaced 320 (s.red.plusX keycode) (offset (s.red.readVals keycode).cosine) = 640 ↔
      offset (s.blue.readVals keycode).cosine = offset (s.red.readVals keycode).cosine) ∧
    (displaced 390 (s.blue.plusY keycode) (offset (s.blue.readVals keycode).sine) +
        displaced 390 (s.red.plusY keycode) (offset (s.red.readVals keycode).sine) = 780 ↔
      offset (s.blue.readVals keycode).sine = offset (s.red.readVals keycode).sine) := by
  obtain ⟨⟨hbc, hrc⟩, hbs, hrs⟩ := h.offsets_le keycode
  obtain ⟨-, hX, hY, -⟩ := signs_across h.opposite.blueOnCircle
  have hAcross := h.red_eq_across
  have hNot : keycode ≠ 7 := by rw [hKey]; decide
  constructor
  · refine displaced_sum_opposite 320 ?_ (by omega) (by omega)
    rw [Ball.plusX, Ball.plusX, if_neg hNot, if_neg hNot, if_pos hKey, if_pos hKey, hAcross]
    exact hX
  · refine displaced_sum_opposite 390 ?_ (by omega) (by omega)
    rw [Ball.plusY, Ball.plusY, if_neg hNot, if_neg hNot, if_pos hKey, if_pos hKey, hAcross]
    exact hY

/-- Without a key the signs are opposite unless both balls are on the centre
line, and the two offsets are the same number. -/
theorem noKey_sum_iff (center : Nat) {pos off : Nat} (plus plus' : Bool) (hOff : off ≤ center)
    (hOn : pos = center → plus' = plus) (hOff' : pos ≠ center → plus' = !plus) :
    displaced center plus off + displaced center plus' off = 2 * center ↔
      (pos = center → off = 0) := by
  by_cases hLine : pos = center
  · rw [hOn hLine, displaced_sum_same center plus hOff hOff]
    simp [hLine]
  · rw [displaced_sum_opposite center (hOff' hLine) hOff hOff]
    simp [hLine]

theorem InPhase.noKey_iff (h : s.InPhase) (hp : s.Mirrored) (hRight : keycode ≠ 7)
    (hLeft : keycode ≠ 4) :
    (displaced 320 (s.blue.plusX keycode) (offset (s.blue.readVals keycode).cosine) +
        displaced 320 (s.red.plusX keycode) (offset (s.red.readVals keycode).cosine) = 640 ↔
      (s.blue.ballXPos = ballXCenter → offset s.blue.tables.getVals.cosine = 0)) ∧
    (displaced 390 (s.blue.plusY keycode) (offset (s.blue.readVals keycode).sine) +
        displaced 390 (s.red.plusY keycode) (offset (s.red.readVals keycode).sine) = 780 ↔
      (s.blue.ballYPos = ballYCenter → offset s.blue.tables.getVals.sine = 0)) := by
  obtain ⟨hSine, hCosine⟩ := h.blueTables.getVals
  have hc := offset_le hCosine
  have hs := offset_le hSine
  have hx := hp.x
  have hy := hp.y
  have hRead (b : Ball) : b.readVals keycode = b.tables.getVals := by
    rw [Ball.readVals, if_neg hRight, if_neg hLeft]
  have hPlusX (b : Ball) : b.plusX keycode = !decide (b.ballXPos ≤ ballXCenter) := by
    rw [Ball.plusX, if_neg hRight, if_neg hLeft]
  have hPlusY (b : Ball) : b.plusY keycode = decide (ballYCenter ≤ b.ballYPos) := by
    rw [Ball.plusY, if_neg hRight, if_neg hLeft]
  have hXCenter : ballXCenter.toNat = 320 := rfl
  have hYCenter : ballYCenter.toNat = 390 := rfl
  have hXIff : s.blue.ballXPos = ballXCenter ↔ s.blue.ballXPos.toNat = 320 := by
    rw [← BitVec.toNat_inj, hXCenter]
  have hYIff : s.blue.ballYPos = ballYCenter ↔ s.blue.ballYPos.toNat = 390 := by
    rw [← BitVec.toNat_inj, hYCenter]
  rw [hRead, hRead, hPlusX, hPlusX, hPlusY, hPlusY, ← h.getVals, hXIff, hYIff]
  simp only [BitVec.le_def, hXCenter, hYCenter]
  constructor
  · refine noKey_sum_iff 320 _ _ (by omega) ?_ ?_
    · intro hLine
      rw [decide_eq_true (by omega), decide_eq_true (by omega)]
    · intro hLine
      by_cases hSide : s.blue.ballXPos.toNat ≤ 320
      · rw [decide_eq_true hSide, decide_eq_false (by omega)]
        rfl
      · rw [decide_eq_false hSide, decide_eq_true (by omega)]
        rfl
  · refine noKey_sum_iff 390 _ _ (by omega) ?_ ?_
    · intro hLine
      rw [decide_eq_true (by omega), decide_eq_true (by omega)]
    · intro hLine
      by_cases hSide : 390 ≤ s.blue.ballYPos.toNat
      · rw [decide_eq_true hSide, decide_eq_false (by omega)]
        rfl
      · rw [decide_eq_false hSide, decide_eq_true (by omega)]
        rfl

/-- The exact condition on one undisturbed frame. -/
theorem InPhase.mirrored_iff (h : s.InPhase) (hp : s.Mirrored)
    (hBlue : s.blue.collides e = false) (hRed : s.red.collides e = false) :
    (s.posedgeFrameClk false keycode e).Mirrored ↔ s.EqualOffsets keycode := by
  obtain ⟨hBlueX, hRedX, hBlueY, hRedY⟩ := h.points keycode hBlue hRed
  have hMirrored : (s.posedgeFrameClk false keycode e).Mirrored ↔
      displaced 320 (s.blue.plusX keycode) (offset (s.blue.readVals keycode).cosine) +
          displaced 320 (s.red.plusX keycode) (offset (s.red.readVals keycode).cosine) = 640 ∧
        displaced 390 (s.blue.plusY keycode) (offset (s.blue.readVals keycode).sine) +
          displaced 390 (s.red.plusY keycode) (offset (s.red.readVals keycode).sine) = 780 := by
    rw [← hBlueX, ← hRedX, ← hBlueY, ← hRedY]
    exact ⟨fun m => ⟨m.x, m.y⟩, fun m => ⟨m.1, m.2⟩⟩
  rw [hMirrored]
  by_cases hRight : keycode = 7
  · obtain ⟨hX, hY⟩ := h.rightKey_iff hRight
    rw [hX, hY]
    exact ⟨fun m => ⟨m.1, m.2, fun hNot => absurd hRight hNot, fun hNot => absurd hRight hNot⟩,
      fun m => ⟨m.cosine, m.sine⟩⟩
  · by_cases hLeft : keycode = 4
    · obtain ⟨hX, hY⟩ := h.leftKey_iff hLeft
      rw [hX, hY]
      exact ⟨fun m => ⟨m.1, m.2, fun _ hNot => absurd hLeft hNot,
        fun _ hNot => absurd hLeft hNot⟩, fun m => ⟨m.cosine, m.sine⟩⟩
    · obtain ⟨hX, hY⟩ := h.noKey_iff hp hRight hLeft
      have hRead (b : Ball) : b.readVals keycode = b.tables.getVals := by
        rw [Ball.readVals, if_neg hRight, if_neg hLeft]
      rw [hX, hY]
      refine ⟨fun m => ⟨?_, ?_, fun _ _ => m.1, fun _ _ => m.2⟩,
        fun m => ⟨m.xLine hRight hLeft, m.yLine hRight hLeft⟩⟩
      · rw [hRead, hRead, h.getVals]
      · rw [hRead, hRead, h.getVals]

end Step

/-- The settled start: both balls at their start points, and the registers of
each holding the rows of its index and its neighbours. Index 1 has no lower
row, so red's lower register may hold any magnitudes. -/
structure SettledStart (s : Balls) : Prop where
  blueLow : s.blue.collision = false
  redLow : s.red.collision = false
  blueX : s.blue.ballXPos = 260
  blueY : s.blue.ballYPos = 390
  blueIndex : s.blue.nextIndex = 31
  redX : s.red.ballXPos = 380
  redY : s.red.ballYPos = 390
  redIndex : s.red.nextIndex = 1
  blueTables : s.blue.tables =
    ⟨⟨0, 1000⟩, ⟨105, 995⟩, ⟨105, 995⟩, ⟨0, 1000⟩, ⟨105, 995⟩⟩
  redTables : ∃ down : SinCos, down.InRange ∧ s.red.tables =
    ⟨⟨0, 1000⟩, ⟨105, 995⟩, down, ⟨0, 1000⟩, ⟨105, 995⟩⟩

theorem SettledStart.inPhase {s : Balls} (h : s.SettledStart) : s.InPhase := by
  obtain ⟨down, hDown, hRedTables⟩ := h.redTables
  refine ⟨h.blueLow, h.redLow, opposite_start h.blueIndex h.redIndex, ?_, ?_, ?_, ?_, ?_, ?_⟩
  · rw [h.blueTables]
    constructor <;> decide
  · rw [hRedTables]
    have hRow : SinCos.InRange ⟨0, 1000⟩ := by decide
    have hNext : SinCos.InRange ⟨105, 995⟩ := by decide
    exact ⟨hRow, hNext, hDown, hRow, hNext⟩
  all_goals simp only [h.blueTables, hRedTables]

theorem SettledStart.mirrored {s : Balls} (h : s.SettledStart) : s.Mirrored :=
  ⟨by rw [h.blueX, h.redX]; rfl, by rw [h.blueY, h.redY]; rfl⟩

end Balls

/-- From the settled start, an undisturbed run keeps the balls diametrically
opposite exactly when they read equal offsets at every frame of it. -/
theorem mirrored_always_iff (s : Balls) (events : List BallEvent) (h : s.SettledStart)
    (hRun : EachStep Balls.step Balls.Undisturbed s events) :
    Always Balls.step Balls.Mirrored s events ↔
      EachStep Balls.step Balls.KeepsMirror s events := by
  apply always_iff_eachStep Balls.InPhase Balls.Undisturbed
  · intro s event hs hp hCalm
    cases event with
    | posedgeReset keycode e => exact hCalm.elim
    | posedgeFrameClk reset keycode e =>
        obtain ⟨rfl, hBlue, hRed⟩ := hCalm
        exact hs.mirrored_iff hp hBlue hRed
  · intro s event hs _ hCalm _
    cases event with
    | posedgeReset keycode e => exact hCalm.elim
    | posedgeFrameClk reset keycode e =>
        obtain ⟨rfl, hBlue, hRed⟩ := hCalm
        exact hs.posedgeFrameClk hBlue hRed
  · exact h.inPhase
  · exact h.mirrored
  · exact hRun

/-- The settled start with the row of index 60 in red's lower register. -/
def Balls.settled : Balls :=
  { blue :=
      { Ball.zero with
        ballXPos := 260, ballYPos := 390, nextIndex := 31
        tables := ⟨⟨0, 1000⟩, ⟨105, 995⟩, ⟨105, 995⟩, ⟨0, 1000⟩, ⟨105, 995⟩⟩ }
    red :=
      { Ball.zero with
        ballXPos := 380, ballYPos := 390, nextIndex := 1
        tables := ⟨⟨0, 1000⟩, ⟨105, 995⟩, ⟨105, 995⟩, ⟨0, 1000⟩, ⟨105, 995⟩⟩ } }

/-- A frame without hits: every element stands at line 0. -/
def idleFrame (keycode : BitVec 8) : BallEvent :=
  .posedgeFrameClk false keycode (wiredPorts fun _ => 0)

theorem Balls.settledStart_settled : Balls.settled.SettledStart :=
  ⟨rfl, rfl, rfl, rfl, rfl, rfl, rfl, rfl, rfl, ⟨105, 995⟩, by decide, rfl⟩

/-- Holding the right key for two frames keeps the mirror. -/
theorem mirrored_always_iff_rightKey :
    Always Balls.step Balls.Mirrored Balls.settled [idleFrame 7, idleFrame 7] ↔
      EachStep Balls.step Balls.KeepsMirror Balls.settled [idleFrame 7, idleFrame 7] :=
  mirrored_always_iff _ _ Balls.settledStart_settled
    ⟨⟨rfl, by decide, by decide⟩, ⟨rfl, by decide, by decide⟩, trivial⟩

/-- One frame of the right key and two without a key: in the third frame both
balls are on the horizontal centre line and are moved below it. -/
theorem mirror_lost_after_tap :
    Balls.settled.SettledStart ∧
      EachStep Balls.step Balls.Undisturbed Balls.settled
        [idleFrame 7, idleFrame 0, idleFrame 0] ∧
      ¬Always Balls.step Balls.Mirrored Balls.settled [idleFrame 7, idleFrame 0, idleFrame 0] := by
  refine ⟨Balls.settledStart_settled, ⟨⟨rfl, by decide, by decide⟩, ⟨rfl, by decide, by decide⟩,
    ⟨rfl, by decide, by decide⟩, trivial⟩, fun h => ?_⟩
  have hSum := h.last.y
  revert hSum
  decide

end TwoBallGame
