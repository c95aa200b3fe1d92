import TwoBallGame.Balls.Single

/-! Where a ball comes to rest once the keys are released. Without a key the
signs of its point come from its position, and the table is one frame late. -/
namespace TwoBallGame

open Clocked

/-- The sign of the cosine at a place of the circle, minus on the left. -/
def cosineSign (index : BitVec 6) : Int :=
  if 17 ≤ index.toNat ∧ index.toNat ≤ 45 then -1 else 1

/-- The sign of the sine at a place of the circle, minus above the centre. -/
def sineSign (index : BitVec 6) : Int := if 32 ≤ index.toNat then -1 else 1

/-- Every place has a row, and only four places lie on a centre line. -/
theorem sinCosRow_place {index : BitVec 6} (h : OnCircle index) :
    ∃ row, sinCosRow index = some row ∧ row.InRange ∧
      (offset row.cosine = 0 ↔ index = 16 ∨ index = 46) ∧
      (offset row.sine = 0 ↔ index = 1 ∨ index = 31) := by
  have hAll : ∀ k : Fin 64, OnCircle (BitVec.ofFin k) →
      let i : BitVec 6 := BitVec.ofFin k
      (sinCosRow i).isSome ∧ ∀ row ∈ sinCosRow i,
        (offset row.cosine = 0 ↔ i = 16 ∨ i = 46) ∧ (offset row.sine = 0 ↔ i = 1 ∨ i = 31) := by
    decide
  obtain ⟨hSome, hZero⟩ := hAll index.toFin h
  obtain ⟨row, hRow⟩ := Option.isSome_iff_exists.mp hSome
  exact ⟨row, hRow, sinCosRow_inRange hRow, hZero row hRow⟩

theorem displaced_inj {center off : Nat} (h : off ≤ center) (plus plus' : Bool) :
    displaced center plus off = displaced center plus' off ↔ off = 0 ∨ plus = plus' := by
  cases plus <;> cases plus' <;> simp [displaced] <;> omega

/-- A displaced point is right of the centre if it has both a sign and an offset. -/
theorem right_of_displaced {off : Nat} (plus : Bool) :
    decide (320 < displaced 320 plus off) = (plus && decide (0 < off)) := by
  cases plus <;> simp [displaced]

/-- It is on or below the centre if it has the sign or no offset. -/
theorem lower_of_displaced {off : Nat} (plus : Bool) (h : off ≤ 390) :
    decide (390 ≤ displaced 390 plus off) = (plus || decide (off = 0)) := by
  cases plus <;> simp [displaced]
  omega

/-- Off the vertical centre line the right half has the plus sign. -/
theorem displaced_rightHalf {index : BitVec 6} {off : Nat} (h : off ≤ 320)
    (hZero : index = 16 ∨ index = 46 → off = 0) :
    (displaced 320 (Ball.rightHalf index) off : Int) = 320 + cosineSign index * off := by
  by_cases hLine : index = 16 ∨ index = 46
  · rw [hZero hLine, displaced]
    split_ifs <;> simp
  · have h16 : index.toNat ≠ 16 := fun hi => hLine (Or.inl (BitVec.eq_of_toNat_eq hi))
    have h46 : index.toNat ≠ 46 := fun hi => hLine (Or.inr (BitVec.eq_of_toNat_eq hi))
    unfold displaced Ball.rightHalf cosineSign
    simp only [Bool.or_eq_true, decide_eq_true_eq]
    split_ifs <;> omega

/-- Off the horizontal centre line the lower half has the plus sign. -/
theorem displaced_lowerHalf {index : BitVec 6} {off : Nat} (h : off ≤ 390)
    (hZero : index = 1 ∨ index = 31 → off = 0) :
    (displaced 390 (Ball.lowerHalf index) off : Int) = 390 + sineSign index * off := by
  by_cases hLine : index = 1 ∨ index = 31
  · rw [hZero hLine, displaced]
    split_ifs <;> simp
  · have h31 : index.toNat ≠ 31 := fun hi => hLine (Or.inr (BitVec.eq_of_toNat_eq hi))
    unfold displaced Ball.lowerHalf sineSign
    simp only [decide_eq_true_eq]
    split_ifs <;> omega

namespace Ball

/-- The ball is at the circle point of its index. -/
def AtPlace (b : Ball) : Prop :=
  ∃ row, sinCosRow b.nextIndex = some row ∧
    (b.ballXPos.toNat : Int) = 320 + cosineSign b.nextIndex * offset row.cosine ∧
    (b.ballYPos.toNat : Int) = 390 + sineSign b.nextIndex * offset row.sine

/-- The ball will stay right of the centre without a key: it is there, and its
register does not put it on the line, which counts as left. -/
def keepsRight (b : Ball) : Bool :=
  decide (320 < b.ballXPos.toNat) && decide (0 < offset b.tables.getVals.cosine)

/-- The ball will stay below the centre without a key: it is there, or its
register puts it on the line, which counts as below. -/
def keepsLower (b : Ball) : Bool :=
  decide (390 ≤ b.ballYPos.toNat) || decide (offset b.tables.getVals.sine = 0)

/-- The sides that the ball will keep are those of its index. The four places
on a centre line have no side of it. -/
structure OnItsSide (b : Ball) : Prop where
  x : b.nextIndex ≠ 16 → b.nextIndex ≠ 46 → b.keepsRight = rightHalf b.nextIndex
  y : b.nextIndex ≠ 1 → b.nextIndex ≠ 31 → b.keepsLower = lowerHalf b.nextIndex

/-- One frame of a ball that turns without a key. -/
structure IdleFrame (b b' : Ball) : Prop where
  onCircle : OnCircle b.nextIndex
  index : b'.nextIndex = b.nextIndex
  row : sinCosRow b.nextIndex = some b'.tables.getVals
  x : b'.ballXPos.toNat =
    displaced 320 (decide (320 < b.ballXPos.toNat)) (offset b.tables.getVals.cosine)
  y : b'.ballYPos.toNat =
    displaced 390 (decide (390 ≤ b.ballYPos.toNat)) (offset b.tables.getVals.sine)

theorem idleFrame_rotateBranch {b : Ball} {keycode : BitVec 8} (h : OnCircle b.nextIndex)
    (hTables : b.tables.InRange) (hRight : keycode ≠ 7) (hLeft : keycode ≠ 4) :
    b.IdleFrame { b.rotateBranch keycode b.nextIndex with
      tables := b.tables.posedgeClk b.nextIndex } := by
  have hRead : b.readVals keycode = b.tables.getVals := by
    rw [readVals, if_neg hRight, if_neg hLeft]
  have hX : b.plusX keycode = decide (320 < b.ballXPos.toNat) := by
    rw [plusX, if_neg hRight, if_neg hLeft, ← decide_not]
    exact decide_eq_decide.mpr BitVec.not_le
  have hY : b.plusY keycode = decide (390 ≤ b.ballYPos.toNat) := by
    rw [plusY, if_neg hRight, if_neg hLeft]
    rfl
  have hPoint := rotateBranch_toNat h hTables keycode
  rw [hRead, hX, hY] at hPoint
  refine ⟨h, ?_, ?_, hPoint.1, hPoint.2⟩
  · exact (rotateBranch_nextIndex b keycode).trans (turn_idle hRight hLeft _)
  · exact posedgeClk_row (isSome_sinCosRow h).1 b.tables.getVals

section IdleFrame

variable {b b' : Ball}

/-- The sides after the frame are the ones the ball kept. -/
theorem IdleFrame.sides (h : b.IdleFrame b') (hTables : b.tables.InRange) :
    decide (320 < b'.ballXPos.toNat) = b.keepsRight ∧
      decide (390 ≤ b'.ballYPos.toNat) = b.keepsLower := by
  have hs := offset_le hTables.getVals.1
  rw [h.x, h.y, right_of_displaced, lower_of_displaced _ (by omega)]
  exact ⟨rfl, rfl⟩

theorem keepsRight_of_pos (h : 0 < offset b.tables.getVals.cosine) :
    b.keepsRight = decide (320 < b.ballXPos.toNat) := by
  rw [keepsRight, decide_eq_true h, Bool.and_true]

theorem keepsLower_of_pos (h : 0 < offset b.tables.getVals.sine) :
    b.keepsLower = decide (390 ≤ b.ballYPos.toNat) := by
  rw [keepsLower, decide_eq_false h.ne', Bool.or_false]

/-- A register that holds the row of the index moves the ball off the centre
lines, except at the places on them. -/
theorem offset_pos_of_row (h : OnCircle b.nextIndex)
    (hRow : sinCosRow b.nextIndex = some b.tables.getVals) :
    (b.nextIndex ≠ 16 → b.nextIndex ≠ 46 → 0 < offset b.tables.getVals.cosine) ∧
      (b.nextIndex ≠ 1 → b.nextIndex ≠ 31 → 0 < offset b.tables.getVals.sine) := by
  obtain ⟨row, hSome, -, hCosine, hSine⟩ := sinCosRow_place h
  obtain rfl : b.tables.getVals = row := Option.some.inj (hRow.symm.trans hSome)
  constructor
  · intro h16 h46
    exact Nat.pos_of_ne_zero fun h0 => (hCosine.mp h0).elim h16 h46
  · intro h1 h31
    exact Nat.pos_of_ne_zero fun h0 => (hSine.mp h0).elim h1 h31

/-- A frame without a key leaves the ball on its side or off it. -/
theorem IdleFrame.onItsSide_iff (h : b.IdleFrame b') (hTables : b.tables.InRange) :
    b'.OnItsSide ↔ b.OnItsSide := by
  obtain ⟨hRight, hLower⟩ := h.sides hTables
  have hRow : sinCosRow b'.nextIndex = some b'.tables.getVals := by rw [h.index, h.row]
  have hOnCircle : OnCircle b'.nextIndex := by rw [h.index]; exact h.onCircle
  obtain ⟨hCosine, hSine⟩ := offset_pos_of_row hOnCircle hRow
  rw [h.index] at hCosine hSine
  constructor
  · rintro ⟨hX, hY⟩
    rw [h.index] at hX hY
    constructor
    · intro h16 h46
      rw [← hX h16 h46, keepsRight_of_pos (hCosine h16 h46), hRight]
    · intro h1 h31
      rw [← hY h1 h31, keepsLower_of_pos (hSine h1 h31), hLower]
  · rintro ⟨hX, hY⟩
    constructor
    · rw [h.index]
      intro h16 h46
      rw [← hX h16 h46, keepsRight_of_pos (hCosine h16 h46), hRight]
    · rw [h.index]
      intro h1 h31
      rw [← hY h1 h31, keepsLower_of_pos (hSine h1 h31), hLower]

/-- With the row of its index in the register, a frame without a key brings the
ball to its place just when it is on its side. -/
theorem IdleFrame.atPlace_iff (h : b.IdleFrame b') (hTables : b.tables.InRange)
    (hRow : sinCosRow b.nextIndex = some b.tables.getVals) :
    b'.AtPlace ↔ b.OnItsSide := by
  have hc := offset_le hTables.getVals.2
  have hs := offset_le hTables.getVals.1
  obtain ⟨row, hSome, -, hCosineZero, hSineZero⟩ := sinCosRow_place h.onCircle
  obtain rfl : b.tables.getVals = row := Option.some.inj (hRow.symm.trans hSome)
  obtain ⟨hCosine, hSine⟩ := offset_pos_of_row h.onCircle hRow
  have hX : (b'.ballXPos.toNat : Int) =
      320 + cosineSign b'.nextIndex * offset b.tables.getVals.cosine ↔
      offset b.tables.getVals.cosine = 0 ∨
        decide (320 < b.ballXPos.toNat) = rightHalf b.nextIndex := by
    rw [h.index, ← displaced_rightHalf (by omega) hCosineZero.mpr, h.x, Int.natCast_inj,
      displaced_inj (by omega)]
  have hY : (b'.ballYPos.toNat : Int) =
      390 + sineSign b'.nextIndex * offset b.tables.getVals.sine ↔
      offset b.tables.getVals.sine = 0 ∨
        decide (390 ≤ b.ballYPos.toNat) = lowerHalf b.nextIndex := by
    rw [h.index, ← displaced_lowerHalf (by omega) hSineZero.mpr, h.y, Int.natCast_inj,
      displaced_inj (by omega)]
  constructor
  · rintro ⟨row, hSome', hAtX, hAtY⟩
    obtain rfl : b.tables.getVals = row :=
      Option.some.inj (hRow.symm.trans (h.index ▸ hSome'))
    constructor
    · intro h16 h46
      have hOff := hCosine h16 h46
      rw [keepsRight_of_pos hOff]
      exact (hX.mp hAtX).resolve_left hOff.ne'
    · intro h1 h31
      have hOff := hSine h1 h31
      rw [keepsLower_of_pos hOff]
      exact (hY.mp hAtY).resolve_left hOff.ne'
  · intro hSide
    refine ⟨b.tables.getVals, h.index ▸ hRow, hX.mpr ?_, hY.mpr ?_⟩
    · by_cases hOff : offset b.tables.getVals.cosine = 0
      · exact Or.inl hOff
      · obtain ⟨h16, h46⟩ := not_or.mp (fun hi => hOff (hCosineZero.mpr hi))
        rw [← keepsRight_of_pos (hCosine h16 h46)]
        exact Or.inr (hSide.x h16 h46)
    · by_cases hOff : offset b.tables.getVals.sine = 0
      · exact Or.inl hOff
      · obtain ⟨h1, h31⟩ := not_or.mp (fun hi => hOff (hSineZero.mpr hi))
        rw [← keepsLower_of_pos (hSine h1 h31)]
        exact Or.inr (hSide.y h1 h31)

end IdleFrame

/-- At the index of its start point, the place of a ball is that point. -/
theorem atPlace_start_iff {b : Ball} {color : Bool} (h : b.nextIndex = startIndex color) :
    b.AtPlace ↔ b.ballXPos = startX color ∧ b.ballYPos = ballYCenter := by
  have hRow : sinCosRow (startIndex color) = some ⟨0, 1000⟩ := by cases color <;> rfl
  have hX : (320 : Int) + cosineSign (startIndex color) * offset (1000 : BitVec 32) =
      (startX color).toNat := by cases color <;> rfl
  have hY : (390 : Int) + sineSign (startIndex color) * offset (0 : BitVec 32) =
      ballYCenter.toNat := by cases color <;> rfl
  rw [AtPlace, h, hRow]
  constructor
  · rintro ⟨row, hSome, hAtX, hAtY⟩
    obtain rfl : ⟨0, 1000⟩ = row := Option.some.inj hSome
    rw [hX, Int.natCast_inj, BitVec.toNat_inj] at hAtX
    rw [hY, Int.natCast_inj, BitVec.toNat_inj] at hAtY
    exact ⟨hAtX, hAtY⟩
  · rintro ⟨hAtX, hAtY⟩
    refine ⟨⟨0, 1000⟩, rfl, ?_, ?_⟩
    · rw [hAtX, hX]
    · rw [hAtY, hY]

end Ball

namespace Balls

/-- A frame with neither rotation key, no `Reset` and no collision. -/
def Idle (s : Balls) : BallEvent → Prop
  | .posedgeReset _ _ => False
  | .posedgeFrameClk reset keycode e =>
      keycode ≠ 7 ∧ keycode ≠ 4 ∧ s.Calm (.posedgeFrameClk reset keycode e)

instance decidableIdle (s : Balls) : (event : BallEvent) → Decidable (s.Idle event)
  | .posedgeReset _ _ => inferInstanceAs (Decidable False)
  | .posedgeFrameClk reset keycode e =>
      inferInstanceAs (Decidable (keycode ≠ 7 ∧ keycode ≠ 4 ∧
        s.Calm (.posedgeFrameClk reset keycode e)))

/-- The condition when the keys are released. A ball that is still held by the
other one's `Collision` is put back first and is on its side. -/
def ReleasedOnSide (color : Bool) (s : Balls) : Prop :=
  (s.ball (!color)).collision = false → (s.ball color).OnItsSide

/-- Nothing holds the ball, and its register has the row of its index. -/
structure Warm (color : Bool) (s : Balls) : Prop where
  ready : s.Ready color
  low : (s.ball (!color)).collision = false
  row : sinCosRow (s.ball color).nextIndex = some (s.ball color).tables.getVals

section Idle

variable {s : Balls} {color : Bool}

/-- A ball at its start point with the row of its index is on its side. -/
theorem onItsSide_of_atStart {b : Ball} (h : b.AtStart color)
    (hRow : sinCosRow b.nextIndex = some b.tables.getVals) : b.OnItsSide := by
  have hVals : b.tables.getVals = ⟨0, 1000⟩ := by
    rw [h.index] at hRow
    cases color <;> exact (Option.some.inj hRow).symm
  constructor
  · intro _ _
    rw [Ball.keepsRight, h.index, h.x, hVals]
    cases color <;> rfl
  · intro h1 h31
    rw [h.index] at h1 h31
    cases color with
    | false => exact absurd rfl h31
    | true => exact absurd rfl h1

/-- A turning ball runs through one idle frame of its own. -/
theorem idleFrame_of_idle {event : BallEvent} (h : s.Ready color) (hIdle : s.Idle event)
    (hLow : (s.ball (!color)).collision = false) :
    (s.ball color).IdleFrame ((s.step event).ball color) := by
  cases event with
  | posedgeReset keycode e => exact hIdle.elim
  | posedgeFrameClk reset keycode e =>
      obtain ⟨hRight, hLeft, hCalm⟩ := hIdle
      change (s.ball color).IdleFrame ((s.posedgeFrameClk reset keycode e).ball color)
      rw [hCalm.turns hLow]
      exact Ball.idleFrame_rotateBranch h.index h.tables hRight hLeft

/-- One idle frame warms the ball up and keeps its index and its side. -/
theorem idle_step {event : BallEvent} (h : s.Ready color) (hIdle : s.Idle event) :
    (s.step event).Warm color ∧
      ((s.step event).ball color).nextIndex = (s.ball color).nextIndex ∧
      (((s.step event).ball color).OnItsSide ↔ s.ReleasedOnSide color) := by
  cases hHigh : (s.ball (!color)).collision with
  | true =>
      cases event with
      | posedgeReset keycode e => exact hIdle.elim
      | posedgeFrameClk reset keycode e =>
          have hStart : ((s.step (.posedgeFrameClk reset keycode e)).ball color).AtStart color :=
            atStart_of_held hHigh
          have hIndex : ((s.step (.posedgeFrameClk reset keycode e)).ball color).nextIndex =
              (s.ball color).nextIndex := by
            rw [hStart.index, (h.held hHigh).index]
          have hVals : sinCosRow ((s.step (.posedgeFrameClk reset keycode e)).ball color).nextIndex =
              some ((s.step (.posedgeFrameClk reset keycode e)).ball color).tables.getVals := by
            rw [hIndex]
            exact (h.tracks hIdle.2.2).getVals
          refine ⟨⟨h.step _, hIdle.2.2.collision_low (!color), hVals⟩, hIndex, ?_⟩
          exact iff_of_true (onItsSide_of_atStart hStart hVals)
            fun hLow => absurd (hHigh.symm.trans hLow) (by decide)
  | false =>
      have hFrame := idleFrame_of_idle h hIdle hHigh
      refine ⟨⟨h.step event, ?_, ?_⟩, hFrame.index, ?_⟩
      · cases event with
        | posedgeReset keycode e => exact hIdle.elim
        | posedgeFrameClk reset keycode e => exact hIdle.2.2.collision_low (!color)
      · rw [hFrame.index, hFrame.row]
      · rw [hFrame.onItsSide_iff h.tables]
        exact ⟨fun hSide _ => hSide, fun hSide => hSide hHigh⟩

/-- The same for a whole idle stretch. -/
theorem idle_run {idle : List BallEvent} (hSome : idle ≠ []) (h : s.Ready color)
    (hIdle : EachStep Balls.step Idle s idle) :
    (run Balls.step s idle).Warm color ∧
      ((run Balls.step s idle).ball color).nextIndex = (s.ball color).nextIndex ∧
      (((run Balls.step s idle).ball color).OnItsSide ↔ s.ReleasedOnSide color) := by
  induction idle generalizing s with
  | nil => exact absurd rfl hSome
  | cons event rest ih =>
      obtain ⟨hFirst, hRest⟩ := hIdle
      obtain ⟨hWarm, hIndex, hSide⟩ := idle_step h hFirst
      by_cases hLast : rest = []
      · rw [hLast]
        exact ⟨hWarm, hIndex, hSide⟩
      · obtain ⟨hWarm', hIndex', hSide'⟩ := ih hLast hWarm.ready hRest
        refine ⟨hWarm', hIndex'.trans hIndex, hSide'.trans (Iff.trans ?_ hSide)⟩
        exact ⟨fun hReleased => hReleased hWarm.low, fun hOn _ => hOn⟩

/-- After a warm frame the next idle one shows whether the ball is on its side. -/
theorem atPlace_of_warm {event : BallEvent} (h : s.Warm color) (hIdle : s.Idle event) :
    ((s.step event).ball color).AtPlace ↔ (s.ball color).OnItsSide :=
  (idleFrame_of_idle h.ready hIdle h.low).atPlace_iff h.ready.tables h.row

/-- After two idle frames the ball is at its place just when it was released on
its side. -/
theorem atPlace_idle_iff {idle : List BallEvent} (h : s.Ready color)
    (hIdle : EachStep Balls.step Idle s idle) (hLong : 2 ≤ idle.length) :
    ((run Balls.step s idle).ball color).AtPlace ↔ s.ReleasedOnSide color := by
  have hNonempty : idle ≠ [] := List.ne_nil_of_length_pos (by omega)
  obtain ⟨init, last, rfl⟩ := (List.eq_nil_or_concat idle).resolve_left hNonempty
  rw [List.concat_eq_append] at hIdle hLong ⊢
  obtain ⟨hInit, hLast, -⟩ := (eachStep_append Balls.step).mp hIdle
  have hInitSome : init ≠ [] := by
    rintro rfl
    exact absurd hLong (by simp)
  obtain ⟨hWarm, -, hSide⟩ := idle_run hInitSome h hInit
  rw [run_append, run_cons, run_nil, atPlace_of_warm hWarm hLast, hSide]

/-- Released at its start point, only red depends on what its register holds. -/
theorem releasedOnSide_of_atStart (h : (s.ball color).AtStart color) :
    s.ReleasedOnSide color ↔ (color = true → (s.ball (!color)).collision = false →
      0 < offset (s.ball color).tables.getVals.cosine) := by
  cases color with
  | false =>
      refine iff_of_true (fun _ => ⟨fun _ _ => ?_, fun _ h31 => absurd h.index h31⟩)
        (fun hRed => absurd hRed (by decide))
      rw [Ball.keepsRight, h.index, h.x]
      rfl
  | true =>
      have hX : (s.ball true).keepsRight =
          decide (0 < offset (s.ball true).tables.getVals.cosine) := by
        rw [Ball.keepsRight, h.x]
        rfl
      constructor
      · intro hReleased _ hLow
        have hRight := (hReleased hLow).x (by rw [h.index]; decide) (by rw [h.index]; decide)
        rw [hX, h.index] at hRight
        exact of_decide_eq_true hRight
      · intro hOff hLow
        refine ⟨fun _ _ => ?_, fun h1 => absurd h.index h1⟩
        rw [hX, h.index, decide_eq_true (hOff rfl hLow)]
        rfl

end Idle

/-- After two or more idle frames a ball is at the circle point of its index
exactly when it was on the index's side as the idle frames began. From a start
point blue always rests there, red when its register moves it off the line. -/
theorem rests_iff (s : Balls) (color : Bool) (idle : List BallEvent) (h : s.AfterReset)
    (hIdle : EachStep Balls.step Idle s idle) (hLong : 2 ≤ idle.length) :
    (((run Balls.step s idle).ball color).AtPlace ↔ s.ReleasedOnSide color) ∧
      ((s.ball color).AtStart color →
        (((run Balls.step s idle).ball color).ballXPos = startX color ∧
          ((run Balls.step s idle).ball color).ballYPos = ballYCenter ↔
        (color = true → (s.ball (!color)).collision = false →
          0 < offset (s.ball color).tables.getVals.cosine))) := by
  have hNonempty : idle ≠ [] := List.ne_nil_of_length_pos (by omega)
  have hPlace := atPlace_idle_iff (h.ready color) hIdle hLong
  refine ⟨hPlace, fun hStart => ?_⟩
  obtain ⟨-, hIndex, -⟩ := idle_run hNonempty (h.ready color) hIdle
  rw [← Ball.atPlace_start_iff (hIndex.trans hStart.index), hPlace,
    releasedOnSide_of_atStart hStart]

/-- Blue after `Reset` and two idle frames. -/
theorem rests_iff_blue :
    ((run Balls.step poweredReset [keyFrame 0, keyFrame 0]).ball false).AtPlace ∧
      ((run Balls.step poweredReset [keyFrame 0, keyFrame 0]).ball false).ballXPos = 260 ∧
      ((run Balls.step poweredReset [keyFrame 0, keyFrame 0]).ball false).ballYPos = 390 := by
  have hStart : (poweredReset.ball false).AtStart false := ⟨rfl, rfl, rfl⟩
  have hIdle : EachStep Balls.step Idle poweredReset [keyFrame 0, keyFrame 0] :=
    ⟨by decide, by decide, trivial⟩
  obtain ⟨hPlace, hPoint⟩ :=
    rests_iff poweredReset false [keyFrame 0, keyFrame 0] afterReset_poweredReset hIdle (by decide)
  refine ⟨hPlace.mpr ((releasedOnSide_of_atStart hStart).mpr ?_), (hPoint hStart).mpr ?_⟩
  · exact fun hRed => absurd hRed (by decide)
  · exact fun hRed => absurd hRed (by decide)

/-- One tap of the left key takes red from index 1 to index 60, and the stale
row of index 1 puts it on the line before the row of index 60 arrives: it
rests six pixels below the centre, the place of index 60 is six above. -/
theorem not_atPlace_after_leftTap :
    ¬∀ (s : Balls) (color : Bool) (idle : List BallEvent), s.AfterReset →
      EachStep Balls.step Idle s idle → 2 ≤ idle.length →
      ((run Balls.step s idle).ball color).AtPlace := by
  intro h
  have hReach := afterReset_poweredReset.run [keyFrame 0, keyFrame 4]
  obtain ⟨row, hRow, -, hY⟩ := h _ true [keyFrame 0, keyFrame 0] hReach
    ⟨by decide, by decide, trivial⟩ (by decide)
  obtain rfl : ⟨105, 995⟩ = row := Option.some.inj hRow
  revert hY
  decide

end Balls

end TwoBallGame
