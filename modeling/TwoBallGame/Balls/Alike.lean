import TwoBallGame.Balls.Paint
import TwoBallGame.Balls.Position

/-! Two runs of the same ball. What a ball shows depends on its point, its index
and its paint, and on the offsets that its tables give, not on their exact
values; a register that is overwritten before it is read does not matter. -/
namespace TwoBallGame

open Clocked

/-- Two registers give the same offsets. -/
structure SinCos.Alike (r r' : SinCos) : Prop where
  sine : offset r.sine = offset r'.sine
  cosine : offset r.cosine = offset r'.cosine

theorem SinCos.Alike.refl (r : SinCos) : r.Alike r := ⟨rfl, rfl⟩

/-- All five tables of a ball give the same offsets. -/
structure BallTables.Alike (t t' : BallTables) : Prop where
  getVals : t.getVals.Alike t'.getVals
  upIndexVal : t.upIndexVal.Alike t'.upIndexVal
  downIndexVal : t.downIndexVal.Alike t'.downIndexVal
  zeroIndexVal : t.zeroIndexVal.Alike t'.zeroIndexVal
  lastIndexVal : t.lastIndexVal.Alike t'.lastIndexVal

/-- The tables that a ball at its start point can still show. The register of
index 60 is read at once by red; the one below red's start index is not written
there, the table having no row 0. All others are written before they are read. -/
structure BallTables.AlikeAtStart (color : Bool) (t t' : BallTables) : Prop where
  getVals : t.getVals.Alike t'.getVals
  upIndexVal : t.upIndexVal.Alike t'.upIndexVal
  downIndexVal : t.downIndexVal.Alike t'.downIndexVal
  lastIndexVal : color = true → t.lastIndexVal.Alike t'.lastIndexVal

theorem BallTables.Alike.atStart {t t' : BallTables} (h : t.Alike t') (color : Bool) :
    t.AlikeAtStart color t' :=
  ⟨h.getVals, h.upIndexVal, h.downIndexVal, fun _ => h.lastIndexVal⟩

namespace Ball

/-- Two states of one ball that no input can tell apart. -/
structure Alike (color : Bool) (b b' : Ball) : Prop where
  x : b.ballXPos = b'.ballXPos
  y : b.ballYPos = b'.ballYPos
  paint : b.paint = b'.paint
  collision : b.collision = b'.collision
  nextIndex : b.nextIndex = b'.nextIndex
  blockHit : b.collision = true → b.blockHit = b'.blockHit
  tables : b.tables.Alike b'.tables ∨
    b.nextIndex = startIndex color ∧ b.tables.AlikeAtStart color b'.tables
  bounds : b.InBounds
  bounds' : b'.InBounds

section Point

variable {b b' : Ball} (e : ElementPorts)

/-- The collision tests read nothing but the point. -/
theorem touches_congr (hX : b.ballXPos = b'.ballXPos) (hY : b.ballYPos = b'.ballYPos) :
    b.touches e = b'.touches e ∧ b.collides e = b'.collides e := by
  have hBlock : b.blockCollision e = b'.blockCollision e := by
    funext i
    rw [blockCollision, blockCollision, hX, hY]
  have hRect : b.rectCollision e = b'.rectCollision e := by
    funext j
    simp only [rectCollision, hX, hY]
  refine ⟨?_, by rw [collides, collides, hBlock, hRect]⟩
  funext k
  rw [touches, touches, hBlock, hRect]

end Point

section Frame

variable {color : Bool} {mine mine' other other' : Ball}

theorem Alike.hits_eq (h : mine.Alike color mine') (ho : other.Alike (!color) other')
    (reset : Bool) (e : ElementPorts) :
    mine.hits reset e other = mine'.hits reset e other' := by
  rw [hits, hits, ho.collision, (touches_congr e h.x h.y).2]

/-- The register read for a key gives the same offsets. -/
theorem Alike.readVals (h : mine.Alike color mine') (keycode : BitVec 8) :
    (mine.readVals keycode).Alike (mine'.readVals keycode) := by
  unfold Ball.readVals
  rw [← h.nextIndex]
  rcases h.tables with hAll | ⟨hIndex, hStart⟩
  · split_ifs
    exacts [hAll.zeroIndexVal, hAll.upIndexVal, hAll.lastIndexVal, hAll.downIndexVal, hAll.getVals]
  · have hSixty : ∀ c : Bool, startIndex c ≠ 60 := by decide
    rw [hIndex, if_neg (hSixty color), if_neg (hSixty color)]
    split_ifs with hRight hLeft hOne
    · exact hStart.upIndexVal
    · refine hStart.lastIndexVal ?_
      revert hOne
      cases color <;> decide
    · exact hStart.downIndexVal
    · exact hStart.getVals

/-- Once clocked on the circle, the tables agree in all five registers. -/
theorem Alike.posedgeClk (h : mine.Alike color mine') :
    (mine.tables.posedgeClk mine.nextIndex).Alike (mine'.tables.posedgeClk mine'.nextIndex) := by
  have hRows : ∀ i : Fin 64, OnCircle (BitVec.ofFin i) →
      (sinCosRow (BitVec.ofFin i)).isSome ∧ (sinCosRow (BitVec.ofFin i + 1)).isSome := by decide
  obtain ⟨hRow, hRowUp⟩ := hRows mine.nextIndex.toFin h.bounds.index
  have hClocked {index : BitVec 6} (hSome : (sinCosRow index).isSome) (r r' : SinCos) :
      (r.posedgeClk index).Alike (r'.posedgeClk index) := by
    obtain ⟨row, hRow⟩ := Option.isSome_iff_exists.mp hSome
    rw [SinCos.posedgeClk, SinCos.posedgeClk, hRow]
    exact SinCos.Alike.refl row
  have hDown : mine.tables.downIndexVal.Alike mine'.tables.downIndexVal := by
    rcases h.tables with hAll | ⟨-, hStart⟩
    · exact hAll.downIndexVal
    · exact hStart.downIndexVal
  have hRowZero : (sinCosRow 1).isSome := by decide
  have hRowLast : (sinCosRow 60).isSome := by decide
  rw [← h.nextIndex]
  refine ⟨hClocked hRow _ _, hClocked hRowUp _ _, ?_,
    hClocked hRowZero mine.tables.zeroIndexVal mine'.tables.zeroIndexVal,
    hClocked hRowLast mine.tables.lastIndexVal mine'.tables.lastIndexVal⟩
  change ((mine.tables.downIndexVal).posedgeClk _).Alike ((mine'.tables.downIndexVal).posedgeClk _)
  cases hLower : sinCosRow (mine.nextIndex - 1) with
  | none => rw [SinCos.posedgeClk, SinCos.posedgeClk, hLower]; exact hDown
  | some row => exact hClocked (by rw [hLower]; rfl) _ _

/-- Balls that turn come to the same point. -/
theorem Alike.rotateBranch_point (h : mine.Alike color mine') (keycode : BitVec 8) :
    (mine.rotateBranch keycode mine.nextIndex).ballXPos =
        (mine'.rotateBranch keycode mine'.nextIndex).ballXPos ∧
      (mine.rotateBranch keycode mine.nextIndex).ballYPos =
        (mine'.rotateBranch keycode mine'.nextIndex).ballYPos := by
  obtain ⟨hSine, hCosine⟩ := h.readVals keycode
  obtain ⟨hX, hY⟩ := rotateBranch_toNat h.bounds.index h.bounds.tables keycode
  obtain ⟨hX', hY'⟩ := rotateBranch_toNat h.bounds'.index h.bounds'.tables keycode
  have hPlusX : mine.plusX keycode = mine'.plusX keycode := by
    rw [plusX, plusX, h.nextIndex, h.x]
  have hPlusY : mine.plusY keycode = mine'.plusY keycode := by
    rw [plusY, plusY, h.nextIndex, h.y]
  constructor
  · apply BitVec.eq_of_toNat_eq
    rw [hX, hX', hPlusX, hCosine]
  · apply BitVec.eq_of_toNat_eq
    rw [hY, hY', hPlusY, hSine]

/-- Where two balls at one point and index turn to one point, they have read the
same offsets. -/
theorem alike_of_rotateBranch {b b' : Ball} (hBounds : b.InBounds) (hBounds' : b'.InBounds)
    (hIndex : b.nextIndex = b'.nextIndex) (hX : b.ballXPos = b'.ballXPos)
    (hY : b.ballYPos = b'.ballYPos) (keycode : BitVec 8)
    (hNewX : (b.rotateBranch keycode b.nextIndex).ballXPos =
      (b'.rotateBranch keycode b'.nextIndex).ballXPos)
    (hNewY : (b.rotateBranch keycode b.nextIndex).ballYPos =
      (b'.rotateBranch keycode b'.nextIndex).ballYPos) :
    (b.readVals keycode).Alike (b'.readVals keycode) := by
  obtain ⟨hPointX, hPointY⟩ := rotateBranch_toNat hBounds.index hBounds.tables keycode
  obtain ⟨hPointX', hPointY'⟩ := rotateBranch_toNat hBounds'.index hBounds'.tables keycode
  obtain ⟨hSine, hCosine⟩ := readVals_inRange hBounds.tables keycode
  obtain ⟨hSine', hCosine'⟩ := readVals_inRange hBounds'.tables keycode
  have hs := offset_le hSine
  have hc := offset_le hCosine
  have hs' := offset_le hSine'
  have hc' := offset_le hCosine'
  have hPlusX : b.plusX keycode = b'.plusX keycode := by rw [plusX, plusX, hIndex, hX]
  have hPlusY : b.plusY keycode = b'.plusY keycode := by rw [plusY, plusY, hIndex, hY]
  rw [hNewX, hPointX', hPlusX] at hPointX
  rw [hNewY, hPointY', hPlusY] at hPointY
  unfold displaced at hPointX hPointY
  constructor
  · split_ifs at hPointY <;> omega
  · split_ifs at hPointX <;> omega

/-- The number named by a ball that hits does not depend on an older one. -/
theorem Alike.sampled_blockHit (h : mine.Alike color mine') (ho : other.Alike (!color) other')
    {reset : Bool} {keycode : BitVec 8} {e : ElementPorts} (hHit : mine.hits reset e other = true) :
    (mine.sampled color reset keycode e other).blockHit =
      (mine'.sampled color reset keycode e other').blockHit := by
  have hHit' : mine'.hits reset e other' = true := by rw [← h.hits_eq ho, hHit]
  have hTouch : mine.collides e = true := by
    simp only [hits, Bool.and_eq_true] at hHit
    exact hHit.2
  obtain ⟨k, hLast⟩ := exists_lastTouched _ _ hTouch
  have hLast' : mine'.lastTouched e = some k := by
    rw [lastTouched, ← (touches_congr e h.x h.y).1]
    exact hLast
  rw [Ball.sampled_blockHit _ _ _ _ hHit hLast, Ball.sampled_blockHit _ _ _ _ hHit' hLast']

theorem Alike.sampled_paint (h : mine.Alike color mine') (ho : other.Alike (!color) other')
    (reset : Bool) (keycode : BitVec 8) (e : ElementPorts) :
    (mine.sampled color reset keycode e other).paint =
      (mine'.sampled color reset keycode e other').paint := by
  have hHits := h.hits_eq ho reset e
  cases hHit : mine.hits reset e other with
  | true =>
      rw [sampled_of_hits _ _ _ _ _ _ hHit, sampled_of_hits _ _ _ _ _ _ (hHits ▸ hHit)]
      funext k
      change (mine.paintLoops e).1 k = (mine'.paintLoops e).1 k
      rw [paintLoops_paint, paintLoops_paint, h.paint, (touches_congr e h.x h.y).1]
  | false =>
      cases hAsync : (reset || other.collision) with
      | true =>
          rw [sampled_of_reset _ _ _ _ _ _ hAsync,
            sampled_of_reset _ _ _ _ _ _ (ho.collision ▸ hAsync)]
          change clearPaint other.blockHit (if reset then _ else mine.paint) =
            clearPaint other'.blockHit (if reset then _ else mine'.paint)
          cases hReset : reset with
          | true =>
              rw [if_pos rfl, if_pos rfl, clearPaint_of_clear fun _ _ => rfl,
                clearPaint_of_clear fun _ _ => rfl]
          | false =>
              rw [hReset, Bool.false_or] at hAsync
              rw [h.paint, ho.blockHit hAsync]
      | false =>
          obtain ⟨hReset, hOther⟩ := Bool.or_eq_false_iff.mp hAsync
          have hFree : mine.collides e = false := by simpa [hits, hReset, hOther] using hHit
          rw [sampled_of_free _ _ _ _ _ _ hAsync hFree,
            sampled_of_free _ _ _ _ _ _ (ho.collision ▸ hAsync)
              ((touches_congr e h.x h.y).2 ▸ hFree)]
          change (mine.rotateBranch _ _).paint = (mine'.rotateBranch _ _).paint
          rw [rotateBranch_paint, rotateBranch_paint, h.paint]

theorem Alike.respawns_eq (h : mine.Alike color mine') (ho : other.Alike (!color) other')
    (reset : Bool) (e : ElementPorts) :
    mine.respawns reset e other = mine'.respawns reset e other' := by
  have hc : mine.Alike (!!color) mine' := by rw [Bool.not_not]; exact h
  rw [respawns, respawns, h.hits_eq ho reset e, ho.hits_eq hc reset e, ho.collision]

/-- Both are put back to the start point, or both are turned to one point. -/
theorem Alike.frame_point (h : mine.Alike color mine') (ho : other.Alike (!color) other')
    (reset : Bool) (keycode : BitVec 8) (e : ElementPorts) :
    (mine.frame color reset keycode e other).ballXPos =
        (mine'.frame color reset keycode e other').ballXPos ∧
      (mine.frame color reset keycode e other).ballYPos =
        (mine'.frame color reset keycode e other').ballYPos := by
  have hRespawns := h.respawns_eq ho reset e
  cases hBack : mine.respawns reset e other with
  | true =>
      obtain ⟨-, hX, hY⟩ := frame_of_respawns color reset keycode e mine other hBack
      obtain ⟨-, hX', hY'⟩ :=
        frame_of_respawns color reset keycode e mine' other' (hRespawns ▸ hBack)
      exact ⟨hX.trans hX'.symm, hY.trans hY'.symm⟩
  | false =>
      rw [frame_of_turns color reset keycode e mine other hBack,
        frame_of_turns color reset keycode e mine' other' (hRespawns ▸ hBack)]
      exact h.rotateBranch_point keycode

/-- Both paints are marked at their own hits and cleared at the other ball's. -/
theorem Alike.frame_paint (h : mine.Alike color mine') (ho : other.Alike (!color) other')
    (reset : Bool) (keycode : BitVec 8) (e : ElementPorts) :
    (mine.frame color reset keycode e other).paint =
      (mine'.frame color reset keycode e other').paint := by
  have hc : mine.Alike (!!color) mine' := by rw [Bool.not_not]; exact h
  have hOther := ho.hits_eq hc reset e
  cases hWoken : (other.hits reset e mine && !other.collision) with
  | false =>
      rw [frame_of_not_woken _ _ _ _ _ _ hWoken,
        frame_of_not_woken _ _ _ _ _ _ (by rw [← hOther, ← ho.collision]; exact hWoken)]
      exact h.sampled_paint ho reset keycode e
  | true =>
      obtain ⟨hHit, hLow⟩ : other.hits reset e mine = true ∧ other.collision = false := by
        simpa using hWoken
      rw [frame_of_woken _ _ _ _ _ _ hHit hLow,
        frame_of_woken _ _ _ _ _ _ (hOther ▸ hHit) (ho.collision ▸ hLow), resetBranch_paint,
        resetBranch_paint]
      simp only [framePorts]
      rw [ho.sampled_blockHit hc hHit, h.sampled_paint ho reset keycode e]
      rfl

/-- Alike pairs stay alike at every frame edge. -/
theorem Alike.frame (h : mine.Alike color mine') (ho : other.Alike (!color) other')
    (reset : Bool) (keycode : BitVec 8) (e : ElementPorts) :
    (mine.frame color reset keycode e other).Alike color
      (mine'.frame color reset keycode e other') := by
  have hc : mine.Alike (!!color) mine' := by rw [Bool.not_not]; exact h
  have hMine := h.hits_eq ho reset e
  have hOther := ho.hits_eq hc reset e
  obtain ⟨hX, hY⟩ := h.frame_point ho reset keycode e
  refine ⟨hX, hY, h.frame_paint ho reset keycode e, ?_, ?_, fun hHigh => ?_, Or.inl ?_,
    h.bounds.frame color reset keycode e other, h.bounds'.frame color reset keycode e other'⟩
  · rw [frame_collision, frame_collision, hMine, hOther]
  · rw [frame_nextIndex, frame_nextIndex, h.respawns_eq ho reset e, h.nextIndex]
  · -- a ball whose `Collision` is high has hit at this very edge
    rw [frame_collision, Bool.and_eq_true, Bool.not_eq_true'] at hHigh
    obtain ⟨hHit, hMiss⟩ := hHigh
    rw [frame_of_not_woken _ _ _ _ _ _ (by rw [hMiss]; rfl),
      frame_of_not_woken _ _ _ _ _ _ (by rw [← hOther, hMiss]; rfl)]
    exact h.sampled_blockHit ho hHit
  · rw [frame_tables, frame_tables]
    exact h.posedgeClk

/-- `Reset` leaves no paint, whatever entry is cleared once more. -/
theorem resetBranch_paint_of_reset {b : Ball} {p : BallPorts} (h : p.reset = true) :
    (b.resetBranch color p).paint = fun _ => false := by
  rw [resetBranch_paint, if_pos h]
  exact clearPaint_of_clear fun _ _ => rfl

/-- `Reset` puts two balls at the start point and leaves their tables. -/
theorem alike_resetBranch {b b' : Ball} {p p' : BallPorts} (hBounds : b.InBounds)
    (hBounds' : b'.InBounds) (hTables : b.tables.AlikeAtStart color b'.tables)
    (hReset : p.reset = true) (hReset' : p'.reset = true) :
    (b.resetBranch color p).Alike color (b'.resetBranch color p') :=
  ⟨rfl, rfl, by rw [resetBranch_paint_of_reset hReset, resetBranch_paint_of_reset hReset'],
    rfl, rfl, (nomatch ·), Or.inr ⟨rfl, hTables⟩,
    inBounds_of_start color hBounds.tables rfl rfl rfl,
    inBounds_of_start color hBounds'.tables rfl rfl rfl⟩

theorem Alike.tables_atStart (h : mine.Alike color mine') :
    mine.tables.AlikeAtStart color mine'.tables := by
  rcases h.tables with hAll | ⟨-, hStart⟩
  · exact hAll.atStart color
  · exact hStart

end Frame

end Ball

namespace Balls

/-- Both balls of the pair are alike. -/
structure Alike (s s' : Balls) : Prop where
  blue : s.blue.Alike false s'.blue
  red : s.red.Alike true s'.red

theorem Alike.posedgeFrameClk {s s' : Balls} (h : s.Alike s') (reset : Bool)
    (keycode : BitVec 8) (e : ElementPorts) :
    (s.posedgeFrameClk reset keycode e).Alike (s'.posedgeFrameClk reset keycode e) :=
  ⟨h.blue.frame h.red reset keycode e, h.red.frame h.blue reset keycode e⟩

theorem Alike.posedgeReset {s s' : Balls} (h : s.Alike s') (keycode : BitVec 8)
    (e e' : ElementPorts) : (s.posedgeReset keycode e).Alike (s'.posedgeReset keycode e') := by
  rw [posedgeReset_eq, posedgeReset_eq]
  exact ⟨Ball.alike_resetBranch h.blue.bounds h.blue.bounds' h.blue.tables_atStart rfl rfl,
    Ball.alike_resetBranch h.red.bounds h.red.bounds' h.red.tables_atStart rfl rfl⟩

theorem Alike.rises_eq {s s' : Balls} (h : s.Alike s') (reset : Bool) (keycode : BitVec 8)
    (e : ElementPorts) : s.rises reset keycode e = s'.rises reset keycode e := by
  rw [Balls.rises_eq, Balls.rises_eq, h.blue.hits_eq h.red reset e, h.red.hits_eq h.blue reset e,
    h.blue.collision, h.red.collision]

end Balls

end TwoBallGame
