import TwoBallGame.Balls.Contact
import TwoBallGame.Display.Colour

/-! What is seen to overlap against what collides. Both are geometry on the
pixels: the display draws a disc and a box, and the ball tests the four extreme
points of that disc. -/
namespace TwoBallGame

open Lattice

namespace ColorMapper

variable (m : ColorMapper)

/-- The mapper at another pixel. -/
def pixel (drawX drawY : BitVec 10) : ColorMapper := { m with drawX, drawY }

/-- The `on` signal of an element. -/
def elementOn : Element → Bool
  | .block i => m.blockOn i
  | .rect j => m.rectOn j

/-- Ball `k` of the mapper is drawn where `b` is. -/
structure Shows (k : Fin 2) (b : Ball) : Prop where
  x : m.ballX k = b.ballXPos
  y : m.ballY k = b.ballYPos
  size : m.ballS k = ballSize

/-- Some pixel has the `on` signals of the ball and of the element both set. -/
def Overlap (k : Fin 2) (x : Element) : Prop :=
  ∃ drawX drawY, (m.pixel drawX drawY).ballOn k = true ∧
    (m.pixel drawX drawY).elementOn x = true

/-- The unsigned comparison of a signed distance rules out what lies before. -/
theorem dist_le_iff {p q : BitVec 10} {s : BitVec 32} (hs : s.toNat < 1024) :
    dist p q ≤ s ↔ q.toNat ≤ p.toNat ∧ p.toNat ≤ q.toNat + s.toNat := by
  have hp := p.isLt
  have hq := q.isLt
  have hDist : (dist p q).toNat = (2 ^ 32 - q.toNat + p.toNat) % 2 ^ 32 := by
    rw [dist, BitVec.toNat_sub, BitVec.toNat_setWidth, BitVec.toNat_setWidth,
      Nat.mod_eq_of_lt (show q.toNat < 2 ^ 32 by omega),
      Nat.mod_eq_of_lt (show p.toNat < 2 ^ 32 by omega)]
  rw [BitVec.le_def, hDist]
  omega

theorem elementOn_iff (x : Element) :
    m.elementOn x = true ↔ (x.columns m.elements).Contains m.drawX.toNat ∧
      (x.rows m.elements).Contains m.drawY.toNat := by
  have hWide (len : BitVec 10) : (len.setWidth 32).toNat = len.toNat := by
    rw [BitVec.toNat_setWidth]
    omega
  cases x with
  | block i =>
      have hS := (m.elements.blockS i).isLt
      change m.blockOn i = true ↔ _
      simp only [blockOn, Bool.and_eq_true, decide_eq_true_eq]
      rw [dist_le_iff (by rw [hWide]; exact hS), dist_le_iff (by rw [hWide]; exact hS), hWide]
      simp only [Element.columns, Element.rows, Span.Contains, Span.ofLength]
      omega
  | rect j =>
      have hS := (m.elements.rectS j).isLt
      change m.rectOn j = true ↔ _
      simp only [rectOn, Bool.and_eq_true, decide_eq_true_eq]
      rw [dist_le_iff (by rw [hWide]; exact hS), dist_le_iff (by rw [toNat_quarter]; omega),
        hWide, toNat_quarter]
      simp only [Element.columns, Element.rows, Span.Contains, Span.ofLength]
      omega

theorem toInt_dist (p q : BitVec 10) : (dist p q).toInt = (p.toNat : ℤ) - q.toNat := by
  have hp := p.isLt
  have hq := q.isLt
  rw [dist, BitVec.toInt_sub, BitVec.toInt_setWidth, BitVec.toInt_setWidth]
  simp only [Int.bmod_def]
  omega

/-- The disc of a ball of size four, in integers. -/
theorem ballOn_iff {k : Fin 2} (hSize : m.ballS k = ballSize) :
    m.ballOn k = true ↔ ((m.drawX.toNat : ℤ) - (m.ballX k).toNat) ^ 2 +
      ((m.drawY.toNat : ℤ) - (m.ballY k).toNat) ^ 2 ≤ 4 ^ 2 := by
  have hSquare (p q : BitVec 10) :
      (dist p q * dist p q).toInt = ((p.toNat : ℤ) - q.toNat) ^ 2 ∧
        ((p.toNat : ℤ) - q.toNat) ^ 2 ≤ 1023 ^ 2 := by
    have hp := p.isLt
    have hq := q.isLt
    have hBound : ((p.toNat : ℤ) - q.toNat) ^ 2 ≤ 1023 ^ 2 := sq_le_sq' (by omega) (by omega)
    have hPos := sq_nonneg ((p.toNat : ℤ) - q.toNat)
    refine ⟨?_, hBound⟩
    rw [BitVec.toInt_mul, toInt_dist, ← sq]
    simp only [Int.bmod_def]
    omega
  obtain ⟨hX, hXBound⟩ := hSquare m.drawX (m.ballX k)
  obtain ⟨hY, hYBound⟩ := hSquare m.drawY (m.ballY k)
  have hXPos := sq_nonneg ((m.drawX.toNat : ℤ) - (m.ballX k).toNat)
  have hYPos := sq_nonneg ((m.drawY.toNat : ℤ) - (m.ballY k).toNat)
  have hReach : (ballSize.setWidth 32 * ballSize.setWidth 32).toInt = 16 := by decide
  simp only [ballOn, BitVec.sle, decide_eq_true_eq, hSize]
  rw [BitVec.toInt_add, hX, hY, hReach]
  simp only [Int.bmod_def]
  omega

/-- The screen shows an overlap exactly when the disc meets the box. -/
theorem overlap_iff {k : Fin 2} {b : Ball} (hBall : m.Shows k b) {x : Element}
    (hColumns : (x.columns m.elements).hi ≤ 1023) (hRows : (x.rows m.elements).hi ≤ 1023) :
    m.Overlap k x ↔ Meets 4 b.ballXPos.toNat b.ballYPos.toNat (x.columns m.elements)
      (x.rows m.elements) := by
  have hOn (drawX drawY : BitVec 10) := (m.pixel drawX drawY).ballOn_iff (k := k) hBall.size
  have hElement (drawX drawY : BitVec 10) := (m.pixel drawX drawY).elementOn_iff x
  constructor
  · rintro ⟨drawX, drawY, hDisc, hBox⟩
    obtain ⟨hColumn, hRow⟩ := (hElement drawX drawY).mp hBox
    have hNear := (hOn drawX drawY).mp hDisc
    rw [pixel, hBall.x, hBall.y] at hNear
    exact ⟨_, _, hColumn, hRow, hNear⟩
  · rintro ⟨px, py, hColumn, hRow, hNear⟩
    have hLow : 0 ≤ (x.columns m.elements).lo ∧ 0 ≤ (x.rows m.elements).lo := by
      cases x <;> exact ⟨Int.natCast_nonneg _, Int.natCast_nonneg _⟩
    have hPx : ((BitVec.ofNat 10 px.toNat).toNat : ℤ) = px := by
      obtain ⟨hFrom, hTo⟩ := hColumn
      rw [BitVec.toNat_ofNat]
      omega
    have hPy : ((BitVec.ofNat 10 py.toNat).toNat : ℤ) = py := by
      obtain ⟨hFrom, hTo⟩ := hRow
      rw [BitVec.toNat_ofNat]
      omega
    refine ⟨BitVec.ofNat 10 px.toNat, BitVec.ofNat 10 py.toNat, ?_, ?_⟩
    · rw [hOn, pixel, hBall.x, hBall.y, hPx, hPy]
      exact hNear
    · rw [hElement, pixel, hPx, hPy]
      exact ⟨hColumn, hRow⟩

end ColorMapper

/-- A ball collides with an element exactly when a pixel shows both and the
element faces the ball: it crosses the row of the centre without lying between
the left and the right point, or the column without lying between the other two. -/
theorem Ball.meets_iff_overlap {m : ColorMapper} {k : Fin 2} {b : Ball} {x : Element}
    (hBall : m.Shows k b) (hLeft : 4 ≤ b.ballXPos.toNat) (hRight : b.ballXPos.toNat ≤ 1019)
    (hTop : 4 ≤ b.ballYPos.toNat) (hBottom : b.ballYPos.toNat ≤ 1019)
    (hColumns : (x.columns m.elements).hi ≤ 1023) (hRows : (x.rows m.elements).hi ≤ 1023) :
    b.meets m.elements x = true ↔ m.Overlap k x ∧
      Faces 4 b.ballXPos.toNat b.ballYPos.toNat (x.columns m.elements) (x.rows m.elements) := by
  rw [Ball.meets_iff_touchesExtreme hLeft hRight hTop hBottom hColumns hRows,
    touchesExtreme_iff (by decide), m.overlap_iff hBall hColumns hRows]

/-- One ball and elements with their sizes, as seen at the first pixel. -/
def ballScreen (b : Ball) (e : ElementPorts) : ColorMapper :=
  { ballX := fun _ => b.ballXPos, ballY := fun _ => b.ballYPos, ballS := fun _ => ballSize
    elements := e, drawX := 0, drawY := 0
    blockReady := fun _ => true, rectReady := fun _ => true
    levelOne := false, levelTwo := false, title := false, win := false, pstart := false
    levelFinal := false, hidden := false
    bluePaint := b.paint, orangePaint := b.paint }

/-- A ball at the circle point of index 13. -/
def ballAtThirteen : Ball := { Ball.zero with ballXPos := 338, ballYPos := 447 }

/-- `block4` beside the ball, three rows above its lowest point. -/
theorem meets_iff_overlap_beside :
    ballAtThirteen.meets (wiredPorts fun _ => 430) (.block 3) = true ↔
      (ballScreen ballAtThirteen (wiredPorts fun _ => 430)).Overlap 0 (.block 3) ∧
        Faces 4 338 447 (Element.columns (wiredPorts fun _ => 430) (.block 3))
          (Element.rows (wiredPorts fun _ => 430) (.block 3)) :=
  Ball.meets_iff_overlap (m := ballScreen ballAtThirteen (wiredPorts fun _ => 430))
    (b := ballAtThirteen) (x := .block 3) ⟨rfl, rfl, rfl⟩ (by decide) (by decide) (by decide)
    (by decide) (by decide) (by decide)

/-- The lower left corner of `block4` is two columns and two rows inside the
disc of the ball, and no extreme point of the ball is in the block. -/
theorem corner_overlap_not_met :
    ¬∀ (m : ColorMapper) (k : Fin 2) (b : Ball) (x : Element), m.Shows k b →
      4 ≤ b.ballXPos.toNat → b.ballXPos.toNat ≤ 1019 → 4 ≤ b.ballYPos.toNat →
      b.ballYPos.toNat ≤ 1019 → (x.columns m.elements).hi ≤ 1023 →
      (x.rows m.elements).hi ≤ 1023 → (b.meets m.elements x = true ↔ m.Overlap k x) := by
  intro hAll
  have hCorner := hAll (ballScreen ballAtThirteen (wiredPorts fun _ => 425)) 0 ballAtThirteen
    (.block 3) ⟨rfl, rfl, rfl⟩ (by decide) (by decide) (by decide) (by decide) (by decide)
    (by decide)
  have hMet := hCorner.mpr ⟨340, 445, by decide, by decide⟩
  revert hMet
  decide

theorem forty_le_rectS (j : Fin 12) : 40 ≤ (rectS j).toNat := by
  revert j
  decide

/-- The elements of the design are wide enough to face a ball from any side, so
only contacts at a corner go unnoticed there. -/
theorem Ball.meets_wired_iff {m : ColorMapper} {k : Fin 2} {b : Ball} {x : Element}
    {y : Fin 30 → BitVec 10} (hPorts : m.elements = wiredPorts y) (hBall : m.Shows k b)
    (hLeft : 4 ≤ b.ballXPos.toNat) (hRight : b.ballXPos.toNat ≤ 1019)
    (hTop : 4 ≤ b.ballYPos.toNat) (hBottom : b.ballYPos.toNat ≤ 1019)
    (hColumns : (x.columns m.elements).hi ≤ 1023) (hRows : (x.rows m.elements).hi ≤ 1023) :
    b.meets m.elements x = true ↔ m.Overlap k x ∧
      ((x.rows m.elements).Contains b.ballYPos.toNat ∨
        (x.columns m.elements).Contains b.ballXPos.toNat) := by
  have hSize : (x.columns m.elements).lo + 2 * 4 ≤ (x.columns m.elements).hi + 1 ∧
      (x.rows m.elements).lo + 2 * 4 ≤ (x.rows m.elements).hi + 1 := by
    rw [hPorts]
    cases x with
    | block i =>
        have hTwenty : (((wiredPorts y).blockS i).toNat : ℤ) = 20 := rfl
        simp only [Element.columns, Element.rows, Span.ofLength, hTwenty]
        omega
    | rect j =>
        have hForty : 40 ≤ ((wiredPorts y).rectS j).toNat := forty_le_rectS j
        simp only [Element.columns, Element.rows, Span.ofLength]
        omega
  rw [Ball.meets_iff_touchesExtreme hLeft hRight hTop hBottom hColumns hRows,
    touchesExtreme_iff (by decide), m.overlap_iff hBall hColumns hRows,
    faces_iff_of_wide hSize.1 hSize.2]

end TwoBallGame
