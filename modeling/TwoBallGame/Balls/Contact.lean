import TwoBallGame.Design.FinalProject
import TwoBallGame.Lattice.Disc

/-! The collision test of one ball against one element, read as geometry: some
extreme point of the ball is in the box of the element. -/
namespace TwoBallGame

open Lattice

namespace Element

/-- The columns of an element, both edges included. -/
def columns (e : ElementPorts) : Element → Span
  | .block i => .ofLength (e.blockX i).toNat (e.blockS i).toNat
  | .rect j => .ofLength (e.rectX j).toNat (e.rectS j).toNat

/-- The rows of an element. A rect is a quarter as high as it is wide. -/
def rows (e : ElementPorts) : Element → Span
  | .block i => .ofLength (e.blockY i).toNat (e.blockS i).toNat
  | .rect j => .ofLength (e.rectY j).toNat ((e.rectS j).toNat / 4)

end Element

/-- The collision test of one element. -/
def Ball.meets (b : Ball) (e : ElementPorts) : Element → Bool
  | .block i => b.blockCollision e i
  | .rect j => b.rectCollision e j

/-- The height of a rect, computed in 32 bits. -/
theorem toNat_quarter (len : BitVec 10) : (len.setWidth 32 / 4).toNat = len.toNat / 4 := by
  have hLen := len.isLt
  rw [BitVec.toNat_udiv, BitVec.toNat_setWidth, Nat.mod_eq_of_lt (by omega)]
  rfl

/-- The far line of a rect never wraps, for it is computed in 32 bits. -/
theorem toNat_add_quarter (lo len : BitVec 10) :
    (lo.setWidth 32 + len.setWidth 32 / 4).toNat = lo.toNat + len.toNat / 4 := by
  have hLo := lo.isLt
  have hLen := len.isLt
  rw [BitVec.toNat_add, toNat_quarter, BitVec.toNat_setWidth]
  omega

section Extremes

variable {p : BitVec 10}

theorem toNat_sub_ballSize (h : 4 ≤ p.toNat) : (p - ballSize).toNat = p.toNat - 4 := by
  have hLt := p.isLt
  rw [BitVec.toNat_sub, show ballSize.toNat = 4 from rfl]
  omega

theorem toNat_add_ballSize (h : p.toNat ≤ 1019) : (p + ballSize).toNat = p.toNat + 4 := by
  rw [BitVec.toNat_add, show ballSize.toNat = 4 from rfl]
  omega

theorem toNat_sub_ballSize_wide (h : 4 ≤ p.toNat) :
    (p.setWidth 32 - ballSize.setWidth 32).toNat = p.toNat - 4 := by
  have hLt := p.isLt
  simp only [BitVec.toNat_sub, BitVec.toNat_setWidth, show ballSize.toNat = 4 from rfl]
  omega

theorem toNat_add_ballSize_wide (p : BitVec 10) :
    (p.setWidth 32 + ballSize.setWidth 32).toNat = p.toNat + 4 := by
  have hLt := p.isLt
  simp only [BitVec.toNat_add, BitVec.toNat_setWidth, show ballSize.toNat = 4 from rfl]
  omega

end Extremes

namespace Ball

theorem inSpan_bounds {p lo len : BitVec 10} (h : inSpan p lo len = true) :
    lo.toNat ≤ p.toNat ∧ p.toNat ≤ lo.toNat + len.toNat := by
  simp only [inSpan, Bool.and_eq_true, decide_eq_true_eq, BitVec.le_def, BitVec.toNat_add] at h
  have hMod := Nat.mod_le (lo.toNat + len.toNat) (2 ^ 10)
  omega

theorem inRectSpan_bounds {p lo len : BitVec 10} {p' : BitVec 32}
    (h : inRectSpan p p' lo len = true) :
    lo.toNat ≤ p.toNat ∧ p'.toNat ≤ lo.toNat + len.toNat / 4 := by
  simpa only [inRectSpan, Bool.and_eq_true, decide_eq_true_eq, BitVec.le_def,
    toNat_add_quarter] using h

/-- Without a wrap of the far edge the test is that of a closed interval. -/
theorem inSpan_iff {p lo len : BitVec 10} (hFar : lo.toNat + len.toNat ≤ 1023) :
    inSpan p lo len = true ↔ (Span.ofLength lo.toNat len.toNat).Contains p.toNat := by
  have hMod : (lo.toNat + len.toNat) % 2 ^ 10 = lo.toNat + len.toNat :=
    Nat.mod_eq_of_lt (by omega)
  simp only [inSpan, Bool.and_eq_true, decide_eq_true_eq, BitVec.le_def, BitVec.toNat_add, hMod,
    Span.Contains, Span.ofLength]
  omega

theorem inRectSpan_iff {p lo len : BitVec 10} {p' : BitVec 32} (hSame : p'.toNat = p.toNat) :
    inRectSpan p p' lo len = true ↔
      (Span.ofLength lo.toNat (len.toNat / 4)).Contains p.toNat := by
  simp only [inRectSpan, Bool.and_eq_true, decide_eq_true_eq, BitVec.le_def, toNat_add_quarter,
    hSame, Span.Contains, Span.ofLength]
  omega

theorem collides_iff (b : Ball) (e : ElementPorts) :
    b.collides e = true ↔ ∃ x, b.meets e x = true := by
  simp only [collides, Bool.or_eq_true, List.any_eq_true]
  constructor
  · rintro (⟨i, -, hi⟩ | ⟨j, -, hj⟩)
    · exact ⟨.block i, hi⟩
    · exact ⟨.rect j, hj⟩
  · rintro ⟨x, hx⟩
    cases x with
    | block i => exact Or.inl ⟨i, List.mem_finRange i, hx⟩
    | rect j => exact Or.inr ⟨j, List.mem_finRange j, hx⟩

/-- The four comparisons of the source are the four extreme points of the ball. -/
theorem meets_iff_touchesExtreme {b : Ball} {e : ElementPorts} {x : Element}
    (hLeft : 4 ≤ b.ballXPos.toNat) (hRight : b.ballXPos.toNat ≤ 1019)
    (hTop : 4 ≤ b.ballYPos.toNat) (hBottom : b.ballYPos.toNat ≤ 1019)
    (hColumns : (x.columns e).hi ≤ 1023) (hRows : (x.rows e).hi ≤ 1023) :
    b.meets e x = true ↔
      TouchesExtreme 4 b.ballXPos.toNat b.ballYPos.toNat (x.columns e) (x.rows e) := by
  have hLess (p : BitVec 10) (hp : 4 ≤ p.toNat) :
      ((p - ballSize).toNat : ℤ) = (p.toNat : ℤ) - 4 := by
    rw [toNat_sub_ballSize hp]
    omega
  have hMore (p : BitVec 10) (hp : p.toNat ≤ 1019) :
      ((p + ballSize).toNat : ℤ) = (p.toNat : ℤ) + 4 := by
    rw [toNat_add_ballSize hp]
    omega
  cases x with
  | block i =>
      have hX : (e.blockX i).toNat + (e.blockS i).toNat ≤ 1023 := by
        have hHi : (((e.blockX i).toNat : ℤ) + ((e.blockS i).toNat : ℤ)) ≤ 1023 := hColumns
        omega
      have hY : (e.blockY i).toNat + (e.blockS i).toNat ≤ 1023 := by
        have hHi : (((e.blockY i).toNat : ℤ) + ((e.blockS i).toNat : ℤ)) ≤ 1023 := hRows
        omega
      change b.blockCollision e i = true ↔ _
      simp only [blockCollision, Bool.or_eq_true, Bool.and_eq_true, inSpan_iff hX, inSpan_iff hY,
        hLess _ hLeft, hLess _ hTop, hMore _ hRight, hMore _ hBottom, or_assoc]
      exact Iff.rfl
  | rect j =>
      have hX : (e.rectX j).toNat + (e.rectS j).toNat ≤ 1023 := by
        have hHi : (((e.rectX j).toNat : ℤ) + ((e.rectS j).toNat : ℤ)) ≤ 1023 := hColumns
        omega
      have hLine : (b.ballYPos.setWidth 32).toNat = b.ballYPos.toNat := by
        rw [BitVec.toNat_setWidth]
        omega
      have hAbove : (b.ballYPos.setWidth 32 - ballSize.setWidth 32).toNat =
          (b.ballYPos - ballSize).toNat := by
        rw [toNat_sub_ballSize_wide hTop, toNat_sub_ballSize hTop]
      have hBelow : (b.ballYPos.setWidth 32 + ballSize.setWidth 32).toNat =
          (b.ballYPos + ballSize).toNat := by
        rw [toNat_add_ballSize_wide, toNat_add_ballSize hBottom]
      change b.rectCollision e j = true ↔ _
      simp only [rectCollision, Bool.or_eq_true, Bool.and_eq_true, inSpan_iff hX,
        inRectSpan_iff hLine, inRectSpan_iff hAbove, inRectSpan_iff hBelow,
        hLess _ hLeft, hLess _ hTop, hMore _ hRight, hMore _ hBottom, or_assoc]
      exact Iff.rfl

end Ball

end TwoBallGame
