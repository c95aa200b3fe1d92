import Mathlib

/-! Discs and boxes on the integer lattice. A disc and a box have a common point
just when the nearest point of the box is in the disc; the four extreme points of
the disc tell this except for boxes that are beside it in both directions or so
small that they slip between two extreme points. -/
namespace Lattice

/-- A closed interval of integers, never empty. -/
structure Span where
  lo : ℤ
  hi : ℤ
  le : lo ≤ hi

namespace Span

/-- The span of a given length. -/
def ofLength (lo : ℤ) (len : ℕ) : Span := ⟨lo, lo + len, by omega⟩

variable (s : Span) (r p : ℤ)

def Contains : Prop := s.lo ≤ p ∧ p ≤ s.hi

instance : Decidable (s.Contains p) := inferInstanceAs (Decidable (_ ∧ _))

/-- The point of the span nearest to `p`. -/
def nearest : ℤ := max s.lo (min s.hi p)

/-- The span lies strictly between the two points at distance `r` from `p`. -/
def Between : Prop := p - r < s.lo ∧ s.hi < p + r

instance : Decidable (s.Between r p) := inferInstanceAs (Decidable (_ ∧ _))

theorem contains_nearest : s.Contains (s.nearest p) :=
  ⟨le_max_left _ _, max_le s.le (min_le_left _ _)⟩

variable {s r p}

theorem nearest_of_contains (h : s.Contains p) : s.nearest p = p := by
  rw [nearest, min_eq_right h.2, max_eq_right h.1]

theorem sq_nearest_le {q : ℤ} (h : s.Contains q) : (s.nearest p - p) ^ 2 ≤ (q - p) ^ 2 := by
  obtain ⟨hLow, hHigh⟩ := h
  apply sq_le_sq.mpr
  unfold nearest
  rcases le_total p s.lo with hLeft | hLeft
  · have hNear : max s.lo (min s.hi p) = s.lo := by omega
    rw [hNear, abs_of_nonneg (by omega), abs_of_nonneg (by omega)]
    omega
  · rcases le_total s.hi p with hRight | hRight
    · have hNear : max s.lo (min s.hi p) = s.hi := by omega
      rw [hNear, abs_of_nonpos (by omega), abs_of_nonpos (by omega)]
      omega
    · have hNear : max s.lo (min s.hi p) = p := by omega
      rw [hNear, sub_self, abs_zero]
      exact abs_nonneg _

/-- A span in reach contains one of the two points, unless it is between them. -/
theorem contains_or_iff (hr : 0 ≤ r) :
    (s.Contains (p - r) ∨ s.Contains (p + r)) ↔
      (s.nearest p - p) ^ 2 ≤ r ^ 2 ∧ ¬s.Between r p := by
  have hReach : (s.nearest p - p) ^ 2 ≤ r ^ 2 ↔ s.lo ≤ p + r ∧ p - r ≤ s.hi := by
    have hLe := s.le
    rw [sq_le_sq, abs_of_nonneg hr, abs_le, nearest]
    omega
  rw [hReach]
  unfold Contains Between
  have hLe := s.le
  omega

end Span

variable (r x y : ℤ) (columns rows : Span)

/-- The disc of radius `r` around a point has a point in common with the box. -/
def Meets : Prop :=
  ∃ px py, columns.Contains px ∧ rows.Contains py ∧ (px - x) ^ 2 + (py - y) ^ 2 ≤ r ^ 2

/-- One of the four extreme points of the disc is in the box. -/
def TouchesExtreme : Prop :=
  (columns.Contains (x - r) ∧ rows.Contains y) ∨ (columns.Contains (x + r) ∧ rows.Contains y) ∨
    (columns.Contains x ∧ rows.Contains (y - r)) ∨ (columns.Contains x ∧ rows.Contains (y + r))

/-- The box faces the centre: it crosses the centre's row and is not between the
left and the right point, or the same for columns. -/
def Faces : Prop :=
  (rows.Contains y ∧ ¬columns.Between r x) ∨ (columns.Contains x ∧ ¬rows.Between r y)

instance : Decidable (Faces r x y columns rows) := inferInstanceAs (Decidable (_ ∨ _))

variable {r x y columns rows}

theorem meets_iff :
    Meets r x y columns rows ↔
      (columns.nearest x - x) ^ 2 + (rows.nearest y - y) ^ 2 ≤ r ^ 2 := by
  constructor
  · rintro ⟨px, py, hx, hy, hDisc⟩
    have hColumn := Span.sq_nearest_le (p := x) hx
    have hRow := Span.sq_nearest_le (p := y) hy
    omega
  · intro h
    exact ⟨_, _, columns.contains_nearest x, rows.contains_nearest y, h⟩

/-- What four points can tell about a disc and a box. -/
theorem touchesExtreme_iff (hr : 0 ≤ r) :
    TouchesExtreme r x y columns rows ↔ Meets r x y columns rows ∧ Faces r x y columns rows := by
  have hColumns := Span.contains_or_iff (s := columns) (p := x) hr
  have hRows := Span.contains_or_iff (s := rows) (p := y) hr
  have hSplit : TouchesExtreme r x y columns rows ↔
      ((columns.Contains (x - r) ∨ columns.Contains (x + r)) ∧ rows.Contains y) ∨
        (columns.Contains x ∧ (rows.Contains (y - r) ∨ rows.Contains (y + r))) := by
    rw [TouchesExtreme, or_and_right, and_or_left, or_assoc]
  have hRow : rows.Contains y → (rows.nearest y - y) ^ 2 = 0 := by
    intro h
    rw [Span.nearest_of_contains h, sub_self, zero_pow two_ne_zero]
  have hColumn : columns.Contains x → (columns.nearest x - x) ^ 2 = 0 := by
    intro h
    rw [Span.nearest_of_contains h, sub_self, zero_pow two_ne_zero]
  rw [hSplit, hColumns, hRows, meets_iff]
  constructor
  · rintro (⟨⟨hNear, hBetween⟩, hIn⟩ | ⟨hIn, hNear, hBetween⟩)
    · exact ⟨by rw [hRow hIn]; omega, Or.inl ⟨hIn, hBetween⟩⟩
    · exact ⟨by rw [hColumn hIn]; omega, Or.inr ⟨hIn, hBetween⟩⟩
  · rintro ⟨hNear, ⟨hIn, hBetween⟩ | ⟨hIn, hBetween⟩⟩
    · rw [hRow hIn] at hNear
      exact Or.inl ⟨⟨by omega, hBetween⟩, hIn⟩
    · rw [hColumn hIn] at hNear
      exact Or.inr ⟨hIn, by omega, hBetween⟩

/-- A box as wide and as high as the disc is never between two extreme points. -/
theorem faces_iff_of_wide (hWide : columns.lo + 2 * r ≤ columns.hi + 1)
    (hHigh : rows.lo + 2 * r ≤ rows.hi + 1) :
    Faces r x y columns rows ↔ rows.Contains y ∨ columns.Contains x := by
  have hColumns : ¬columns.Between r x := by
    unfold Span.Between
    omega
  have hRows : ¬rows.Between r y := by
    unfold Span.Between
    omega
  rw [Faces, and_iff_left hColumns, and_iff_left hRows]

end Lattice
