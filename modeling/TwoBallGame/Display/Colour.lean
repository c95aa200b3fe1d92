import TwoBallGame.Balls.Paint

/-! The colour shown for an element against the colour recorded for it. Balls
record a hit on a rect 18 entries up; the display reads 14 entries up. -/
namespace TwoBallGame

open Clocked

namespace Element

/-- The entry of the paint arrays in which the balls record an element. -/
def entry : Element → Fin 30
  | .block i => ⟨i.val, block_lt_elements i⟩
  | .rect j => ⟨j.val + 18, rect_add_lt_elements j⟩

/-- The elements of the last level are hidden at times. -/
def hideable : Element → Bool
  | .block i => decide (14 ≤ i.val) && decide (i.val ≤ 17)
  | .rect j => decide (6 ≤ j.val) && decide (j.val ≤ 11)

/-- Hits on an element are recorded at its entry and at no other. -/
theorem touches_entry (b : Ball) (e : ElementPorts) :
    (∀ i, b.touches e (entry (.block i)) = b.blockCollision e i) ∧
      ∀ j, b.touches e (entry (.rect j)) = b.rectCollision e j := by
  constructor
  · intro i
    simp [Ball.touches, entry, i.isLt]
  · intro j
    simp [Ball.touches, entry]

end Element

namespace ColorMapper

variable (m : ColorMapper)

/-- The current point is inside the element and the element is drawn. -/
def drawn : Element → Bool
  | .block i => m.blockOn i && m.blockReady i
  | .rect j => m.rectOn j && m.rectReady j

/-- The colour in which the display draws an element. -/
def drawnColour : Element → Rgb
  | .block i => m.blockColour i
  | .rect j => m.rectColour j

/-- The colour of an element that neither ball has painted. -/
def plainColour (x : Element) : Rgb :=
  if x.hideable && m.hidden then .background m.drawX else .magenta

/-- The colour recorded at one entry; blue comes before orange. -/
def recorded (entry : Fin 30) : Option Rgb :=
  if m.bluePaint entry then some .blueBall
  else if m.orangePaint entry then some .orangeBall
  else none

/-- The current point is inside `x` and nothing else covers it. -/
structure Only (x : Element) : Prop where
  drawn : m.drawn x = true
  alone : ∀ y, m.drawn y = true → y = x
  noBall : ∀ i, m.ballOn i = false
  noText : m.textOn = false

/-- The point shows the colour that the balls recorded for the element. -/
structure ShowsRecord (x : Element) : Prop where
  blue : m.rgbDisplay = .blueBall ↔ m.bluePaint x.entry = true
  orange : m.rgbDisplay = .orangeBall ↔
    m.bluePaint x.entry = false ∧ m.orangePaint x.entry = true
  plain : m.bluePaint x.entry = false → m.orangePaint x.entry = false →
    m.rgbDisplay = m.plainColour x

/-- The condition: the entry read for a rect records the same colour as its own
entry. Blocks are read at their own entries. -/
def ReadsSameRecord : Element → Prop
  | .block _ => True
  | .rect j => m.recorded ⟨j.val + 14, rect_read_lt_elements j⟩ =
      m.recorded ⟨j.val + 18, rect_add_lt_elements j⟩

/-- The loops and overlays leave the colour of the only element at the point. -/
theorem rgbDisplay_of_only {x : Element} (h : m.Only x) : m.rgbDisplay = m.drawnColour x := by
  have hBalls := h.noBall
  cases x with
  | block i =>
      have hBlocks : ∀ color, assignLoop (fun i => m.blockOn i && m.blockReady i) m.blockColour
          (List.finRange 18) color = m.blockColour i := by
        refine assignLoop_of_mem _ (List.mem_finRange i) h.drawn fun k _ hk => ?_
        have hSame := h.alone (.block k) hk
        rw [Element.block.inj hSame]
      have hRects : ∀ color, assignLoop (fun j => m.rectOn j && m.rectReady j) m.rectColour
          (List.finRange 12) color = color := by
        refine assignLoop_of_none _ fun j _ => ?_
        refine Bool.eq_false_iff.mpr fun hj => ?_
        cases h.alone (.rect j) hj
      simp only [rgbDisplay, hBlocks, hRects, hBalls, h.noText, Bool.false_eq_true, if_false]
      rfl
  | rect j =>
      have hRects : ∀ color, assignLoop (fun j => m.rectOn j && m.rectReady j) m.rectColour
          (List.finRange 12) color = m.rectColour j := by
        refine assignLoop_of_mem _ (List.mem_finRange j) h.drawn fun k _ hk => ?_
        have hSame := h.alone (.rect k) hk
        rw [Element.rect.inj hSame]
      simp only [rgbDisplay, hRects, hBalls, h.noText, Bool.false_eq_true, if_false]
      rfl

theorem elementColour_eq (entry : Fin 30) (hideable : Bool) :
    m.elementColour entry hideable =
      (m.recorded entry).getD (if hideable && m.hidden then .background m.drawX else .magenta) := by
  unfold elementColour recorded
  cases m.bluePaint entry <;> cases m.orangePaint entry <;> cases hideable <;> rfl

/-- The entry that the display reads for an element. -/
def readEntry : Element → Fin 30
  | .block i => ⟨i.val, block_lt_elements i⟩
  | .rect j => ⟨j.val + 14, rect_read_lt_elements j⟩

theorem drawnColour_eq (x : Element) :
    m.drawnColour x = (m.recorded (readEntry x)).getD (m.plainColour x) := by
  cases x <;> exact m.elementColour_eq _ _

theorem plainColour_ne (x : Element) :
    m.plainColour x ≠ .blueBall ∧ m.plainColour x ≠ .orangeBall := by
  unfold plainColour
  split_ifs <;> simp [Rgb.background, Rgb.blueBall, Rgb.orangeBall, Rgb.magenta]

/-- Different records are shown in different colours. -/
theorem recorded_getD_inj (x : Element) (k k' : Fin 30) :
    (m.recorded k).getD (m.plainColour x) = (m.recorded k').getD (m.plainColour x) ↔
      m.recorded k = m.recorded k' := by
  obtain ⟨hBlue, hOrange⟩ := m.plainColour_ne x
  have hColours : Rgb.blueBall ≠ Rgb.orangeBall := by decide
  unfold recorded
  split_ifs <;> simp [hBlue, hOrange, hColours, hBlue.symm, hOrange.symm, hColours.symm]

theorem showsRecord_iff (x : Element) :
    m.ShowsRecord x ↔ m.rgbDisplay = (m.recorded x.entry).getD (m.plainColour x) := by
  obtain ⟨hBlue, hOrange⟩ := m.plainColour_ne x
  have hColours : Rgb.blueBall ≠ Rgb.orangeBall := by decide
  unfold recorded
  constructor
  · intro h
    split_ifs with hb ho
    · exact h.blue.mpr hb
    · exact h.orange.mpr ⟨by simpa using hb, ho⟩
    · exact h.plain (by simpa using hb) (by simpa using ho)
  · intro h
    split_ifs at h with hb ho <;> constructor <;>
      simp_all [hColours.symm, hBlue.symm, hOrange.symm]

end ColorMapper

/-- A point inside one drawn element and nothing else shows the recorded colour
exactly when the display reads the same record as was written. -/
theorem showsRecord_iff_readsSameRecord (m : ColorMapper) (x : Element) (h : m.Only x) :
    m.ShowsRecord x ↔ m.ReadsSameRecord x := by
  rw [m.showsRecord_iff, m.rgbDisplay_of_only h, m.drawnColour_eq, m.recorded_getD_inj]
  cases x with
  | block i => exact ⟨fun _ => trivial, fun _ => rfl⟩
  | rect j => exact Iff.rfl

/-- The screen while `rect3`, painted by blue at its start point, falls again
and is alone on the screen. -/
def repaintedRect (drawX drawY : BitVec 10) : ColorMapper :=
  let s := run Balls.step (Balls.zero.posedgeReset 0 (wiredPorts fun _ => 0))
    [.posedgeFrameClk false 0 (wiredPorts fun n => if n = 12 then 380 else 0)]
  { ballX := ![s.blue.ballXPos, s.red.ballXPos]
    ballY := ![s.blue.ballYPos, s.red.ballYPos]
    ballS := fun _ => ballSize
    elements := wiredPorts fun n => if n = 12 then 100 else 0
    drawX, drawY
    blockReady := fun _ => false
    rectReady := fun j => decide (j = 2)
    levelOne := false, levelTwo := false, title := false, win := false, pstart := false
    levelFinal := false, hidden := false
    bluePaint := s.blue.paint
    orangePaint := s.red.paint }

theorem only_repaintedRect : (repaintedRect 260 105).Only (.rect 2) := by
  refine ⟨by decide, fun y hy => ?_, by decide, by decide⟩
  cases y with
  | block i =>
      revert i
      decide
  | rect j =>
      have hReady : j = 2 := by
        simp only [ColorMapper.drawn, Bool.and_eq_true] at hy
        exact of_decide_eq_true hy.2
      rw [hReady]

/-- The equivalence at one point of `rect3`. -/
theorem showsRecord_iff_rect :
    (repaintedRect 260 105).ShowsRecord (.rect 2) ↔
      (repaintedRect 260 105).ReadsSameRecord (.rect 2) :=
  showsRecord_iff_readsSameRecord _ _ only_repaintedRect

/-- Blue has hit `rect3`, which is shown unpainted. -/
theorem rect_shown_unpainted :
    (repaintedRect 260 105).Only (.rect 2) ∧
      (repaintedRect 260 105).bluePaint (Element.entry (.rect 2)) = true ∧
      ¬(repaintedRect 260 105).ShowsRecord (.rect 2) := by
  refine ⟨only_repaintedRect, by decide, fun h => ?_⟩
  have hShown := h.blue.mpr (by decide)
  revert hShown
  decide

end TwoBallGame
