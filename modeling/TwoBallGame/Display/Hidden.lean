import TwoBallGame.Display.Overlap

/-! Hidden elements of the last level. They are not skipped but drawn again in
the colour of the backdrop, which shows only outside the backdrop's columns or
over another element. -/
namespace TwoBallGame

open Clocked

namespace ColorMapper

/-- The loops of `RGB_Display` for any elements drawn in any colours. -/
def elementLoops (hit : Element → Bool) (colour : Element → Rgb) (start : Rgb) : Rgb :=
  assignLoop (fun j => hit (.rect j)) (fun j => colour (.rect j)) (List.finRange 12)
    (assignLoop (fun i => hit (.block i)) (fun i => colour (.block i)) (List.finRange 18) start)

/-- The colour of a pixel before anything is drawn on it. -/
def backdrop (m : ColorMapper) : Rgb :=
  if m.drawX < 150 ∨ 490 < m.drawX then .black else .background m.drawX

/-- What is drawn over the elements: the balls, then the text. -/
def overlay (m : ColorMapper) (color : Rgb) : Rgb :=
  let color := if m.ballOn 1 then .orangeBall else color
  let color := if m.ballOn 0 then .blueBall else color
  if m.textOn then .yellow else color

theorem rgbDisplay_eq (m : ColorMapper) :
    m.rgbDisplay = m.overlay (elementLoops m.drawn m.drawnColour m.backdrop) := rfl

section Loops

variable {hit kept : Element → Bool} {colour : Element → Rgb} {start : Rgb}

theorem elementLoops_of_same (h : ∀ x, hit x = true → colour x = start) :
    elementLoops hit colour start = start := by
  have hBlocks : assignLoop (fun i => hit (.block i)) (fun i => colour (.block i))
      (List.finRange 18) start = start := assignLoop_of_same _ fun i _ => h (.block i)
  rw [elementLoops, hBlocks]
  exact assignLoop_of_same _ fun j _ => h (.rect j)

/-- Leaving an element out of the loops changes nothing if, wherever it is
drawn, it is drawn alone and in the colour that was there. -/
theorem elementLoops_keep (hKept : ∀ x, kept x = true → hit x = true)
    (hDropped : ∀ x, hit x = true → kept x = false →
      colour x = start ∧ ∀ y, hit y = true → y = x) :
    elementLoops hit colour start = elementLoops kept colour start := by
  by_cases hSome : ∃ x, hit x = true ∧ kept x = false
  · obtain ⟨x, hHit, hNot⟩ := hSome
    obtain ⟨hColour, hAlone⟩ := hDropped x hHit hNot
    have hSame : ∀ y, hit y = true → colour y = start := by
      intro y hy
      rw [hAlone y hy]
      exact hColour
    rw [elementLoops_of_same hSame, elementLoops_of_same fun y hy => hSame y (hKept y hy)]
  · push Not at hSome
    have hEqual : hit = kept := by
      funext x
      rw [Bool.eq_iff_iff]
      constructor
      · intro hHit
        exact Bool.not_eq_false _ ▸ hSome x hHit
      · exact hKept x
    rw [hEqual]

end Loops

/-- An element of the last level whose two entries, as read, are clear. -/
structure Concealed (m : ColorMapper) (x : Element) : Prop where
  hideable : x.hideable = true
  blue : m.bluePaint (readEntry x) = false
  orange : m.orangePaint (readEntry x) = false

/-- Wherever the element is drawn, it is between columns 150 and 490 and no
other element is drawn. -/
structure Apart (m : ColorMapper) (x : Element) : Prop where
  inside : ∀ drawX drawY, (m.pixel drawX drawY).drawn x = true → 150 ≤ drawX ∧ drawX ≤ 490
  alone : ∀ drawX drawY, (m.pixel drawX drawY).drawn x = true →
    ∀ y, (m.pixel drawX drawY).drawn y = true → y = x

/-- Equal in all ports but the positions and ready flags of some elements. -/
structure AlikeExcept (differ : Element → Prop) (m m' : ColorMapper) : Prop where
  ballX : m.ballX = m'.ballX
  ballY : m.ballY = m'.ballY
  ballS : m.ballS = m'.ballS
  blockS : m.elements.blockS = m'.elements.blockS
  rectS : m.elements.rectS = m'.elements.rectS
  block : ∀ i, ¬differ (.block i) → m.elements.blockX i = m'.elements.blockX i ∧
    m.elements.blockY i = m'.elements.blockY i ∧ m.blockReady i = m'.blockReady i
  rect : ∀ j, ¬differ (.rect j) → m.elements.rectX j = m'.elements.rectX j ∧
    m.elements.rectY j = m'.elements.rectY j ∧ m.rectReady j = m'.rectReady j
  levelOne : m.levelOne = m'.levelOne
  levelTwo : m.levelTwo = m'.levelTwo
  levelFinal : m.levelFinal = m'.levelFinal
  title : m.title = m'.title
  win : m.win = m'.win
  pstart : m.pstart = m'.pstart
  hidden : m.hidden = m'.hidden
  bluePaint : m.bluePaint = m'.bluePaint
  orangePaint : m.orangePaint = m'.orangePaint

section TwoScreens

variable {differ : Element → Prop} {m m' : ColorMapper} (h : AlikeExcept differ m m')
include h

theorem AlikeExcept.drawn_eq (drawX drawY : BitVec 10) {x : Element} (hx : ¬differ x) :
    (m.pixel drawX drawY).drawn x = (m'.pixel drawX drawY).drawn x := by
  have hOn (hColumns : x.columns m.elements = x.columns m'.elements)
      (hRows : x.rows m.elements = x.rows m'.elements) :
      (m.pixel drawX drawY).elementOn x = (m'.pixel drawX drawY).elementOn x := by
    rw [Bool.eq_iff_iff, elementOn_iff, elementOn_iff]
    change (x.columns m.elements).Contains _ ∧ (x.rows m.elements).Contains _ ↔ _
    rw [hColumns, hRows]
    exact Iff.rfl
  cases x with
  | block i =>
      obtain ⟨hX, hY, hReady⟩ := h.block i hx
      have hSame := hOn (by simp only [Element.columns, hX, h.blockS])
        (by simp only [Element.rows, hY, h.blockS])
      exact congrArg₂ Bool.and hSame hReady
  | rect j =>
      obtain ⟨hX, hY, hReady⟩ := h.rect j hx
      have hSame := hOn (by simp only [Element.columns, hX, h.rectS])
        (by simp only [Element.rows, hY, h.rectS])
      exact congrArg₂ Bool.and hSame hReady

theorem AlikeExcept.drawnColour_eq (drawX drawY : BitVec 10) :
    (m.pixel drawX drawY).drawnColour = (m'.pixel drawX drawY).drawnColour := by
  funext x
  simp only [ColorMapper.drawnColour_eq, recorded, plainColour, pixel, h.bluePaint,
    h.orangePaint, h.hidden]

theorem AlikeExcept.overlay_eq (drawX drawY : BitVec 10) :
    (m.pixel drawX drawY).overlay = (m'.pixel drawX drawY).overlay := by
  have hBalls (k : Fin 2) : (m.pixel drawX drawY).ballOn k = (m'.pixel drawX drawY).ballOn k := by
    simp only [ballOn, pixel, h.ballX, h.ballY, h.ballS]
  have hGlyphs : (m.pixel drawX drawY).glyphs = (m'.pixel drawX drawY).glyphs := by
    simp only [glyphs, letter, pixel, h.levelOne, h.levelTwo, h.levelFinal, h.title, h.win,
      h.pstart]
  have hText : (m.pixel drawX drawY).textOn = (m'.pixel drawX drawY).textOn := by
    rw [textOn, textOn, hGlyphs]
    rfl
  funext color
  simp only [overlay, hBalls, hText]

end TwoScreens

/-- A concealed element that is drawn at all is drawn as the backdrop. -/
theorem Concealed.drawnColour {m : ColorMapper} {x : Element} (h : m.Concealed x)
    (hHidden : m.hidden = true) {drawX drawY : BitVec 10} (hInside : 150 ≤ drawX ∧ drawX ≤ 490) :
    (m.pixel drawX drawY).drawnColour x = (m.pixel drawX drawY).backdrop := by
  have hBackdrop : ¬(drawX < 150 ∨ 490 < drawX) := by
    rw [not_or, BitVec.not_lt, BitVec.not_lt]
    exact hInside
  rw [drawnColour_eq]
  simp only [recorded, plainColour, pixel, backdrop, h.blue, h.orange, h.hideable, hHidden,
    if_neg hBackdrop]
  rfl

/-- The elements that two screens differ in may be left out of both. -/
theorem elementLoops_drawn {differ : Element → Prop} [DecidablePred differ] {m : ColorMapper}
    (hHidden : m.hidden = true) (hDiffer : ∀ x, differ x → m.Concealed x ∧ m.Apart x)
    (drawX drawY : BitVec 10) :
    elementLoops (m.pixel drawX drawY).drawn (m.pixel drawX drawY).drawnColour
        (m.pixel drawX drawY).backdrop =
      elementLoops (fun x => (m.pixel drawX drawY).drawn x && !decide (differ x))
        (m.pixel drawX drawY).drawnColour (m.pixel drawX drawY).backdrop := by
  apply elementLoops_keep
  · intro x hKept
    exact (Bool.and_eq_true_iff.mp hKept).1
  · intro x hDrawn hDropped
    have hx : differ x := by simpa [hDrawn] using hDropped
    obtain ⟨hConcealed, hApart⟩ := hDiffer x hx
    exact ⟨hConcealed.drawnColour hHidden (hApart.inside drawX drawY hDrawn),
      hApart.alone drawX drawY hDrawn⟩

/-- While elements are hidden, no pixel tells where those of the last level are
that nobody has painted, nor whether they are there at all. -/
theorem hidden_invisible {differ : Element → Prop} {m m' : ColorMapper}
    (h : AlikeExcept differ m m') (hHidden : m.hidden = true)
    (hDiffer : ∀ x, differ x → m.Concealed x ∧ m.Apart x ∧ m'.Apart x)
    (drawX drawY : BitVec 10) :
    (m.pixel drawX drawY).rgbDisplay = (m'.pixel drawX drawY).rgbDisplay := by
  classical
  have hConcealed' (x : Element) (hx : differ x) : m'.Concealed x := by
    obtain ⟨hLast, hBlue, hOrange⟩ := (hDiffer x hx).1
    exact ⟨hLast, h.bluePaint ▸ hBlue, h.orangePaint ▸ hOrange⟩
  have hLeft := elementLoops_drawn hHidden
    (fun x hx => ⟨(hDiffer x hx).1, (hDiffer x hx).2.1⟩) drawX drawY
  have hRight := elementLoops_drawn (h.hidden ▸ hHidden)
    (fun x hx => ⟨hConcealed' x hx, (hDiffer x hx).2.2⟩) drawX drawY
  have hKept : (fun x => (m.pixel drawX drawY).drawn x && !decide (differ x)) =
      fun x => (m'.pixel drawX drawY).drawn x && !decide (differ x) := by
    funext x
    by_cases hx : differ x
    · simp [hx]
    · rw [h.drawn_eq drawX drawY hx]
  have hBackdrop : (m.pixel drawX drawY).backdrop = (m'.pixel drawX drawY).backdrop := rfl
  rw [rgbDisplay_eq, rgbDisplay_eq, hLeft, hRight, hKept, h.drawnColour_eq drawX drawY,
    h.overlay_eq drawX drawY, hBackdrop]

/-- The last level with `block15` at some line, or not launched, and `rect7`. -/
def lastScreen (line : BitVec 10) (launched : Bool) : ColorMapper :=
  { ballScreen { Ball.zero with ballXPos := 260, ballYPos := 390 }
      (wiredPorts fun n => if n = 20 then line else 50) with
    blockReady := fun i => decide (i = 14) && launched
    rectReady := fun j => decide (j = 6)
    hidden := true }

theorem apart_lastScreen (line : BitVec 10) (launched : Bool) :
    (lastScreen line launched).Apart (.block 14) := by
  have hColumns {drawX drawY : BitVec 10}
      (h : ((lastScreen line launched).pixel drawX drawY).drawn (.block 14) = true) :
      300 ≤ drawX.toNat ∧ drawX.toNat ≤ 320 := by
    have hOn := (elementOn_iff _ (.block 14)).mp (Bool.and_eq_true_iff.mp h).1
    have hSpan : (300 : ℤ) ≤ drawX.toNat ∧ (drawX.toNat : ℤ) ≤ 300 + 20 := hOn.1
    omega
  constructor
  · intro drawX drawY h
    obtain ⟨hLeft, hRight⟩ := hColumns h
    rw [BitVec.le_def, BitVec.le_def]
    exact ⟨by change 150 ≤ _; omega, by change _ ≤ 490; omega⟩
  · intro drawX drawY h y hy
    obtain ⟨hLeft, hRight⟩ := hColumns h
    cases y with
    | block i =>
        have hReady := (Bool.and_eq_true_iff.mp (Bool.and_eq_true_iff.mp hy).2).1
        rw [of_decide_eq_true hReady]
    | rect j =>
        obtain ⟨hOn, hReady⟩ := Bool.and_eq_true_iff.mp hy
        obtain rfl : j = 6 := of_decide_eq_true hReady
        have hSpan : (350 : ℤ) ≤ drawX.toNat := ((elementOn_iff _ (.rect 6)).mp hOn).1.1
        omega

theorem alike_lastScreen (line line' : BitVec 10) (launched launched' : Bool) :
    AlikeExcept (fun x => x = .block 14) (lastScreen line launched)
      (lastScreen line' launched') := by
  have hOther (n : Fin 30) (h : n ≠ 20) (line : BitVec 10) :
      (if n = 20 then line else 50) = (50 : BitVec 10) := if_neg h
  refine ⟨rfl, rfl, rfl, rfl, rfl, ?_, ?_, rfl, rfl, rfl, rfl, rfl, rfl, rfl, rfl, rfl⟩
  · intro i hi
    have hNot : i ≠ 14 := fun hEq => hi (congrArg Element.block hEq)
    have hWire : blockWire i ≠ 20 := by
      revert hNot
      revert i
      decide
    refine ⟨rfl, (hOther _ hWire line).trans (hOther _ hWire line').symm, ?_⟩
    change (decide (i = 14) && launched) = (decide (i = 14) && launched')
    rw [decide_eq_false hNot, Bool.false_and, Bool.false_and]
  · intro j hj
    have hWire : rectWire j ≠ 20 := by
      revert j
      decide
    exact ⟨rfl, (hOther _ hWire line).trans (hOther _ hWire line').symm, rfl⟩

/-- A pixel of `block15` at line 100, and the same pixel without it. -/
theorem hidden_invisible_block :
    ((lastScreen 100 true).pixel 310 105).rgbDisplay =
      ((lastScreen 200 false).pixel 310 105).rgbDisplay := by
  apply hidden_invisible (alike_lastScreen 100 200 true false) rfl
  rintro x rfl
  exact ⟨⟨by decide, rfl, rfl⟩, apart_lastScreen 100 true, apart_lastScreen 200 false⟩

end ColorMapper

end TwoBallGame
