import TwoBallGame.Display.Hidden
import TwoBallGame.Display.Tearing
import TwoBallGame.Game.Spacing

/-! The picture. The mapper paints element after element, ball after ball, and text
over all; but on a displayed pixel there is one element at most, and where there is
text there is nothing else, so the order does not matter. -/
namespace TwoBallGame

open Clocked

/-- The boxes of two glyphs have no pixel in common. -/
def Glyph.Beside (a b : Glyph) : Prop :=
  a.left + a.sizeX ≤ b.left ∨ b.left + b.sizeX ≤ a.left ∨
    a.top + a.sizeY ≤ b.top ∨ b.top + b.sizeY ≤ a.top

instance (a b : Glyph) : Decidable (Glyph.Beside a b) := inferInstanceAs (Decidable (_ ∨ _))

/-- They are not shown together on one pixel. -/
def Glyph.Exclusive (a b : Glyph) : Prop := a.shown = true → b.shown = true → a.Beside b

instance : DecidableRel Glyph.Exclusive := fun a b =>
  inferInstanceAs (Decidable (a.shown = true → b.shown = true → a.Beside b))

/-- A glyph without its pixels. -/
def Glyph.frame (g : Glyph) : Glyph := { g with lit := false }

namespace ColorMapper

/-- The frames of all glyphs, by the flags of the screen. -/
def frames (title pstart win levelOne levelTwo levelFinal : Bool) : List Glyph :=
  let level := levelOne || levelTwo || levelFinal
  let letter (left : BitVec 11) (shown : Bool) : Glyph := ⟨left, 80, 8, 16, shown, false⟩
  [⟨300, 80, 41, 16, title, false⟩, ⟨265, 235, 110, 16, title && pstart, false⟩,
    ⟨290, 235, 65, 16, win, false⟩, letter 230 level, letter 250 level, letter 270 level,
    letter 290 level, letter 310 level, letter 360 levelOne, letter 380 levelOne,
    letter 400 levelOne, letter 360 levelTwo, letter 380 levelTwo, letter 400 levelTwo,
    letter 340 levelFinal, letter 360 levelFinal, letter 380 levelFinal, letter 400 levelFinal,
    letter 420 levelFinal]

theorem map_frame (m : ColorMapper) : m.glyphs.map Glyph.frame =
    frames m.title m.pstart m.win m.levelOne m.levelTwo m.levelFinal := rfl

/-- At most one of the screens with text is shown. -/
structure OneScreen (m : ColorMapper) : Prop where
  title : m.title = true → m.win = false ∧ m.levelOne = false ∧ m.levelTwo = false ∧
    m.levelFinal = false
  one : m.levelOne = true → m.levelTwo = false ∧ m.levelFinal = false
  two : m.levelTwo = true → m.levelFinal = false

theorem pairwise_frames : ∀ title pstart win one two last : Bool,
    (title = true → win = false ∧ one = false ∧ two = false ∧ last = false) →
    (one = true → two = false ∧ last = false) → (two = true → last = false) →
    (frames title pstart win one two last).Pairwise Glyph.Exclusive := by
  decide +kernel

section Text

variable {m : ColorMapper}

/-- The boxes of two glyphs that are on have a pixel in common. -/
theorem not_exclusive_of_glyphOn {g g' : Glyph} (h : m.glyphOn g = true)
    (h' : m.glyphOn g' = true) : ¬g.Exclusive g' := by
  intro hExclusive
  simp only [glyphOn, Bool.and_eq_true, decide_eq_true_eq, BitVec.le_def, BitVec.lt_def] at h h'
  have hBeside := hExclusive h.2 h'.2
  simp only [Glyph.Beside, BitVec.le_def] at hBeside
  omega

/-- No two glyphs are on at one pixel, so the chain of `else if` chooses nothing. -/
theorem OneScreen.textOn_iff (h : m.OneScreen) :
    m.textOn = true ↔ ∃ g ∈ m.glyphs, m.glyphOn g = true ∧ g.lit = true := by
  have hFrames : (m.glyphs.map Glyph.frame).Pairwise Glyph.Exclusive := by
    rw [map_frame]
    exact pairwise_frames _ _ _ _ _ _ h.title h.one h.two
  have hApart : m.glyphs.Pairwise fun a b => m.glyphOn a = true → m.glyphOn b = true → False :=
    (List.pairwise_map.mp hFrames).imp fun hExclusive ha hb =>
      not_exclusive_of_glyphOn ha hb hExclusive
  rw [textOn]
  generalize m.glyphs = glyphs at hApart ⊢
  induction hApart with
  | nil => simp
  | @cons g rest hFirst hRest ih =>
      cases hOn : m.glyphOn g with
      | true =>
          rw [List.find?_cons_of_pos hOn, Option.any_some]
          constructor
          · intro hLit
            exact ⟨g, List.mem_cons_self, hOn, hLit⟩
          · rintro ⟨g', hMem, hOn', hLit⟩
            rcases List.mem_cons.mp hMem with rfl | hLater
            · exact hLit
            · exact (hFirst g' hLater hOn hOn').elim
      | false =>
          rw [List.find?_cons_of_neg (by rw [hOn]; exact Bool.false_ne_true)]
          refine ih.trans ⟨?_, ?_⟩
          · rintro ⟨g', hMem, hOn', hLit⟩
            exact ⟨g', List.mem_cons_of_mem g hMem, hOn', hLit⟩
          · rintro ⟨g', hMem, hOn', hLit⟩
            rcases List.mem_cons.mp hMem with rfl | hLater
            · rw [hOn] at hOn'
              cases hOn'
            · exact ⟨g', hLater, hOn', hLit⟩

/-- Text stands above line 251, and some screen with text is shown. -/
theorem lines_of_textOn (h : m.textOn = true) : m.drawY.toNat < 251 ∧
    (m.title || m.win || m.levelOne || m.levelTwo || m.levelFinal) = true := by
  rw [textOn, Option.any_eq_true] at h
  obtain ⟨g, hFound, -⟩ := h
  have hOn := List.find?_some hFound
  have hMem : g.frame ∈ frames m.title m.pstart m.win m.levelOne m.levelTwo m.levelFinal := by
    rw [← map_frame]
    exact List.mem_map_of_mem (List.mem_of_find?_eq_some hFound)
  have hAll : ∀ title pstart win one two last : Bool,
      ∀ g ∈ frames title pstart win one two last, g.top + g.sizeY ≤ 251 ∧
        (g.shown = true → (title || win || one || two || last) = true) := by
    decide +kernel
  obtain ⟨hEnd, hScreen⟩ := hAll _ _ _ _ _ _ g.frame hMem
  simp only [glyphOn, Bool.and_eq_true, decide_eq_true_eq] at hOn
  refine ⟨?_, hScreen hOn.2⟩
  have hLine : (m.drawY.setWidth 11).toNat < 251 :=
    (BitVec.lt_def.mp hOn.1.2).trans_le (BitVec.le_def.mp hEnd)
  rw [BitVec.toNat_setWidth] at hLine
  have hSmall := m.drawY.isLt
  omega

end Text

/-- The rules of the picture, in no order but blue over orange. -/
inductive Paints (m : ColorMapper) : Rgb → Prop where
  | text (h : ∃ g ∈ m.glyphs, m.glyphOn g = true ∧ g.lit = true) : Paints m .yellow
  | blue (h : m.ballOn 0 = true) : Paints m .blueBall
  | orange (h : m.ballOn 1 = true) (hBlue : m.ballOn 0 = false) : Paints m .orangeBall
  | element (x : Element) (h : m.drawn x = true) (hBalls : ∀ i, m.ballOn i = false) :
      Paints m (m.drawnColour x)
  | backdrop (hText : ¬∃ g ∈ m.glyphs, m.glyphOn g = true ∧ g.lit = true)
      (hBalls : ∀ i, m.ballOn i = false) (hElements : ∀ x, m.drawn x = false) :
      Paints m m.backdrop

/-- What makes the rules unambiguous. -/
structure Clean (m : ColorMapper) : Prop where
  screen : m.OneScreen
  alone : ∀ x y, m.drawn x = true → m.drawn y = true → x = y
  text : m.textOn = true → (∀ i, m.ballOn i = false) ∧ ∀ x, m.drawn x = false

section Clean

variable {m : ColorMapper}

theorem elementLoops_of_alone {hit : Element → Bool} {colour : Element → Rgb} {start : Rgb}
    {x : Element} (h : hit x = true) (hAlone : ∀ y, hit y = true → y = x) :
    elementLoops hit colour start = colour x := by
  cases x with
  | block i =>
      have hRects : ∀ color, assignLoop (fun j => hit (.rect j)) (fun j => colour (.rect j))
          (List.finRange 12) color = color := by
        refine assignLoop_of_none _ fun j _ => Bool.eq_false_iff.mpr fun hj => ?_
        cases hAlone (.rect j) hj
      rw [elementLoops, hRects]
      refine assignLoop_of_mem _ (List.mem_finRange i) h (fun k _ hk => ?_) start
      rw [Element.block.inj (hAlone (.block k) hk)]
  | rect j =>
      refine assignLoop_of_mem _ (List.mem_finRange j) h (fun k _ hk => ?_) _
      rw [Element.rect.inj (hAlone (.rect k) hk)]

/-- A pixel without text, and what it shows. -/
theorem rgbDisplay_of_noText (h : m.textOn = false) : m.rgbDisplay =
    if m.ballOn 0 then .blueBall else if m.ballOn 1 then .orangeBall
    else elementLoops m.drawn m.drawnColour m.backdrop := by
  simp only [rgbDisplay_eq, overlay, h, Bool.false_eq_true, if_false]

theorem Clean.noText_of_ball (h : m.Clean) {i : Fin 2} (hBall : m.ballOn i = true) :
    m.textOn = false := by
  refine Bool.eq_false_iff.mpr fun hText => ?_
  rw [(h.text hText).1 i] at hBall
  cases hBall

/-- A rule that applies gives the colour that the loops and overlays give. -/
theorem Clean.eq_of_paints (h : m.Clean) {color : Rgb} (hPaints : m.Paints color) :
    color = m.rgbDisplay := by
  cases hPaints with
  | text hText =>
      rw [rgbDisplay_eq, overlay, if_pos (h.screen.textOn_iff.mpr hText)]
  | blue hBall =>
      rw [rgbDisplay_of_noText (h.noText_of_ball hBall), if_pos hBall]
  | orange hBall hBlue =>
      rw [rgbDisplay_of_noText (h.noText_of_ball hBall), hBlue, if_neg Bool.false_ne_true,
        if_pos hBall]
  | element x hDrawn hBalls =>
      have hText : m.textOn = false := by
        refine Bool.eq_false_iff.mpr fun hText => ?_
        rw [(h.text hText).2 x] at hDrawn
        cases hDrawn
      rw [rgbDisplay_of_noText hText, hBalls, hBalls, if_neg Bool.false_ne_true,
        if_neg Bool.false_ne_true, elementLoops_of_alone hDrawn fun y hy => h.alone y x hy hDrawn]
  | backdrop hText hBalls hElements =>
      have hText : m.textOn = false := by
        rw [← h.screen.textOn_iff, Bool.not_eq_true] at hText
        exact hText
      rw [rgbDisplay_of_noText hText, hBalls, hBalls, if_neg Bool.false_ne_true,
        if_neg Bool.false_ne_true]
      refine (elementLoops_of_same fun x hx => ?_).symm
      rw [hElements x] at hx
      cases hx

/-- Some rule always applies. -/
theorem exists_paints (m : ColorMapper) : ∃ color, m.Paints color := by
  by_cases hText : ∃ g ∈ m.glyphs, m.glyphOn g = true ∧ g.lit = true
  · exact ⟨_, .text hText⟩
  cases hBlue : m.ballOn 0 with
  | true => exact ⟨_, .blue hBlue⟩
  | false =>
      cases hOrange : m.ballOn 1 with
      | true => exact ⟨_, .orange hOrange hBlue⟩
      | false =>
          have hBalls : ∀ i, m.ballOn i = false := by
            intro i
            fin_cases i
            · exact hBlue
            · exact hOrange
          by_cases hSome : ∃ x, m.drawn x = true
          · obtain ⟨x, hDrawn⟩ := hSome
            exact ⟨_, .element x hDrawn hBalls⟩
          · refine ⟨_, .backdrop hText hBalls fun x => ?_⟩
            rw [not_exists] at hSome
            exact Bool.eq_false_iff.mpr (hSome x)

theorem Clean.paints_iff (h : m.Clean) (color : Rgb) : m.Paints color ↔ color = m.rgbDisplay := by
  constructor
  · exact h.eq_of_paints
  · rintro rfl
    obtain ⟨color, hPaints⟩ := m.exists_paints
    rw [← h.eq_of_paints hPaints]
    exact hPaints

end Clean

end ColorMapper

namespace Game

open ColorMapper

variable {g : Game}

theorem oneScreen (g : Game) : g.colorPorts.OneScreen := by
  refine ⟨fun h => ?_, fun h => ?_, fun h => ?_⟩
  · have hState : g.sm.state = .reset := of_decide_eq_true h
    simp [colorPorts, BlockSM.win, BlockSM.levelOne, BlockSM.levelTwo, BlockSM.levelFinal, hState]
  · have hState : g.sm.state = .level1 := of_decide_eq_true h
    simp [colorPorts, BlockSM.levelTwo, BlockSM.levelFinal, hState]
  · have hState : g.sm.state = .mid1to2 := of_decide_eq_true h
    simp [colorPorts, BlockSM.levelFinal, hState]

/-- An element that is drawn is ready, and the pixel is on its lines. -/
theorem lines_of_drawn {x : Element} (h : g.colorPorts.drawn x = true) :
    g.ready x.wire = true ∧ g.y x.wire ≤ g.vga.drawY.toNat ∧
      g.vga.drawY.toNat ≤ g.y x.wire + 20 := by
  have hReady : g.ready x.wire = x.ready g.sm := by rw [Game.ready, x.instanceAt_wire]
  cases x with
  | block i =>
      obtain ⟨hOn, hShown⟩ := Bool.and_eq_true_iff.mp h
      have hLines := ((elementOn_iff _ (.block i)).mp hOn).2
      change ((g.y (blockWire i) : ℤ) ≤ g.vga.drawY.toNat ∧
        (g.vga.drawY.toNat : ℤ) ≤ g.y (blockWire i) + 20) at hLines
      refine ⟨hReady.trans hShown, ?_, ?_⟩
      · exact_mod_cast hLines.1
      · exact_mod_cast hLines.2
  | rect j =>
      obtain ⟨hOn, hShown⟩ := Bool.and_eq_true_iff.mp h
      have hLines := ((elementOn_iff _ (.rect j)).mp hOn).2
      change ((g.y (rectWire j) : ℤ) ≤ g.vga.drawY.toNat ∧
        (g.vga.drawY.toNat : ℤ) ≤ g.y (rectWire j) + ((rectS j).toNat / 4 : ℕ)) at hLines
      have hSize := rectS_le j
      refine ⟨hReady.trans hShown, ?_, ?_⟩
      · exact_mod_cast hLines.1
      · change g.vga.drawY.toNat ≤ g.y (rectWire j) + 20
        omega

/-- A ball is drawn from line 326 on. -/
theorem lines_of_ballOn (hs : g.Steady) {i : Fin 2} (h : g.colorPorts.ballOn i = true) :
    326 ≤ g.vga.drawY.toNat := by
  have hCentre : 330 ≤ (g.colorPorts.ballY i).toNat := by
    fin_cases i
    · exact hs.blue.yLow
    · exact hs.red.yLow
  have hDisc := (g.colorPorts.ballOn_iff (k := i) rfl).mp h
  have hRow : ((g.vga.drawY.toNat : ℤ) - (g.colorPorts.ballY i).toNat) ^ 2 ≤ 4 ^ 2 := by
    have hColumn := sq_nonneg ((g.vga.drawX.toNat : ℤ) - (g.colorPorts.ballX i).toNat)
    change ((g.vga.drawX.toNat : ℤ) - (g.colorPorts.ballX i).toNat) ^ 2 +
      ((g.vga.drawY.toNat : ℤ) - (g.colorPorts.ballY i).toNat) ^ 2 ≤ 4 ^ 2 at hDisc
    omega
  have hNear := abs_le.mp (sq_le_sq.mp hRow)
  rw [abs_of_pos (by decide : (0 : ℤ) < 4)] at hNear
  omega

/-- On a displayed pixel two drawn elements cannot be on different wires. -/
theorem not_drawn_both (hk : g.Kept) (ho : g.Ordered) (hShown : g.vga.display = true)
    {x y : Element} (hx : g.colorPorts.drawn x = true) (hy : g.colorPorts.drawn y = true) :
    ¬x.wire.val < y.wire.val := by
  intro hLt
  obtain ⟨-, hLine⟩ := g.vga.display_iff.mp hShown
  obtain ⟨hReady, hLow, hHigh⟩ := lines_of_drawn hx
  obtain ⟨hReady', hLow', hHigh'⟩ := lines_of_drawn hy
  rcases hk with hSpaced | hCaught
  · have hApart := hSpaced.apart ho ((ready_iff g x.wire).mp hReady).1 hLt
      ((ready_iff g y.wire).mp hReady').2
    omega
  · have hDark := hCaught.line
    omega

theorem wire_injective : Function.Injective Element.wire := by
  intro x y h
  rw [← x.instanceAt_wire, ← y.instanceAt_wire, h]

theorem clean_of_kept (hk : g.Kept) (ho : g.Ordered) (hs : g.Steady)
    (hShown : g.vga.display = true) : g.colorPorts.Clean := by
  refine ⟨g.oneScreen, fun x y hx hy => ?_, fun hText => ?_⟩
  · apply wire_injective
    rcases Nat.lt_trichotomy x.wire.val y.wire.val with hLt | hEq | hGt
    · exact absurd hLt (not_drawn_both hk ho hShown hx hy)
    · exact Fin.ext hEq
    · exact absurd hGt (not_drawn_both hk ho hShown hy hx)
  · obtain ⟨hLine, hScreen⟩ := lines_of_textOn hText
    constructor
    · intro i
      refine Bool.eq_false_iff.mpr fun hBall => ?_
      have hBelow := lines_of_ballOn hs hBall
      change g.vga.drawY.toNat < 251 at hLine
      omega
    · -- no element is ready on a screen with text
      have hIdle : ∀ x : Element, x.ready g.sm = false := by
        intro x
        simp only [colorPorts, BlockSM.title, BlockSM.win, BlockSM.levelOne, BlockSM.levelTwo,
          BlockSM.levelFinal, Bool.or_eq_true, decide_eq_true_eq] at hScreen
        rcases hScreen with (((hState | hState) | hState) | hState) | hState <;>
          cases x <;>
          simp [Element.ready, BlockSM.blockReady, BlockSM.rectReady, hState, readyBlocks,
            readyRects]
      intro x
      refine Bool.eq_false_iff.mpr fun hDrawn => ?_
      have hReady := (lines_of_drawn hDrawn).1
      rw [Game.ready, x.instanceAt_wire, hIdle] at hReady
      cases hReady

/-- In every run from the title on in which the balls never hit at the same frame
edge, each displayed pixel shows what the unordered rules of the picture say. -/
theorem paints_iff_of_run (g : Game) (hReach : Reachable g) (hTitle : g.sm.title = true)
    (events : List GameEvent)
    (hSingle : EachStep Game.step (fun g event => ¬g.DoubleHit event) g events)
    (hShown : (run Game.step g events).vga.display = true) (color : Rgb) :
    (run Game.step g events).colorPorts.Paints color ↔
      color = (run Game.step g events).colorPorts.rgbDisplay := by
  have hState : g.sm.state = .reset := of_decide_eq_true hTitle
  have hKept : g.Kept := Or.inl (spaced_of_not_playing (by rw [BlockSM.phase, hState]; rfl))
  have hEnd := hReach.run_events events
  exact (clean_of_kept (kept_run hKept hReach hSingle) hEnd.ordered hEnd.steady hShown).paints_iff
    color

/-- The centre of the blue ball is blue. -/
theorem paints_blue_of_centre (hX : g.vga.drawX.toNat = g.balls.blue.ballXPos.toNat)
    (hY : g.vga.drawY.toNat = g.balls.blue.ballYPos.toNat) : g.colorPorts.Paints .blueBall := by
  apply Paints.blue
  rw [ballOn_iff _ rfl]
  change ((g.vga.drawX.toNat : ℤ) - g.balls.blue.ballXPos.toNat) ^ 2 +
    ((g.vga.drawY.toNat : ℤ) - g.balls.blue.ballYPos.toNat) ^ 2 ≤ 4 ^ 2
  rw [hX, hY]
  simp

/-- In the first scan the centre of the circle is displayed, where both balls are. -/
theorem firstScan_centre :
    (run Game.step (zero.posedgeReset 0).negedgeReset (startAndWait 624639)).vga.Displays 320 390 ∧
      (run Game.step (zero.posedgeReset 0).negedgeReset (startAndWait 624639)).balls =
        started.balls := by
  have hScan (m : Nat) : (started.afterClk (fun _ => 0) m).vga = VgaController.clkEdges (1 + m) :=
    vga_afterClk rfl rfl _ m
  rw [run_startAndWait]
  constructor
  · rw [hScan, VgaController.displays_clkEdges (by decide) (by decide)]
  · apply balls_of_quiet
    intro m hm
    have hReset : started.reset = false := rfl
    rw [frameEdge, hScan, afterClk_reset, hReset, ← Bool.not_eq_true,
      VgaController.vsRises_clkEdges (by omega)]
    omega

/-- That pixel is one of the blue ball. -/
theorem paints_iff_of_run_centre :
    (run Game.step (zero.posedgeReset 0).negedgeReset
        (startAndWait 624639)).colorPorts.Paints .blueBall ∧
      Rgb.blueBall = (run Game.step (zero.posedgeReset 0).negedgeReset
        (startAndWait 624639)).colorPorts.rgbDisplay := by
  obtain ⟨⟨hShown, hColumn, hLine⟩, hBalls⟩ := firstScan_centre
  have hBlue : (run Game.step (zero.posedgeReset 0).negedgeReset
      (startAndWait 624639)).colorPorts.Paints .blueBall := by
    apply paints_blue_of_centre
    · rw [hColumn, hBalls]
      decide
    · rw [hLine, hBalls]
      decide
  exact ⟨hBlue, (paints_iff_of_run _ (reachable_zero.step .negedgeReset) (by decide)
    (startAndWait 624639) (single_startAndWait (by decide)) hShown .blueBall).mp hBlue⟩

end Game

end TwoBallGame
