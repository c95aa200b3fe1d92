import TwoBallGame.Design.Ball
import TwoBallGame.Design.Roms

/-! `color_mapper`: the colour of one pixel, as a combinational function of the
positions, the ready flags, the screen flags and both paint arrays. -/
namespace TwoBallGame

open Clocked

structure Rgb where
  red : BitVec 8
  green : BitVec 8
  blue : BitVec 8
deriving DecidableEq

namespace Rgb

def blueBall : Rgb := ⟨0x00, 0x00, 0xff⟩

def orangeBall : Rgb := ⟨0xff, 0xa5, 0x00⟩

def magenta : Rgb := ⟨0xff, 0x00, 0xff⟩

def yellow : Rgb := ⟨0xff, 0xff, 0x00⟩

def black : Rgb := ⟨0x00, 0x00, 0x00⟩

/-- The backdrop at a column: `8'h4f - DrawX[9:3]` in red. -/
def background (drawX : BitVec 10) : Rgb :=
  ⟨0x4f - (drawX.extractLsb' 3 7).setWidth 8, 0x00, 0x44⟩

end Rgb

/-- The ports of `color_mapper`. Ball 0 is `blue` and ball 1 is `red`. -/
structure ColorMapper where
  ballX : Fin 2 → BitVec 10
  ballY : Fin 2 → BitVec 10
  ballS : Fin 2 → BitVec 10
  elements : ElementPorts
  drawX : BitVec 10
  drawY : BitVec 10
  blockReady : Fin 18 → Bool
  rectReady : Fin 12 → Bool
  levelOne : Bool
  levelTwo : Bool
  title : Bool
  win : Bool
  pstart : Bool
  levelFinal : Bool
  hidden : Bool
  bluePaint : Fin 30 → Bool
  orangePaint : Fin 30 → Bool

/-- One box of text: its place, the flags that show it, and the pixel of its
memory row under the current point. -/
structure Glyph where
  left : BitVec 11
  top : BitVec 11
  sizeX : BitVec 11
  sizeY : BitVec 11
  shown : Bool
  lit : Bool

namespace ColorMapper

/-- The difference of two unsigned 10-bit values assigned to an `int`. -/
def dist (p q : BitVec 10) : BitVec 32 := p.setWidth 32 - q.setWidth 32

/-- `ball_blue_on` and `ball_red_on`: a disc, compared as signed integers. -/
def ballOn (m : ColorMapper) (i : Fin 2) : Bool :=
  let dx := dist m.drawX (m.ballX i)
  let dy := dist m.drawY (m.ballY i)
  let size := (m.ballS i).setWidth 32
  (dx * dx + dy * dy).sle (size * size)

/-- `block_on`. The size is unsigned, so both comparisons are. -/
def blockOn (m : ColorMapper) (i : Fin 18) : Bool :=
  decide (dist m.drawX (m.elements.blockX i) ≤ (m.elements.blockS i).setWidth 32) &&
    decide (dist m.drawY (m.elements.blockY i) ≤ (m.elements.blockS i).setWidth 32)

def rectOn (m : ColorMapper) (j : Fin 12) : Bool :=
  decide (dist m.drawX (m.elements.rectX j) ≤ (m.elements.rectS j).setWidth 32) &&
    decide (dist m.drawY (m.elements.rectY j) ≤ (m.elements.rectS j).setWidth 32 / 4)

/-- One letter of `font_rom` at column `left`, line 80. -/
def letter (m : ColorMapper) (left : BitVec 11) (code : BitVec 32) (shown : Bool) : Glyph :=
  let addr := m.drawY.setWidth 32 - 80 + 16 * code
  { left, top := 80, sizeX := 8, sizeY := 16, shown
    lit := (spriteData (addr.setWidth 11)).getMsbD (m.drawX.setWidth 11 - left).toNat }

/-- All boxes in the order of the `else if` chain of `lvl1_on_proc`. -/
def glyphs (m : ColorMapper) : List Glyph :=
  let x := m.drawX.setWidth 11
  let y := m.drawY.setWidth 11
  let level := m.levelOne || m.levelTwo || m.levelFinal
  [{ left := 300, top := 80, sizeX := 41, sizeY := 16, shown := m.title
     lit := (titleData ((y - 80).setWidth 4)).getMsbD (x - 300).toNat },
   { left := 265, top := 235, sizeX := 110, sizeY := 16, shown := m.title && m.pstart
     lit := (pstartData ((y - 235).setWidth 4)).getMsbD (x - 265).toNat },
   { left := 290, top := 235, sizeX := 65, sizeY := 16, shown := m.win
     lit := (winData ((y - 235).setWidth 4)).getMsbD (x - 290).toNat },
   m.letter 230 0x4c level, m.letter 250 0x45 level, m.letter 270 0x56 level,
   m.letter 290 0x45 level, m.letter 310 0x4c level,
   m.letter 360 0x4f m.levelOne, m.letter 380 0x4e m.levelOne, m.letter 400 0x45 m.levelOne,
   m.letter 360 0x54 m.levelTwo, m.letter 380 0x57 m.levelTwo, m.letter 400 0x4f m.levelTwo,
   m.letter 340 0x54 m.levelFinal, m.letter 360 0x48 m.levelFinal,
   m.letter 380 0x52 m.levelFinal, m.letter 400 0x45 m.levelFinal,
   m.letter 420 0x45 m.levelFinal]

/-- The test of one branch of the chain, in 11 bits. -/
def glyphOn (m : ColorMapper) (g : Glyph) : Bool :=
  decide (g.left ≤ m.drawX.setWidth 11) && decide (m.drawX.setWidth 11 < g.left + g.sizeX) &&
    decide (g.top ≤ m.drawY.setWidth 11) && decide (m.drawY.setWidth 11 < g.top + g.sizeY) &&
    g.shown

/-- The first box that is on, if any, has its pixel lit. -/
def textOn (m : ColorMapper) : Bool := (m.glyphs.find? m.glyphOn).any Glyph.lit

/-- The colour given to an element in the loops of `RGB_Display`. -/
def elementColour (m : ColorMapper) (entry : Fin 30) (hideable : Bool) : Rgb :=
  if m.bluePaint entry then .blueBall
  else if m.orangePaint entry then .orangeBall
  else if hideable then
    if m.hidden then .background m.drawX else .magenta
  else .magenta

theorem rect_read_lt_elements (j : Fin 12) : j.val + 14 < 30 := by omega

/-- Block `i` is coloured by entry `i`. -/
def blockColour (m : ColorMapper) (i : Fin 18) : Rgb :=
  m.elementColour ⟨i.val, block_lt_elements i⟩ (decide (14 ≤ i.val) && decide (i.val ≤ 17))

/-- Rect `j` is coloured by entry `j + 14`. -/
def rectColour (m : ColorMapper) (j : Fin 12) : Rgb :=
  m.elementColour ⟨j.val + 14, rect_read_lt_elements j⟩ (decide (6 ≤ j.val) && decide (j.val ≤ 11))

/-- `RGB_Display`: later assignments override earlier ones. -/
def rgbDisplay (m : ColorMapper) : Rgb :=
  let color := if m.drawX < 150 ∨ 490 < m.drawX then .black else .background m.drawX
  let color := assignLoop (fun i => m.blockOn i && m.blockReady i) m.blockColour
    (List.finRange 18) color
  let color := assignLoop (fun j => m.rectOn j && m.rectReady j) m.rectColour
    (List.finRange 12) color
  let color := if m.ballOn 1 then .orangeBall else color
  let color := if m.ballOn 0 then .blueBall else color
  if m.textOn then .yellow else color

end ColorMapper

end TwoBallGame
