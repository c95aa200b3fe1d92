import Mathlib

/-! `block`: one falling element, a block or a rect. Its column is a wire from
the instance, so only the vertical registers and the end flag are state. -/
namespace TwoBallGame

instance neZero_blocks : NeZero 18 := ⟨by decide⟩

instance neZero_rects : NeZero 12 := ⟨by decide⟩

instance neZero_elements : NeZero 30 := ⟨by decide⟩

theorem block_lt_elements (i : Fin 18) : i.val < 30 := by omega

theorem rect_add_lt_elements (j : Fin 12) : j.val + 18 < 30 := by omega

structure Block where
  blockYPos : BitVec 10
  blockYMotion : BitVec 10
  endLevel : Bool
deriving DecidableEq

def blockYMax : BitVec 10 := 479

/-- One activation of `Move_Block`. The flag `clear` is the condition of the
asynchronous branch: `Reset`, `restart` or either `Collision`. -/
def Block.moveBlock (clear : Bool) (blockYStep : BitVec 10) (blockReady : Bool)
    (b : Block) : Block :=
  if clear then
    { b with blockYMotion := 0, blockYPos := 0, endLevel := false }
  else
    let b :=
      if blockYMax < b.blockYPos ∨ blockReady = false then
        { b with
          endLevel := if blockYMax < b.blockYPos then true else b.endLevel
          blockYMotion := 0 }
      else
        { b with blockYMotion := blockYStep, endLevel := false }
    -- the blocking assignments above are already visible here
    { b with blockYPos := b.blockYPos + b.blockYMotion }

/-- The activations of `Move_Block`: an edge of `Reset`, `restart` or `Collision`,
or of `frame_clk` while one of them is high; or `frame_clk` with all of them low. -/
inductive BlockEvent where
  | clear
  | posedgeFrameClk (blockReady : Bool)
deriving DecidableEq

def Block.step (blockYStep : BitVec 10) (b : Block) : BlockEvent → Block
  | .clear => b.moveBlock true blockYStep false
  | .posedgeFrameClk blockReady => b.moveBlock false blockYStep blockReady

/-- Whether the element has moved below the last line of the screen. -/
def Block.gone (b : Block) : Prop := blockYMax < b.blockYPos

instance (b : Block) : Decidable b.gone := inferInstanceAs (Decidable (_ < _))

section Moves

variable (blockYStep : BitVec 10) (blockReady : Bool) (b : Block)

theorem Block.moveBlock_gone (h : b.gone) :
    b.moveBlock false blockYStep blockReady = ⟨b.blockYPos, 0, true⟩ := by
  have hMax : blockYMax < b.blockYPos := h
  simp [Block.moveBlock, hMax]

theorem Block.moveBlock_waiting (h : ¬b.gone) :
    b.moveBlock false blockYStep false = ⟨b.blockYPos, 0, b.endLevel⟩ := by
  have hMax : ¬blockYMax < b.blockYPos := h
  simp [Block.moveBlock, hMax]

theorem Block.moveBlock_moving (h : ¬b.gone) :
    b.moveBlock false blockYStep true = ⟨b.blockYPos + blockYStep, blockYStep, false⟩ := by
  have hMax : ¬blockYMax < b.blockYPos := h
  simp [Block.moveBlock, hMax]

end Moves

end TwoBallGame
