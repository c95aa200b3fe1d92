import Mathlib

/-! `vga_controller`: a divided clock, two nested counters and two registered
sync pulses. Its `vs` output is the `frame_clk` of the game. -/
namespace TwoBallGame

structure VgaController where
  clkdiv : Bool
  hc : BitVec 10
  vc : BitVec 10
  hs : Bool
  vs : Bool
deriving DecidableEq

def hpixels : BitVec 10 := 0b1100011111

def vlines : BitVec 10 := 0b1000001100

namespace VgaController

/-- `posedge Reset`: every process takes its reset branch. -/
def posedgeReset : VgaController :=
  { clkdiv := false, hc := 0, vc := 0, hs := false, vs := false }

/-- `posedge clkdiv` with `Reset` low. The sync registers compare a sum that is
computed in 32 bits, so it does not wrap at 10. -/
def posedgeClkdiv (v : VgaController) : VgaController :=
  { v with
    hc := if v.hc = hpixels then 0 else v.hc + 1
    vc := if v.hc = hpixels then (if v.vc = vlines then 0 else v.vc + 1) else v.vc
    hs := !(decide (0b1010010000 ≤ v.hc.toNat + 1) && decide (v.hc.toNat + 1 < 0b1011110000))
    vs := !(decide (v.vc.toNat + 1 = 0b111101010) || decide (v.vc.toNat + 1 = 0b111101011)) }

/-- `posedge Clk`, and the `posedge clkdiv` it causes every second time. -/
def posedgeClk (reset : Bool) (v : VgaController) : VgaController :=
  let clkdiv := if reset then false else !v.clkdiv
  if clkdiv && !v.clkdiv then { v with clkdiv }.posedgeClkdiv else { v with clkdiv }

def drawX (v : VgaController) : BitVec 10 := v.hc

def drawY (v : VgaController) : BitVec 10 := v.vc

/-- `display`, which is the `blank` output: high on 640 columns of 480 lines. -/
def display (v : VgaController) : Bool :=
  if v.hc ≥ 0b1010000000 ∨ v.vc ≥ 0b0111100000 then false else true

theorem display_iff (v : VgaController) :
    v.display = true ↔ v.drawX.toNat < 640 ∧ v.drawY.toNat < 480 := by
  have hX : v.hc ≥ 0b1010000000 ↔ 640 ≤ v.drawX.toNat := BitVec.le_def
  have hY : v.vc ≥ 0b0111100000 ↔ 480 ≤ v.drawY.toNat := BitVec.le_def
  simp only [display, hX, hY]
  split_ifs with hDark
  · simp only [false_iff]
    omega
  · simp only [true_iff]
    omega

end VgaController

end TwoBallGame
