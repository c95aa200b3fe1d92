import Mathlib

/-! `Sin_Cos`: a clocked table of the first sixty-one sines and cosines of a
circle cut into sixty parts, scaled by a thousand and without their signs. -/
namespace TwoBallGame

/-- The two `int` output registers of one `Sin_Cos` instance. -/
structure SinCos where
  sine : BitVec 32
  cosine : BitVec 32
deriving DecidableEq

/-- The `case` items in source order: `6'd1` first, `6'd61` last. -/
def sinCosRows : List (BitVec 32 × BitVec 32) :=
  [(0, 1000), (105, 995), (208, 979), (310, 952), (407, 914), (500, 867), (588, 810),
   (670, 744), (744, 670), (810, 588), (867, 501), (914, 407), (952, 310), (979, 208),
   (995, 105), (1000, 1), (995, 105), (979, 208), (952, 310), (914, 407), (867, 501),
   (810, 588), (744, 670), (670, 744), (588, 810), (500, 867), (407, 914), (310, 952),
   (208, 979), (105, 995), (0, 1000), (105, 995), (208, 979), (310, 952), (407, 914),
   (500, 867), (588, 810), (670, 744), (744, 670), (810, 588), (867, 501), (914, 407),
   (952, 310), (979, 208), (995, 105), (1000, 1), (995, 105), (979, 208), (952, 310),
   (914, 407), (867, 501), (810, 588), (744, 670), (670, 744), (588, 810), (500, 867),
   (407, 914), (310, 952), (208, 979), (105, 995), (0, 1000)]

/-- The row for an index, if the `case` statement has one. Indices 0, 62 and
63 have none. -/
def sinCosRow (index : BitVec 6) : Option SinCos :=
  if index = 0 then none
  else (sinCosRows[index.toNat - 1]?).map fun row => ⟨row.1, row.2⟩

/-- One `posedge clk`. Without a matching item the outputs keep their values. -/
def SinCos.posedgeClk (index : BitVec 6) (r : SinCos) : SinCos :=
  (sinCosRow index).getD r

/-- The magnitudes fit the scale of a thousand. -/
def SinCos.InRange (r : SinCos) : Prop :=
  r.sine.toNat ≤ 1000 ∧ r.cosine.toNat ≤ 1000

instance (r : SinCos) : Decidable r.InRange := inferInstanceAs (Decidable (_ ∧ _))

theorem sinCosRow_inRange {index : BitVec 6} {row : SinCos}
    (h : sinCosRow index = some row) : row.InRange := by
  have hAll : ∀ i : Fin 64, ∀ r ∈ sinCosRow (BitVec.ofFin i), SinCos.InRange r := by decide
  exact hAll index.toFin row h

/-- A clocked table only ever holds magnitudes once it started with one. -/
theorem SinCos.InRange.posedgeClk {r : SinCos} (h : r.InRange) (index : BitVec 6) :
    (r.posedgeClk index).InRange := by
  unfold SinCos.posedgeClk
  cases hRow : sinCosRow index with
  | none => exact h
  | some row => exact sinCosRow_inRange hRow

end TwoBallGame
