import TwoBallGame.Design.VgaController

/-! The scan of the screen. Between two edges of `vs` the counters of
`vga_controller` run once through 420,000 places at every second `Clk`. -/
namespace TwoBallGame.VgaController

/-- The place in the scan, counted along the lines. -/
def place (v : VgaController) : Nat := 800 * v.vc.toNat + v.hc.toNat

/-- The registers after at least one pixel clock. `vs` is low from the first
place of line 489 to the first place of line 491, both one pixel late. -/
structure Scanning (v : VgaController) : Prop where
  hc_le : v.hc.toNat ≤ 799
  vc_le : v.vc.toNat ≤ 524
  vs_eq : v.vs = !(decide (391201 ≤ v.place) && decide (v.place ≤ 392800))

/-- The registers at any time after `Reset`. -/
def Scans (v : VgaController) : Prop := v = posedgeReset ∨ v.Scanning

/-- The number of `Clk` edges since `vs` rose, modulo one scan of 840,000. -/
def phase (v : VgaController) : Nat :=
  (2 * v.place + 894399 - v.clkdiv.toNat) % 840000

/-- `vs` rises at the next `Clk` edge. -/
def vsRises (reset : Bool) (v : VgaController) : Bool := (v.posedgeClk reset).vs && !v.vs

theorem phase_lt (v : VgaController) : v.phase < 840000 := Nat.mod_lt _ (by decide)

variable {v : VgaController}

/-- While `Reset` is high the controller stands still. -/
theorem posedgeClk_reset : posedgeReset.posedgeClk true = posedgeReset := rfl

/-- The first `Clk` edge after `Reset` is a pixel clock that raises `vs`. -/
theorem posedgeClk_fresh :
    (posedgeReset.posedgeClk false).Scanning ∧ (posedgeReset.posedgeClk false).phase = 54400 ∧
      posedgeReset.vsRises false = true := by
  refine ⟨⟨?_, ?_, ?_⟩, ?_, ?_⟩ <;> decide

theorem phase_of_low (h : v.clkdiv = false) :
    v.phase = (2 * v.place + 894399) % 840000 := by
  rw [phase, h, Bool.toNat_false, Nat.sub_zero]

theorem phase_of_high (h : v.clkdiv = true) :
    v.phase = (2 * v.place + 894398) % 840000 := by
  rw [phase, h, Bool.toNat_true, Nat.add_sub_assoc (by decide)]

section Tick

variable (h : v.Scanning)
include h

/-- The two counters at a pixel clock, in integers. -/
theorem Scanning.counters :
    v.posedgeClkdiv.hc.toNat = (if v.hc.toNat = 799 then 0 else v.hc.toNat + 1) ∧
      v.posedgeClkdiv.vc.toNat =
        if v.hc.toNat = 799 then (if v.vc.toNat = 524 then 0 else v.vc.toNat + 1)
        else v.vc.toNat := by
  have hHc := h.hc_le
  have hVc := h.vc_le
  have hOne : (1 : BitVec 10).toNat = 1 := rfl
  have hLast : v.hc = hpixels ↔ v.hc.toNat = 799 := by
    rw [← BitVec.toNat_inj]; rfl
  have hLine : v.vc = vlines ↔ v.vc.toNat = 524 := by
    rw [← BitVec.toNat_inj]; rfl
  simp only [VgaController.posedgeClkdiv, hLast, hLine]
  constructor
  · split_ifs
    · rfl
    · rw [BitVec.toNat_add]
      omega
  · split_ifs
    · rfl
    · rw [BitVec.toNat_add]
      omega
    · rfl

/-- The next place and the level of `vs` at a pixel clock. -/
theorem Scanning.posedgeClkdiv :
    v.posedgeClkdiv.Scanning ∧
      v.posedgeClkdiv.place = (if v.place = 419999 then 0 else v.place + 1) ∧
      (v.posedgeClkdiv.vs && !v.vs) = decide (v.place = 392800) := by
  obtain ⟨hHcNext, hVcNext⟩ := h.counters
  obtain ⟨hHc, hVc, hVs⟩ := h
  have hVsNext : v.posedgeClkdiv.vs =
      !(decide (v.vc.toNat + 1 = 490) || decide (v.vc.toNat + 1 = 491)) := rfl
  have hPlace : v.posedgeClkdiv.place = if v.place = 419999 then 0 else v.place + 1 := by
    unfold place
    rw [hHcNext, hVcNext]
    split_ifs <;> omega
  unfold place at hPlace hVs
  refine ⟨⟨?_, ?_, ?_⟩, hPlace, ?_⟩
  · rw [hHcNext]; split_ifs <;> omega
  · rw [hVcNext]; split_ifs <;> omega
  · rw [hVsNext]
    unfold place
    rw [hPlace, Bool.eq_iff_iff]
    simp only [Bool.not_eq_true', Bool.or_eq_false_iff, Bool.and_eq_false_iff,
      decide_eq_false_iff_not]
    split_ifs <;> omega
  · rw [hVsNext, hVs]
    unfold place
    rw [Bool.eq_iff_iff]
    simp only [Bool.and_eq_true, Bool.not_eq_true', Bool.or_eq_false_iff, Bool.not_not,
      decide_eq_false_iff_not, decide_eq_true_eq]
    omega

end Tick

/-- One `Clk` edge moves the phase by one and raises `vs` only at its wrap. -/
theorem Scanning.posedgeClk (h : v.Scanning) :
    (v.posedgeClk false).Scanning ∧ (v.posedgeClk false).phase = (v.phase + 1) % 840000 ∧
      v.vsRises false = decide (v.phase = 839999) := by
  have hBound : v.place ≤ 419999 := by
    have hHc := h.hc_le
    have hVc := h.vc_le
    unfold place
    omega
  cases hDiv : v.clkdiv with
  | true =>
      have hEdge : v.posedgeClk false = { v with clkdiv := false } := by
        simp [VgaController.posedgeClk, hDiv]
      have hPhase := phase_of_high hDiv
      have hNext : (v.posedgeClk false).phase = (2 * v.place + 894399) % 840000 := by
        rw [hEdge, phase_of_low rfl]
        rfl
      refine ⟨by rw [hEdge]; exact ⟨h.hc_le, h.vc_le, h.vs_eq⟩, ?_, ?_⟩
      · rw [hNext, hPhase]
        omega
      · rw [vsRises, hEdge, Bool.and_not_self, hPhase, eq_comm, decide_eq_false_iff_not]
        omega
  | false =>
      have hEdge : v.posedgeClk false = { v with clkdiv := true }.posedgeClkdiv := by
        simp [VgaController.posedgeClk, hDiv]
      have hSame : { v with clkdiv := true }.Scanning := ⟨h.hc_le, h.vc_le, h.vs_eq⟩
      obtain ⟨hScan, hPlace, hRises⟩ := hSame.posedgeClkdiv
      have hPhase := phase_of_low hDiv
      have hHigh : (v.posedgeClk false).clkdiv = true := by
        rw [hEdge]
        rfl
      have hNext := phase_of_high hHigh
      refine ⟨by rw [hEdge]; exact hScan, ?_, ?_⟩
      · have hPlace' : (v.posedgeClk false).place =
            if v.place = 419999 then 0 else v.place + 1 := by
          rw [hEdge]
          exact hPlace
        rw [hNext, hPlace', hPhase]
        split_ifs <;> omega
      · have hRises' : v.vsRises false = decide (v.place = 392800) := by
          rw [vsRises, hEdge]
          exact hRises
        rw [hRises', decide_eq_decide, hPhase]
        omega

/-- Every edge keeps the registers in the scan. -/
theorem Scans.posedgeClk (h : v.Scans) : (v.posedgeClk false).Scanning := by
  rcases h with rfl | h
  · exact posedgeClk_fresh.1
  · exact h.posedgeClk.1

/-- Between two edges of `vs` the phase counts every `Clk` edge. -/
theorem Scans.phase_of_not_rises (h : v.Scans) (hQuiet : v.vsRises false = false) :
    (v.posedgeClk false).phase = v.phase + 1 := by
  rcases h with rfl | h
  · rw [posedgeClk_fresh.2.2] at hQuiet
    cases hQuiet
  · obtain ⟨-, hPhase, hRises⟩ := h.posedgeClk
    have hLt := v.phase_lt
    rw [hRises, decide_eq_false_iff_not] at hQuiet
    omega

end TwoBallGame.VgaController
