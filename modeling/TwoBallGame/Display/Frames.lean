import TwoBallGame.Clocked.Divider
import TwoBallGame.Display.Scan

/-! The scan in closed form. After `n` pixel clocks the counters show `n` in the
base of the screen, and the registered sync pulses follow from the place alone;
`vs` gives the game one edge for every scanned frame. -/
namespace TwoBallGame.VgaController

open Clocked

/-- The registers after a number of pixel clocks following `Reset`. -/
def pixelClocks (n : Nat) : VgaController := posedgeClkdiv^[n] posedgeReset

/-- The registers after a number of `Clk` edges following `Reset`. -/
def clkEdges (n : Nat) : VgaController := (posedgeClk false)^[n] posedgeReset

theorem pixelClocks_succ (n : Nat) : pixelClocks (n + 1) = (pixelClocks n).posedgeClkdiv :=
  Function.iterate_succ_apply' _ _ _

theorem clkEdges_succ (n : Nat) : clkEdges (n + 1) = (clkEdges n).posedgeClk false :=
  Function.iterate_succ_apply' _ _ _

/-- Every second `Clk` edge is a pixel clock, the first one included. -/
theorem clkEdges_eq (n : Nat) :
    clkEdges n = { pixelClocks ((n + 1) / 2) with clkdiv := decide (n % 2 = 1) } := by
  induction n with
  | zero => rfl
  | succ n ih =>
      rw [clkEdges_succ, ih]
      rcases Nat.mod_two_eq_zero_or_one n with hEven | hOdd
      · have hHalf : (n + 1 + 1) / 2 = (n + 1) / 2 + 1 := by omega
        have hNext : (n + 1) % 2 = 1 := by omega
        rw [hHalf, pixelClocks_succ]
        simp [posedgeClk, posedgeClkdiv, hEven, hNext]
      · have hHalf : (n + 1 + 1) / 2 = (n + 1) / 2 := by omega
        have hNext : (n + 1) % 2 = 0 := by omega
        rw [hHalf]
        simp [posedgeClk, hOdd, hNext]

/-- From the first pixel clock on the place counts them, frame by frame. -/
theorem pixelClocks_scanning {n : Nat} (h : 1 ≤ n) :
    (pixelClocks n).Scanning ∧ (pixelClocks n).place = n % 420000 := by
  induction n, h using Nat.le_induction with
  | base => refine ⟨⟨?_, ?_, ?_⟩, ?_⟩ <;> decide
  | succ n hn ih =>
      obtain ⟨hScan, hPlace⟩ := ih
      obtain ⟨hNext, hStep, -⟩ := hScan.posedgeClkdiv
      rw [pixelClocks_succ]
      refine ⟨hNext, ?_⟩
      rw [hStep, hPlace]
      split_ifs <;> omega

theorem Scanning.draw {v : VgaController} (h : v.Scanning) :
    v.drawX.toNat = v.place % 800 ∧ v.drawY.toNat = v.place / 800 := by
  have hHc := h.hc_le
  unfold drawX drawY place
  omega

theorem draw_pixelClocks (n : Nat) :
    (pixelClocks n).drawX.toNat = n % 800 ∧ (pixelClocks n).drawY.toNat = n / 800 % 525 := by
  cases n with
  | zero => decide
  | succ n =>
      obtain ⟨hScan, hPlace⟩ := pixelClocks_scanning (Nat.succ_pos n)
      obtain ⟨hX, hY⟩ := hScan.draw
      rw [hX, hY, hPlace]
      omega

/-- `hs` looks one pixel ahead and is registered, so it fits the pixel shown. -/
theorem Scanning.hs_posedgeClkdiv {v : VgaController} (h : v.Scanning) :
    v.posedgeClkdiv.hs = false ↔
      656 ≤ v.posedgeClkdiv.drawX.toNat ∧ v.posedgeClkdiv.drawX.toNat < 752 := by
  have hHc := h.hc_le
  have hHs : v.posedgeClkdiv.hs =
      !(decide (656 ≤ v.hc.toNat + 1) && decide (v.hc.toNat + 1 < 752)) := rfl
  have hX := h.posedgeClkdiv.1.draw.1
  have hStep := h.posedgeClkdiv.2.1
  have hNow := h.draw.1
  rw [hHs]
  simp only [Bool.not_eq_false', Bool.and_eq_true, decide_eq_true_eq]
  rw [hX, hStep]
  change v.hc.toNat = v.place % 800 at hNow
  split_ifs <;> omega

theorem hs_pixelClocks {n : Nat} (h : 1 ≤ n) :
    (pixelClocks n).hs = false ↔
      656 ≤ (pixelClocks n).drawX.toNat ∧ (pixelClocks n).drawX.toNat < 752 := by
  cases n with
  | zero => omega
  | succ n =>
      rw [pixelClocks_succ]
      cases n with
      | zero => decide
      | succ n => exact (pixelClocks_scanning (Nat.succ_pos n)).1.hs_posedgeClkdiv

theorem vs_pixelClocks {n : Nat} (h : 1 ≤ n) :
    (pixelClocks n).vs = false ↔ 391201 ≤ n % 420000 ∧ n % 420000 ≤ 392800 := by
  obtain ⟨hScan, hPlace⟩ := pixelClocks_scanning h
  rw [hScan.vs_eq, hPlace]
  simp only [Bool.not_eq_false', Bool.and_eq_true, decide_eq_true_eq]

/-- The first `Clk` edge after `Reset` is a rise; from then on the phase says
where the next one is. -/
theorem vsRises_clkEdges {n : Nat} (h : 1 ≤ n) :
    (clkEdges n).vsRises false = true ↔ n % 840000 = 785600 := by
  have hPhase : (clkEdges n).Scanning ∧ (clkEdges n).phase = (n + 54399) % 840000 := by
    induction n, h using Nat.le_induction with
    | base => exact ⟨posedgeClk_fresh.1, posedgeClk_fresh.2.1⟩
    | succ n hn ih =>
        obtain ⟨hScan, hPhase⟩ := ih
        obtain ⟨hNext, hStep, -⟩ := hScan.posedgeClk
        rw [clkEdges_succ]
        refine ⟨hNext, ?_⟩
        rw [hStep, hPhase]
        omega
  obtain ⟨hScan, hPhase⟩ := hPhase
  rw [hScan.posedgeClk.2.2, hPhase, decide_eq_true_eq]
  omega

/-- `vs` rises between two pixel clocks. -/
def RisesAt (n : Nat) : Prop := (pixelClocks n).vs = false ∧ (pixelClocks (n + 1)).vs = true

/-- `vs` falls between two pixel clocks. -/
def FallsAt (n : Nat) : Prop := (pixelClocks n).vs = true ∧ (pixelClocks (n + 1)).vs = false

theorem risesAt_iff {n : Nat} (h : 1 ≤ n) : RisesAt n ↔ n % 420000 = 392800 := by
  have hNow := vs_pixelClocks h
  have hNext := vs_pixelClocks (Nat.succ_pos n)
  rw [RisesAt, hNow, ← Bool.not_eq_false, hNext]
  omega

theorem fallsAt_iff {n : Nat} (h : 1 ≤ n) : FallsAt n ↔ n % 420000 = 391200 := by
  have hNow := vs_pixelClocks h
  have hNext := vs_pixelClocks (Nat.succ_pos n)
  rw [FallsAt, hNext, ← Bool.not_eq_false, hNow]
  omega

/-- The scan and the frame clock for all time: the two counters, `hs`, the first
rise of `vs`, the length of its pulses, and its one rise in every frame, counted
in pixel clocks and in edges of `Clk`. -/
theorem scan_closed_form :
    (∀ n, (pixelClocks n).drawX.toNat = n % 800 ∧ (pixelClocks n).drawY.toNat = n / 800 % 525) ∧
    (∀ n, 1 ≤ n → ((pixelClocks n).hs = false ↔
      656 ≤ (pixelClocks n).drawX.toNat ∧ (pixelClocks n).drawX.toNat < 752)) ∧
    (pixelClocks 0).vs = false ∧ (pixelClocks 1).vs = true ∧
    (∀ n, 1 ≤ n → FallsAt n →
      (∀ i, 1 ≤ i → i ≤ 1600 → (pixelClocks (n + i)).vs = false) ∧
        (pixelClocks (n + 1601)).vs = true) ∧
    (∀ n, 1 ≤ n → ∃! k, n ≤ k ∧ k < n + 420000 ∧ RisesAt k) ∧
    (∀ n, 1 ≤ n → ∃! k, n ≤ k ∧ k < n + 840000 ∧ (clkEdges k).vsRises false = true) := by
  refine ⟨draw_pixelClocks, fun n => hs_pixelClocks, rfl, rfl, ?_, ?_, ?_⟩
  · intro n hn hFalls
    rw [fallsAt_iff hn] at hFalls
    constructor
    · intro i hOne hLast
      rw [vs_pixelClocks (by omega)]
      omega
    · rw [← Bool.not_eq_false, vs_pixelClocks (by omega)]
      omega
  · intro n hn
    apply existsUnique_turn (show 392800 < 420000 by decide)
    intro k hk
    exact risesAt_iff (hn.trans hk)
  · intro n hn
    apply existsUnique_turn (show 785600 < 840000 by decide)
    intro k hk
    exact vsRises_clkEdges (hn.trans hk)

end TwoBallGame.VgaController
