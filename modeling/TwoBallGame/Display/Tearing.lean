import TwoBallGame.Display.Frames
import TwoBallGame.Game.Step

/-! The registers of balls and elements over one scan of the screen. They move only with
`vs`, which rises far below the last displayed line; on the way from the first displayed
pixel to the last only an entry of `RESET` clears the elements. The flags of the state
machine are not held back so: text and ready flags may change in the middle of a scan. -/
namespace TwoBallGame

open Clocked VgaController

namespace Game

/-- `RESET` is entered at the next `Clk` edge. -/
def entersTitle (keycode : BitVec 8) (g : Game) : Bool :=
  (g.clockEdge keycode).sm.restart && !g.sm.restart

section Quiet

variable {g : Game} {keys : Nat → BitVec 8} {n : Nat}

theorem clockEdge_elements_of_entersTitle {keycode : BitVec 8}
    (h : g.entersTitle keycode = true) : (g.clockEdge keycode).AllClear := by
  have hEnters : ((g.clockEdge keycode).sm.restart && !g.sm.restart) = true := h
  intro i
  rw [clockEdge_elements, if_pos hEnters]
  rfl

theorem clockEdge_elements_of_not_entersTitle {keycode : BitVec 8}
    (h : g.entersTitle keycode = false) : (g.clockEdge keycode).elements = g.elements := by
  have hStays : ((g.clockEdge keycode).sm.restart && !g.sm.restart) = false := h
  rw [clockEdge_elements, hStays, if_neg Bool.false_ne_true]

/-- Between frame edges the elements stand still as long as `RESET` is not entered. -/
theorem elements_of_quiet (hQuiet : ∀ m < n, (g.afterClk keys m).frameEdge = false)
    (hStays : ∀ m < n, (g.afterClk keys m).entersTitle (keys m) = false) :
    (g.afterClk keys n).elements = g.elements := by
  induction n with
  | zero => rfl
  | succ n ih =>
      rw [afterClk_succ, posedgeClk_of_quiet (hQuiet n (by omega)),
        clockEdge_elements_of_not_entersTitle (hStays n (by omega))]
      exact ih (fun m hm => hQuiet m (by omega)) fun m hm => hStays m (by omega)

/-- Once `RESET` has been entered, they are clear until the next frame edge. -/
theorem allClear_of_entersTitle (hQuiet : ∀ m < n, (g.afterClk keys m).frameEdge = false)
    (hEnters : ∃ m < n, (g.afterClk keys m).entersTitle (keys m) = true) :
    (g.afterClk keys n).AllClear := by
  induction n with
  | zero =>
      obtain ⟨m, hm, -⟩ := hEnters
      exact absurd hm (Nat.not_lt_zero m)
  | succ n ih =>
      rw [afterClk_succ, posedgeClk_of_quiet (hQuiet n (by omega))]
      cases hNow : (g.afterClk keys n).entersTitle (keys n) with
      | true => exact clockEdge_elements_of_entersTitle hNow
      | false =>
          obtain ⟨m, hm, hThen⟩ := hEnters
          have hBefore : m < n := by
            have hNe : m ≠ n := by
              rintro rfl
              rw [hNow] at hThen
              cases hThen
            omega
          intro i
          rw [clockEdge_elements_of_not_entersTitle hNow]
          exact ih (fun m hm => hQuiet m (by omega)) ⟨m, hBefore, hThen⟩ i

/-- What the frame edges leave alone from one state of a run to a later one. -/
theorem scene_of_quiet {first : Nat} (hFrom : first ≤ n)
    (hQuiet : ∀ i, first ≤ i → i < n → (g.afterClk keys i).frameEdge = false) :
    (g.afterClk keys n).balls = (g.afterClk keys first).balls ∧
      ((∀ m, first ≤ m → m < n → (g.afterClk keys m).entersTitle (keys m) = false) →
        (g.afterClk keys n).elements = (g.afterClk keys first).elements) ∧
      ((∃ m, first ≤ m ∧ m < n ∧ (g.afterClk keys m).entersTitle (keys m) = true) →
        (g.afterClk keys n).AllClear) := by
  obtain ⟨k, rfl⟩ := Nat.exists_eq_add_of_le hFrom
  have hQuiet' : ∀ i < k,
      ((g.afterClk keys first).afterClk (fun i => keys (first + i)) i).frameEdge = false := by
    intro i hi
    rw [← afterClk_add]
    exact hQuiet (first + i) (by omega) (by omega)
  rw [afterClk_add]
  refine ⟨balls_of_quiet hQuiet', fun hStays => ?_, fun hEnters => ?_⟩
  · apply elements_of_quiet hQuiet'
    intro i hi
    rw [← afterClk_add]
    exact hStays (first + i) (by omega) (by omega)
  · apply allClear_of_entersTitle hQuiet'
    obtain ⟨m, hm, hLt, hThen⟩ := hEnters
    obtain ⟨i, rfl⟩ := Nat.exists_eq_add_of_le hm
    refine ⟨i, by omega, ?_⟩
    rw [← afterClk_add]
    exact hThen

/-- The scan of a game with `Reset` low, from any moment of it on. -/
theorem vga_afterClk {k : Nat} (hVga : g.vga = clkEdges k) (hReset : g.reset = false)
    (keys : Nat → BitVec 8) (n : Nat) : (g.afterClk keys n).vga = clkEdges (k + n) := by
  induction n with
  | zero => exact hVga
  | succ n ih =>
      rw [afterClk_succ, posedgeClk_vga, afterClk_reset, hReset, ih, ← clkEdges_succ, Nat.add_assoc]

/-- The game as `Reset` is released. -/
def releasedBy (g : Game) (keycode : BitVec 8) : Game := (g.posedgeReset keycode).negedgeReset

/-- The scan of a game since its last `Reset`. -/
theorem vga_releasedBy (g : Game) (keycode : BitVec 8) (n : Nat) :
    ((g.releasedBy keycode).afterClk keys n).vga = clkEdges n := by
  rw [vga_afterClk (k := 0) rfl rfl, Nat.zero_add]

end Quiet

end Game

/-- The pixel that is displayed. -/
structure VgaController.Displays (v : VgaController) (x y : Nat) : Prop where
  on : v.display = true
  column : v.drawX.toNat = x
  line : v.drawY.toNat = y

/-- A pixel of the screen is displayed at one pixel clock of every scan. -/
theorem VgaController.displays_clkEdges {x y : Nat} (hx : x < 640) (hy : y < 480) (n : Nat) :
    (clkEdges n).Displays x y ↔ (n + 1) / 2 % 420000 = 800 * y + x := by
  have hEdge := clkEdges_eq n
  obtain ⟨hX, hY⟩ := draw_pixelClocks ((n + 1) / 2)
  have hColumn : (clkEdges n).drawX.toNat = (n + 1) / 2 % 800 := by rw [hEdge]; exact hX
  have hLine : (clkEdges n).drawY.toNat = (n + 1) / 2 / 800 % 525 := by rw [hEdge]; exact hY
  constructor
  · rintro ⟨-, hx', hy'⟩
    omega
  · intro hPlace
    refine ⟨(clkEdges n).display_iff.mpr ⟨?_, ?_⟩, ?_, ?_⟩ <;> omega

/-- Within one scan no pulse of `vs` comes before a displayed pixel. -/
theorem VgaController.vsRises_before_displayed {scan i n : Nat}
    (hStart : 840000 * (scan + 1) - 1 ≤ i) (hBefore : i < n)
    (hTo : (n + 1) / 2 < 420000 * (scan + 1) + 420000) (hShown : (clkEdges n).display = true) :
    (clkEdges i).vsRises false = false := by
  have hLine := ((clkEdges n).display_iff.mp hShown).2
  rw [clkEdges_eq] at hLine
  change (pixelClocks ((n + 1) / 2)).drawY.toNat < 480 at hLine
  rw [(draw_pixelClocks _).2] at hLine
  rw [← Bool.not_eq_true, vsRises_clkEdges (by omega)]
  -- the pulse of this scan comes after its last displayed line
  omega

namespace Game

/-- After any `Reset`, with any keys: in every scan after the first each pixel of the
screen is displayed at one pixel clock, and at every displayed pixel the balls with their
paint are as they were when the scan began. So are the elements, up to an entry of
`RESET` in the scan; from that on they are all clear. -/
theorem scan_from_one_scene (g : Game) (keycode : BitVec 8) (keys : Nat → BitVec 8) (scan : Nat) :
    let s := fun n => (g.releasedBy keycode).afterClk keys n
    let first := 840000 * (scan + 1) - 1
    (∀ x y, x < 640 → y < 480 → ∃! p, 420000 * (scan + 1) ≤ p ∧
        p < 420000 * (scan + 1) + 420000 ∧ ∀ n, (n + 1) / 2 = p → (s n).vga.Displays x y) ∧
      ∀ n, 420000 * (scan + 1) ≤ (n + 1) / 2 → (n + 1) / 2 < 420000 * (scan + 1) + 420000 →
        (s n).vga.display = true →
        (s n).balls = (s first).balls ∧
          ((∀ m, first ≤ m → m < n → (s m).entersTitle (keys m) = false) →
            (s n).elements = (s first).elements) ∧
          ((∃ m, first ≤ m ∧ m < n ∧ (s m).entersTitle (keys m) = true) → (s n).AllClear) := by
  intro s first
  have hScan (n : Nat) : (s n).vga = clkEdges n := g.vga_releasedBy keycode n
  constructor
  · intro x y hx hy
    apply existsUnique_turn (show 800 * y + x < 420000 by omega)
    intro p _
    constructor
    · intro hAll
      have hOne := hAll (2 * p) (by omega)
      rw [hScan, displays_clkEdges hx hy] at hOne
      have hHalf : (2 * p + 1) / 2 = p := by omega
      rw [hHalf] at hOne
      exact hOne
    · rintro hPlace n rfl
      rw [hScan, displays_clkEdges hx hy]
      exact hPlace
  · intro n hFrom hTo hShown
    rw [hScan] at hShown
    have hQuiet : ∀ i, first ≤ i → i < n →
        ((g.releasedBy keycode).afterClk keys i).frameEdge = false := by
      intro i hi hBefore
      rw [frameEdge, g.vga_releasedBy keycode i, afterClk_reset]
      exact vsRises_before_displayed hi hBefore hTo hShown
    have hState : s = (g.releasedBy keycode).afterClk keys := rfl
    rw [hState]
    exact scene_of_quiet (by omega) hQuiet

end Game

end TwoBallGame
