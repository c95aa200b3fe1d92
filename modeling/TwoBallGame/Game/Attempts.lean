import TwoBallGame.Game.Course
import TwoBallGame.Game.Unsteered

/-! Attempts at a level compared. In the first level nothing can be touched
before its second element is launched, and a game left alone ends its first
attempt with a collision, after which the level starts from `BLOCK1`. -/
namespace TwoBallGame

open Clocked

namespace Game

/-- An upper bound on the `Clk` edges for which a `Collision` stays held. -/
def hold (g : Game) : Nat := if g.collision then 840000 - g.vga.phase else 0

theorem hold_drops {g : Game} (hReach : Reachable g) (hReset : g.reset = false)
    (hHigh : g.collision = true) (keycode : BitVec 8) : (g.posedgeClk keycode).hold < g.hold := by
  have hLt := g.vga.phase_lt
  have hNow : g.hold = 840000 - g.vga.phase := by rw [hold, if_pos hHigh]
  cases hEdge : g.frameEdge with
  | true =>
      have hLow : (g.posedgeClk keycode).collision = false := by
        rw [posedgeClk_of_frame hEdge]
        exact collision_released (hReach.steady.clockEdge keycode)
          (hReach.ordered.clockEdge keycode) hHigh
      rw [hold, hLow, if_neg Bool.false_ne_true]
      omega
  | false =>
      have hPhase := hReach.steady.phase_of_quiet hReset hEdge keycode
      rw [hold, hPhase]
      split_ifs <;> omega

/-- A held `Collision` is low again within the edges of a frame. -/
theorem collision_low_soon {g : Game} (hReach : Reachable g) (hReset : g.reset = false)
    (keys : Nat → BitVec 8) : ∃ n ≤ 840000, (g.afterClk keys n).collision = false := by
  have hResets (n : Nat) : (g.afterClk keys n).reset = false :=
    (afterClk_reset g keys n).trans hReset
  obtain ⟨n, hn, hLow, -⟩ := exists_first_stop
    (fun n => (g.afterClk keys n).collision = false) (fun n => (g.afterClk keys n).hold)
    fun n hHigh => hold_drops (hReach.afterClk keys n) (hResets n)
      (Bool.eq_true_of_not_eq_false hHigh) (keys n)
  refine ⟨n, hn.trans ?_, hLow⟩
  rw [afterClk_zero, hold]
  split_ifs <;> omega

/-- The first two elements are launched in every attempt with a clear start. -/
theorem Begins.launches {g : Game} (h : g.Begins 0) (hClear : g.AllClear)
    (keys : Nat → BitVec 8) {k : Fin 10} (hk : k.val ≤ 1) :
    ∃ t, g.LaunchesAt keys (elementOf 0 k) t := by
  have hPhase : g.sm.phase.InFirst := by
    obtain ⟨-, -, ⟨hWait, -⟩ | ⟨-, -, last, -, -, -, hPlay⟩⟩ := h
    · exact Or.inl hWait
    · exact Or.inr ⟨last, hPlay⟩
  have hFirst := firstLevel_of_clear h.2.1 hPhase hClear
  obtain ⟨n, hn, hLow⟩ := collision_low_soon h.1 h.2.1 keys
  obtain ⟨T, hT, hHigh, time, -, hCourse⟩ := h.release hLow
  refine ⟨_, hCourse.launchesAt k h.1 hHigh fun m hm => (hFirst.calm h.1 keys m ?_).2⟩
  have hLt := g.vga.phase_lt
  have hSince : Phase.since 0 k ≤ 3 := by
    change 2 * k.val + 1 ≤ 3
    omega
  have hDelay : delay 0 g.headStart time k ≤ 50000001 * Phase.since 0 k + 1 := by
    unfold delay
    split_ifs <;> omega
  omega

/-- A hit in the first level begins another attempt at it, with some element launched. -/
theorem Unattended.retry {g : Game} {keycode : BitVec 8} (h : g.Unattended)
    (hHit : g.collisionAt keycode = true) :
    (g.posedgeClk keycode).Begins 0 ∧ (g.posedgeClk keycode).AllClear ∧
      1 ≤ (g.posedgeClk keycode).headStart := by
  have hs := h.reachable.steady.clockEdge keycode
  have ho := h.reachable.ordered.clockEdge keycode
  have hHalf := h.unsteered.clockEdge h.reachable.ordered keycode
  obtain ⟨hEdge, hRises⟩ := Bool.and_eq_true_iff.mp hHit
  have hPlaying := ho.playing_of_rises hs hRises
  obtain ⟨hBlueLow, hRedLow⟩ := Bool.or_eq_false_iff.mp (collision_low_of_rises hs ho hRises)
  have hLevel : ∀ level last, (g.clockEdge keycode).sm.phase = .play level last → level = 0 := by
    intro level last hPhase
    rcases hHalf.phase with hTitle | hWait | ⟨last', hPlay⟩
    · rw [hPhase] at hTitle; cases hTitle
    · rw [hPhase] at hWait; cases hWait
    · rw [hPhase] at hPlay; cases hPlay; rfl
  have hInPlay : (g.clockEdge keycode).InPlay := by
    refine ⟨hPlaying, h.resetLow, hBlueLow, hRedLow, fun level last hPhase => ?_⟩
    obtain rfl := hLevel level last hPhase
    exact hHalf.last_low ho
  obtain ⟨level, last, last', hBefore, hAfter⟩ := hInPlay.phase_frame hRises
  rw [← posedgeClk_of_frame hEdge] at hAfter
  obtain rfl := hLevel level last hBefore
  refine ⟨⟨h.reachable.step (.posedgeClk keycode), by rw [posedgeClk_reset, h.resetLow], Or.inr
    ⟨g, keycode, last', h.reachable, hHit, rfl, hAfter⟩⟩, (frame_of_collisionAt hHit).1, ?_⟩
  unfold headStart
  rw [hAfter]
  have hAll : ∀ k : Fin 10, 1 ≤ (Phase.play 0 k).restart.frontier - (Phase.play 0 k).restart.first ∧
      1 ≤ (Phase.play 0 k).frontier - (Phase.play 0 k).first := by decide
  split_ifs
  · exact (hAll last').1
  · exact (hAll last').2

theorem begins_started : started.Begins 0 :=
  ⟨reachable_started, rfl, Or.inl ⟨rfl, by decide⟩⟩

/-- The first two launches of the first attempt, whatever keys are down. -/
theorem started_launches (keys : Nat → BitVec 8) {k : Fin 10} (hk : k.val ≤ 1) :
    started.LaunchesAt keys (elementOf 0 k) (50000001 * (2 * k.val + 1) + 1) := by
  have hFirst := firstLevel_of_clear rfl (Or.inl rfl) started_clear
  have hLow : started.collision = false := by decide
  have hTicks : started.sm.ticks = 0 := by decide
  have hCourse : (started.afterClk keys 0).OnCourse 0 0 0 0 :=
    ⟨rfl, hLow, rfl, le_refl _, Nat.zero_le _, fun hBad => absurd hBad (lt_irrefl _),
      fun _ => hTicks⟩
  have hDelay : 0 + delay 0 0 0 k = 50000001 * (2 * k.val + 1) + 1 := by
    rw [delay, if_neg (Nat.not_lt_zero _), Phase.since, if_pos rfl, Nat.sub_zero, Nat.zero_add]
  rw [← hDelay]
  refine hCourse.launchesAt k reachable_started (fun m hm => absurd hm (Nat.not_lt_zero m))
    fun m hm => (hFirst.calm reachable_started keys m ?_).2
  have hLt := started.vga.phase_lt
  omega

/-- Any two attempts at a level, in any runs, take the same time between the
launches of two consecutive elements exactly when the later element compares in
the same way with the number of elements each attempt finds launched. -/
theorem sameGap_iff (level : Fin 3) (k : Fin 9) (g g' : Game) (keys keys' : Nat → BitVec 8)
    (t u t' u' : Nat) (h : g.Begins level) (h' : g'.Begins level)
    (ht : g.LaunchesAt keys (elementOf level k.castSucc) t)
    (hu : g.LaunchesAt keys (elementOf level k.succ) u)
    (ht' : g'.LaunchesAt keys' (elementOf level k.castSucc) t')
    (hu' : g'.LaunchesAt keys' (elementOf level k.succ) u') :
    (u : Int) - t = u' - t' ↔
      compare (k.val + 1) g.headStart = compare (k.val + 1) g'.headStart := by
  rw [h.gap_eq ht hu, h'.gap_eq ht' hu', Nat.cast_inj]
  exact gap_eq_iff level _ _ _

/-- The first attempt with no key and with the right key held. -/
theorem sameGap_iff_started :
    ((150000004 : Nat) : Int) - (50000002 : Nat) = (150000004 : Nat) - (50000002 : Nat) ↔
      compare 1 started.headStart = compare 1 started.headStart :=
  sameGap_iff 0 0 started started (fun _ => 0) (fun _ => 7) 50000002 150000004 50000002 150000004
    begins_started begins_started (started_launches _ (by decide)) (started_launches _ (by decide))
    (started_launches _ (by decide)) (started_launches _ (by decide))

/-- The first attempt against the one that its first collision begins. -/
theorem not_sameCourse : ¬SameCourse := by
  intro hSame
  -- left alone, the first attempt ends with a hit
  have hNoKey : ∀ _ : Nat, (0 : BitVec 8) ≠ 7 ∧ (0 : BitVec 8) ≠ 4 := fun _ => by decide
  obtain ⟨n, hHit⟩ := unattended_started.next_hit hNoKey
  obtain ⟨hBegins, hClear, hStart⟩ := (unattended_started.afterClk hNoKey n).retry hHit
  obtain ⟨t, ht⟩ := begins_started.launches started_clear (fun _ => 0)
    (k := (0 : Fin 9).castSucc) (by decide)
  obtain ⟨u, hu⟩ := begins_started.launches started_clear (fun _ => 0)
    (k := (0 : Fin 9).succ) (by decide)
  obtain ⟨t', ht'⟩ := hBegins.launches hClear (fun _ => 0) (k := (0 : Fin 9).castSucc) (by decide)
  obtain ⟨u', hu'⟩ := hBegins.launches hClear (fun _ => 0) (k := (0 : Fin 9).succ) (by decide)
  have hEqual := hSame 0 0 _ _ _ _ t u t' u' begins_started hBegins ht hu ht' hu'
  rw [begins_started.gap_eq ht hu, hBegins.gap_eq ht' hu', Nat.cast_inj, gap_eq_iff] at hEqual
  have hFirst : compare ((0 : Fin 9).val + 1) started.headStart = .gt := by decide
  rw [hFirst, eq_comm, Nat.compare_eq_gt] at hEqual
  change _ < 1 at hEqual
  omega

end Game

end TwoBallGame
