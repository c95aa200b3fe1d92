import TwoBallGame.Game.Collision
import TwoBallGame.Game.Separation
import TwoBallGame.Game.Progress

/-! The obstacle course of a level attempt: the moments at which its elements
become free to move. They follow the seconds of the schedule from the release of
the last `Collision` on, except for elements that the attempt finds launched. -/
namespace TwoBallGame

open Clocked

namespace Phase

/-- The phase of a level with `count` of its elements launched. -/
def launched (level : Fin 3) : Nat → Phase
  | 0 => wait level
  | count + 1 => play level (Fin.ofNat 10 count)

theorem launched_deadline (level : Fin 3) {count : Nat} (h : count ≤ 9) :
    (launched level count).deadline = some (since level count) := by
  have hAll : ∀ l : Fin 3, ∀ c : Fin 10,
      (launched l c).deadline = some (since l c) := by decide
  exact hAll level ⟨count, by omega⟩

theorem launched_succ (level : Fin 3) {count : Nat} (h : count ≤ 9) :
    (launched level count).succ = launched level (count + 1) := by
  have hAll : ∀ l : Fin 3, ∀ c : Fin 10, (launched l c).succ = launched l (c + 1) := by decide
  exact hAll level ⟨count, by omega⟩

theorem launched_flight (level : Fin 3) {count : Nat} (h : count ≤ 10) :
    (launched level count).first = 10 * level.val ∧
      (launched level count).frontier = 10 * level.val + count := by
  have hAll : ∀ l : Fin 3, ∀ c : Fin 11, (launched l c).first = 10 * l.val ∧
      (launched l c).frontier = 10 * l.val + c := by decide
  exact hAll level ⟨count, by omega⟩

theorem launched_ne_title (level : Fin 3) (count : Nat) : launched level count ≠ title := by
  intro h
  cases count with
  | zero => cases h
  | succ count => cases h

theorem play_eq_launched (level : Fin 3) (last : Fin 10) :
    play level last = launched level (last + 1) := by
  rw [launched, Fin.ofNat_val_eq_self]

theorem since_succ (level : Fin 3) (last : Nat) :
    since level (last + 1) = since level last + (if level = 0 then 2 else 1) := by
  unfold since
  split_ifs <;> omega

theorem since_mono (level : Fin 3) {last later : Nat} (h : last ≤ later) :
    since level last ≤ since level later := by
  unfold since
  split_ifs <;> omega

end Phase

namespace Game

/-- The `end_level` wire of an element of a level. -/
def elementOf (level : Fin 3) (k : Fin 10) : Fin 30 :=
  ⟨10 * level.val + k.val, elementOf_lt level k⟩

/-- An element is free to move: its ready flag is high, and `Reset`, `restart`
and both `Collision` are low. -/
def free (g : Game) (n : Fin 30) : Bool :=
  g.ready n && !(g.reset || g.sm.restart || g.collision)

/-- An attempt at a level begins in its waiting phase, or right after a frame
edge at which some `Collision` rose while the level was in flight. -/
def Begins (level : Fin 3) (g : Game) : Prop :=
  Reachable g ∧ g.reset = false ∧
    ((g.sm.phase = .wait level ∧ g.collision = false) ∨
      ∃ g₀ keycode last, Reachable g₀ ∧ g₀.collisionAt keycode = true ∧
        g = g₀.posedgeClk keycode ∧ g.sm.phase = .play level last)

/-- The number of elements of its level that an attempt finds launched. With a
`Collision` held those of the restart phase count. -/
def headStart (g : Game) : Nat :=
  let p := if g.collision then g.sm.phase.restart else g.sm.phase
  p.frontier - p.first

/-- `n` becomes free to move after `t` edges of `Clk`, in the same attempt. -/
structure LaunchesAt (keys : Nat → BitVec 8) (n : Fin 30) (t : Nat) (g : Game) : Prop where
  calm : ∀ m < t, (g.afterClk keys m).collisionAt (keys m) = false
  free : (g.afterClk keys t).free n = true
  before : ∀ m < t, (g.afterClk keys m).free n = false

/-- The time between the launches of any two consecutive elements of a level is
the same in all attempts at it. -/
def SameCourse : Prop :=
  ∀ (level : Fin 3) (k : Fin 9) (g g' : Game) (keys keys' : Nat → BitVec 8) (t u t' u' : Nat),
    Begins level g → Begins level g' →
    g.LaunchesAt keys (elementOf level k.castSucc) t → g.LaunchesAt keys (elementOf level k.succ) u →
    g'.LaunchesAt keys' (elementOf level k.castSucc) t' →
    g'.LaunchesAt keys' (elementOf level k.succ) u' →
    (u : Int) - t = u' - t'

/-- A level attempt at `time`, the count found at the release of the last
`Collision` and the edges since, with `count` elements launched. -/
structure OnCourse (level : Fin 3) (start time count : Nat) (g : Game) : Prop where
  resetLow : g.reset = false
  collisionLow : g.collision = false
  phase : g.sm.phase = .launched level count
  start_le : start ≤ count
  count_le : count ≤ 10
  since_le : start < count → 50000001 * Phase.since level (count - 1) + 1 ≤ time
  ticks : count ≤ 9 → g.sm.ticks = time

section OnCourse

variable {level : Fin 3} {start time count : Nat} {g : Game}

theorem OnCourse.time_le (h : g.OnCourse level start time count) (hs : g.Steady)
    (hCount : count ≤ 9) : time ≤ 50000001 * Phase.since level count := by
  rw [← h.ticks hCount]
  exact hs.timed.ticks_le _ (by rw [h.phase, Phase.launched_deadline level hCount])

/-- One calm `Clk` edge launches the next element just when its second is over. -/
theorem OnCourse.posedgeClk (h : g.OnCourse level start time count) (hs : g.Steady)
    (hCount : count ≤ 9) {keycode : BitVec 8} (hCalm : g.collisionAt keycode = false) :
    (g.posedgeClk keycode).OnCourse level start (time + 1)
      (if time = 50000001 * Phase.since level count then count + 1 else count) := by
  have hSm : (g.posedgeClk keycode).sm =
      g.sm.posedge false false (g.sm.next false keycode g.endLevel) := by
    rw [calm_sm hCalm, clockEdge_sm, h.resetLow, next_eq, h.collisionLow]
  have hDeadline : g.sm.phase.deadline = some (Phase.since level count) := by
    rw [h.phase, Phase.launched_deadline level hCount]
  have hLeaves := hs.timed.leaves_iff hDeadline keycode g.endLevel
  have hTicks := (hs.timed.posedge_ticks (g.sm.next false keycode g.endLevel) hDeadline).1
  have hPhase := g.sm.posedge_calm_phase keycode g.endLevel
  rw [← hSm] at hTicks hPhase
  rw [h.ticks hCount] at hLeaves hTicks
  have hReset : (g.posedgeClk keycode).reset = false := by rw [posedgeClk_reset, h.resetLow]
  have hLow := calm_collision hCalm h.collisionLow
  by_cases hGo : time = 50000001 * Phase.since level count
  · rw [if_pos (hLeaves.mpr hGo), h.phase, Phase.launched_succ level hCount] at hPhase
    rw [if_pos hGo]
    refine ⟨hReset, hLow, hPhase, h.start_le.trans (Nat.le_succ _), by omega, fun _ => ?_,
      fun _ => hTicks⟩
    rw [Nat.add_sub_cancel, ← hGo]
  · rw [if_neg fun hBad => hGo (hLeaves.mp hBad), h.phase] at hPhase
    rw [if_neg hGo]
    exact ⟨hReset, hLow, hPhase, h.start_le, h.count_le,
      fun hLater => (h.since_le hLater).trans (Nat.le_succ _), fun _ => hTicks⟩

/-- The attempt stays on course until its last launch, while it is calm. -/
theorem OnCourse.afterClk (h : g.OnCourse level start time start) (hReach : Reachable g)
    (keys : Nat → BitVec 8) (r : Nat) (hStart : start ≤ 9)
    (hEnd : time + r ≤ 50000001 * Phase.since level 9 + 1)
    (hCalm : ∀ m < r, (g.afterClk keys m).collisionAt (keys m) = false) :
    ∃ count, (g.afterClk keys r).OnCourse level start (time + r) count := by
  induction r with
  | zero => exact ⟨start, h⟩
  | succ r ih =>
      obtain ⟨count, hNow⟩ := ih (by omega) fun m hm => hCalm m (by omega)
      have hCount : count ≤ 9 := by
        by_contra hTen
        have hLast : count = 10 := by have := hNow.count_le; omega
        have hSince := hNow.since_le (by omega)
        rw [hLast] at hSince
        change 50000001 * Phase.since level 9 + 1 ≤ _ at hSince
        omega
      rw [afterClk_succ]
      exact ⟨_, hNow.posedgeClk (hReach.afterClk keys r).steady hCount (hCalm r (by omega))⟩

/-- The elements free to move are those found launched and those whose second
is over. -/
theorem OnCourse.free_iff (h : g.OnCourse level start time count) (hs : g.Steady) (k : Fin 10) :
    g.free (elementOf level k) = true ↔
      k.val < start ∨ 50000001 * Phase.since level k + 1 ≤ time := by
  obtain ⟨hFirst, hFront⟩ := Phase.launched_flight level h.count_le
  have hRestart := restart_of_ne_title (h.phase ▸ Phase.launched_ne_title level count)
  have hReady : g.free (elementOf level k) = true ↔ k.val < count := by
    rw [free, ready_eq_phase, h.phase, hFirst, hFront, h.resetLow, hRestart, h.collisionLow]
    simp [elementOf]
  rw [hReady]
  have hStart := h.start_le
  constructor
  · intro hLess
    by_cases hHead : k.val < start
    · exact Or.inl hHead
    · have hMono := Phase.since_mono level (show k.val ≤ count - 1 by omega)
      have hSince := h.since_le (by omega)
      exact Or.inr (by omega)
  · rintro (hHead | hTime)
    · omega
    · by_contra hNot
      have hLimit := k.isLt
      have hMono := Phase.since_mono level (show count ≤ k.val by omega)
      have hLe := h.time_le hs (by omega)
      omega

/-- The edges from the release of an attempt to the launch of its element `k`. -/
def delay (level : Fin 3) (start time : Nat) (k : Fin 10) : Nat :=
  if k.val < start then 0 else 50000001 * Phase.since level k + 1 - time

/-- In a calm attempt an element is free to move exactly from its delay on. -/
theorem OnCourse.free_after (h : g.OnCourse level start time start) (hReach : Reachable g)
    {keys : Nat → BitVec 8} {k : Fin 10} {r : Nat} (hr : r ≤ delay level start time k)
    (hCalm : ∀ m < r, (g.afterClk keys m).collisionAt (keys m) = false) :
    (g.afterClk keys r).free (elementOf level k) = true ↔ r = delay level start time k := by
  unfold delay at hr ⊢
  by_cases hHead : k.val < start
  · rw [if_pos hHead] at hr ⊢
    obtain rfl : r = 0 := by omega
    rw [afterClk_zero, h.free_iff hReach.steady k]
    exact ⟨fun _ => rfl, fun _ => Or.inl hHead⟩
  · rw [if_neg hHead] at hr ⊢
    have hLimit := k.isLt
    have hLast := Phase.since_mono level (show k.val ≤ 9 by omega)
    have hFirst := Phase.since_mono level (show start ≤ k.val by omega)
    have hTime := h.time_le hReach.steady (by omega)
    obtain ⟨count, hNow⟩ := h.afterClk hReach keys r (by omega) (by omega) hCalm
    rw [hNow.free_iff (hReach.afterClk keys r).steady k]
    omega

end OnCourse

section Release

variable {level : Fin 3} {g : Game}

/-- The phases in which an attempt can be released. -/
theorem restart_eq_launched (level : Fin 3) (last : Fin 10) :
    (Phase.play level last).restart =
      .launched level ((Phase.play level last).restart.frontier -
        (Phase.play level last).restart.first) ∧
      (Phase.play level last).restart.frontier - (Phase.play level last).restart.first ≤ 1 := by
  revert level last
  decide

/-- The frame edge that ends a held `Collision` leaves the clock cleared. -/
theorem Held.release {target : Phase} {balls : Balls} (h : g.Held target balls)
    (hTarget : target.playing = true ∧ target.restart = target ∨
      target.playing = false ∧ target ≠ .title) (hReach : Reachable g) (keycode : BitVec 8)
    (hEdge : g.frameEdge = true) :
    (g.posedgeClk keycode).reset = false ∧ (g.posedgeClk keycode).collision = false ∧
      (g.posedgeClk keycode).sm.phase = target ∧ (g.posedgeClk keycode).sm.ticks = 0 ∧
      (g.posedgeClk keycode).AllClear := by
  have hs := hReach.steady.clockEdge keycode
  have ho := hReach.ordered.clockEdge keycode
  obtain ⟨hHeld, hPhase, hSeconds, hCounter⟩ := h.clockEdge hTarget keycode
  have hRises : (g.clockEdge keycode).rises keycode = false :=
    not_rises_of_clear hs ho hHeld.clear
  have hSm := posedgeFrameClk_sm_of_not_rises hRises
  have hTicks := BlockSM.ticks_of_cleared hSeconds hCounter
  refine ⟨by rw [posedgeClk_reset, h.resetLow], ?_, ?_, ?_, ?_⟩
  · rw [posedgeClk_of_frame hEdge]
    exact collision_released hs ho hHeld.high
  · rw [posedgeClk_of_frame hEdge, hSm, hPhase]
  · rw [posedgeClk_of_frame hEdge, hSm, hTicks]
  · rw [posedgeClk_of_frame hEdge, posedgeFrameClk_of_not_rises hRises]
    intro n
    rw [hHeld.high, Bool.or_true]
    exact moveBlocks_clear (g := g.clockEdge keycode) n

/-- A held `Collision` has ended by the first moment that finds both low. -/
theorem Held.release_before {target : Phase} {balls : Balls} (h : g.Held target balls)
    (hTarget : target.playing = true ∧ target.restart = target ∨
      target.playing = false ∧ target ≠ .title) (hReach : Reachable g) {keys : Nat → BitVec 8}
    {t : Nat} (hLow : (g.afterClk keys t).collision = false) :
    ∃ T ≤ t, (∀ m < T, (g.afterClk keys m).collision = true) ∧
      (g.afterClk keys T).reset = false ∧ (g.afterClk keys T).collision = false ∧
      (g.afterClk keys T).sm.phase = target ∧ (g.afterClk keys T).sm.ticks = 0 := by
  classical
  have hExists : ∃ T, (g.afterClk keys T).collision = false := ⟨t, hLow⟩
  have hHigh : ∀ m < Nat.find hExists, (g.afterClk keys m).collision = true := fun m hm =>
    Bool.eq_true_of_not_eq_false (Nat.find_min hExists hm)
  obtain ⟨T, hT⟩ : ∃ T, Nat.find hExists = T + 1 := by
    refine Nat.exists_eq_succ_of_ne_zero fun hZero => ?_
    have hBad := Nat.find_spec hExists
    rw [hZero, afterClk_zero, h.high] at hBad
    cases hBad
  have hHeld : (g.afterClk keys T).Held target balls := by
    refine h.afterClk hTarget keys T fun m hm => ?_
    -- a frame edge before would have ended it
    refine Bool.eq_false_iff.mpr fun hEdge => ?_
    have hReach' := hReach.afterClk keys m
    have hEnded : (((g.afterClk keys m).clockEdge (keys m)).posedgeFrameClk (keys m)).collision =
        false :=
      collision_released (hReach'.steady.clockEdge (keys m)) (hReach'.ordered.clockEdge (keys m))
        (hHigh m (by omega))
    rw [← posedgeClk_of_frame hEdge, ← afterClk_succ, hHigh (m + 1) (by omega)] at hEnded
    cases hEnded
  have hEdge : (g.afterClk keys T).frameEdge = true := by
    refine Bool.eq_true_of_not_eq_false fun hQuiet => ?_
    have hEnded := Nat.find_spec hExists
    rw [hT, afterClk_succ, posedgeClk_of_quiet hQuiet, clockEdge_collision, hHeld.high] at hEnded
    cases hEnded
  have hNow := hHeld.release hTarget (hReach.afterClk keys T) (keys T) hEdge
  rw [← afterClk_succ] at hNow
  refine ⟨T + 1, hT ▸ Nat.find_min' hExists hLow, hT ▸ hHigh, ?_⟩
  exact ⟨hNow.1, hNow.2.1, hNow.2.2.1, hNow.2.2.2.1⟩

/-- A frame edge at which some `Collision` rises clears elements and count. -/
theorem frame_of_collisionAt {g₀ : Game} {keycode : BitVec 8}
    (h : g₀.collisionAt keycode = true) :
    (g₀.posedgeClk keycode).AllClear ∧ (g₀.posedgeClk keycode).sm.ticks = 0 := by
  obtain ⟨hEdge, hRises⟩ := Bool.and_eq_true_iff.mp h
  rw [posedgeClk_of_frame hEdge, posedgeFrameClk_of_rises hRises]
  obtain ⟨hSeconds, hCounter, -⟩ := (g₀.clockEdge keycode).sm.posedge_cleared
    ((g₀.clockEdge keycode).next keycode) (g₀.clockEdge keycode).reset true (Bool.or_true _)
  exact ⟨fun _ => rfl, BlockSM.ticks_of_cleared hSeconds hCounter⟩

/-- Every attempt is released into its course, with a cleared clock if some
element is launched by then. -/
theorem Begins.release (h : g.Begins level) {keys : Nat → BitVec 8} {t : Nat}
    (hLow : (g.afterClk keys t).collision = false) :
    ∃ T ≤ t, (∀ m < T, (g.afterClk keys m).collision = true) ∧
      ∃ time, (0 < g.headStart → time = 0) ∧
        (g.afterClk keys T).OnCourse level g.headStart time g.headStart := by
  obtain ⟨hReach, hReset, ⟨hWait, hCalm⟩ | ⟨g₀, keycode, last, hReach₀, hHit, hg, hPlay⟩⟩ := h
  · have hStart : g.headStart = 0 := by
      unfold headStart
      rw [hCalm, hWait]
      exact Nat.sub_self _
    rw [hStart]
    exact ⟨0, Nat.zero_le _, fun m hm => absurd hm (Nat.not_lt_zero m), g.sm.ticks,
      fun hBad => absurd hBad (Nat.lt_irrefl 0),
      hReset, hCalm, hWait, le_refl _, Nat.zero_le _, fun hBad => absurd hBad (Nat.lt_irrefl 0),
      fun _ => rfl⟩
  · obtain ⟨hClear, hTicks⟩ := frame_of_collisionAt hHit
    rw [← hg] at hClear hTicks
    cases hHigh : g.collision with
    | false =>
        have hFlight := Phase.launched_flight level (show last.val + 1 ≤ 10 by omega)
        have hStart : g.headStart = last.val + 1 := by
          simp only [headStart, hHigh, Bool.false_eq_true, if_false, hPlay,
            Phase.play_eq_launched, hFlight]
          omega
        rw [hStart]
        refine ⟨0, Nat.zero_le _, fun m hm => absurd hm (Nat.not_lt_zero m), 0,
          fun _ => rfl, hReset, hHigh, ?_, le_refl _, by omega, fun hBad => by omega,
          fun _ => hTicks⟩
        rw [afterClk_zero, hPlay, Phase.play_eq_launched]
    | true =>
        have hHeld : g.Held (Phase.play level last).restart g.balls :=
          ⟨hReset, hHigh, hClear, rfl, Or.inl (by rw [hPlay]; exact ⟨rfl, rfl⟩)⟩
        obtain ⟨T, hT, hBefore, hResetT, hLowT, hPhaseT, hTicksT⟩ :=
          hHeld.release_before (restart_target level last) hReach hLow
        have hStart : g.headStart = (Phase.play level last).restart.frontier -
            (Phase.play level last).restart.first := by
          unfold headStart
          rw [hHigh, hPlay]
          rfl
        obtain ⟨hPhase, hLe⟩ := restart_eq_launched level last
        rw [← hStart] at hPhase hLe
        exact ⟨T, hT, hBefore, 0, fun _ => rfl, hResetT, hLowT, by rw [hPhaseT, hPhase],
          le_refl _, by omega, fun hBad => absurd hBad (lt_irrefl _), fun _ => hTicksT⟩

end Release

/-- The moment of a launch, counted from the release of the attempt. -/
theorem OnCourse.launch_eq {level : Fin 3} {start time T t : Nat} {g : Game}
    {keys : Nat → BitVec 8} {k : Fin 10}
    (h : (g.afterClk keys T).OnCourse level start time start) (hReach : Reachable g)
    (hHigh : ∀ m < T, (g.afterClk keys m).collision = true)
    (hLaunch : g.LaunchesAt keys (elementOf level k) t) : t = T + delay level start time k := by
  have hFree := hLaunch.free
  obtain ⟨r, rfl⟩ : ∃ r, t = T + r := by
    refine Nat.exists_eq_add_of_le (Nat.le_of_not_lt fun hEarly => ?_)
    rw [free, hHigh t hEarly, Bool.or_true] at hFree
    simp at hFree
  have hCalm (m : Nat) (hm : m < r) :
      ((g.afterClk keys T).afterClk (fun i => keys (T + i)) m).collisionAt (keys (T + m)) =
        false := by
    rw [← afterClk_add]
    exact hLaunch.calm (T + m) (by omega)
  rw [afterClk_add] at hFree
  have hReachT := hReach.afterClk keys T
  rcases Nat.lt_trichotomy r (delay level start time k) with hEarly | hNow | hLate
  · rw [(h.free_after hReachT hEarly.le hCalm).mp hFree]
  · rw [hNow]
  · have hOn := (h.free_after hReachT (k := k) (le_refl _) fun m hm => hCalm m (by omega)).mpr rfl
    rw [← afterClk_add, hLaunch.before _ (by omega)] at hOn
    cases hOn

/-- A calm attempt launches every element after its delay. -/
theorem OnCourse.launchesAt {level : Fin 3} {start time T : Nat} {g : Game}
    {keys : Nat → BitVec 8} (k : Fin 10)
    (h : (g.afterClk keys T).OnCourse level start time start) (hReach : Reachable g)
    (hHigh : ∀ m < T, (g.afterClk keys m).collision = true)
    (hCalm : ∀ m < T + delay level start time k,
      (g.afterClk keys m).collisionAt (keys m) = false) :
    g.LaunchesAt keys (elementOf level k) (T + delay level start time k) := by
  have hReachT := hReach.afterClk keys T
  have hShifted (m : Nat) (hm : m < delay level start time k) :
      ((g.afterClk keys T).afterClk (fun i => keys (T + i)) m).collisionAt (keys (T + m)) =
        false := by
    rw [← afterClk_add]
    exact hCalm (T + m) (by omega)
  refine ⟨hCalm, ?_, fun m hm => ?_⟩
  · rw [afterClk_add]
    exact (h.free_after hReachT (le_refl _) hShifted).mpr rfl
  · refine Bool.eq_false_iff.mpr fun hFree => ?_
    rcases Nat.lt_or_ge m T with hEarly | hLate
    · rw [free, hHigh m hEarly, Bool.or_true] at hFree
      simp at hFree
    · obtain ⟨r, rfl⟩ := Nat.exists_eq_add_of_le hLate
      rw [afterClk_add] at hFree
      have hEq := (h.free_after hReachT (show r ≤ _ by omega)
        fun i hi => hShifted i (by omega)).mp hFree
      omega

/-- The time before the launch of an element, given the number of elements found
launched: none if it is one of them, the whole time from a cleared clock if it
comes right after them, and otherwise the spacing of the level. -/
def gap (level : Fin 3) (start later : Nat) : Nat :=
  match compare later start with
  | .lt => 0
  | .eq => 50000001 * Phase.since level later + 1
  | .gt => if level = 0 then 100000002 else 50000001

theorem gap_eq_iff (level : Fin 3) (start start' later : Nat) :
    gap level start later = gap level start' later ↔
      compare later start = compare later start' := by
  have hSpacing : (if level = 0 then 100000002 else 50000001) = 100000002 ∨
      (if level = 0 then 100000002 else 50000001) = 50000001 := by
    split_ifs <;> simp
  refine ⟨fun h => ?_, fun h => by rw [gap, gap, h]⟩
  unfold gap at h
  cases hOrder : compare later start <;> cases hOrder' : compare later start' <;>
    rw [hOrder, hOrder'] at h <;> first | rfl | (simp only at h; omega)

theorem OnCourse.gap_eq {level : Fin 3} {k : Fin 9} {start time T t u : Nat} {g : Game}
    {keys : Nat → BitVec 8} (hCleared : 0 < start → time = 0)
    (h : (g.afterClk keys T).OnCourse level start time start) (hReach : Reachable g)
    (hHigh : ∀ m < T, (g.afterClk keys m).collision = true)
    (ht : g.LaunchesAt keys (elementOf level k.castSucc) t)
    (hu : g.LaunchesAt keys (elementOf level k.succ) u) :
    (u : Int) - t = gap level start (k.val + 1) := by
  have hT := h.launch_eq hReach hHigh ht
  have hU := h.launch_eq hReach hHigh hu
  rw [delay, Fin.val_castSucc] at hT
  rw [delay, Fin.val_succ] at hU
  have hLimit := k.isLt
  rcases Nat.lt_trichotomy (k.val + 1) start with hLess | hEq | hMore
  · have hGap : gap level start (k.val + 1) = 0 := by
      rw [gap, Nat.compare_eq_lt.mpr hLess]
    rw [if_pos (by omega)] at hT
    rw [if_pos hLess] at hU
    omega
  · have hGap : gap level start (k.val + 1) = 50000001 * Phase.since level (k.val + 1) + 1 := by
      rw [gap, Nat.compare_eq_eq.mpr hEq]
    rw [if_pos (by omega)] at hT
    rw [if_neg (by omega), hCleared (by omega)] at hU
    omega
  · have hGap : gap level start (k.val + 1) = if level = 0 then 100000002 else 50000001 := by
      rw [gap, Nat.compare_eq_gt.mpr hMore]
    rw [if_neg (by omega)] at hT hU
    have hTime := h.time_le (hReach.afterClk keys T).steady (by omega)
    have hMono := Phase.since_mono level (show start ≤ k.val by omega)
    rw [Phase.since_succ] at hU
    split_ifs at hU hGap <;> omega

/-- Two launches of one attempt. -/
theorem Begins.gap_eq {level : Fin 3} {k : Fin 9} {t u : Nat} {g : Game}
    {keys : Nat → BitVec 8} (h : g.Begins level)
    (ht : g.LaunchesAt keys (elementOf level k.castSucc) t)
    (hu : g.LaunchesAt keys (elementOf level k.succ) u) :
    (u : Int) - t = gap level g.headStart (k.val + 1) := by
  have hLow : (g.afterClk keys t).collision = false := by
    have hFree := ht.free
    rw [free, Bool.and_eq_true, Bool.not_eq_true', Bool.or_eq_false_iff] at hFree
    exact hFree.2.2
  obtain ⟨T, -, hHigh, time, hCleared, hCourse⟩ := h.release hLow
  exact hCourse.gap_eq hCleared h.1 hHigh ht hu

end Game

end TwoBallGame
