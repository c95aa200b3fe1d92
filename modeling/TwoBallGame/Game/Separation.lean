import TwoBallGame.Game.FirstLevel

/-! The distance between elements in flight. Launches follow the seconds of the
state machine and falls follow the frames, two counts of the same `Clk`; an
element in flight has kept the pace of the frames since its launch. -/
namespace TwoBallGame

open Clocked

namespace Phase

/-- The second at which a launch phase begins, unless a collision began it. -/
def since (level : Fin 3) (last : Nat) : Nat :=
  if level = 0 then 2 * last + 1 else last + 5

/-- The last launch of a phase, at the deadline of the phase before. -/
theorem launch_since {p : Phase} {d : Nat} {level : Fin 3} {last : Fin 10}
    (hd : p.deadline = some d) (h : p.succ = play level last) : d = since level last := by
  have hWait : ∀ l : Fin 3, (wait l).deadline = some (since l 0) := by decide
  have hPlay : ∀ (l : Fin 3) (k : Fin 10), k ≠ 9 →
      (play l k).deadline = some (since l (k + 1 : Fin 10).val) := by decide
  cases p with
  | title => cases hd
  | wait l =>
      obtain ⟨rfl, rfl⟩ : l = level ∧ 0 = last := by simpa [succ] using h
      exact Option.some.inj (hd.symm.trans (hWait l))
  | play l k =>
      by_cases hNine : k = 9
      · rw [deadline, if_pos hNine] at hd
        cases hd
      · obtain ⟨rfl, rfl⟩ : l = level ∧ k + 1 = last := by simpa [succ, hNine] using h
        exact Option.some.inj (hd.symm.trans (hPlay l k hNine))
  | closing l =>
      rw [succ] at h
      split_ifs at h

/-- Two launches of a level are at least one second apart, two in the first level. -/
theorem since_add_lt {level : Fin 3} {last : Fin 10} {d : Nat}
    (hd : (play level last).deadline = some d) :
    since level last + (if level = 0 then 2 else 1) = d := by
  have hAll : ∀ (l : Fin 3) (k : Fin 10), k = 9 ∨
      (play l k).deadline = some (since l k + (if l = 0 then 2 else 1)) := by decide
  rcases hAll level last with rfl | hSome
  · cases hd
  · exact Option.some.inj (hSome.symm.trans hd)

/-- After an edge of a held collision at most the first element is in flight. -/
theorem next_flight (p : Phase) (keycode : BitVec 8) (seconds : BitVec 10)
    (endLevel : Fin 30 → Bool) :
    (p.next true keycode seconds endLevel).frontier ≤
      (p.next true keycode seconds endLevel).first + 1 := by
  have hRestart : ∀ (l : Fin 3) (k : Fin 10),
      (play l k).restart.frontier ≤ (play l k).restart.first + 1 := by decide
  have hClosing : ∀ l : Fin 3, (closing l).succ.frontier ≤ (closing l).succ.first + 1 := by decide
  cases p with
  | play l k => exact hRestart l k
  | title =>
      simp only [next, playing, Bool.and_false, Bool.false_eq_true, if_false]
      split_ifs
      · exact Nat.le_succ _
      · exact Nat.le_succ _
  | wait l =>
      simp only [next, playing, Bool.and_false, Bool.false_eq_true, if_false]
      split_ifs
      · exact Nat.le_refl _
      · exact Nat.le_succ _
  | closing l =>
      simp only [next, playing, Bool.and_false, Bool.false_eq_true, if_false]
      split_ifs
      · exact hClosing l
      · exact Nat.le_succ _

/-- An element is launched from a waiting phase or from an earlier launch. -/
theorem launch_cases {p : Phase} (h : p.succ.frontier = p.frontier + 1) :
    (∃ level, p = wait level) ∨ ∃ level last, p = play level last ∧ last ≠ 9 := by
  have hClosing : ∀ l : Fin 3, (closing l).succ.frontier ≠ (closing l).frontier + 1 := by decide
  cases p with
  | title => cases h
  | wait level => exact Or.inl ⟨level, rfl⟩
  | closing level => exact absurd h (hClosing level)
  | play level last =>
      refine Or.inr ⟨level, last, rfl, fun hNine => ?_⟩
      rw [succ, if_pos hNine, hNine] at h
      change 10 * level.val + 10 = 10 * level.val + 9 + 1 + 1 at h
      omega

end Phase

theorem level_cases (level : Fin 3) : level = 0 ∨ level = 1 ∨ level = 2 := by
  revert level
  decide

namespace Game

/-- The state of an attempt with all elements of the level still above the
screen: the level's waiting phase, or `BLOCK1` with the clock cleared. -/
def AttemptStart (level : Fin 3) (g : Game) : Prop :=
  g.sm.phase = .wait level ∨
    level = 0 ∧ g.sm.phase = .play 0 0 ∧ g.sm.seconds = 0 ∧ g.sm.counter = 0

/-- Two elements of one level that are both on screen are 118 lines apart, the
earlier one below; the later one then ends more than a ball's diameter above. -/
def Separated (g : Game) : Prop :=
  ∀ e e' : Fin 30, e.val / 10 = e'.val / 10 → e < e' →
    0 < g.y e → g.y e ≤ 479 → 0 < g.y e' → g.y e' ≤ 479 →
    g.y e' + 118 ≤ g.y e ∧ g.y e' + 20 + 2 * ballSize.toNat < g.y e

/-- What a calm attempt keeps, `passed` edges after the last frame edge. -/
structure Spaced (passed : Nat) (g : Game) : Prop where
  pace : ∀ level last, g.sm.phase = .play level last → last ≠ 9 →
    ∀ n : Fin 30, n.val = 10 * level.val + last.val → 479 < g.y n ∨
      (level.val + 1) * g.sm.ticks ≤ 840000 * g.y n +
        (level.val + 1) * (passed + 50000001 * Phase.since level last + 1)
  gaps : ∀ n m : Fin 30, g.sm.phase.first ≤ n.val → m.val = n.val + 1 →
    m.val < g.sm.phase.frontier → 479 < g.y n ∨ g.y m + 118 ≤ g.y n
  held : g.collision = true → g.sm.phase.frontier ≤ g.sm.phase.first + 1 ∧
    (g.sm.phase.playing = true → g.sm.ticks = 0)

section Spaced

variable {g : Game} {passed : Nat}

theorem Spaced.mono (h : g.Spaced passed) {later : Nat} (hle : passed ≤ later) :
    g.Spaced later := by
  refine ⟨fun level last hPhase hNine n hn => ?_, h.gaps, h.held⟩
  rcases h.pace level last hPhase hNine n hn with hGone | hPace
  · exact Or.inl hGone
  · refine Or.inr (hPace.trans ?_)
    gcongr

/-- Nothing is in flight, or nothing but a first element on a cleared clock. -/
theorem spaced_of_first (hFlight : g.sm.phase.frontier ≤ g.sm.phase.first + 1)
    (hTicks : ∀ level last, g.sm.phase = .play level last →
      g.sm.ticks ≤ 50000001 * Phase.since level last + 1)
    (hHeld : g.collision = true → g.sm.phase.playing = true → g.sm.ticks = 0) :
    g.Spaced passed := by
  refine ⟨fun level last hPhase _ n _ => Or.inr ?_, fun n m hn hm hmf => ?_,
    fun hHigh => ⟨hFlight, hHeld hHigh⟩⟩
  · have hLe := hTicks level last hPhase
    calc (level.val + 1) * g.sm.ticks
        ≤ (level.val + 1) * (passed + 50000001 * Phase.since level last + 1) := by
          gcongr
          omega
      _ ≤ _ := Nat.le_add_left _ _
  · omega

theorem spaced_of_not_playing (h : g.sm.phase.playing = false) : g.Spaced passed := by
  have hFlight := g.sm.phase.playing_iff
  rw [h] at hFlight
  refine spaced_of_first ?_ (fun level last hPhase => ?_) fun _ hPlaying => ?_
  · have hNot := hFlight.not.mp Bool.false_ne_true
    omega
  · rw [hPhase] at h
    cases h
  · rw [h] at hPlaying
    cases hPlaying

/-- The pace kept up to a deadline is a distance of 118 lines. -/
theorem far_of_pace {level : Fin 3} {last : Fin 10} {d y ticks : Nat}
    (hd : (Phase.play level last).deadline = some d) (hTicks : ticks = 50000001 * d)
    (hPassed : passed < 840000)
    (hPace : (level.val + 1) * ticks ≤ 840000 * y +
      (level.val + 1) * (passed + 50000001 * Phase.since level last + 1)) : 118 ≤ y := by
  have hSince := Phase.since_add_lt hd
  rcases level_cases level with rfl | rfl | rfl
  · simp only [if_true] at hSince
    change (0 + 1) * ticks ≤ 840000 * y + (0 + 1) * (_ + _ + 1) at hPace
    omega
  · rw [if_neg (by decide)] at hSince
    change (1 + 1) * ticks ≤ 840000 * y + (1 + 1) * (_ + _ + 1) at hPace
    omega
  · rw [if_neg (by decide)] at hSince
    change (2 + 1) * ticks ≤ 840000 * y + (2 + 1) * (_ + _ + 1) at hPace
    omega

/-- A launch: the last element in flight has fallen 118 lines since its own. -/
theorem Spaced.launch (h : g.Spaced passed) (hs : g.Steady) (ho : g.Ordered)
    (hPassed : passed < 840000) {keycode : BitVec 8} {g' : Game}
    (hSm : g'.sm = g.sm.posedge false false (g.sm.next false keycode g.endLevel))
    (hGo : g.sm.phase.leaves keycode g.sm.seconds g.endLevel = true)
    (hPhase : g'.sm.phase = g.sm.phase.succ) (hFirst : g.sm.phase.succ.first = g.sm.phase.first)
    (hFront : g.sm.phase.succ.frontier = g.sm.phase.frontier + 1)
    (hY : ∀ n, g'.y n = g.y n) (hLow : g'.collision = true → False) :
    g'.Spaced (passed + 1) := by
  have hCases := Phase.launch_cases hFront
  obtain ⟨d, hd⟩ : ∃ d, g.sm.phase.deadline = some d := by
    rcases hCases with ⟨level, hWait⟩ | ⟨level, last, hPlay, hNine⟩
    · exact ⟨_, by rw [hWait]; rfl⟩
    · exact ⟨_, by rw [hPlay]; exact if_neg hNine⟩
  have hDeadline := (hs.timed.leaves_iff hd keycode g.endLevel).mp hGo
  have hTicks := (hs.timed.posedge_ticks (g.sm.next false keycode g.endLevel) hd).1
  rw [← hSm] at hTicks
  refine ⟨fun level last hNow _ n _ => Or.inr ?_, fun n m hn hm hmf => ?_,
    fun hBad => (hLow hBad).elim⟩
  · have hSince := Phase.launch_since hd (hPhase ▸ hNow)
    rw [hTicks, hDeadline, hSince]
    calc (level.val + 1) * (50000001 * Phase.since level last + 1)
        ≤ (level.val + 1) * (passed + 1 + 50000001 * Phase.since level last + 1) := by
          gcongr
          omega
      _ ≤ _ := Nat.le_add_left _ _
  · rw [hPhase] at hn hmf
    rw [hY, hY]
    by_cases hOld : m.val < g.sm.phase.frontier
    · exact h.gaps n m (by omega) hm hOld
    · have hZero : g.y m = 0 := ho.ahead m (by omega)
      rcases hCases with ⟨level, hWait⟩ | ⟨level, last, hPlay, hNine⟩
      · rw [hWait] at hOld
        rw [hFirst, hWait] at hn
        change ¬m.val < 10 * level.val at hOld
        change 10 * level.val ≤ n.val at hn
        rw [hFront, hWait] at hmf
        change m.val < 10 * level.val + 1 at hmf
        omega
      · rw [hPlay] at hOld
        rw [hFront, hPlay] at hmf
        change ¬m.val < 10 * level.val + last.val + 1 at hOld
        change m.val < 10 * level.val + last.val + 1 + 1 at hmf
        rcases h.pace level last hPlay hNine n (by omega) with hGone | hPace
        · exact Or.inl hGone
        · have hFar := far_of_pace (hPlay ▸ hd) hDeadline hPassed hPace
          exact Or.inr (by omega)

/-- No launch: the last element in flight has had one more edge for its pace. -/
theorem Spaced.stay (h : g.Spaced passed) (hs : g.Steady) {keycode : BitVec 8} {g' : Game}
    (hSm : g'.sm = g.sm.posedge false false (g.sm.next false keycode g.endLevel))
    (hPhase : g'.sm.phase = g.sm.phase) (hY : ∀ n, g'.y n = g.y n)
    (hLow : g'.collision = true → False) : g'.Spaced (passed + 1) := by
  refine ⟨fun level last hNow hNine n hn => ?_, fun n m hn hm hmf => ?_,
    fun hBad => (hLow hBad).elim⟩
  · obtain ⟨d, hd⟩ : ∃ d, g.sm.phase.deadline = some d :=
      ⟨_, by rw [← hPhase, hNow]; exact if_neg hNine⟩
    have hTicks := (hs.timed.posedge_ticks (g.sm.next false keycode g.endLevel) hd).1
    rw [← hSm] at hTicks
    rw [hY, hTicks]
    rcases h.pace level last (hPhase ▸ hNow) hNine n hn with hGone | hPace
    · exact Or.inl hGone
    · exact Or.inr (by linarith)
  · rw [hY, hY]
    exact h.gaps n m (hPhase ▸ hn) hm (hPhase ▸ hmf)

/-- An edge of a held collision leaves at most a first element, on a cleared clock. -/
theorem spaced_clockEdge_of_collision (hReset : g.reset = false) (hHigh : g.collision = true)
    (keycode : BitVec 8) : (g.clockEdge keycode).Spaced passed := by
  obtain ⟨hSeconds, hCounter, -⟩ :=
    g.sm.posedge_cleared (g.next keycode) g.reset g.collision (by rw [hHigh, Bool.or_true])
  rw [← clockEdge_sm] at hSeconds hCounter
  have hTicks := BlockSM.ticks_of_cleared hSeconds hCounter
  have hPhase := clockEdge_phase hReset keycode
  rw [hHigh] at hPhase
  refine spaced_of_first ?_ (fun _ _ _ => by rw [hTicks]; exact Nat.zero_le _) fun _ _ => hTicks
  rw [hPhase]
  exact Phase.next_flight _ _ _ _

/-- The first half of a `Clk` edge, on which the clock may launch one element. -/
theorem Spaced.clockEdge (h : g.Spaced passed) (hs : g.Steady) (ho : g.Ordered)
    (hReset : g.reset = false) (hPassed : passed < 840000) (keycode : BitVec 8) :
    (g.clockEdge keycode).Spaced (passed + 1) := by
  cases hHigh : g.collision with
  | true => exact spaced_clockEdge_of_collision hReset hHigh keycode
  | false =>
      have hSm : (g.clockEdge keycode).sm =
          g.sm.posedge false false (g.sm.next false keycode g.endLevel) := by
        rw [clockEdge_sm, hReset, next_eq, hHigh]
      have hPhase := g.sm.posedge_calm_phase keycode g.endLevel
      rw [← hSm] at hPhase
      have hLow : (g.clockEdge keycode).collision = true → False := by
        rw [clockEdge_collision, hHigh]
        exact fun hBad => nomatch hBad
      by_cases hPlay : (g.clockEdge keycode).sm.phase.playing = true
      swap
      · exact spaced_of_not_playing (Bool.eq_false_iff.mpr hPlay)
      have hY : ∀ n, (g.clockEdge keycode).y n = g.y n := clockEdge_y_of_ne_title (by
        intro hTitle
        rw [hTitle] at hPlay
        cases hPlay)
      by_cases hGo : g.sm.phase.leaves keycode g.sm.seconds g.endLevel = true
      · rw [if_pos hGo] at hPhase
        rw [Phase.playing_iff, hPhase] at hPlay
        rcases g.sm.phase.succ_cases with hTitle | hTitle | ⟨hFirst, hFront⟩ | ⟨hFirst, hFront⟩
        · rw [hTitle] at hPlay
          exact absurd hPlay (lt_irrefl _)
        · rw [hTitle] at hPlay
          exact absurd hPlay (lt_irrefl _)
        · exact h.launch hs ho hPassed hSm hGo hPhase hFirst hFront hY hLow
        · omega
      · rw [if_neg hGo] at hPhase
        exact h.stay hs hSm hPhase hY hLow

/-- A frame edge restores the pace: an element falls by its step in its 840,000 edges. -/
theorem pace_of_fall {level ticks y since : Nat} (hPassed : passed ≤ 840000)
    (hPace : (level + 1) * ticks ≤ 840000 * y + (level + 1) * (passed + since + 1)) :
    (level + 1) * ticks ≤ 840000 * (y + (level + 1)) + (level + 1) * (0 + since + 1) := by
  calc (level + 1) * ticks
      ≤ 840000 * y + (level + 1) * (passed + since + 1) := hPace
    _ ≤ 840000 * y + (level + 1) * (840000 + since + 1) := by gcongr
    _ = 840000 * (y + (level + 1)) + (level + 1) * (0 + since + 1) := by ring

/-- The second half, if it is a frame edge: everything in flight falls together. -/
theorem Spaced.posedgeFrameClk (h : g.Spaced passed) (ho : g.Ordered) (hReset : g.reset = false)
    (hPassed : passed ≤ 840000) {keycode : BitVec 8} (hRises : g.rises keycode = false) :
    (g.posedgeFrameClk keycode).Spaced 0 := by
  have hSm := posedgeFrameClk_sm_of_not_rises hRises
  have hPhase : (g.posedgeFrameClk keycode).sm.phase = g.sm.phase := by rw [hSm]
  by_cases hPlay : g.sm.phase.playing = true
  swap
  · exact spaced_of_not_playing (hPhase ▸ Bool.eq_false_iff.mpr hPlay)
  have hNotTitle : g.sm.phase ≠ .title := by
    intro hTitle
    rw [hTitle] at hPlay
    cases hPlay
  cases hHigh : g.collision with
  | true =>
      obtain ⟨hFlight, hTicks⟩ := h.held hHigh
      refine spaced_of_first (hPhase ▸ hFlight) (fun _ _ _ => ?_) fun _ _ => ?_
      · rw [hSm, hTicks hPlay]
        exact Nat.zero_le _
      · rw [hSm, hTicks hPlay]
  | false =>
      have hLow := collision_of_not_rises hRises hHigh
      have hMoves (n : Fin 30) (hn : g.sm.phase.first ≤ n.val) (hf : n.val < g.sm.phase.frontier) :
          (479 < g.y n ∧ (g.posedgeFrameClk keycode).y n = g.y n) ∨
            (g.y n ≤ 479 ∧ (g.posedgeFrameClk keycode).y n = g.y n + (n.val / 10 + 1)) := by
        apply ho.frame_of_ready hRises
        · exact free_of_ne_title hNotTitle hReset hHigh
        · exact (ready_iff g n).mpr ⟨hn, hf⟩
      refine ⟨fun level last hNow hNine n hn => ?_, fun n m hn hm hmf => ?_, fun hBad => ?_⟩
      · rw [hPhase] at hNow
        have hLast := last.isLt
        have hStep : n.val / 10 = level.val := by omega
        have hFlight : g.sm.phase.first ≤ n.val ∧ n.val < g.sm.phase.frontier := by
          rw [hNow]
          change 10 * level.val ≤ _ ∧ _ < 10 * level.val + last.val + 1
          omega
        rcases hMoves n hFlight.1 hFlight.2 with ⟨hGone, hSame⟩ | ⟨hOn, hFall⟩
        · exact Or.inl (by omega)
        · rcases h.pace level last hNow hNine n hn with hGone | hPace
          · omega
          · right
            rw [hSm, hFall, hStep]
            exact pace_of_fall hPassed hPace
      · rw [hPhase] at hn hmf
        have hLimits := g.sm.phase.frontier_le
        have hStep : n.val / 10 = m.val / 10 := by omega
        rcases hMoves n hn (by omega) with ⟨hGone, hSame⟩ | ⟨hOn, hFall⟩
        · exact Or.inl (by omega)
        · rcases h.gaps n m hn hm hmf with hGone | hGap
          · omega
          · rcases hMoves m (by omega) hmf with ⟨hGone, -⟩ | ⟨-, hFall'⟩
            · omega
            · exact Or.inr (by omega)
      · rw [hLow] at hBad
        cases hBad

/-- One calm `Clk` edge of an attempt. -/
theorem Spaced.posedgeClk (h : g.Spaced g.vga.phase) (hs : g.Steady) (ho : g.Ordered)
    (hReset : g.reset = false) {keycode : BitVec 8} (hCalm : g.collisionAt keycode = false) :
    (g.posedgeClk keycode).Spaced (g.posedgeClk keycode).vga.phase := by
  have hLt := g.vga.phase_lt
  have hHalf := h.clockEdge hs ho hReset hLt keycode
  cases hEdge : g.frameEdge with
  | true =>
      rw [collisionAt, hEdge, Bool.true_and] at hCalm
      rw [posedgeClk_of_frame hEdge]
      exact (hHalf.posedgeFrameClk (ho.clockEdge keycode) hReset hLt hCalm).mono (Nat.zero_le _)
  | false =>
      rw [hs.phase_of_quiet hReset hEdge keycode, posedgeClk_of_quiet hEdge]
      exact hHalf

/-- Distances in a level follow from those between neighbours. -/
theorem Spaced.separated (h : g.Spaced passed) (ho : g.Ordered) : g.Separated := by
  intro e e' hLevel hLt hPos hOn hPos' hOn'
  have hLt' : e.val < e'.val := hLt
  have hLimits := g.sm.phase.frontier_le
  have hFlight (n : Fin 30) (hn : 0 < g.y n) (hn' : g.y n ≤ 479) :
      g.sm.phase.first ≤ n.val ∧ n.val < g.sm.phase.frontier := by
    by_contra hOut
    rcases ho.out_of_flight hOut with hZero | hGone <;> omega
  obtain ⟨hFirst, hFront⟩ := hFlight e hPos hOn
  obtain ⟨hFirst', hFront'⟩ := hFlight e' hPos' hOn'
  -- the neighbour of `e` is no further than `e'`
  have hNext : e.val + 1 < 30 := by omega
  have hGap := h.gaps e ⟨e.val + 1, hNext⟩ hFirst rfl (by simp only; omega)
  have hOrder := ho.order ⟨e.val + 1, hNext⟩ e' (by simp only; omega)
    (Fin.le_def.mpr (by simp only; omega)) hFront'
  have hSize : ballSize.toNat = 4 := rfl
  rcases hGap with hGone | hGap
  · omega
  · rcases hOrder with hLe | hGone
    · omega
    · omega

theorem AttemptStart.spaced {level : Fin 3} (h : g.AttemptStart level) : g.Spaced passed := by
  rcases h with hWait | ⟨-, hPlay, hSeconds, hCounter⟩
  · exact spaced_of_not_playing (by rw [hWait]; rfl)
  · have hTicks := BlockSM.ticks_of_cleared hSeconds hCounter
    refine spaced_of_first (by rw [hPlay]; decide) (fun _ _ _ => ?_) fun _ _ => hTicks
    rw [hTicks]
    exact Nat.zero_le _

end Spaced

/-- From the start of an attempt on, until the next `Collision` or `Reset`, the
elements in flight are kept apart. -/
theorem separated_of_attemptStart (g : Game) (level : Fin 3) (keys : Nat → BitVec 8) (n : Nat)
    (h : Reachable g) (hReset : g.reset = false) (hStart : g.AttemptStart level)
    (hCalm : ∀ m < n, (g.afterClk keys m).collisionAt (keys m) = false) :
    (g.afterClk keys n).Separated := by
  have hSpaced : (g.afterClk keys n).reset = false ∧
      (g.afterClk keys n).Spaced (g.afterClk keys n).vga.phase := by
    induction n with
    | zero => exact ⟨hReset, hStart.spaced⟩
    | succ n ih =>
        obtain ⟨hLow, hSpaced⟩ := ih fun m hm => hCalm m (by omega)
        have hReach := h.afterClk keys n
        rw [afterClk_succ]
        exact ⟨by rw [posedgeClk_reset, hLow],
          hSpaced.posedgeClk hReach.steady hReach.ordered hLow (hCalm n (by omega))⟩
  exact hSpaced.2.separated (h.afterClk keys n).ordered

/-- The first attempt four seconds after the start key, with two elements in flight. -/
theorem separated_fourSeconds : (started.afterClk (fun _ => 0) 200000000).Separated :=
  separated_of_attemptStart started 0 (fun _ => 0) 200000000 reachable_started rfl (Or.inl rfl)
    fun _ hm => started_calm (fun _ => 0) (by omega)

end Game

end TwoBallGame
