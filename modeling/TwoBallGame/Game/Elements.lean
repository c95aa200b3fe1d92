import TwoBallGame.Balls.Contact
import TwoBallGame.Game.Step

/-! The thirty elements. Within a level an element launched earlier is never
behind a later one, so the last one to end is the last one launched, and an
element that is not ready stands above or below the balls. -/
namespace TwoBallGame

open Clocked

namespace Phase

/-- What the end of a phase does to the elements in flight: nothing is left of
them, one more is launched, or the level has ended. -/
theorem succ_cases (p : Phase) :
    p = title ∨ p.succ = title ∨
      (p.succ.first = p.first ∧ p.succ.frontier = p.frontier + 1) ∨
      (p.succ.first = p.frontier ∧ p.succ.frontier = p.frontier) := by
  cases p with
  | title => exact Or.inl rfl
  | wait level => exact Or.inr (Or.inr (Or.inl ⟨rfl, rfl⟩))
  | play level last => revert level last; decide
  | closing level => revert level; decide

theorem frontier_le (p : Phase) : p.frontier ≤ 30 ∧ p.first ≤ p.frontier ∧
    p.frontier ≤ p.first + 10 ∧ p.first % 10 = 0 := by
  cases p with
  | title => decide
  | wait level => revert level; decide
  | play level last => revert level last; decide
  | closing level => revert level; decide

theorem playing_iff (p : Phase) : p.playing = true ↔ p.first < p.frontier := by
  cases p with
  | play l k => exact ⟨fun _ => Nat.lt_succ_of_le (Nat.le_add_right _ _), fun _ => rfl⟩
  | title => exact ⟨fun h => absurd h Bool.false_ne_true, fun h => absurd h (lt_irrefl _)⟩
  | wait l => exact ⟨fun h => absurd h Bool.false_ne_true, fun h => absurd h (lt_irrefl _)⟩
  | closing l => exact ⟨fun h => absurd h Bool.false_ne_true, fun h => absurd h (lt_irrefl _)⟩

/-- A level in flight is left without a new launch only for its last element. -/
theorem leaves_last {p : Phase} {keycode : BitVec 8} {seconds : BitVec 10}
    {endLevel : Fin 30 → Bool} (h : p.leaves keycode seconds endLevel = true)
    (hFlight : p.first < p.frontier) (hLast : p.succ.first = p.frontier) :
    ∃ n : Fin 30, n.val + 1 = p.frontier ∧ endLevel n = true := by
  cases p with
  | title => cases hFlight
  | wait level => exact absurd hFlight (lt_irrefl _)
  | closing level => exact absurd hFlight (lt_irrefl _)
  | play level last =>
      by_cases hNine : last = 9
      · rw [leaves, if_pos hNine] at h
        exact ⟨⟨10 * level.val + 9, by omega⟩, by rw [hNine]; rfl, h⟩
      · rw [succ, if_neg hNine] at hLast
        simp only [first, frontier] at hLast
        omega

/-- A collision never closes a level. -/
theorem restart_ne_closing {p : Phase} (h : p.playing = true) (level : Fin 3) :
    p.restart ≠ closing level := by
  cases p with
  | play l k => revert l k level; decide
  | title => cases h
  | wait l => cases h
  | closing l => cases h

theorem succ_eq_closing {p : Phase} {level : Fin 3} (h : p.succ = closing level) :
    p = play level 9 := by
  cases p with
  | play l k => revert l k level; decide
  | title => cases h
  | wait l => cases h
  | closing l => revert l level; decide

end Phase

/-- Elements of one level fall with one step. -/
theorem blockYStep_eq (n : Fin 30) : (instanceAt n).blockYStep.toNat = n.val / 10 + 1 := by
  revert n
  decide

namespace Game

/-- The order of the elements at any time. -/
structure Ordered (g : Game) : Prop where
  clear : g.reset = true ∨ g.sm.restart = true ∨ g.collision = true → g.AllClear
  ended : ∀ n, g.endLevel n = true → 479 < g.y n
  ahead : ∀ n : Fin 30, g.sm.phase.frontier ≤ n.val → g.y n = 0
  idle : ∀ n, g.ready n = false → g.y n = 0 ∨ 479 < g.y n
  order : ∀ n m : Fin 30, g.sm.phase.first ≤ n.val → n ≤ m → m.val < g.sm.phase.frontier →
    g.y m ≤ g.y n ∨ 479 < g.y n
  aligned : ∀ n, (n.val / 10 + 1) ∣ g.y n
  top : ∀ n, g.y n ≤ 480

section Elements

variable {g : Game} {keycode : BitVec 8}

theorem ready_eq_phase (g : Game) (n : Fin 30) :
    g.ready n = (decide (g.sm.phase.first ≤ n.val) && decide (n.val < g.sm.phase.frontier)) :=
  g.ready_eq n

/-- Ready are exactly the elements in flight. -/
theorem ready_iff (g : Game) (n : Fin 30) :
    g.ready n = true ↔ g.sm.phase.first ≤ n.val ∧ n.val < g.sm.phase.frontier := by
  rw [ready_eq_phase, Bool.and_eq_true, decide_eq_true_eq, decide_eq_true_eq]

theorem ready_eq_false_iff (g : Game) (n : Fin 30) :
    g.ready n = false ↔ ¬(g.sm.phase.first ≤ n.val ∧ n.val < g.sm.phase.frontier) := by
  rw [← ready_iff, Bool.not_eq_true]

theorem restart_iff (g : Game) : g.sm.restart = true ↔ g.sm.phase = .title := by
  rw [BlockSM.restart, decide_eq_true_eq]
  constructor
  · intro h
    rw [BlockSM.phase, h]
    rfl
  · intro h
    exact State.phase_injective h

theorem restart_of_ne_title (h : g.sm.phase ≠ .title) : g.sm.restart = false :=
  Bool.eq_false_iff.mpr fun hHigh => h ((restart_iff g).mp hHigh)

/-- Outside the title only `Reset` and a `Collision` clear the elements. -/
theorem free_of_ne_title (h : g.sm.phase ≠ .title) (hReset : g.reset = false)
    (hLow : g.collision = false) : (g.reset || g.sm.restart || g.collision) = false := by
  rw [hReset, restart_of_ne_title h, hLow]
  rfl

/-- The first half of a `Clk` edge leaves the elements alone, but for the title. -/
theorem clockEdge_elements_of_ne_title (h : (g.clockEdge keycode).sm.phase ≠ .title) :
    (g.clockEdge keycode).elements = g.elements := by
  rw [clockEdge_elements, restart_of_ne_title h]
  rfl

theorem clockEdge_y_of_ne_title (h : (g.clockEdge keycode).sm.phase ≠ .title) (n : Fin 30) :
    (g.clockEdge keycode).y n = g.y n := by
  rw [y, clockEdge_elements_of_ne_title h]
  rfl

theorem ordered_of_clear (h : g.AllClear) : g.Ordered := by
  have hY (n : Fin 30) : g.y n = 0 := by rw [y, h n]; rfl
  refine ⟨fun _ => h, fun n hEnd => ?_, fun n _ => hY n, fun n _ => Or.inl (hY n),
    fun n m _ _ _ => Or.inl ?_, fun n => ?_, fun n => ?_⟩
  · rw [endLevel, h n] at hEnd
    cases hEnd
  · rw [hY m]
    exact Nat.zero_le _
  · rw [hY n]
    exact Nat.dvd_zero _
  · rw [hY n]
    exact Nat.zero_le _

/-- Outside the level in flight an element is at the top or below the screen. -/
theorem Ordered.out_of_flight (h : g.Ordered) {n : Fin 30}
    (hOut : ¬(g.sm.phase.first ≤ n.val ∧ n.val < g.sm.phase.frontier)) :
    g.y n = 0 ∨ 479 < g.y n :=
  h.idle n ((ready_eq_false_iff g n).mpr hOut)

/-- When a level ends its last element is gone, so all of them are. -/
theorem Ordered.gone_of_ended (h : g.Ordered)
    (hGo : g.sm.phase.leaves keycode g.sm.seconds g.endLevel = true)
    (hFirst : g.sm.phase.succ.first = g.sm.phase.frontier) {n : Fin 30}
    (hIn : g.sm.phase.first ≤ n.val ∧ n.val < g.sm.phase.frontier) : 479 < g.y n := by
  obtain ⟨last, hLast, hLastEnd⟩ := Phase.leaves_last hGo (by omega) hFirst
  have hLastGone := h.ended last hLastEnd
  rcases h.order n last hIn.1 (Fin.le_def.mpr (by omega)) (by omega) with hLe | hGone
  · omega
  · exact hGone

/-- The same elements in another phase: the promises that depend on the phase
have to be shown again. -/
theorem Ordered.same_elements (h : g.Ordered) {g' : Game} (hElements : g'.elements = g.elements)
    (hClear : g'.reset = true ∨ g'.sm.restart = true ∨ g'.collision = true → g.AllClear)
    (hAhead : ∀ n : Fin 30, g'.sm.phase.frontier ≤ n.val → g.y n = 0)
    (hIdle : ∀ n, g'.ready n = false → g.y n = 0 ∨ 479 < g.y n)
    (hOrder : ∀ n m : Fin 30, g'.sm.phase.first ≤ n.val → n ≤ m →
      m.val < g'.sm.phase.frontier → g.y m ≤ g.y n ∨ 479 < g.y n) : g'.Ordered := by
  have hY (n : Fin 30) : g'.y n = g.y n := by rw [y, hElements]; rfl
  have hEnd (n : Fin 30) : g'.endLevel n = g.endLevel n := by rw [endLevel, hElements]; rfl
  refine ⟨fun hHigh n => ?_, fun n hn => ?_, fun n hn => ?_, fun n hn => ?_,
    fun n m hn hnm hm => ?_, fun n => ?_, fun n => ?_⟩
  · rw [hElements]
    exact hClear hHigh n
  · rw [hY]
    exact h.ended n (hEnd n ▸ hn)
  · rw [hY]
    exact hAhead n hn
  · rw [hY]
    exact hIdle n hn
  · rw [hY, hY]
    exact hOrder n m hn hnm hm
  · rw [hY]
    exact h.aligned n
  · rw [hY]
    exact h.top n

/-- One more element is launched, from line 0. -/
theorem Ordered.launch (h : g.Ordered) {g' : Game} (hElements : g'.elements = g.elements)
    (hClear : g'.reset = true ∨ g'.sm.restart = true ∨ g'.collision = true → g.AllClear)
    (hFirst : g'.sm.phase.first = g.sm.phase.first)
    (hFront : g'.sm.phase.frontier = g.sm.phase.frontier + 1) : g'.Ordered := by
  refine h.same_elements hElements hClear (fun n hn => ?_) (fun n hn => ?_)
    fun n m hn hnm hm => ?_
  · exact h.ahead n (by omega)
  · rw [ready_eq_false_iff] at hn
    exact h.out_of_flight (by omega)
  · by_cases hOld : m.val < g.sm.phase.frontier
    · exact h.order n m (by omega) hnm hOld
    · exact Or.inl (by rw [h.ahead m (by omega)]; exact Nat.zero_le _)

/-- The level has ended: nothing is in flight any more. -/
theorem Ordered.finish (h : g.Ordered) {g' : Game} (hElements : g'.elements = g.elements)
    (hClear : g'.reset = true ∨ g'.sm.restart = true ∨ g'.collision = true → g.AllClear)
    (hGo : g.sm.phase.leaves keycode g.sm.seconds g.endLevel = true)
    (hPhase : g'.sm.phase = g.sm.phase.succ) (hFirst : g'.sm.phase.first = g.sm.phase.frontier)
    (hFront : g'.sm.phase.frontier = g.sm.phase.frontier) : g'.Ordered := by
  refine h.same_elements hElements hClear (fun n hn => ?_) (fun n _ => ?_)
    fun n m hn hnm hm => ?_
  · exact h.ahead n (by omega)
  · by_cases hIn : g.sm.phase.first ≤ n.val ∧ n.val < g.sm.phase.frontier
    · exact Or.inr (h.gone_of_ended hGo (by rw [← hPhase, hFirst]) hIn)
    · exact h.out_of_flight hIn
  · have hLe : n.val ≤ m.val := hnm
    omega

/-- The state machine moves on while the elements stand still. -/
theorem Ordered.advance (h : g.Ordered) (keycode : BitVec 8) {g' : Game}
    (hElements : g'.elements = g.elements) (hReset : g'.reset = g.reset)
    (hCollision : g'.collision = g.collision)
    (hRestart : g'.sm.restart = true → g.AllClear)
    (hPhase : g'.sm.phase = if g.sm.phase.leaves keycode g.sm.seconds g.endLevel
      then g.sm.phase.succ else g.sm.phase) : g'.Ordered := by
  by_cases hDone : g.AllClear
  · exact ordered_of_clear fun n => by rw [hElements]; exact hDone n
  have hClear : g'.reset = true ∨ g'.sm.restart = true ∨ g'.collision = true → g.AllClear := by
    rw [hReset, hCollision]
    rintro (hHigh | hHigh | hHigh)
    · exact h.clear (Or.inl hHigh)
    · exact hRestart hHigh
    · exact h.clear (Or.inr (Or.inr hHigh))
  by_cases hGo : g.sm.phase.leaves keycode g.sm.seconds g.endLevel = true
  · rw [if_pos hGo] at hPhase
    rcases g.sm.phase.succ_cases with hTitle | hTitle | ⟨hFirst, hFront⟩ | ⟨hFirst, hFront⟩
    · -- at the title all elements are clear
      exact absurd (h.clear (Or.inr (Or.inl ((restart_iff g).mpr hTitle)))) hDone
    · exact absurd (hRestart ((restart_iff g').mpr (hPhase.trans hTitle))) hDone
    · exact h.launch hElements hClear (hPhase ▸ hFirst) (hPhase ▸ hFront)
    · exact h.finish hElements hClear hGo hPhase (hPhase ▸ hFirst) (hPhase ▸ hFront)
  · rw [if_neg hGo] at hPhase
    refine h.same_elements hElements hClear (fun n hn => ?_) (fun n hn => ?_)
      fun n m hn hnm hm => ?_
    · exact h.ahead n (hPhase ▸ hn)
    · exact h.idle n (by rw [ready_eq_phase, ← hPhase, ← ready_eq_phase]; exact hn)
    · exact h.order n m (hPhase ▸ hn) hnm (hPhase ▸ hm)

theorem Ordered.clockEdge (h : g.Ordered) (keycode : BitVec 8) : (g.clockEdge keycode).Ordered := by
  by_cases hRestart : ((g.clockEdge keycode).sm.restart && !g.sm.restart) = true
  · refine ordered_of_clear fun n => ?_
    rw [clockEdge_elements, if_pos hRestart]
    rfl
  have hElements : (g.clockEdge keycode).elements = g.elements := by
    rw [clockEdge_elements, if_neg hRestart]
  by_cases hHeld : g.reset = true ∨ g.collision = true
  · refine ordered_of_clear fun n => ?_
    rw [hElements]
    refine h.clear ?_ n
    rcases hHeld with hHigh | hHigh
    · exact Or.inl hHigh
    · exact Or.inr (Or.inr hHigh)
  · obtain ⟨hReset, hCollision⟩ := not_or.mp hHeld
    rw [Bool.not_eq_true] at hReset hCollision
    refine h.advance keycode hElements rfl rfl (fun hHigh => ?_) ?_
    · refine h.clear (Or.inr (Or.inl ?_))
      cases hOld : g.sm.restart with
      | true => rfl
      | false => exact absurd (by rw [hHigh, hOld]; rfl) hRestart
    · rw [clockEdge_sm, hReset, next_eq, hCollision]
      exact g.sm.posedge_calm_phase keycode g.endLevel

/-- Where a frame edge leaves an element that it does not clear: it stays below
the screen, waits, or falls by its step. -/
theorem Ordered.frame_cases (h : g.Ordered) (hRises : g.rises keycode = false)
    (hFree : (g.reset || g.sm.restart || g.collision) = false) (n : Fin 30) :
    (479 < g.y n ∧ (g.posedgeFrameClk keycode).y n = g.y n ∧
        (g.posedgeFrameClk keycode).endLevel n = true) ∨
      (g.y n ≤ 479 ∧ g.ready n = false ∧ (g.posedgeFrameClk keycode).y n = g.y n ∧
        (g.posedgeFrameClk keycode).endLevel n = false) ∨
      (g.y n ≤ 479 ∧ g.ready n = true ∧
        (g.posedgeFrameClk keycode).y n = g.y n + (n.val / 10 + 1) ∧
        (g.posedgeFrameClk keycode).endLevel n = false) := by
  have hElement : (g.posedgeFrameClk keycode).elements n = g.moveBlocks false n := by
    rw [posedgeFrameClk_of_not_rises hRises, hFree]
  have hNewY : (g.posedgeFrameClk keycode).y n = (g.moveBlocks false n).blockYPos.toNat :=
    congrArg (fun b => b.blockYPos.toNat) hElement
  have hNewEnd : (g.posedgeFrameClk keycode).endLevel n = (g.moveBlocks false n).endLevel :=
    congrArg Block.endLevel hElement
  rw [hNewY, hNewEnd, moveBlocks]
  by_cases hGone : (g.elements n).gone
  · left
    rw [Block.moveBlock_gone _ _ _ hGone]
    exact ⟨hGone, rfl, rfl⟩
  · have hOn : g.y n ≤ 479 := Nat.le_of_not_lt hGone
    right
    cases hReady : g.ready n with
    | false =>
        left
        rw [Block.moveBlock_waiting _ _ hGone]
        refine ⟨hOn, rfl, rfl, ?_⟩
        exact Bool.eq_false_iff.mpr fun hEnd => absurd (h.ended n hEnd) (by omega)
    | true =>
        right
        rw [Block.moveBlock_moving _ _ hGone]
        refine ⟨hOn, rfl, ?_, rfl⟩
        have hStep := blockYStep_eq n
        have hLt := n.isLt
        change ((g.elements n).blockYPos + _).toNat = _
        rw [BitVec.toNat_add, hStep]
        change (g.y n + _) % 1024 = _
        omega

/-- An element that is ready stays below the screen or falls by its step. -/
theorem Ordered.frame_of_ready (h : g.Ordered) (hRises : g.rises keycode = false)
    (hFree : (g.reset || g.sm.restart || g.collision) = false) {n : Fin 30}
    (hReady : g.ready n = true) :
    (479 < g.y n ∧ (g.posedgeFrameClk keycode).y n = g.y n) ∨
      (g.y n ≤ 479 ∧ (g.posedgeFrameClk keycode).y n = g.y n + (n.val / 10 + 1)) := by
  rcases h.frame_cases hRises hFree n with ⟨hGone, hSame, -⟩ | ⟨-, hNot, -⟩ | ⟨hOn, -, hFall, -⟩
  · exact Or.inl ⟨hGone, hSame⟩
  · rw [hReady] at hNot
    cases hNot
  · exact Or.inr ⟨hOn, hFall⟩

/-- A falling element stops at line 480 at the latest. -/
theorem Ordered.next_le (h : g.Ordered) (n : Fin 30) (hOn : g.y n ≤ 479) :
    g.y n + (n.val / 10 + 1) ≤ 480 := by
  obtain ⟨k, hk⟩ := h.aligned n
  have hLt := n.isLt
  have hLevel : n.val / 10 = 0 ∨ n.val / 10 = 1 ∨ n.val / 10 = 2 := by omega
  rcases hLevel with hLevel | hLevel | hLevel <;> rw [hLevel] at hk ⊢ <;> omega

theorem posedgeFrameClk_sm_of_not_rises (hRises : g.rises keycode = false) :
    (g.posedgeFrameClk keycode).sm = g.sm := by
  rw [posedgeFrameClk_of_not_rises hRises]

/-- An element that is not ready stays where it is. -/
theorem Ordered.frame_of_not_ready (h : g.Ordered) (hRises : g.rises keycode = false)
    (hFree : (g.reset || g.sm.restart || g.collision) = false) {n : Fin 30}
    (hWait : g.ready n = false) : (g.posedgeFrameClk keycode).y n = g.y n := by
  rcases h.frame_cases hRises hFree n with ⟨-, hSame, -⟩ | ⟨-, -, hSame, -⟩ | ⟨-, hReady, -⟩
  · exact hSame
  · exact hSame
  · rw [hWait] at hReady
    cases hReady

/-- Two elements in flight keep their order as they fall. -/
theorem Ordered.frame_order (h : g.Ordered) (hRises : g.rises keycode = false)
    (hFree : (g.reset || g.sm.restart || g.collision) = false) {n m : Fin 30}
    (hn : g.sm.phase.first ≤ n.val) (hnm : n ≤ m) (hm : m.val < g.sm.phase.frontier) :
    (g.posedgeFrameClk keycode).y m ≤ (g.posedgeFrameClk keycode).y n ∨
      479 < (g.posedgeFrameClk keycode).y n := by
  have hLimits := g.sm.phase.frontier_le
  have hLe : n.val ≤ m.val := hnm
  have hLevel : n.val / 10 = m.val / 10 := by omega
  obtain ⟨hReadyN, hReadyM⟩ : g.ready n = true ∧ g.ready m = true := by
    rw [ready_iff, ready_iff]
    omega
  rcases h.frame_of_ready hRises hFree hReadyN with ⟨hGone, hSame⟩ | ⟨hOn, hFall⟩
  · exact Or.inr (by omega)
  · rcases h.order n m hn hnm hm with hOrder | hGone
    · rcases h.frame_of_ready hRises hFree hReadyM with ⟨hGone, -⟩ | ⟨-, hFall'⟩
      · omega
      · exact Or.inl (by omega)
    · omega

/-- After such a frame nothing holds the elements cleared. -/
theorem low_of_frame (hRises : g.rises keycode = false)
    (hFree : (g.reset || g.sm.restart || g.collision) = false) :
    (g.posedgeFrameClk keycode).reset = false ∧
      (g.posedgeFrameClk keycode).sm.restart = false ∧
      (g.posedgeFrameClk keycode).collision = false := by
  obtain ⟨⟨hReset, hRestart⟩, hCollision⟩ :
      (g.reset = false ∧ g.sm.restart = false) ∧ g.collision = false := by
    simpa [Bool.or_eq_false_iff] using hFree
  exact ⟨by rw [posedgeFrameClk_reset, hReset],
    by rw [posedgeFrameClk_sm_of_not_rises hRises, hRestart],
    collision_of_not_rises hRises hCollision⟩

/-- A frame edge that clears nothing keeps the order. -/
theorem Ordered.fall (h : g.Ordered) (hRises : g.rises keycode = false)
    (hFree : (g.reset || g.sm.restart || g.collision) = false) :
    (g.posedgeFrameClk keycode).Ordered := by
  have hMoves := h.frame_cases hRises hFree
  have hPhase : (g.posedgeFrameClk keycode).sm.phase = g.sm.phase := by
    rw [posedgeFrameClk_sm_of_not_rises hRises]
  have hReady (n : Fin 30) : (g.posedgeFrameClk keycode).ready n = g.ready n := by
    rw [ready_eq_phase, ready_eq_phase, hPhase]
  obtain ⟨hReset, hRestart, hCollision⟩ := low_of_frame hRises hFree
  refine ⟨?_, fun n hn => ?_, fun n hn => ?_, fun n hn => ?_, fun n m hn hnm hm => ?_,
    fun n => ?_, fun n => ?_⟩
  · rw [hReset, hRestart, hCollision]
    rintro (hHigh | hHigh | hHigh) <;> cases hHigh
  · rcases hMoves n with ⟨hGone, hSame, -⟩ | ⟨-, -, -, hEnd⟩ | ⟨-, -, -, hEnd⟩
    · rw [hSame]
      exact hGone
    · rw [hEnd] at hn
      cases hn
    · rw [hEnd] at hn
      cases hn
  · rw [hPhase] at hn
    have hNotReady : g.ready n = false := by
      rw [ready_eq_false_iff]
      omega
    rw [h.frame_of_not_ready hRises hFree hNotReady]
    exact h.ahead n hn
  · rw [hReady] at hn
    rw [h.frame_of_not_ready hRises hFree hn]
    exact h.idle n hn
  · exact h.frame_order hRises hFree (hPhase ▸ hn) hnm (hPhase ▸ hm)
  · rcases hMoves n with ⟨-, hSame, -⟩ | ⟨-, -, hSame, -⟩ | ⟨-, -, hFall, -⟩
    · rw [hSame]
      exact h.aligned n
    · rw [hSame]
      exact h.aligned n
    · rw [hFall]
      exact Nat.dvd_add_self_right.mpr (h.aligned n)
  · rcases hMoves n with ⟨-, hSame, -⟩ | ⟨-, -, hSame, -⟩ | ⟨hOn, -, hFall, -⟩
    · rw [hSame]
      exact h.top n
    · rw [hSame]
      exact h.top n
    · rw [hFall]
      exact h.next_le n hOn

theorem Ordered.posedgeFrameClk (h : g.Ordered) (keycode : BitVec 8) :
    (g.posedgeFrameClk keycode).Ordered := by
  cases hRises : g.rises keycode with
  | true =>
      rw [posedgeFrameClk_of_rises hRises]
      exact ordered_of_clear fun _ => rfl
  | false =>
      cases hFree : (g.reset || g.sm.restart || g.collision) with
      | true =>
          rw [posedgeFrameClk_of_not_rises hRises, hFree]
          exact ordered_of_clear fun _ => rfl
      | false => exact h.fall hRises hFree

theorem Ordered.step (h : g.Ordered) (event : GameEvent) : (g.step event).Ordered := by
  refine step_invariant (fun _ keycode hs => hs.clockEdge keycode)
    (fun _ keycode _ hs => hs.posedgeFrameClk keycode)
    (fun _ _ _ => ordered_of_clear fun _ => rfl) (fun g hs => ?_) g event h
  exact ⟨fun hHigh => hs.clear (hHigh.elim (fun hBad => nomatch hBad) Or.inr), hs.ended, hs.ahead,
    hs.idle, hs.order, hs.aligned, hs.top⟩

theorem Reachable.ordered (h : Reachable g) : g.Ordered :=
  h.invariant (fun _ _ _ => ordered_of_clear fun _ => rfl) (fun _ event hs => hs.step event)

end Elements

end Game

/-- The `end_level` wire of the instance that drives an element. -/
def Element.wire : Element → Fin 30
  | .block i => blockWire i
  | .rect j => rectWire j

theorem Element.instanceAt_wire (x : Element) : (instanceAt x.wire).element = x := by
  cases x with
  | block i => revert i; decide
  | rect j => revert j; decide

theorem rectS_le (j : Fin 12) : (rectS j).toNat ≤ 80 := by
  revert j
  decide

namespace Ball

/-- The lines at which an element can meet a ball on the circle. -/
theorem InBounds.meets_lines {b : Ball} (h : b.InBounds) (y : Fin 30 → BitVec 10) {x : Element}
    (hMeets : b.meets (wiredPorts y) x = true) :
    306 ≤ (y x.wire).toNat ∧ (y x.wire).toNat ≤ 454 := by
  have hLow := h.yLow
  have hHigh := h.yHigh
  have hUp := toNat_sub_ballSize (p := b.ballYPos) (by omega)
  have hDown := toNat_add_ballSize (p := b.ballYPos) (by omega)
  have hUpWide := toNat_sub_ballSize_wide (p := b.ballYPos) (by omega)
  have hDownWide := toNat_add_ballSize_wide b.ballYPos
  have hWide : (b.ballYPos.setWidth 32).toNat = b.ballYPos.toNat := by
    rw [BitVec.toNat_setWidth]
    omega
  cases x with
  | block i =>
      change b.blockCollision (wiredPorts y) i = true at hMeets
      change 306 ≤ (y (blockWire i)).toNat ∧ (y (blockWire i)).toNat ≤ 454
      have hSize : ((wiredPorts y).blockS i).toNat = 20 := rfl
      have hLine : (wiredPorts y).blockY i = y (blockWire i) := rfl
      simp only [blockCollision, Bool.or_eq_true, Bool.and_eq_true, hLine] at hMeets
      rcases hMeets with ((⟨-, hSpan⟩ | ⟨-, hSpan⟩) | ⟨-, hSpan⟩) | ⟨-, hSpan⟩ <;>
        have hBounds := inSpan_bounds hSpan <;> omega
  | rect j =>
      change b.rectCollision (wiredPorts y) j = true at hMeets
      change 306 ≤ (y (rectWire j)).toNat ∧ (y (rectWire j)).toNat ≤ 454
      have hSize : ((wiredPorts y).rectS j).toNat ≤ 80 := rectS_le j
      have hLine : (wiredPorts y).rectY j = y (rectWire j) := rfl
      simp only [rectCollision, Bool.or_eq_true, Bool.and_eq_true, hLine] at hMeets
      rcases hMeets with ((⟨-, hSpan⟩ | ⟨-, hSpan⟩) | ⟨-, hSpan⟩) | ⟨-, hSpan⟩ <;>
        have hBounds := inRectSpan_bounds hSpan <;> omega

end Ball

namespace Game

section Touch

variable {g : Game}

/-- Only an element that is ready, and on the lines of the balls, is met. -/
theorem Ordered.ready_of_meets (h : g.Ordered) {b : Ball} (hb : b.InBounds) {x : Element}
    (hMeets : b.meets g.elementPorts x = true) :
    x.ready g.sm = true ∧ g.ready x.wire = true ∧ 306 ≤ g.y x.wire ∧ g.y x.wire ≤ 454 := by
  obtain ⟨hLow, hHigh⟩ := hb.meets_lines (fun n => (g.elements n).blockYPos) hMeets
  have hReady : g.ready x.wire = true := by
    cases hNot : g.ready x.wire with
    | true => rfl
    | false => rcases h.idle x.wire hNot with hZero | hGone <;> unfold y at * <;> omega
  refine ⟨?_, hReady, hLow, hHigh⟩
  rw [← hReady, Game.ready, x.instanceAt_wire]

/-- The whole level has ended when its closing phase is next. -/
theorem Ordered.next_closing (h : g.Ordered) {keycode : BitVec 8} {level : Fin 3}
    (hNext : (g.next keycode).phase = .closing level) (hNow : g.sm.phase ≠ .closing level) :
    g.sm.phase = .play level 9 ∧ ∀ k : Fin 10, 479 < g.y ⟨10 * level.val + k.val, by omega⟩ := by
  have hStep : g.sm.phase.next g.collision keycode g.sm.seconds g.endLevel = .closing level := by
    rw [← hNext]
    exact (nextState_phase g.sm.state keycode g.sm.seconds g.endLevel g.collision).symm
  rw [Phase.next] at hStep
  split_ifs at hStep with hCollision hGo
  · exact absurd hStep (Phase.restart_ne_closing (Bool.and_eq_true_iff.mp hCollision).2 level)
  · have hPlay := Phase.succ_eq_closing hStep
    refine ⟨hPlay, fun k => ?_⟩
    have hEnd : g.endLevel ⟨10 * level.val + 9, by omega⟩ = true := by
      rw [hPlay, Phase.leaves, if_pos rfl] at hGo
      exact hGo
    have hGone := h.ended _ hEnd
    have hOrder := h.order ⟨10 * level.val + k.val, by omega⟩ ⟨10 * level.val + 9, by omega⟩
      (by rw [hPlay]; exact Nat.le_add_right _ _)
      (Fin.le_def.mpr (by have := k.isLt; simp only; omega))
      (by rw [hPlay]; exact Nat.lt_succ_self _)
    rcases hOrder with hLe | hDone
    · omega
    · exact hDone
  · exact absurd hStep hNow

/-- A `Collision` rises only at an element that is ready. -/
theorem Ordered.ready_of_rises (h : g.Ordered) (hs : g.Steady) {keycode : BitVec 8}
    (hRises : g.rises keycode = true) :
    ∃ x : Element, g.ready x.wire = true ∧ 306 ≤ g.y x.wire ∧ g.y x.wire ≤ 454 := by
  obtain ⟨b, hb, hTouch⟩ := hs.touch_of_rises hRises
  obtain ⟨x, hMeets⟩ := (b.collides_iff _).mp hTouch
  exact ⟨x, (h.ready_of_meets hb hMeets).2⟩

/-- So it rises only while some element is in flight. -/
theorem Ordered.playing_of_rises (h : g.Ordered) (hs : g.Steady) {keycode : BitVec 8}
    (hRises : g.rises keycode = true) : g.sm.phase.playing = true := by
  obtain ⟨x, hReady, -⟩ := h.ready_of_rises hs hRises
  rw [ready_iff] at hReady
  exact g.sm.phase.playing_iff.mpr (hReady.1.trans_lt hReady.2)

/-- Hidden elements are off the screen, and a collision test that is true is
true of an element that is ready. -/
structure NothingStray (g : Game) : Prop where
  hidden : ∀ n, g.ready n = false → g.y n = 0 ∨ 479 < g.y n
  blocks : ∀ b, b = g.balls.blue ∨ b = g.balls.red → ∀ i,
    b.blockCollision g.elementPorts i = true → g.sm.blockReady i = true
  rects : ∀ b, b = g.balls.blue ∨ b = g.balls.red → ∀ j,
    b.rectCollision g.elementPorts j = true → g.sm.rectReady j = true

theorem Ordered.nothingStray (h : g.Ordered) (hs : g.Steady) : g.NothingStray := by
  have hBounds : ∀ b, b = g.balls.blue ∨ b = g.balls.red → b.InBounds := by
    rintro b (rfl | rfl)
    · exact hs.blue
    · exact hs.red
  refine ⟨h.idle, fun b hb i hTouch => ?_, fun b hb j hTouch => ?_⟩
  · have hMeets : b.meets g.elementPorts (.block i) = true := hTouch
    exact (h.ready_of_meets (hBounds b hb) hMeets).1
  · have hMeets : b.meets g.elementPorts (.rect j) = true := hTouch
    exact (h.ready_of_meets (hBounds b hb) hMeets).1

/-- No level closes at an edge at which a `Collision` rises. -/
theorem Ordered.closing_of_frame (h : g.Ordered) (hs : g.Steady) {keycode : BitVec 8}
    {level : Fin 3} (hNext : (g.posedgeFrameClk keycode).sm.phase = .closing level) :
    g.sm.phase = .closing level := by
  cases hRises : g.rises keycode with
  | false => rw [posedgeFrameClk_sm_of_not_rises hRises] at hNext; exact hNext
  | true =>
      obtain ⟨x, hReady, -, hLine⟩ := h.ready_of_rises hs hRises
      by_contra hNow
      have hLoaded : (g.next keycode).phase = .closing level := by
        rw [posedgeFrameClk_of_rises hRises] at hNext
        cases hReset : g.reset with
        | true => rw [hReset] at hNext; cases hNext
        | false => rw [hReset] at hNext; exact hNext
      obtain ⟨hPlay, hGone⟩ := h.next_closing hLoaded hNow
      rw [ready_iff, hPlay] at hReady
      have hFirst : 10 * level.val ≤ x.wire.val := hReady.1
      have hLast : x.wire.val < 10 * level.val + 9 + 1 := hReady.2
      have hWire := hGone ⟨x.wire.val - 10 * level.val, by omega⟩
      have hSame : (⟨10 * level.val + (x.wire.val - 10 * level.val), by omega⟩ : Fin 30) =
          x.wire := Fin.ext (by simp only; omega)
      rw [hSame] at hWire
      omega

end Touch

/-- In every reachable state, and after the first half of any `Clk` edge from
it, nothing strays; and a level enters its closing phase only from its last
launch, with all ten elements below the screen. -/
theorem nothingStray_of_reachable (g : Game) (h : Reachable g) :
    g.NothingStray ∧ (∀ keycode, (g.clockEdge keycode).NothingStray) ∧
      ∀ event level, (g.step event).sm.phase = .closing level → g.sm.phase ≠ .closing level →
        g.sm.phase = .play level 9 ∧
          ∀ k : Fin 10, 479 < g.y ⟨10 * level.val + k.val, by omega⟩ := by
  have hs := h.steady
  have ho := h.ordered
  refine ⟨ho.nothingStray hs,
    fun keycode => (ho.clockEdge keycode).nothingStray (hs.clockEdge keycode),
    fun event level hNext hNow => ?_⟩
  cases event with
  | posedgeReset keycode => cases hNext
  | negedgeReset => exact absurd hNext hNow
  | posedgeClk keycode =>
      change (g.posedgeClk keycode).sm.phase = _ at hNext
      have hClock : (g.clockEdge keycode).sm.phase = .closing level := by
        cases hEdge : g.frameEdge with
        | false => rw [posedgeClk_of_quiet hEdge] at hNext; exact hNext
        | true =>
            rw [posedgeClk_of_frame hEdge] at hNext
            exact (ho.clockEdge keycode).closing_of_frame (hs.clockEdge keycode) hNext
      have hLoaded : (g.next keycode).phase = .closing level := by
        rw [clockEdge_sm] at hClock
        cases hReset : g.reset with
        | true => rw [hReset] at hClock; cases hClock
        | false =>
            rw [hReset] at hClock
            cases hHigh : g.collision with
            | true => rw [hHigh] at hClock; exact hClock
            | false =>
                rw [hHigh, BlockSM.phase, BlockSM.posedge_calm_state] at hClock
                exact hClock
      exact ho.next_closing hLoaded hNow

/-- The statement four seconds after the start key, with two elements in flight. -/
theorem nothingStray_fourSeconds :
    (started.afterClk (fun _ => 0) 200000000).NothingStray ∧
      (∀ keycode, ((started.afterClk (fun _ => 0) 200000000).clockEdge keycode).NothingStray) ∧
      ∀ event level,
        ((started.afterClk (fun _ => 0) 200000000).step event).sm.phase = .closing level →
        (started.afterClk (fun _ => 0) 200000000).sm.phase ≠ .closing level →
        (started.afterClk (fun _ => 0) 200000000).sm.phase = .play level 9 ∧
          ∀ k : Fin 10,
            479 < (started.afterClk (fun _ => 0) 200000000).y ⟨10 * level.val + k.val, by omega⟩ :=
  nothingStray_of_reachable _ (reachable_started.afterClk (fun _ => 0) 200000000)

end Game

end TwoBallGame
