import TwoBallGame.Game.Attempts

/-! What a passed level has behind it. Over any run, the state machine counts a level
as passed only after an attempt in which all ten elements fell from the top to below
the screen, none of them hit and nothing reset, and it counts the levels in order. -/
namespace TwoBallGame

open Clocked

namespace Phase

/-- The phases of an attempt at a level. -/
def Attempts (level : Fin 3) (p : Phase) : Prop := p = wait level ∨ ∃ last, p = play level last

/-- The levels that a phase takes as passed, the latest first. -/
def behind : Phase → List (Fin 3)
  | title => []
  | wait level => ![[], [0], [1, 0]] level
  | play level _ => ![[], [0], [1, 0]] level
  | closing level => level :: ![[], [0], [1, 0]] level

variable {p : Phase} {level : Fin 3}

theorem Attempts.ne_title (h : p.Attempts level) : p ≠ title := by
  rcases h with rfl | ⟨last, rfl⟩ <;> exact Phase.noConfusion

theorem Attempts.behind (h : p.Attempts level) : p.behind = ![[], [0], [1, 0]] level := by
  rcases h with rfl | ⟨last, rfl⟩ <;> rfl

/-- An attempt goes on, over collisions, until its level closes. -/
theorem Attempts.next (h : p.Attempts level) (collision : Bool) (keycode : BitVec 8)
    (seconds : BitVec 10) (endLevel : Fin 30 → Bool) :
    (p.next collision keycode seconds endLevel).Attempts level ∨
      p.next collision keycode seconds endLevel = closing level := by
  unfold Phase.next
  split_ifs with hHit hGo
  · rcases h with rfl | ⟨last, rfl⟩
    · exact Or.inl (Or.inl rfl)
    · by_cases hFirst : level = 0
      · rw [hFirst]
        exact Or.inl (Or.inr ⟨0, rfl⟩)
      · exact Or.inl (Or.inl (if_neg hFirst))
  · rcases h with rfl | ⟨last, rfl⟩
    · exact Or.inl (Or.inr ⟨0, rfl⟩)
    · by_cases hNine : last = 9
      · exact Or.inr (if_pos hNine)
      · exact Or.inl (Or.inr ⟨last + 1, if_neg hNine⟩)
  · exact Or.inl h

/-- A phase in play comes out of an attempt at the same level. -/
theorem attempts_of_next {last : Fin 10} {collision : Bool} {keycode : BitVec 8}
    {seconds : BitVec 10} {endLevel : Fin 30 → Bool}
    (h : p.next collision keycode seconds endLevel = play level last) : p.Attempts level := by
  unfold Phase.next at h
  split_ifs at h with hHit hGo
  · cases p with
    | play l k =>
        rw [restart] at h
        split_ifs at h with hFirst
        cases h
        exact Or.inr ⟨k, by rw [hFirst]⟩
    | title => exact absurd hHit (by simp [playing])
    | wait l => exact absurd hHit (by simp [playing])
    | closing l => exact absurd hHit (by simp [playing])
  · cases p with
    | play l k =>
        rw [succ] at h
        split_ifs at h with hNine
        cases h
        exact Or.inr ⟨k, rfl⟩
    | title => cases h
    | wait l => cases h; exact Or.inl rfl
    | closing l =>
        rw [succ] at h
        split_ifs at h
  · exact Or.inr ⟨last, h⟩

theorem Attempts.unique (h : p.Attempts level) {other : Fin 3} (h' : p.Attempts other) :
    other = level := by
  rcases h with rfl | ⟨last, rfl⟩ <;> rcases h' with hWait | ⟨last', hPlay⟩
  · cases hWait; rfl
  · cases hPlay
  · cases hWait
  · cases hPlay; rfl

theorem behind_closing {level : Fin 3} (h : level ≠ 2) :
    (closing level).behind = ![[], [0], [1, 0]] (level + 1) := by
  revert level
  decide

end Phase

namespace Game

/-- The event is no `Reset`, and no `Collision` rises at it. -/
def Clean (g : Game) : GameEvent → Prop
  | .posedgeClk keycode => g.reset = false ∧ g.collisionAt keycode = false
  | .posedgeReset _ => False
  | .negedgeReset => True

/-- The events bring all ten elements of a level from the top to below the screen,
without a hit, and the level closes with the last of them. -/
structure Passes (level : Fin 3) (g : Game) (attempt : List GameEvent) : Prop where
  attempts : g.sm.phase.Attempts level
  top : ∀ k, g.y (elementOf level k) = 0
  clean : EachStep Game.step Clean g attempt
  closes : (run Game.step g attempt).sm.phase = .closing level
  gone : ∀ k, 479 < (run Game.step g attempt).y (elementOf level k)

/-- The levels, the latest first, are passed one after the other in the run, and the
title does not show again from the first of these attempts on. -/
inductive Passed (start : Game) : List (Fin 3) → List GameEvent → Prop
  | none (events : List GameEvent) : Passed start [] events
  | level {level : Fin 3} {earlier : List (Fin 3)} {before attempt rest : List GameEvent}
      (done : Passed start earlier before)
      (passes : Passes level (run Game.step start before) attempt)
      (stays : Always Game.step (fun g => g.sm.phase ≠ .title)
        (run Game.step start before) (attempt ++ rest)) :
      Passed start (level :: earlier) (before ++ (attempt ++ rest))

/-- The attempt that the run ends with: clean so far, and from the top. -/
structure Attempting (start : Game) (level : Fin 3) (before attempt : List GameEvent) : Prop where
  done : Passed start (![[], [0], [1, 0]] level) before
  top : ∀ k, (run Game.step start before).y (elementOf level k) = 0
  stays : Always Game.step (fun g => g.sm.phase.Attempts level) (run Game.step start before) attempt
  clean : EachStep Game.step Clean (run Game.step start before) attempt

/-- What the run has behind it. -/
def Recorded (start : Game) (events : List GameEvent) : Prop :=
  Passed start (run Game.step start events).sm.phase.behind events ∧
    ∀ level, (run Game.step start events).sm.phase.Attempts level →
      ∃ before attempt, events = before ++ attempt ∧ Attempting start level before attempt

section Steps

variable {g : Game} {keycode : BitVec 8} {level : Fin 3}

/-- A hit belongs to an attempt, does not close its level, and clears the elements. -/
theorem Reachable.hit_cases (hReach : Reachable g) (hReset : g.reset = false)
    (hHit : g.collisionAt keycode = true) : ∃ level, g.sm.phase.Attempts level ∧
      (g.posedgeClk keycode).sm.phase.Attempts level ∧ (g.posedgeClk keycode).AllClear := by
  have hs := hReach.steady.clockEdge keycode
  have ho := hReach.ordered.clockEdge keycode
  obtain ⟨hEdge, hRises⟩ := Bool.and_eq_true_iff.mp hHit
  have hPlaying := ho.playing_of_rises hs hRises
  cases hHalf : (g.clockEdge keycode).sm.phase with
  | title => rw [hHalf] at hPlaying; cases hPlaying
  | wait l => rw [hHalf] at hPlaying; cases hPlaying
  | closing l => rw [hHalf] at hPlaying; cases hPlaying
  | play l last =>
      have hNow : g.sm.phase.Attempts l := by
        rw [clockEdge_phase hReset] at hHalf
        exact Phase.attempts_of_next hHalf
      have hFrame : (g.posedgeClk keycode).sm.phase =
          (g.clockEdge keycode).sm.phase.next (g.clockEdge keycode).collision keycode
            (g.clockEdge keycode).sm.seconds (g.clockEdge keycode).endLevel := by
        rw [posedgeClk_of_frame hEdge, posedgeFrameClk_of_rises hRises, clockEdge_reset, hReset]
        exact nextState_phase _ _ _ _ _
      refine ⟨l, hNow, ?_, ?_⟩
      · have hIn : (g.clockEdge keycode).sm.phase.Attempts l := Or.inr ⟨last, hHalf⟩
        rw [hFrame]
        refine (hIn.next _ keycode _ _).resolve_right fun hClosing => ?_
        rw [← hFrame, posedgeClk_of_frame hEdge] at hClosing
        have hEarly := ho.closing_of_frame hs hClosing
        rw [hHalf] at hEarly
        cases hEarly
      · rw [posedgeClk_of_frame hEdge, posedgeFrameClk_of_rises hRises]
        exact fun _ => rfl

/-- A `Clk` edge without a hit moves the phase along the schedule. -/
theorem calm_phase (hReset : g.reset = false) (hCalm : g.collisionAt keycode = false) :
    (g.posedgeClk keycode).sm.phase =
      g.sm.phase.next g.collision keycode g.sm.seconds g.endLevel := by
  rw [calm_sm hCalm, clockEdge_phase hReset]

/-- When an attempt closes its level, all ten elements are below the screen. -/
theorem Reachable.gone_of_closes (hReach : Reachable g) (hReset : g.reset = false)
    (hCalm : g.collisionAt keycode = false) (hNow : g.sm.phase.Attempts level)
    (hCloses : (g.posedgeClk keycode).sm.phase = .closing level) (k : Fin 10) :
    479 < (g.posedgeClk keycode).y (elementOf level k) := by
  have hHalf : (g.clockEdge keycode).sm.phase = .closing level := by
    rw [← calm_sm hCalm]
    exact hCloses
  have hLoaded : (g.next keycode).phase = .closing level := by
    rw [next_eq, BlockSM.next, nextState_phase, ← hHalf, clockEdge_phase hReset]
    rfl
  have hNot : g.sm.phase ≠ .closing level := by
    rcases hNow with hWait | ⟨last, hPlay⟩
    · rw [hWait]
      exact Phase.noConfusion
    · rw [hPlay]
      exact Phase.noConfusion
  have hGone : 479 < g.y (elementOf level k) := (hReach.ordered.next_closing hLoaded hNot).2 k
  have hTitle : (g.clockEdge keycode).sm.phase ≠ .title := by
    rw [hHalf]
    exact Phase.noConfusion
  have hSame := clockEdge_y_of_ne_title hTitle (elementOf level k)
  cases hEdge : g.frameEdge with
  | false =>
      rw [posedgeClk_of_quiet hEdge, hSame]
      exact hGone
  | true =>
      rw [collisionAt, hEdge, Bool.true_and] at hCalm
      have hLow : g.collision = false := by
        refine Bool.eq_false_iff.mpr fun hHigh => ?_
        have hClear := hReach.ordered.clear (Or.inr (Or.inr hHigh)) (elementOf level k)
        rw [y, hClear] at hGone
        cases hGone
      have hFree := free_of_ne_title hTitle hReset hLow
      rw [posedgeClk_of_frame hEdge]
      rcases (hReach.ordered.clockEdge keycode).frame_cases hCalm hFree (elementOf level k) with
        ⟨-, hStay, -⟩ | ⟨-, -, hStay, -⟩ | ⟨-, -, hFall, -⟩ <;> omega

/-- The title comes at once with `Reset`. -/
theorem Reachable.title_of_reset (hReach : Reachable g) (hReset : g.reset = true) :
    (g.posedgeClk keycode).sm.phase = .title := by
  have hQuiet : g.frameEdge = false := by
    rw [frameEdge, hReset, hReach.steady.held hReset]
    rfl
  rw [posedgeClk_of_quiet hQuiet, clockEdge_sm, hReset]
  rfl

end Steps

section Record

variable {start : Game} {events before attempt : List GameEvent} {levels : List (Fin 3)}
  {level : Fin 3}

/-- What has been passed stays passed as long as the title does not show. -/
theorem Passed.append (h : Passed start levels events) {more : List GameEvent}
    (hStays : Always Game.step (fun g => g.sm.phase ≠ .title) (run Game.step start events) more) :
    Passed start levels (events ++ more) := by
  cases h with
  | none => exact .none _
  | level done passes stays =>
      rename_i before attempt rest
      have hAll : Always Game.step (fun g => g.sm.phase ≠ .title) (run Game.step start before)
          (attempt ++ (rest ++ more)) := by
        rw [← List.append_assoc, always_append]
        refine ⟨stays, ?_⟩
        rw [← run_append]
        exact hStays
      have hPassed := Passed.level done passes hAll
      rwa [← List.append_assoc attempt, ← List.append_assoc before] at hPassed

theorem Passed.next (h : Passed start levels events) {event : GameEvent}
    (hNow : (run Game.step start events).sm.phase ≠ .title)
    (hThen : (run Game.step start (events ++ [event])).sm.phase ≠ .title) :
    Passed start levels (events ++ [event]) := by
  rw [run_append] at hThen
  exact h.append ⟨hNow, hThen⟩

theorem Attempting.phase (h : Attempting start level before attempt) :
    (run Game.step start (before ++ attempt)).sm.phase.Attempts level := by
  rw [run_append]
  exact h.stays.last

theorem Attempting.notTitle (h : Attempting start level before attempt) :
    Always Game.step (fun g => g.sm.phase ≠ .title) (run Game.step start before) attempt :=
  always_iff_prefix.mpr fun done rest hSplit =>
    have hIn := always_iff_prefix.mp h.stays done rest hSplit
    hIn.ne_title

/-- The attempt goes on with one more clean event. -/
theorem Attempting.extend (h : Attempting start level before attempt) {event : GameEvent}
    (hClean : (run Game.step start (before ++ attempt)).Clean event)
    (hPhase : (run Game.step start (before ++ attempt ++ [event])).sm.phase.Attempts level) :
    Attempting start level before (attempt ++ [event]) := by
  have hNow := h.phase
  rw [run_append] at hClean hNow
  rw [List.append_assoc, run_append, run_append] at hPhase
  exact ⟨h.done, h.top, always_append.mpr ⟨h.stays, hNow, hPhase⟩,
    (eachStep_append _).mpr ⟨h.clean, hClean, trivial⟩⟩

/-- A hit begins the attempt anew. -/
theorem Attempting.again (h : Attempting start level before attempt) {event : GameEvent}
    (hPhase : (run Game.step start (before ++ attempt ++ [event])).sm.phase.Attempts level)
    (hClear : (run Game.step start (before ++ attempt ++ [event])).AllClear) :
    Attempting start level (before ++ attempt ++ [event]) [] := by
  have hNow := h.phase
  have hStays : Always Game.step (fun g => g.sm.phase ≠ .title) (run Game.step start before)
      (attempt ++ [event]) := by
    rw [run_append] at hNow
    rw [List.append_assoc, run_append, run_append] at hPhase
    exact always_append.mpr ⟨h.notTitle, hNow.ne_title, hPhase.ne_title⟩
  refine ⟨?_, fun k => ?_, hPhase, trivial⟩
  · rw [List.append_assoc]
    exact h.done.append hStays
  · rw [y, hClear]
    rfl

/-- The clean event that closes the level makes it passed. -/
theorem Attempting.passed (h : Attempting start level before attempt) {event : GameEvent}
    (hClean : (run Game.step start (before ++ attempt)).Clean event)
    (hCloses : (run Game.step start (before ++ attempt ++ [event])).sm.phase = .closing level)
    (hGone : ∀ k, 479 < (run Game.step start (before ++ attempt ++ [event])).y
      (elementOf level k)) :
    Passed start (Phase.closing level).behind (before ++ attempt ++ [event]) := by
  have hNow := h.phase
  rw [run_append] at hClean hNow
  rw [List.append_assoc, run_append] at hCloses hGone
  have hPasses : Passes level (run Game.step start before) (attempt ++ [event]) :=
    ⟨h.stays.head, h.top, (eachStep_append _).mpr ⟨h.clean, hClean, trivial⟩, hCloses, hGone⟩
  rw [run_append] at hCloses
  have hStays : Always Game.step (fun g => g.sm.phase ≠ .title) (run Game.step start before)
      (attempt ++ [event] ++ []) := by
    rw [List.append_nil]
    refine always_append.mpr ⟨h.notTitle, hNow.ne_title, ?_⟩
    change (run Game.step (run Game.step (run Game.step start before) attempt) [event]).sm.phase ≠
      .title
    rw [hCloses]
    exact Phase.noConfusion
  have hPassed := Passed.level h.done hPasses hStays
  rwa [List.append_nil, ← List.append_assoc] at hPassed

/-- A level begins: its elements are at the top. -/
theorem attempting_of_begin (hReach : Reachable (run Game.step start events))
    (hDone : Passed start (![[], [0], [1, 0]] level) events)
    (hWait : (run Game.step start events).sm.phase = .wait level) :
    Attempting start level events [] := by
  refine ⟨hDone, fun k => ?_, Or.inl hWait, trivial⟩
  refine hReach.ordered.ahead (elementOf level k) ?_
  rw [hWait]
  exact Nat.le_add_right _ _

theorem recorded_of_title (h : (run Game.step start events).sm.phase = .title) :
    Recorded start events := by
  refine ⟨?_, fun level hIn => absurd h hIn.ne_title⟩
  rw [h]
  exact .none events

theorem recorded_of_closing (h : (run Game.step start events).sm.phase = .closing level)
    (hPassed : Passed start (Phase.closing level).behind events) : Recorded start events := by
  refine ⟨?_, fun other hIn => ?_⟩
  · rw [h]
    exact hPassed
  · rw [h] at hIn
    rcases hIn with hWait | ⟨last, hPlay⟩
    · cases hWait
    · cases hPlay

theorem Attempting.recorded (h : Attempting start level before attempt) :
    Recorded start (before ++ attempt) := by
  refine ⟨?_, fun other hIn => ?_⟩
  · rw [h.phase.behind]
    exact h.done.append h.notTitle
  · rw [h.phase.unique hIn]
    exact ⟨before, attempt, rfl, h⟩

/-- A clean event with the attempt still going on. -/
theorem Attempting.recorded_extend (h : Attempting start level before attempt) {event : GameEvent}
    (hClean : (run Game.step start (before ++ attempt)).Clean event)
    (hPhase : (run Game.step start (before ++ attempt ++ [event])).sm.phase.Attempts level) :
    Recorded start (before ++ attempt ++ [event]) := by
  rw [List.append_assoc]
  exact (h.extend hClean hPhase).recorded

/-- A `Clk` edge of an attempt without a hit. -/
theorem recorded_of_attempt {keycode : BitVec 8}
    (hReach : Reachable (run Game.step start events)) (h : Recorded start events)
    (hReset : (run Game.step start events).reset = false)
    (hCalm : (run Game.step start events).collisionAt keycode = false)
    (hNow : (run Game.step start events).sm.phase.Attempts level) :
    Recorded start (events ++ [.posedgeClk keycode]) := by
  have hEnd : run Game.step start (events ++ [.posedgeClk keycode]) =
      (run Game.step start events).posedgeClk keycode :=
    run_concat _ _ _ _
  have hNext := hNow.next (run Game.step start events).collision keycode
    (run Game.step start events).sm.seconds (run Game.step start events).endLevel
  rw [← calm_phase hReset hCalm] at hNext
  obtain ⟨before, attempt, rfl, hAttempt⟩ := h.2 level hNow
  rcases hNext with hIn | hCloses
  · exact hAttempt.recorded_extend ⟨hReset, hCalm⟩ (hEnd ▸ hIn)
  · have hGone := hReach.gone_of_closes hReset hCalm hNow hCloses
    rw [← hEnd] at hCloses hGone
    exact recorded_of_closing hCloses (hAttempt.passed ⟨hReset, hCalm⟩ hCloses hGone)

/-- On the title screen only the first level can begin. -/
theorem recorded_of_start {keycode : BitVec 8}
    (hReach : Reachable (run Game.step start events))
    (hReset : (run Game.step start events).reset = false)
    (hCalm : (run Game.step start events).collisionAt keycode = false)
    (hNow : (run Game.step start events).sm.phase = .title) :
    Recorded start (events ++ [.posedgeClk keycode]) := by
  have hEnd : run Game.step start (events ++ [.posedgeClk keycode]) =
      (run Game.step start events).posedgeClk keycode :=
    run_concat _ _ _ _
  have hNext := calm_phase hReset hCalm
  rw [← hEnd, hNow, Phase.next] at hNext
  split_ifs at hNext with hHit hGo
  · exact recorded_of_title hNext
  · have hBegin := attempting_of_begin (hEnd ▸ hReach.step (.posedgeClk keycode)) (.none _) hNext
    have hRecorded := hBegin.recorded
    rwa [List.append_nil] at hRecorded
  · exact recorded_of_title hNext

/-- Between levels only the clock leads on. -/
theorem recorded_of_between {keycode : BitVec 8}
    (hReach : Reachable (run Game.step start events)) (h : Recorded start events)
    (hReset : (run Game.step start events).reset = false)
    (hCalm : (run Game.step start events).collisionAt keycode = false)
    (hNow : (run Game.step start events).sm.phase = .closing level) :
    Recorded start (events ++ [.posedgeClk keycode]) := by
  have hEnd : run Game.step start (events ++ [.posedgeClk keycode]) =
      (run Game.step start events).posedgeClk keycode :=
    run_concat _ _ _ _
  have hNext := calm_phase hReset hCalm
  rw [← hEnd, hNow] at hNext
  have hPassed : Passed start (Phase.closing level).behind events := hNow ▸ h.1
  by_cases hTitle : (run Game.step start (events ++ [.posedgeClk keycode])).sm.phase = .title
  · exact recorded_of_title hTitle
  have hKept := hPassed.next (hNow ▸ Phase.noConfusion) hTitle
  unfold Phase.next at hNext
  split_ifs at hNext with hHit hGo
  · exact absurd hHit (by simp [Phase.playing])
  · rw [Phase.succ] at hNext
    split_ifs at hNext with hLast
    · exact absurd hNext hTitle
    · rw [Phase.behind_closing hLast] at hKept
      have hBegin := attempting_of_begin (hEnd ▸ hReach.step (.posedgeClk keycode)) hKept hNext
      have hRecorded := hBegin.recorded
      rwa [List.append_nil] at hRecorded
  · exact recorded_of_closing hNext hKept

theorem recorded_of_calm {keycode : BitVec 8}
    (hReach : Reachable (run Game.step start events)) (h : Recorded start events)
    (hReset : (run Game.step start events).reset = false)
    (hCalm : (run Game.step start events).collisionAt keycode = false) :
    Recorded start (events ++ [.posedgeClk keycode]) := by
  cases hNow : (run Game.step start events).sm.phase with
  | title => exact recorded_of_start hReach hReset hCalm hNow
  | wait level => exact recorded_of_attempt hReach h hReset hCalm (Or.inl hNow)
  | play level last => exact recorded_of_attempt hReach h hReset hCalm (Or.inr ⟨last, hNow⟩)
  | closing level => exact recorded_of_between hReach h hReset hCalm hNow

/-- One more event of any kind. -/
theorem Recorded.step (h : Recorded start events) (hReach : Reachable (run Game.step start events))
    (event : GameEvent) : Recorded start (events ++ [event]) := by
  have hEnd : run Game.step start (events ++ [event]) = (run Game.step start events).step event :=
    run_concat _ _ _ _
  cases event with
  | posedgeReset keycode =>
      refine recorded_of_title ?_
      rw [hEnd]
      rfl
  | negedgeReset =>
      have hSame : (run Game.step start (events ++ [.negedgeReset])).sm.phase =
          (run Game.step start events).sm.phase := congrArg (fun g => g.sm.phase) hEnd
      cases hNow : (run Game.step start events).sm.phase with
      | title => exact recorded_of_title (hSame.trans hNow)
      | wait level =>
          obtain ⟨before, attempt, rfl, hAttempt⟩ := h.2 level (Or.inl hNow)
          exact hAttempt.recorded_extend trivial (Or.inl (hSame.trans hNow))
      | play level last =>
          obtain ⟨before, attempt, rfl, hAttempt⟩ := h.2 level (Or.inr ⟨last, hNow⟩)
          exact hAttempt.recorded_extend trivial (Or.inr ⟨last, hSame.trans hNow⟩)
      | closing level =>
          have hPassed : Passed start (Phase.closing level).behind events := hNow ▸ h.1
          have hThen := hSame.trans hNow
          exact recorded_of_closing hThen
            (hPassed.next (hNow ▸ Phase.noConfusion) (hThen ▸ Phase.noConfusion))
  | posedgeClk keycode =>
      change _ = (run Game.step start events).posedgeClk keycode at hEnd
      cases hReset : (run Game.step start events).reset with
      | true =>
          refine recorded_of_title ?_
          rw [hEnd]
          exact hReach.title_of_reset hReset
      | false =>
          cases hHit : (run Game.step start events).collisionAt keycode with
          | true =>
              obtain ⟨level, hNow, hIn, hClear⟩ := hReach.hit_cases hReset hHit
              rw [← hEnd] at hIn hClear
              obtain ⟨before, attempt, rfl, hAttempt⟩ := h.2 level hNow
              have hRecorded := (hAttempt.again hIn hClear).recorded
              rwa [List.append_nil] at hRecorded
          | false => exact recorded_of_calm hReach h hReset hHit

/-- What the run has behind it, by induction on the events from the last one back. -/
theorem recorded_run (hReach : Reachable start) (hTitle : start.sm.phase = .title)
    (events : List GameEvent) : Recorded start events := by
  induction events using List.reverseRecOn with
  | nil => exact recorded_of_title hTitle
  | append_singleton events event ih => exact ih.step (hReach.run_events events) event

end Record

/-- Whatever is pressed and whenever `Reset` comes, the levels that the phase takes as
passed have been passed, each in one whole clean attempt, one after the other. -/
theorem passed_of_run (g : Game) (hReach : Reachable g) (hTitle : g.sm.title = true)
    (events : List GameEvent) :
    Passed g (run Game.step g events).sm.phase.behind events := by
  have hState : g.sm.state = .reset := of_decide_eq_true hTitle
  have hPhase : g.sm.phase = .title := by
    rw [BlockSM.phase, hState]
    rfl
  exact (recorded_run hReach hPhase events).1

/-- Forty seconds after the start key. -/
theorem passed_of_run_fortySeconds :
    Passed (zero.posedgeReset 0) (run Game.step (zero.posedgeReset 0)
      (.negedgeReset :: startAndWait 2000000000)).sm.phase.behind
      (.negedgeReset :: startAndWait 2000000000) :=
  passed_of_run (zero.posedgeReset 0) reachable_zero (by decide)
    (.negedgeReset :: startAndWait 2000000000)

/-- So the winning screen has all three levels behind it. -/
example (sm : BlockSM) (h : sm.win = true) : sm.phase.behind = [2, 1, 0] := by
  rw [BlockSM.phase, of_decide_eq_true h]
  rfl

end Game

end TwoBallGame
