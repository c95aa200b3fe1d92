import TwoBallGame.Balls.Single
import TwoBallGame.Game.Progress

/-! What the game reads of the keycode. On the title screen every `Clk` edge asks
whether it is the start key, and every frame edge how it turns the balls; nothing
else of it ever reaches a register. -/
namespace TwoBallGame

open Clocked

/-- The two keys turn the balls alike. -/
def SameTurn (k k' : BitVec 8) : Prop := (k = 7 ↔ k' = 7) ∧ (k = 4 ↔ k' = 4)

section Next

variable {k k' : BitVec 8}

/-- Only `RESET` asks for a key. -/
theorem nextState_keycode {state : State} (h : state = .reset → (k = 40 ↔ k' = 40))
    (collision : Bool) (seconds : BitVec 10) (endLevel : Fin 30 → Bool) :
    nextState state collision k seconds endLevel =
      nextState state collision k' seconds endLevel := by
  by_cases hReset : state = .reset
  · rw [hReset]
    simp only [nextState, h hReset]
  · cases state with
    | reset => exact absurd rfl hReset
    | _ => rfl

theorem Game.next_keycode {g : Game} (h : g.sm.state = .reset → (k = 40 ↔ k' = 40)) :
    g.next k = g.next k' := nextState_keycode h _ _ _

end Next

section Turn

variable {k k' : BitVec 8} (h : SameTurn k k')
include h

theorem Ball.moveBall_keycode (color : Bool) (p : BallPorts) (b : Ball) :
    b.moveBall color { p with keycode := k } = b.moveBall color { p with keycode := k' } := by
  have hTurn (b' : Ball) (index : BitVec 6) :
      b'.rotateBranch k index = b'.rotateBranch k' index := by
    simp only [rotateBranch, caseKeycode, h.1, h.2]
  simp only [moveBall, hTurn]
  rfl

theorem Ball.sampled_keycode (color reset : Bool) (e : ElementPorts) (mine other : Ball) :
    mine.sampled color reset k e other = mine.sampled color reset k' e other := by
  have hMove : mine.moveBall color (framePorts reset k e mine other) =
      mine.moveBall color (framePorts reset k' e mine other) :=
    moveBall_keycode h color (framePorts reset k e mine other) mine
  unfold sampled posedgeFrameClk
  rw [hMove]
  rfl

theorem Ball.frame_keycode (color reset : Bool) (e : ElementPorts) (mine other : Ball) :
    mine.frame color reset k e other = mine.frame color reset k' e other := by
  unfold frame
  simp only [sampled_keycode h]
  congr 1
  exact moveBall_keycode h color { framePorts reset k e _ _ with collisionOther := true } _

theorem Balls.posedgeFrameClk_keycode (reset : Bool) (e : ElementPorts) (s : Balls) :
    s.posedgeFrameClk reset k e = s.posedgeFrameClk reset k' e := by
  have hBlue : (s.posedgeFrameClk reset k e).blue = (s.posedgeFrameClk reset k' e).blue := by
    rw [posedgeFrameClk_blue, posedgeFrameClk_blue, Ball.frame_keycode h]
  have hRed : (s.posedgeFrameClk reset k e).red = (s.posedgeFrameClk reset k' e).red := by
    rw [posedgeFrameClk_red, posedgeFrameClk_red, Ball.frame_keycode h]
  rw [Balls.mk.injEq]
  exact ⟨hBlue, hRed⟩

end Turn

/-- Whether a `Collision` rises does not depend on the key. -/
theorem Balls.rises_keycode (reset : Bool) (k k' : BitVec 8) (e : ElementPorts) (s : Balls) :
    s.rises reset k e = s.rises reset k' e := by
  rw [rises_eq, rises_eq]

namespace Game

variable {g : Game} {k k' : BitVec 8}

/-- The next `Clk` edge reads the same from both keys. -/
structure ReadsAlike (g : Game) (k k' : BitVec 8) : Prop where
  start : g.sm.state = .reset → (k = 40 ↔ k' = 40)
  turn : g.frameEdge = true → SameTurn k k'

theorem clockEdge_keycode (h : g.ReadsAlike k k') : g.clockEdge k = g.clockEdge k' := by
  rw [clockEdge, clockEdge, clockSM, clockSM, next_keycode h.start]

/-- On the title screen nothing can be touched. -/
theorem Reachable.state_of_rises (hReach : Reachable g) (h : (g.clockEdge k).rises k = true) :
    (g.clockEdge k).sm.state ≠ .reset := by
  intro hState
  have hOrdered := hReach.ordered.clockEdge k
  have hSteady := hReach.steady.clockEdge k
  have hClear := hOrdered.clear (Or.inr (Or.inl (by rw [BlockSM.restart, hState]; rfl)))
  rw [not_rises_of_clear hSteady hOrdered hClear] at h
  cases h

/-- What the edge does not ask of the key does not matter. -/
theorem Reachable.posedgeClk_keycode (hReach : Reachable g) (h : g.ReadsAlike k k') :
    g.posedgeClk k = g.posedgeClk k' := by
  have hHalf := clockEdge_keycode h
  cases hEdge : g.frameEdge with
  | false => rw [posedgeClk_of_quiet hEdge, posedgeClk_of_quiet hEdge, hHalf]
  | true =>
      have hBalls := Balls.posedgeFrameClk_keycode (h.turn hEdge) (g.clockEdge k').reset
        (g.clockEdge k').elementPorts (g.clockEdge k').balls
      have hRises : (g.clockEdge k').rises k = (g.clockEdge k').rises k' :=
        Balls.rises_keycode _ _ _ _ _
      rw [posedgeClk_of_frame hEdge, posedgeClk_of_frame hEdge, hHalf]
      cases hHit : (g.clockEdge k').rises k' with
      | true =>
          have hState := hReach.state_of_rises hHit
          rw [posedgeFrameClk_of_rises (hRises.trans hHit), posedgeFrameClk_of_rises hHit, hBalls,
            next_keycode fun hReset => absurd hReset hState]
      | false =>
          rw [posedgeFrameClk_of_not_rises (hRises.trans hHit), posedgeFrameClk_of_not_rises hHit,
            hBalls]

/-- Two events at which the same edge comes, with keys that it reads alike. -/
inductive SameEvent (g : Game) : GameEvent → GameEvent → Prop where
  | posedgeClk {k k' : BitVec 8} (h : g.ReadsAlike k k') :
      SameEvent g (.posedgeClk k) (.posedgeClk k')
  | posedgeReset (k k' : BitVec 8) : SameEvent g (.posedgeReset k) (.posedgeReset k')
  | negedgeReset : SameEvent g .negedgeReset .negedgeReset

theorem SameEvent.step {event event' : GameEvent} (h : SameEvent g event event')
    (hReach : Reachable g) : g.step event = g.step event' := by
  cases h with
  | posedgeClk h => exact hReach.posedgeClk_keycode h
  | posedgeReset k k' => rfl
  | negedgeReset => rfl

/-- Nobody can tell two runs apart whose keys differ only where the game does not
look: at the start key outside of the title, at the two turning keys between frames,
and at all others always. -/
theorem run_of_sameEvents (g : Game) (hReach : Reachable g) (events : List (GameEvent × GameEvent))
    (h : EachStep (fun g (event : GameEvent × GameEvent) => g.step event.1)
      (fun g event => SameEvent g event.1 event.2) g events) :
    run Game.step g (events.map Prod.fst) = run Game.step g (events.map Prod.snd) := by
  induction events generalizing g with
  | nil => rfl
  | cons event rest ih =>
      obtain ⟨hNow, hLater⟩ := h
      rw [List.map_cons, List.map_cons, run_cons, run_cons, ← hNow.step hReach]
      exact ih (g.step event.1) (hReach.step event.1) hLater

/-- A frame edge and an edge between two frames, both on the title screen. -/
theorem run_of_sameEvents_title :
    run Game.step (zero.posedgeReset 0).negedgeReset [.posedgeClk 26, .posedgeClk 7] =
      run Game.step (zero.posedgeReset 0).negedgeReset [.posedgeClk 0, .posedgeClk 4] :=
  run_of_sameEvents _ (reachable_zero.step .negedgeReset)
    [(.posedgeClk 26, .posedgeClk 0), (.posedgeClk 7, .posedgeClk 4)]
    ⟨.posedgeClk ⟨fun _ => by decide, fun _ => ⟨by decide, by decide⟩⟩,
      .posedgeClk ⟨fun _ => by decide, fun hEdge => absurd hEdge (by decide)⟩, trivial⟩

/-- Only the start key leaves the title. -/
theorem Reachable.title_kept (hReach : Reachable g) (h : g.sm.state = .reset) (hKey : k ≠ 40) :
    (g.posedgeClk k).sm.state = .reset := by
  have hNext : g.next k = .reset := by rw [Game.next, h, nextState, if_neg hKey]
  have hState : (g.clockEdge k).sm.state = .reset := by
    rw [clockEdge_sm, hNext]
    cases g.reset with
    | true => rfl
    | false =>
        cases g.collision with
        | true => rfl
        | false => exact g.sm.posedge_calm_state _
  cases hEdge : g.frameEdge with
  | false => rw [posedgeClk_of_quiet hEdge, hState]
  | true =>
      rw [posedgeClk_of_frame hEdge]
      cases hHit : (g.clockEdge k).rises k with
      | true => exact absurd hState (hReach.state_of_rises hHit)
      | false => rw [posedgeFrameClk_of_not_rises hHit, hState]

/-- An index moves by a turning key, or back to the start. -/
theorem nextIndex_posedgeClk (k : BitVec 8) (color : Bool) :
    ((g.posedgeClk k).balls.ball color).nextIndex = (g.balls.ball color).nextIndex ∨
      ((g.posedgeClk k).balls.ball color).nextIndex = startIndex color ∨ k = 7 ∨ k = 4 := by
  cases hEdge : g.frameEdge with
  | false =>
      rw [posedgeClk_of_quiet hEdge]
      exact Or.inl rfl
  | true =>
      rw [posedgeClk_of_frame hEdge, posedgeFrameClk_balls, Balls.ball_posedgeFrameClk,
        Ball.frame_nextIndex]
      by_cases hKey : k = 7 ∨ k = 4
      · exact Or.inr (Or.inr hKey)
      · rw [not_or] at hKey
        rw [turn_idle hKey.1 hKey.2]
        split_ifs
        · exact Or.inr (Or.inl rfl)
        · exact Or.inl rfl

end Game

end TwoBallGame
