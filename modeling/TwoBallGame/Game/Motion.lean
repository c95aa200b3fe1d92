import TwoBallGame.Balls.Exact
import TwoBallGame.Clocked.Climb
import TwoBallGame.Clocked.Run
import TwoBallGame.Game.Elements

/-! The motion of one element for every step that fits ten bits. Its line climbs
to the first multiple of the step below the screen, one step for each ready
frame, and the end flag comes one frame edge later. The elements of the game move
so, which keeps their boxes within ten bits. -/
namespace TwoBallGame

open Clocked

/-- Any history with a clear: what came before the last one, and the level of
`block_ready` at each frame edge since. -/
def BlockEvent.history (before : List BlockEvent) (readies : List Bool) : List BlockEvent :=
  before ++ BlockEvent.clear :: readies.map BlockEvent.posedgeFrameClk

namespace Block

/-- The registers after some frame edges since the element was last cleared. -/
def sinceClear (blockYStep : BitVec 10) (readies : List Bool) : Block :=
  run (Block.step blockYStep) ⟨0, 0, false⟩ (readies.map BlockEvent.posedgeFrameClk)

/-- Whatever came before an activation that clears is forgotten. -/
theorem run_history (blockYStep : BitVec 10) (b : Block) (before : List BlockEvent)
    (readies : List Bool) :
    run (Block.step blockYStep) b (BlockEvent.history before readies) =
      sinceClear blockYStep readies := by
  rw [BlockEvent.history, run_append, run_cons]
  rfl

section Motion

variable {blockYStep : BitVec 10}

theorem sinceClear_concat (readies : List Bool) (ready : Bool) :
    sinceClear blockYStep (readies ++ [ready]) =
      (sinceClear blockYStep readies).moveBlock false blockYStep ready := by
  rw [sinceClear, List.map_append, run_append]
  rfl

/-- One frame edge on the line alone: a ready element climbs, the others wait. -/
theorem moveBlock_toNat {b : Block} (hFits : blockYStep.toNat ≤ 544) (ready : Bool) :
    (b.moveBlock false blockYStep ready).blockYPos.toNat =
      if ready then climb 479 blockYStep.toNat b.blockYPos.toNat else b.blockYPos.toNat := by
  by_cases hGone : b.gone
  · have hPast : 479 < b.blockYPos.toNat := hGone
    rw [moveBlock_gone _ _ _ hGone, climb_of_lt hPast, ite_self]
  · have hOn : b.blockYPos.toNat ≤ 479 := Nat.not_lt.mp hGone
    cases ready with
    | false =>
        rw [moveBlock_waiting _ _ hGone]
        rfl
    | true =>
        rw [moveBlock_moving _ _ hGone, if_pos rfl, climb_of_le hOn, BitVec.toNat_add,
          Nat.mod_eq_of_lt (by omega)]

/-- The line climbs once for every ready edge, whatever edges lie between. -/
theorem sinceClear_toNat (hFits : blockYStep.toNat ≤ 544) (readies : List Bool) :
    (sinceClear blockYStep readies).blockYPos.toNat =
      (climb 479 blockYStep.toNat)^[readies.count true] 0 := by
  induction readies using List.reverseRecOn with
  | nil => rfl
  | append_singleton readies ready ih =>
      rw [sinceClear_concat, moveBlock_toNat hFits, ih, List.count_append]
      cases ready with
      | false => rfl
      | true =>
          rw [if_pos rfl, ← Function.iterate_succ_apply' (climb 479 blockYStep.toNat)]
          rfl

/-- The line in closed form: it counts the ready edges until it is off the screen. -/
theorem sinceClear_line (hLow : 1 ≤ blockYStep.toNat) (hFits : blockYStep.toNat ≤ 544)
    (readies : List Bool) :
    (sinceClear blockYStep readies).blockYPos.toNat =
      blockYStep.toNat * min (readies.count true) (480 ⌈/⌉ blockYStep.toNat) := by
  rw [sinceClear_toNat hFits, iterate_climb hLow]

/-- Any further activations leave a history of frame edges since a clear. -/
theorem exists_sinceClear_run (readies : List Bool) (events : List BlockEvent) :
    ∃ later, run (Block.step blockYStep) (sinceClear blockYStep readies) events =
      sinceClear blockYStep later := by
  induction events generalizing readies with
  | nil => exact ⟨readies, rfl⟩
  | cons event rest ih =>
      cases event with
      | clear => exact ih []
      | posedgeFrameClk ready =>
          obtain ⟨later, hLater⟩ := ih (readies ++ [ready])
          rw [sinceClear_concat] at hLater
          exact ⟨later, hLater⟩

/-- Below the screen is for good. -/
theorem gone_moveBlock {b : Block} (h : b.gone) (ready : Bool) :
    (b.moveBlock false blockYStep ready).gone := by
  rw [moveBlock_gone _ _ _ h]
  exact h

theorem gone_sinceClear_append {readies : List Bool} (h : (sinceClear blockYStep readies).gone)
    (more : List Bool) : (sinceClear blockYStep (readies ++ more)).gone := by
  induction more using List.reverseRecOn with
  | nil =>
      rw [List.append_nil]
      exact h
  | append_singleton more ready ih =>
      rw [← List.append_assoc, sinceClear_concat]
      exact gone_moveBlock ih ready

/-- If the flag is only high below the screen, it tells after one more edge whether
the element was gone before it. -/
theorem endLevel_moveBlock_iff {b : Block} (h : b.endLevel = true → b.gone) (ready : Bool) :
    (b.moveBlock false blockYStep ready).endLevel = true ↔ b.gone := by
  by_cases hGone : b.gone
  · rw [moveBlock_gone _ _ _ hGone]
    exact iff_of_true rfl hGone
  · refine iff_of_false (fun hEnd => hGone ?_) hGone
    cases ready with
    | false =>
        rw [moveBlock_waiting _ _ hGone] at hEnd
        exact h hEnd
    | true =>
        rw [moveBlock_moving _ _ hGone] at hEnd
        cases hEnd

theorem gone_of_endLevel {readies : List Bool}
    (h : (sinceClear blockYStep readies).endLevel = true) :
    (sinceClear blockYStep readies).gone := by
  induction readies using List.reverseRecOn with
  | nil => cases h
  | append_singleton readies ready ih =>
      rw [sinceClear_concat] at h ⊢
      exact gone_moveBlock ((endLevel_moveBlock_iff ih ready).mp h) ready

theorem endLevel_concat_iff (readies : List Bool) (ready : Bool) :
    (sinceClear blockYStep (readies ++ [ready])).endLevel = true ↔
      (sinceClear blockYStep readies).gone := by
  rw [sinceClear_concat]
  exact endLevel_moveBlock_iff gone_of_endLevel ready

/-- So it tells whether any edge came after the element was gone. -/
theorem endLevel_iff (readies : List Bool) :
    (sinceClear blockYStep readies).endLevel = true ↔
      ∃ done ready rest, readies = done ++ ready :: rest ∧
        (sinceClear blockYStep done).gone := by
  constructor
  · intro h
    rcases List.eq_nil_or_concat readies with rfl | ⟨done, ready, rfl⟩
    · cases h
    · rw [List.concat_eq_append] at h
      exact ⟨done, ready, [], List.concat_eq_append, (endLevel_concat_iff done ready).mp h⟩
  · rintro ⟨done, ready, rest, rfl, hGone⟩
    rcases List.eq_nil_or_concat (ready :: rest) with hNil | ⟨init, last, hLast⟩
    · cases hNil
    · rw [hLast, List.concat_eq_append, ← List.append_assoc, endLevel_concat_iff]
      exact gone_sinceClear_append hGone init

end Motion

/-- The motion of one element since it was last cleared, for every step up to
the largest one that cannot wrap: the line counts the ready edges until it is
below the screen, and the end flag is high from the next edge of any kind on. -/
theorem motion_closed_form (blockYStep : BitVec 10) (hLow : 1 ≤ blockYStep.toNat)
    (hFits : blockYStep.toNat ≤ 544) (b : Block) (before : List BlockEvent)
    (readies : List Bool) :
    (run (Block.step blockYStep) b (BlockEvent.history before readies)).blockYPos.toNat =
      blockYStep.toNat * min (readies.count true) (480 ⌈/⌉ blockYStep.toNat) ∧
    ((run (Block.step blockYStep) b (BlockEvent.history before readies)).endLevel = true ↔
      ∃ done ready rest, readies = done ++ ready :: rest ∧
        479 < (run (Block.step blockYStep) b (BlockEvent.history before done)).blockYPos.toNat) := by
  simp only [run_history]
  constructor
  · exact sinceClear_line hLow hFits readies
  · exact endLevel_iff readies

/-- The fastest step: the element is gone after one ready edge, and the flag
comes with an edge at which it is not ready. -/
theorem motion_closed_form_fastest :
    (run (Block.step 544) ⟨7, 3, true⟩
        (BlockEvent.history [] [false, true, false])).blockYPos.toNat = 544 ∧
      (run (Block.step 544) ⟨7, 3, true⟩
        (BlockEvent.history [] [false, true, false])).endLevel = true := by
  obtain ⟨hLine, hEnd⟩ :=
    motion_closed_form 544 (by decide) (by decide) ⟨7, 3, true⟩ [] [false, true, false]
  exact ⟨hLine, hEnd.mpr ⟨[false, true], false, [], rfl, by decide⟩⟩

end Block

namespace Game

/-- The activation of `Move_Block` in one instance at a frame edge. It clears
while `Reset`, `restart` or a `Collision` is high, and when a `Collision` rises. -/
def frameEvent (g : Game) (keycode : BitVec 8) (n : Fin 30) : BlockEvent :=
  if g.rises keycode || (g.reset || g.sm.restart || g.collision) then .clear
  else .posedgeFrameClk (g.ready n)

/-- The activations of `Move_Block` in one instance at an event of the game. -/
def blockEvents (g : Game) (n : Fin 30) : GameEvent → List BlockEvent
  | .posedgeReset _ => [.clear]
  | .negedgeReset => []
  | .posedgeClk keycode =>
      (if (g.clockEdge keycode).sm.restart && !g.sm.restart then [.clear] else []) ++
        if g.frameEdge then [(g.clockEdge keycode).frameEvent keycode n] else []

section History

variable {g : Game}

theorem posedgeFrameClk_element (g : Game) (keycode : BitVec 8) (n : Fin 30) :
    (g.posedgeFrameClk keycode).elements n =
      Block.step (instanceAt n).blockYStep (g.elements n) (g.frameEvent keycode n) := by
  unfold frameEvent
  cases hRises : g.rises keycode with
  | true =>
      rw [posedgeFrameClk_of_rises hRises]
      rfl
  | false =>
      rw [posedgeFrameClk_of_not_rises hRises]
      cases g.reset || g.sm.restart || g.collision <;> rfl

theorem clockEdge_element (g : Game) (keycode : BitVec 8) (n : Fin 30) :
    (g.clockEdge keycode).elements n =
      run (Block.step (instanceAt n).blockYStep) (g.elements n)
        (if (g.clockEdge keycode).sm.restart && !g.sm.restart then [.clear] else []) := by
  rw [clockEdge_elements]
  split_ifs <;> rfl

/-- The game moves each element by its own activations and nothing else. -/
theorem elements_step (g : Game) (event : GameEvent) (n : Fin 30) :
    (g.step event).elements n =
      run (Block.step (instanceAt n).blockYStep) (g.elements n) (g.blockEvents n event) := by
  cases event with
  | posedgeReset keycode => rfl
  | negedgeReset => rfl
  | posedgeClk keycode =>
      change (g.posedgeClk keycode).elements n = _
      rw [blockEvents, run_append, ← clockEdge_element]
      cases hEdge : g.frameEdge with
      | true =>
          rw [posedgeClk_of_frame hEdge, posedgeFrameClk_element]
          rfl
      | false =>
          rw [posedgeClk_of_quiet hEdge]
          rfl

/-- At any time an element has had some frame edges since it was last cleared. -/
theorem Reachable.sinceClear (h : Reachable g) (n : Fin 30) :
    ∃ readies, g.elements n = Block.sinceClear (instanceAt n).blockYStep readies := by
  apply h.invariant
  · intro g₀ keycode hPower
    exact ⟨[], rfl⟩
  · rintro g event ⟨readies, hBlock⟩
    rw [elements_step, hBlock]
    exact Block.exists_sinceClear_run readies (g.blockEvents n event)

/-- The line of every element in play is a multiple of its step, and stops at the
first one below the screen. -/
theorem Reachable.y_eq (h : Reachable g) (n : Fin 30) :
    ∃ ready, g.y n = (n.val / 10 + 1) * min ready (480 ⌈/⌉ (n.val / 10 + 1)) := by
  obtain ⟨readies, hBlock⟩ := h.sinceClear n
  have hStep := blockYStep_eq n
  refine ⟨readies.count true, ?_⟩
  rw [y, hBlock, Block.sinceClear_line (by omega) (by omega), hStep]

end History

section Boxes

variable {g : Game}

theorem blockXCenter_le (n : Fin 30) : (instanceAt n).blockXCenter.toNat ≤ 370 := by
  revert n
  decide

/-- The elements stop so high that their boxes fit ten bits for good. -/
theorem Reachable.fits (h : Reachable g) (x : Element) : x.Fits g.elementPorts := by
  have hLeft := blockXCenter_le x.wire
  have hTop := h.ordered.top x.wire
  cases x with
  | block i =>
      change (instanceAt (blockWire i)).blockXCenter.toNat + 20 < 1024 ∧
        g.y (blockWire i) + 20 < 1024
      change (instanceAt (blockWire i)).blockXCenter.toNat ≤ 370 at hLeft
      change g.y (blockWire i) ≤ 480 at hTop
      omega
  | rect j =>
      have hSize := rectS_le j
      change (instanceAt (rectWire j)).blockXCenter.toNat + (rectS j).toNat < 1024 ∧
        g.y (rectWire j) + (rectS j).toNat < 1024
      change (instanceAt (rectWire j)).blockXCenter.toNat ≤ 370 at hLeft
      change g.y (rectWire j) ≤ 480 at hTop
      omega

/-- So in the game every collision test of either ball is the one of the geometry. -/
theorem Reachable.meets_iff (h : Reachable g) (color : Bool) (x : Element) :
    (g.balls.ball color).meets g.elementPorts x = true ↔
      Lattice.TouchesExtreme 4 (g.balls.ball color).ballXPos.toNat
        (g.balls.ball color).ballYPos.toNat (x.columns g.elementPorts) (x.rows g.elementPorts) := by
  have hBounds : (g.balls.ball color).InBounds := by
    cases color with
    | false => exact h.steady.blue
    | true => exact h.steady.red
  exact hBounds.exactArithmetic.tests g.elementPorts x (h.fits x)

end Boxes

end Game

end TwoBallGame
