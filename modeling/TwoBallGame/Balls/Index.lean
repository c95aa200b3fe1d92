import TwoBallGame.Balls.Frame

/-! The indices of the two balls on the circle of sixty places. Both balls are
turned by the same key, so they stay opposite as long as both are turned. -/
namespace TwoBallGame

open Clocked

/-- The index selects one of the sixty places of the circle. -/
def OnCircle (index : BitVec 6) : Prop := 1 ≤ index.toNat ∧ index.toNat ≤ 60

instance (index : BitVec 6) : Decidable (OnCircle index) := inferInstanceAs (Decidable (_ ∧ _))

/-- How far a key turns a ball on the circle. -/
def keyTurn (keycode : BitVec 8) : Nat :=
  if keycode = 7 then 1 else if keycode = 4 then 59 else 0

theorem startIndex_onCircle (color : Bool) : OnCircle (startIndex color) := by
  cases color <;> decide

theorem turn_onCircle (keycode : BitVec 8) {index : BitVec 6} (h : OnCircle index) :
    OnCircle (turn keycode index) := by
  obtain ⟨hLow, hHigh⟩ := h
  unfold turn OnCircle
  split_ifs <;> bv_omega

theorem turn_idle {keycode : BitVec 8} (hRight : keycode ≠ 7) (hLeft : keycode ≠ 4)
    (index : BitVec 6) : turn keycode index = index := by
  rw [turn, if_neg hRight, if_neg hLeft]

/-- On the circle a turn is an addition modulo sixty, across both wraps. -/
theorem turn_modEq (keycode : BitVec 8) {index : BitVec 6} (h : OnCircle index) :
    (turn keycode index).toNat ≡ index.toNat + keyTurn keycode [MOD 60] := by
  obtain ⟨hLow, hHigh⟩ := h
  unfold turn keyTurn Nat.ModEq
  split_ifs <;> bv_omega

namespace Balls

/-- Both indices are places of the circle, thirty places apart. -/
structure Opposite (s : Balls) : Prop where
  blueOnCircle : OnCircle s.blue.nextIndex
  redOnCircle : OnCircle s.red.nextIndex
  apart : s.red.nextIndex.toNat ≡ s.blue.nextIndex.toNat + 30 [MOD 60]

/-- The condition on one event. In the frame right after a hit of one ball, that
ball is free again while the other is still held by its `Collision`. If it does
not hit once more in this frame, no rotation key may be down. -/
def KeysReleased (s : Balls) : BallEvent → Prop
  | .posedgeReset _ _ => True
  | .posedgeFrameClk reset keycode e =>
      reset = false →
      ((s.blue.collision = true ∧ s.blue.collides e = false) ∨
        (s.red.collision = true ∧ s.red.collides e = false)) →
      keycode ≠ 7 ∧ keycode ≠ 4

theorem opposite_start {s : Balls} (hBlue : s.blue.nextIndex = 31) (hRed : s.red.nextIndex = 1) :
    s.Opposite :=
  ⟨by rw [hBlue]; decide, by rw [hRed]; decide, by rw [hBlue, hRed]; decide⟩

theorem opposite_posedgeReset (keycode : BitVec 8) (e : ElementPorts) (s : Balls) :
    (s.posedgeReset keycode e).Opposite := by
  rw [posedgeReset_eq]
  exact opposite_start rfl rfl

section Step

variable {reset : Bool} {keycode : BitVec 8} {e : ElementPorts}

/-- A ball turns while the other is put back only when its own `Collision` is
still high and it meets nothing. -/
theorem turns_alone {mine other : Ball} (hMine : mine.respawns reset e other = false)
    (hOther : other.respawns reset e mine = true) :
    reset = false ∧ mine.collision = true ∧ mine.collides e = false := by
  obtain ⟨⟨⟨rfl, hLow⟩, hHit⟩, hHitOther⟩ :
      ((reset = false ∧ other.collision = false) ∧ mine.hits reset e other = false) ∧
        other.hits reset e mine = false := by
    simpa [Ball.respawns, Bool.or_eq_false_iff] using hMine
  have hHigh : mine.collision = true := by
    simpa [Ball.respawns, hHit, hHitOther] using hOther
  have hFree : mine.collides e = false := by
    simpa [Ball.hits, hLow] using hHit
  exact ⟨rfl, hHigh, hFree⟩

/-- The converse: a ball still high that meets nothing does turn. -/
theorem turns_of_high {mine other : Ball} (hReset : reset = false)
    (hNotBoth : (mine.collision && other.collision) = false)
    (hHigh : mine.collision = true) (hFree : mine.collides e = false) :
    mine.respawns reset e other = false ∧ other.respawns reset e mine = true := by
  have hLow : other.collision = false := by simpa [hHigh] using hNotBoth
  constructor
  · simp [Ball.respawns, Ball.hits, hReset, hLow, hHigh, hFree]
  · simp [Ball.respawns, hHigh]

/-- One press moves a ball off its start place, no press leaves it there. -/
theorem turn_start_opposite_iff (keycode : BitVec 8) :
    (1 ≡ (turn keycode 31).toNat + 30 [MOD 60] ↔ keycode ≠ 7 ∧ keycode ≠ 4) ∧
    ((turn keycode 1).toNat ≡ 31 + 30 [MOD 60] ↔ keycode ≠ 7 ∧ keycode ≠ 4) := by
  by_cases hRight : keycode = 7
  · rw [hRight]
    decide
  · by_cases hLeft : keycode = 4
    · rw [hLeft]
      decide
    · rw [turn_idle hRight hLeft, turn_idle hRight hLeft]
      simp only [ne_eq, hRight, hLeft, not_false_iff, and_self, iff_true]
      decide

/-- Both balls turned by the same key stay opposite. -/
theorem opposite_of_turn {s s' : Balls} (hp : s.Opposite)
    (hBlue : s'.blue.nextIndex = turn keycode s.blue.nextIndex)
    (hRed : s'.red.nextIndex = turn keycode s.red.nextIndex) : s'.Opposite := by
  refine ⟨?_, ?_, ?_⟩
  · rw [hBlue]
    exact turn_onCircle keycode hp.blueOnCircle
  · rw [hRed]
    exact turn_onCircle keycode hp.redOnCircle
  · rw [hBlue, hRed]
    have hRedTurn := turn_modEq keycode hp.redOnCircle
    have hBlueTurn := turn_modEq keycode hp.blueOnCircle
    calc (turn keycode s.red.nextIndex).toNat
        ≡ s.red.nextIndex.toNat + keyTurn keycode [MOD 60] := hRedTurn
      _ ≡ s.blue.nextIndex.toNat + 30 + keyTurn keycode [MOD 60] := hp.apart.add_right _
      _ = s.blue.nextIndex.toNat + keyTurn keycode + 30 := by ring
      _ ≡ (turn keycode s.blue.nextIndex).toNat + 30 [MOD 60] := (hBlueTurn.add_right 30).symm

/-- Red turned alone from its start place, blue put back. -/
theorem opposite_redAlone_iff {s : Balls} (hBlue : s.blue.nextIndex = 31)
    (hRed : s.red.nextIndex = turn keycode 1) : s.Opposite ↔ keycode ≠ 7 ∧ keycode ≠ 4 := by
  constructor
  · intro h
    have hApart := h.apart
    rw [hBlue, hRed] at hApart
    exact (turn_start_opposite_iff keycode).2.mp hApart
  · intro hKeys
    exact opposite_start hBlue (hRed.trans (turn_idle hKeys.1 hKeys.2 1))

/-- Blue turned alone from its start place, red put back. -/
theorem opposite_blueAlone_iff {s : Balls} (hBlue : s.blue.nextIndex = turn keycode 31)
    (hRed : s.red.nextIndex = 1) : s.Opposite ↔ keycode ≠ 7 ∧ keycode ≠ 4 := by
  constructor
  · intro h
    have hApart := h.apart
    rw [hBlue, hRed] at hApart
    exact (turn_start_opposite_iff keycode).1.mp hApart
  · intro hKeys
    exact opposite_start (hBlue.trans (turn_idle hKeys.1 hKeys.2 31)) hRed

/-- The exact condition on a frame edge, from any settled opposite state. -/
theorem opposite_posedgeFrameClk_iff {s : Balls} (hs : s.Settled) (hp : s.Opposite) :
    (s.posedgeFrameClk reset keycode e).Opposite ↔
      s.KeysReleased (.posedgeFrameClk reset keycode e) := by
  have hBlueIndex := s.blue.frame_nextIndex false reset keycode e s.red
  have hRedIndex := s.red.frame_nextIndex true reset keycode e s.blue
  rw [← posedgeFrameClk_blue] at hBlueIndex
  rw [← posedgeFrameClk_red] at hRedIndex
  have hNotBoth' : (s.red.collision && s.blue.collision) = false := by
    rw [Bool.and_comm]
    exact hs.notBoth
  cases hBlue : s.blue.respawns reset e s.red with
  | true =>
      rw [hBlue, if_pos rfl] at hBlueIndex
      cases hRed : s.red.respawns reset e s.blue with
      | true =>
          -- both are put back, whatever key is down
          rw [hRed, if_pos rfl] at hRedIndex
          refine ⟨fun _ hReset hHigh => ?_, fun _ => opposite_start hBlueIndex hRedIndex⟩
          rcases hHigh with ⟨hHigh, hFree⟩ | ⟨hHigh, hFree⟩
          · simp [(turns_of_high hReset hs.notBoth hHigh hFree).1] at hBlue
          · simp [(turns_of_high hReset hNotBoth' hHigh hFree).1] at hRed
      | false =>
          rw [hRed] at hRedIndex
          obtain ⟨hReset, hHigh, hFree⟩ := turns_alone hRed hBlue
          rw [hs.redStart hHigh] at hRedIndex
          rw [opposite_redAlone_iff hBlueIndex hRedIndex]
          exact ⟨fun hKeys _ _ => hKeys, fun h => h hReset (Or.inr ⟨hHigh, hFree⟩)⟩
  | false =>
      rw [hBlue] at hBlueIndex
      cases hRed : s.red.respawns reset e s.blue with
      | true =>
          rw [hRed, if_pos rfl] at hRedIndex
          obtain ⟨hReset, hHigh, hFree⟩ := turns_alone hBlue hRed
          rw [hs.blueStart hHigh] at hBlueIndex
          rw [opposite_blueAlone_iff hBlueIndex hRedIndex]
          exact ⟨fun hKeys _ _ => hKeys, fun h => h hReset (Or.inl ⟨hHigh, hFree⟩)⟩
      | false =>
          -- both turn by the same key
          rw [hRed] at hRedIndex
          constructor
          · rintro - hReset (⟨hHigh, hFree⟩ | ⟨hHigh, hFree⟩)
            · simp [(turns_of_high hReset hs.notBoth hHigh hFree).2] at hRed
            · simp [(turns_of_high hReset hNotBoth' hHigh hFree).2] at hBlue
          · exact fun _ => opposite_of_turn hp hBlueIndex hRedIndex

end Step

theorem opposite_step_iff {s : Balls} (hs : s.Settled) (hp : s.Opposite) (event : BallEvent) :
    (s.step event).Opposite ↔ s.KeysReleased event := by
  cases event with
  | posedgeReset keycode e =>
      exact ⟨fun _ => trivial, fun _ => opposite_posedgeReset keycode e s⟩
  | posedgeFrameClk reset keycode e => exact opposite_posedgeFrameClk_iff hs hp

end Balls

/-- The balls stay opposite throughout a run after `Reset` exactly when every
event of the run has the keys released while one ball alone is held. -/
theorem opposite_always_iff (s : Balls) (keycode : BitVec 8) (e : ElementPorts)
    (events : List BallEvent) :
    Always Balls.step Balls.Opposite (s.posedgeReset keycode e) events ↔
      EachStep Balls.step Balls.KeysReleased (s.posedgeReset keycode e) events := by
  apply always_iff_eachStep Balls.Settled (fun _ _ => True)
  · exact fun s event hs hp _ => Balls.opposite_step_iff hs hp event
  · exact fun s event _ _ _ _ => s.settled_step event
  · exact Balls.settled_posedgeReset keycode e s
  · exact Balls.opposite_posedgeReset keycode e s
  · exact eachStep_true _ _

/-- The key is held over a hit of blue alone: `block3` stands at line 380 for one
frame, and the right key turns blue in the next frame while red is still held. -/
theorem opposite_lost_after_hit :
    ¬Always Balls.step Balls.Opposite
      (Balls.zero.posedgeReset 0 (wiredPorts fun _ => 0))
      [.posedgeFrameClk false 7 (wiredPorts fun n => if n = 2 then 380 else 0),
        .posedgeFrameClk false 7 (wiredPorts fun _ => 0)] := by
  intro h
  have hApart := h.last.apart
  revert hApart
  decide

end TwoBallGame
