import TwoBallGame.Balls.Lag
import TwoBallGame.Balls.Rest

/-! One press of a key between two pauses. It takes its signs from the index, so
where the ball rests afterwards no longer depends on how it got there. -/
namespace TwoBallGame

open Clocked

/-- The four presses after which a ball rests on the wrong side. Each goes to
or from a place on a centre line, in the direction whose tie the code breaks
the other way. -/
def LosesSide (keycode : BitVec 8) (index : BitVec 6) : Prop :=
  (keycode = 7 ∧ (index = 31 ∨ index = 46)) ∨ (keycode = 4 ∧ (index = 1 ∨ index = 16))

instance decidableLosesSide (keycode : BitVec 8) (index : BitVec 6) :
    Decidable (LosesSide keycode index) := inferInstanceAs (Decidable (_ ∨ _))

/-- The signs of a press, by the index before it. -/
def pressRight (keycode : BitVec 8) (index : BitVec 6) : Bool :=
  if keycode = 7 then decide (index = 60) || Ball.rightHalf index
  else decide (index = 1) || Ball.rightHalf index

def pressLower (keycode : BitVec 8) (index : BitVec 6) : Bool :=
  if keycode = 7 then decide (index = 60) || Ball.lowerHalf index
  else decide (index = 1) || Ball.lowerHalf index

/-- The sides a ball keeps after a press, worked out at every place. -/
theorem press_sides {keycode : BitVec 8} (hKey : keycode = 7 ∨ keycode = 4) {index : BitVec 6}
    (h : OnCircle index) {row next : SinCos} (hRow : sinCosRow index = some row)
    (hNext : sinCosRow (turn keycode index) = some next) :
    ((turn keycode index ≠ 16 → turn keycode index ≠ 46 →
        (pressRight keycode index && decide (0 < offset next.cosine) &&
          decide (0 < offset row.cosine)) = Ball.rightHalf (turn keycode index)) ∧
      (turn keycode index ≠ 1 → turn keycode index ≠ 31 →
        (pressLower keycode index || decide (offset next.sine = 0) ||
          decide (offset row.sine = 0)) = Ball.lowerHalf (turn keycode index))) ↔
      ¬LosesSide keycode index := by
  have hAll : ∀ keycode ∈ [(7 : BitVec 8), 4], ∀ k : Fin 64, OnCircle (BitVec.ofFin k) →
      let i : BitVec 6 := BitVec.ofFin k
      ∀ row ∈ sinCosRow i, ∀ next ∈ sinCosRow (turn keycode i),
        ((turn keycode i ≠ 16 → turn keycode i ≠ 46 →
            (pressRight keycode i && decide (0 < offset next.cosine) &&
              decide (0 < offset row.cosine)) = Ball.rightHalf (turn keycode i)) ∧
          (turn keycode i ≠ 1 → turn keycode i ≠ 31 →
            (pressLower keycode i || decide (offset next.sine = 0) ||
              decide (offset row.sine = 0)) = Ball.lowerHalf (turn keycode i))) ↔
          ¬LosesSide keycode i := by decide
  exact hAll keycode (by simpa using hKey) index.toFin h row hRow next hNext

namespace Ball

variable {b b' : Ball} {keycode : BitVec 8}

/-- With the registers of its own index a key reads the row of the index it turns to. -/
theorem Tracks.readVals_of_key (h : b.Tracks b.nextIndex) (hKey : keycode = 7 ∨ keycode = 4) :
    sinCosRow (turn keycode b.nextIndex) = some (b.readVals keycode) := by
  rcases hKey with rfl | rfl
  · rw [turn, readVals, if_pos rfl, if_pos rfl]
    split_ifs
    · exact h.zeroIndexVal
    · exact h.upIndexVal
  · have hLeft : (4 : BitVec 8) ≠ 7 := by decide
    rw [turn, readVals, if_neg hLeft, if_neg hLeft, if_pos rfl, if_pos rfl]
    split_ifs with hFirst
    · exact h.lastIndexVal
    · exact h.downIndexVal hFirst

theorem plus_of_key (hKey : keycode = 7 ∨ keycode = 4) :
    b.plusX keycode = pressRight keycode b.nextIndex ∧
      b.plusY keycode = pressLower keycode b.nextIndex := by
  rcases hKey with rfl | rfl <;> exact ⟨rfl, rfl⟩

/-- After a press from a pause the ball is on its side but for four presses. -/
theorem Tracks.onItsSide_iff (h : b.Tracks b.nextIndex) (hTables : b.tables.InRange)
    (hKey : keycode = 7 ∨ keycode = 4) (hIndex : b'.nextIndex = turn keycode b.nextIndex)
    (hX : b'.ballXPos.toNat =
      displaced 320 (b.plusX keycode) (offset (b.readVals keycode).cosine))
    (hY : b'.ballYPos.toNat =
      displaced 390 (b.plusY keycode) (offset (b.readVals keycode).sine))
    (hVals : sinCosRow b.nextIndex = some b'.tables.getVals) :
    b'.OnItsSide ↔ ¬LosesSide keycode b.nextIndex := by
  have hs := offset_le (readVals_inRange hTables keycode).1
  obtain ⟨hRight, hLower⟩ := plus_of_key (b := b) hKey
  rw [← press_sides hKey h.onCircle hVals (h.readVals_of_key hKey), ← hIndex]
  have hKeepsRight : b'.keepsRight = (pressRight keycode b.nextIndex &&
      decide (0 < offset (b.readVals keycode).cosine) &&
      decide (0 < offset b'.tables.getVals.cosine)) := by
    rw [keepsRight, hX, right_of_displaced, hRight]
  have hKeepsLower : b'.keepsLower = (pressLower keycode b.nextIndex ||
      decide (offset (b.readVals keycode).sine = 0) ||
      decide (offset b'.tables.getVals.sine = 0)) := by
    rw [keepsLower, hY, lower_of_displaced _ (by omega), hLower]
  rw [← hKeepsRight, ← hKeepsLower]
  exact ⟨fun hSide => ⟨hSide.x, hSide.y⟩, fun hSide => ⟨hSide.1, hSide.2⟩⟩

end Ball

namespace Balls

/-- Whatever the ball did before a pause, one press and a second pause leave it
at the circle point of its new index, unless the press is one of the four. -/
theorem atPlace_after_press (s : Balls) (color : Bool) (pause : BallEvent) (reset : Bool)
    (keycode : BitVec 8) (e : ElementPorts) (idle : List BallEvent) (h : s.AfterReset)
    (hKey : keycode = 7 ∨ keycode = 4) (hPause : s.Idle pause)
    (hPress : (s.step pause).Calm (.posedgeFrameClk reset keycode e))
    (hIdle : EachStep Balls.step Idle ((s.step pause).posedgeFrameClk reset keycode e) idle)
    (hLong : 2 ≤ idle.length) :
    ((run Balls.step ((s.step pause).posedgeFrameClk reset keycode e) idle).ball color).AtPlace ↔
      ¬LosesSide keycode (s.ball color).nextIndex := by
  have hReady := (h.ready color).step pause
  obtain ⟨hWarm, hIndex, -⟩ := idle_step (h.ready color) hPause
  have hTracks : ((s.step pause).ball color).Tracks ((s.step pause).ball color).nextIndex := by
    cases pause with
    | posedgeReset keycode e => exact hPause.elim
    | posedgeFrameClk reset keycode e =>
        rw [hIndex]
        exact (h.ready color).tracks hPause.2.2
  obtain ⟨hTurn, hX, hY⟩ := hReady.turned hPress hWarm.low
  have hVals := (hReady.tracks hPress).getVals
  have hSide := hTracks.onItsSide_iff hReady.tables hKey hTurn hX hY hVals
  have hReleased :=
    atPlace_idle_iff (hReady.step (.posedgeFrameClk reset keycode e)) hIdle hLong
  have hLow := hPress.collision_low (!color)
  rw [hIndex] at hSide
  exact hReleased.trans (Iff.trans ⟨fun hOn => hOn hLow, fun hOn _ => hOn⟩ hSide)

end Balls

end TwoBallGame
