import TwoBallGame.Design.Board
import TwoBallGame.Game.Keys
import TwoBallGame.Usb.Footprint

/-! From the keyboard to the game. However the accesses of `main` fall between the
edges of the game, what the game does by a key is what the last report said. -/
namespace TwoBallGame

open Clocked Ports Usb

/-- The last keycode shown is the low byte of the word that was read from `0x051E`
just before. -/
def Reported (address : Nat) (trace : List (Event Port (BitVec 16))) (key : BitVec 8) : Prop :=
  ∃ earlier answer later,
    trace = earlier ++ .iord .hpiData answer :: .iowr .keycode (answer &&& 0xff) :: later ∧
      (run Seen.watch (Seen.start address) earlier).address = 0x051E ∧
      lowByte answer = key ∧ ∀ data, .iowr .keycode data ∉ later

namespace Board

section Register

variable (b : Board) (events : List BoardEvent)

/-- The register has the low byte of the last keycode written, if there is one. -/
theorem run_dataOut :
    ((run step b events).dataOut = b.dataOut ∧ ∀ data, .iowr .keycode data ∉ accesses events) ∨
      ∃ before data later, accesses events = before ++ .iowr .keycode data :: later ∧
        (∀ data', .iowr .keycode data' ∉ later) ∧
        (run step b events).dataOut = (data.setWidth 32).setWidth 8 := by
  induction events using List.reverseRecOn with
  | nil => exact Or.inl ⟨rfl, fun _ => List.not_mem_nil⟩
  | append_singleton events event ih =>
      rw [run_append, accesses, List.filterMap_append]
      -- every other event leaves the register and the keycodes written as they are
      have hOther (hSame : ((run step b events).step event).dataOut = (run step b events).dataOut)
          (hNone : ∀ data, .iowr .keycode data ∉ accesses [event]) :
          (((run step b events).step event).dataOut = b.dataOut ∧
            ∀ data, .iowr .keycode data ∉ accesses events ++ accesses [event]) ∨
          ∃ before data later,
            accesses events ++ accesses [event] = before ++ .iowr .keycode data :: later ∧
            (∀ data', .iowr .keycode data' ∉ later) ∧
            ((run step b events).step event).dataOut = (data.setWidth 32).setWidth 8 := by
        rcases ih with ⟨hData, hNot⟩ | ⟨before, data, later, hSplit, hNot, hData⟩
        · refine Or.inl ⟨hSame.trans hData, fun data hMem => ?_⟩
          rcases List.mem_append.mp hMem with hBefore | hNow
          · exact hNot data hBefore
          · exact hNone data hNow
        · refine Or.inr ⟨before, data, later ++ accesses [event], ?_, fun data' hMem => ?_,
            hSame.trans hData⟩
          · rw [hSplit, List.append_assoc, List.cons_append]
          · rcases List.mem_append.mp hMem with hBefore | hNow
            · exact hNot data' hBefore
            · exact hNone data' hNow
      cases event with
      | access event =>
          cases event with
          | iord port answer => exact hOther rfl (by simp [accesses])
          | iowr port data =>
              cases port with
              | keycode =>
                  exact Or.inr ⟨accesses events, data, [], rfl, fun _ => List.not_mem_nil, rfl⟩
              | hpiData => exact hOther rfl (by simp [accesses])
              | hpiMailbox => exact hOther rfl (by simp [accesses])
              | hpiAddr => exact hOther rfl (by simp [accesses])
              | hpiStatus => exact hOther rfl (by simp [accesses])
      | posedgeClk => exact hOther rfl (by simp [accesses])
      | posedgeReset => exact hOther rfl (by simp [accesses])
      | negedgeReset => exact hOther rfl (by simp [accesses])

end Register

theorem lowByte_keycode (answer : BitVec 16) :
    ((answer &&& 0xff).setWidth 32).setWidth 8 = lowByte answer := by
  apply BitVec.eq_of_toNat_eq
  have hMask : ((0xff : BitVec 16)).toNat = 2 ^ 8 - 1 := rfl
  simp only [lowByte, BitVec.toNat_setWidth, BitVec.toNat_and, hMask,
    Nat.and_two_pow_sub_one_eq_mod]
  omega

/-- A key other than the zero of power-up has been reported. -/
theorem reported_of_dataOut (g : Game) (address : Nat) {events : List BoardEvent}
    {result : Option Host} (h : Goes Host.piece Host.start (accesses events) result)
    (hKey : (run step (powered g) events).dataOut ≠ 0) :
    Reported address (accesses events) (run step (powered g) events).dataOut := by
  rcases run_dataOut (powered g) events with ⟨hData, -⟩ | ⟨before, data, later, hSplit, hNot, hData⟩
  · exact absurd hData hKey
  · rw [hSplit] at h ⊢
    obtain ⟨-, -, answer, hAnswer, rfl⟩ := (main_follows address h).1.split
    obtain ⟨earlier, rfl, hThere⟩ := last_of_keyWord address hAnswer
    refine ⟨earlier, answer, later, ?_, hThere, ?_, hNot⟩
    · rw [List.append_assoc, List.singleton_append]
    · rw [hData, lowByte_keycode]

theorem reachable_run {b : Board} (h : b.game.Reachable) (events : List BoardEvent) :
    (run step b events).game.Reachable := by
  induction events generalizing b with
  | nil => exact h
  | cons event rest ih =>
      cases event with
      | access event =>
          apply ih
          cases event with
          | iord port answer => exact h
          | iowr port data => cases port <;> exact h
      | posedgeClk => exact ih (h.step (.posedgeClk b.dataOut))
      | posedgeReset => exact ih (h.step (.posedgeReset b.dataOut))
      | negedgeReset => exact ih (h.step .negedgeReset)

/-- The title is left, and a ball is turned, only if the word that `main` has read
last from `0x051E` names the start key, or a turning key. -/
theorem acts_by_report (g : Game) (hReach : g.Reachable) (address : Nat)
    (events : List BoardEvent) (result : Option Host)
    (h : Goes Host.piece Host.start (accesses events) result) :
    let b := run step (powered g) events
    let b' := b.step .posedgeClk
    (b.game.sm.title = true → b'.game.sm.title = false →
      Reported address (accesses events) 40) ∧
    ∀ color, (b'.game.balls.ball color).nextIndex ≠ (b.game.balls.ball color).nextIndex →
      (b'.game.balls.ball color).nextIndex ≠ startIndex color →
      Reported address (accesses events) 7 ∨ Reported address (accesses events) 4 := by
  intro b b'
  have hReported (key : BitVec 8) (hKey : b.dataOut = key) (hSome : key ≠ 0) :
      Reported address (accesses events) key := by
    rw [← hKey] at hSome ⊢
    exact reported_of_dataOut g address h hSome
  constructor
  · intro hTitle hLeft
    refine hReported 40 ?_ (by decide)
    by_contra hOther
    have hKept := (reachable_run hReach events).title_kept (of_decide_eq_true hTitle) hOther
    exact of_decide_eq_false hLeft hKept
  · intro color hMoved hAway
    rcases Game.nextIndex_posedgeClk (g := b.game) b.dataOut color with hSame | hStart | hKey | hKey
    · exact absurd hSame hMoved
    · exact absurd hStart hAway
    · exact Or.inl (hReported 7 hKey (by decide))
    · exact Or.inr (hReported 4 hKey (by decide))

/-- The start key, on the board. -/
theorem acts_by_report_keyed : Reported 0 (keyed 0x0028 22).1 40 := by
  have hAccesses : accesses ((keyed 0x0028 22).1.map BoardEvent.access) = (keyed 0x0028 22).1 := by
    simp [accesses, List.filterMap_map]
  have h := acts_by_report (Game.zero.posedgeReset 0).negedgeReset
    (Game.reachable_zero.step .negedgeReset) 0 ((keyed 0x0028 22).1.map BoardEvent.access) _
    (hAccesses ▸ goes_keyed 0x0028 22)
  rw [hAccesses] at h
  exact h.1 (by decide +kernel) (by decide +kernel)

end Board

end TwoBallGame
