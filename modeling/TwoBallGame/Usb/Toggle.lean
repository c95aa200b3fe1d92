import TwoBallGame.Clocked.Run
import TwoBallGame.Design.UsbMain

/-! The data toggle of the keyboard polls. The device starts again with DATA0 at
every `SET_CONFIGURATION`; the host keeps the parity of all polls since power-up. -/
namespace TwoBallGame.Usb

open Clocked

/-- The fourth word of a TD. -/
def controlWord (td : List (BitVec 16)) : BitVec 16 := td.getD 3 0

def data0 : BitVec 16 := 0x0001

def data1 : BitVec 16 := 0x0041

def opposite (control : BitVec 16) : BitVec 16 := if control = data0 then data1 else data0

/-- The last new poll. -/
def lastPoll : List Issue → Option (List (BitVec 16))
  | [] => none
  | .poll td :: _ => some td
  | _ :: rest => lastPoll rest

/-- How many polls have been made, not counting repetitions. -/
def polls : List Issue → Nat
  | [] => 0
  | .poll _ :: rest => polls rest + 1
  | _ :: rest => polls rest

/-- No poll has been made since the last `UsbSetConfig`. -/
def Fresh : List Issue → Prop
  | [] => True
  | .request .setConfig :: _ => True
  | .poll _ :: _ => False
  | _ :: rest => Fresh rest

/-- The control word that the device expects in the next new poll: DATA0 after
`UsbSetConfig`, afterwards the opposite of the poll before. -/
def due : List Issue → BitVec 16
  | [] => data0
  | .request .setConfig :: _ => data0
  | .poll td :: _ => opposite (controlWord td)
  | _ :: rest => due rest

/-- Every new poll carries the toggle that is due, and every repetition is the
poll it repeats. -/
def Lawful : List Issue → Prop
  | [] => True
  | .poll td :: rest => controlWord td = due rest ∧ Lawful rest
  | .repoll td :: rest => lastPoll rest = some td ∧ Lawful rest
  | .request _ :: rest => Lawful rest

instance decidableLawful : ∀ bus, Decidable (Lawful bus)
  | [] => isTrue trivial
  | .poll td :: rest =>
      have := decidableLawful rest
      inferInstanceAs (Decidable (controlWord td = due rest ∧ Lawful rest))
  | .repoll td :: rest =>
      have := decidableLawful rest
      inferInstanceAs (Decidable (lastPoll rest = some td ∧ Lawful rest))
  | .request _ :: rest => decidableLawful rest

/-- Every enumeration that a poll follows comes after an even number of polls. -/
def EvenRestarts : List Issue → Prop
  | [] => True
  | .poll _ :: rest => (Fresh rest → Even (polls rest)) ∧ EvenRestarts rest
  | _ :: rest => EvenRestarts rest

/-- New polls are numbered through from power-up, whatever is enumerated in
between, and repetitions repeat. -/
def Numbered : List Issue → Prop
  | [] => True
  | .poll td :: rest => td = pollWords (BitVec.ofNat 8 (polls rest + 1)) ∧ Numbered rest
  | .repoll td :: rest => lastPoll rest = some td ∧ Numbered rest
  | .request _ :: rest => Numbered rest

/-- The control word depends on the parity of the number, across the wrap too. -/
theorem controlWord_pollWords (n : Nat) :
    controlWord (pollWords (BitVec.ofNat 8 n)) = if n % 2 = 1 then data0 else data1 := by
  have hParity : BitVec.ofNat 8 n % 2 ≠ 0 ↔ n % 2 = 1 := by
    have hTwo : (2 : BitVec 8).toNat = 2 := rfl
    have hZero : (0 : BitVec 8).toNat = 0 := rfl
    rw [Ne, ← BitVec.toNat_inj, BitVec.toNat_umod, BitVec.toNat_ofNat, hTwo, hZero]
    omega
  simp only [controlWord, pollWords, hParity]
  rfl

theorem opposite_pollWords (n : Nat) :
    opposite (controlWord (pollWords (BitVec.ofNat 8 n))) =
      controlWord (pollWords (BitVec.ofNat 8 (n + 1))) := by
  rw [controlWord_pollWords, controlWord_pollWords]
  rcases Nat.mod_two_eq_zero_or_one n with hEven | hOdd
  · have hNext : (n + 1) % 2 = 1 := by omega
    rw [hEven, hNext]
    rfl
  · have hNext : (n + 1) % 2 = 0 := by omega
    rw [hOdd, hNext]
    rfl

section Numbered

variable {bus : List Issue}

/-- Within an enumeration the numbers alternate as the device expects. -/
theorem Numbered.due_eq (h : Numbered bus) (hFresh : ¬Fresh bus) :
    due bus = controlWord (pollWords (BitVec.ofNat 8 (polls bus + 1))) := by
  induction bus with
  | nil => exact absurd trivial hFresh
  | cons issue rest ih =>
      cases issue with
      | request r =>
          cases r with
          | setConfig => exact absurd trivial hFresh
          | _ => exact ih h hFresh
      | poll td =>
          obtain ⟨rfl, -⟩ := h
          exact opposite_pollWords (polls rest + 1)
      | repoll td => exact ih h.2 hFresh

theorem due_of_fresh (hFresh : Fresh bus) : due bus = data0 := by
  induction bus with
  | nil => rfl
  | cons issue rest ih =>
      cases issue with
      | request r =>
          cases r with
          | setConfig => rfl
          | _ => exact ih hFresh
      | poll td => exact absurd hFresh id
      | repoll td => exact ih hFresh

/-- A numbered poll meets the device's expectation exactly if it is not the first
of its enumeration or its number is odd. -/
theorem Numbered.poll_iff (h : Numbered bus) :
    controlWord (pollWords (BitVec.ofNat 8 (polls bus + 1))) = due bus ↔
      (Fresh bus → Even (polls bus)) := by
  by_cases hFresh : Fresh bus
  · have hWords : data1 ≠ data0 := by decide
    rw [due_of_fresh hFresh, controlWord_pollWords, Nat.even_iff]
    rcases Nat.mod_two_eq_zero_or_one (polls bus) with hEven | hOdd
    · have hNext : (polls bus + 1) % 2 = 1 := by omega
      simp [hNext, hEven]
    · have hNext : (polls bus + 1) % 2 = 0 := by omega
      simp [hNext, hOdd, hFresh, hWords]
  · rw [h.due_eq hFresh]
    simp [hFresh]

theorem Numbered.lawful_iff (h : Numbered bus) : Lawful bus ↔ EvenRestarts bus := by
  induction bus with
  | nil => exact Iff.rfl
  | cons issue rest ih =>
      cases issue with
      | request r => exact ih h
      | poll td =>
          obtain ⟨rfl, hRest⟩ := h
          exact and_congr hRest.poll_iff (ih hRest)
      | repoll td => exact (and_iff_right h.1).trans (ih h.2)

end Numbered

namespace UsbMain

/-- All that a step of `main` can do. -/
inductive Moves (s : UsbMain) : UsbMain → Prop where
  | stay : Moves s s
  | goto (p : Point) (hp : p ≠ .polled) : Moves s (s.goto p)
  | issue (r : Request) : Moves s (s.issue r)
  | pollTop : Moves s s.pollTop
  | pollAgain (hPoint : s.point = .polled) : Moves s s.pollAgain

theorem step_moves (s : UsbMain) (a : Answers) : s.Moves (s.step a) := by
  unfold step
  cases hPoint : s.point with
  | sie1Init =>
      simp only
      split_ifs
      · exact .stay
      · exact .goto _ Point.noConfusion
      · exact .goto _ Point.noConfusion
  | husbReset =>
      simp only
      split_ifs
      · exact .goto _ Point.noConfusion
      · exact .goto _ Point.noConfusion
  | detect reads =>
      simp only
      split_ifs
      · exact .issue _
      · exact .goto _ Point.noConfusion
      · exact .goto _ Point.noConfusion
  | insert =>
      simp only
      split_ifs
      · exact .goto _ Point.noConfusion
      · exact .stay
  | requested r =>
      simp only
      split_ifs
      · exact .goto _ Point.noConfusion
      · exact .issue r
  | waiting r =>
      simp only
      split_ifs
      · exact .goto _ Point.noConfusion
      · exact .stay
  | checking r =>
      simp only
      split_ifs
      · cases r.next with
        | none => exact .pollTop
        | some r' => exact .issue r'
      · exact .goto _ Point.noConfusion
      · exact .stay
  | polled =>
      simp only
      split_ifs
      · exact .goto _ Point.noConfusion
      · exact .pollAgain hPoint
  | pollWaiting =>
      simp only
      split_ifs
      · exact .goto _ Point.noConfusion
      · exact .stay
  | pollDone reads =>
      simp only
      split_ifs
      · exact .pollTop
      · exact .goto _ Point.noConfusion
      · exact .goto _ Point.noConfusion
  | removed =>
      simp only
      split_ifs
      · exact .goto _ Point.noConfusion
      · exact .stay

/-- `toggle` is the number of polls so far, modulo 256, and the bus shows them in
this order. While a poll is pending it is the last one on the bus. -/
structure Counted (s : UsbMain) : Prop where
  toggle : s.toggle = BitVec.ofNat 8 (polls s.bus)
  numbered : Numbered s.bus
  pending : s.point = .polled → lastPoll s.bus = some (pollWords s.toggle)

theorem counted_start : start.Counted := by
  refine ⟨rfl, trivial, ?_⟩
  intro h
  cases h

theorem Counted.step {s : UsbMain} (h : s.Counted) (a : Answers) : (s.step a).Counted := by
  have hMoves := s.step_moves a
  generalize s.step a = t at hMoves
  cases hMoves with
  | stay => exact h
  | goto p hp => exact ⟨h.toggle, h.numbered, fun hPoint => absurd hPoint hp⟩
  | issue r =>
      refine ⟨h.toggle, h.numbered, ?_⟩
      intro hPoint
      cases hPoint
  | pollTop =>
      have hNext : s.toggle + 1 = BitVec.ofNat 8 (polls s.bus + 1) := by
        rw [h.toggle, BitVec.ofNat_add]
        rfl
      refine ⟨hNext, ⟨?_, h.numbered⟩, fun _ => rfl⟩
      rw [hNext]
  | pollAgain hPoint =>
      exact ⟨h.toggle, ⟨h.pending hPoint, h.numbered⟩, fun _ => h.pending hPoint⟩

/-- In every run of `main` the toggle restarts with every enumeration exactly if
each enumeration comes after an even number of polls. -/
theorem toggle_restarts_iff (answers : List Answers) :
    Lawful (run step start answers).bus ↔ EvenRestarts (run step start answers).bus := by
  have hReach : Reaches step start (run step start answers) := ⟨answers, rfl⟩
  exact (hReach.invariant counted_start fun _ a hs => hs.step a).numbered.lawful_iff

/-- Answers with which every step goes on. -/
def allWell : Answers :=
  { status := hpiStatusSie1msgFlag, mailbox := commAck, message := husbTDListDone
    control := 0x03, ctl := noDevice }

/-- The keyboard is taken out after its first poll and put back: the first poll
after the second `UsbSetConfig` carries DATA1. -/
theorem toggle_not_restarted : ¬∀ answers, Lawful (run step start answers).bus := by
  intro hAll
  have hLaw := hAll (List.replicate 32 allWell ++ List.replicate 8 { allWell with ctl := 0 } ++
    List.replicate 31 allWell)
  revert hLaw
  decide

end UsbMain

end TwoBallGame.Usb
