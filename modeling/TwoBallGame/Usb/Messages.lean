import TwoBallGame.Clocked.Run
import TwoBallGame.Design.UsbMain

/-! Completion messages between the controller and `UsbWaitTDListDone`. The word
is read and cleared in two accesses, and the loop waits for one exact value, so a
completion that comes in between, or in company, is erased. -/
namespace TwoBallGame.Usb

open Clocked

/-- `TDListDone` is set in a message word. -/
def done (w : BitVec 16) : Bool := w.getLsbD 12

theorem done_or (w bits : BitVec 16) : done (w ||| bits) = (done w || done bits) :=
  BitVec.getLsbD_or

namespace Wait

/-- `UsbWaitTDListDone` is entered with any message word and any old value. -/
def entered (sie1Msg usbCtlVal : BitVec 16) : Wait := ⟨.readAddr, sie1Msg, usbCtlVal⟩

/-- The host has read the word and not cleared it yet. -/
def Open (s : Wait) : Prop := s.point = .clearAddr ∨ s.point = .clearData

instance (s : Wait) : Decidable s.Open := inferInstanceAs (Decidable (_ ∨ _))

/-- A clearing write erases no completion, unless the value read last makes
`UsbWaitTDListDone` return. -/
def Keeps (s : Wait) : WaitEvent → Prop
  | .host => s.point = .clearData → done s.sie1Msg = true → s.usbCtlVal = husbTDListDone
  | .post _ => True

/-- The host reads a completion only when it stands alone in the word, and the
controller posts none between a read of another value and the clearing write. -/
def Timely (s : Wait) : WaitEvent → Prop
  | .host => s.point = .readData → done s.sie1Msg = true → s.sie1Msg = husbTDListDone
  | .post bits => s.Open → done bits = true → s.usbCtlVal = husbTDListDone

/-- A completion stands in the word that the next write will erase unseen. -/
def Doomed (s : Wait) : Prop :=
  s.Open ∧ done s.sie1Msg = true ∧ s.usbCtlVal ≠ husbTDListDone

variable {s : Wait}

/-- Untimely steps are exactly those that doom a completion. -/
theorem doomed_step_iff (h : ¬s.Doomed) (event : WaitEvent) :
    ¬(s.step event).Doomed ↔ s.Timely event := by
  obtain ⟨point, msg, value⟩ := s
  cases event with
  | post bits =>
      simp only [Doomed, Open, Timely, step, done_or] at h ⊢
      cases hMsg : done msg <;> simp only [hMsg, Bool.true_or, Bool.false_or] at h ⊢ <;> tauto
  | host =>
      cases point with
      | readAddr => simp [Doomed, Open, Timely, step]
      | readData =>
          simp only [Doomed, Open, Timely, step]
          tauto
      | clearAddr =>
          simp only [Doomed, Open, Timely, step] at h ⊢
          tauto
      | clearData =>
          simp only [Doomed, Open, Timely, step]
          split_ifs <;> simp
      | returned => simp [Doomed, Open, Timely, step]

theorem keeps_of_not_doomed (h : ¬s.Doomed) (event : WaitEvent) : s.Keeps event := by
  cases event with
  | post bits => trivial
  | host =>
      intro hPoint hDone
      by_contra hOther
      exact h ⟨Or.inr hPoint, hDone, hOther⟩

/-- A doomed completion is erased before the host reads again. -/
theorem not_doomed_of_keeps {events : List WaitEvent} (hEnd : ¬(run step s events).Open)
    (h : EachStep step Keeps s events) : ¬s.Doomed := by
  induction events generalizing s with
  | nil => exact fun hDoomed => hEnd hDoomed.1
  | cons event rest ih =>
      obtain ⟨hNow, hLater⟩ := h
      have hNext := ih hEnd hLater
      rintro ⟨hOpen, hDone, hOther⟩
      cases event with
      | post bits =>
          have hKept : done (s.sie1Msg ||| bits) = true := by rw [done_or, hDone, Bool.true_or]
          exact hNext ⟨hOpen, hKept, hOther⟩
      | host =>
          rcases hOpen with hAddr | hData
          · have hStep : s.step .host = { s with point := .clearData } := by
              simp only [step, hAddr]
            rw [hStep] at hNext
            exact hNext ⟨Or.inr rfl, hDone, hOther⟩
          · exact hOther (hNow hData hDone)

theorem always_not_doomed_of_keeps {events : List WaitEvent} (hEnd : ¬(run step s events).Open)
    (h : EachStep step Keeps s events) : Always step (fun s => ¬s.Doomed) s events := by
  induction events generalizing s with
  | nil => exact not_doomed_of_keeps hEnd h
  | cons event rest ih => exact ⟨not_doomed_of_keeps hEnd h, ih hEnd h.2⟩

/-- In every interleaving whose steps are timely no completion is lost; and in
every interleaving up to a point outside of a read and its clearing write, none
is lost only if every step was timely. -/
theorem completion_kept_iff (sie1Msg usbCtlVal : BitVec 16) (events : List WaitEvent) :
    (EachStep step Timely (entered sie1Msg usbCtlVal) events →
        EachStep step Keeps (entered sie1Msg usbCtlVal) events) ∧
      (¬(run step (entered sie1Msg usbCtlVal) events).Open →
        (EachStep step Keeps (entered sie1Msg usbCtlVal) events ↔
          EachStep step Timely (entered sie1Msg usbCtlVal) events)) := by
  have hStart : ¬(entered sie1Msg usbCtlVal).Doomed := by
    rintro ⟨hAddr | hData, -⟩
    · cases hAddr
    · cases hData
  have hExact : Always step (fun s => ¬s.Doomed) (entered sie1Msg usbCtlVal) events ↔
      EachStep step Timely (entered sie1Msg usbCtlVal) events :=
    always_iff_eachStep (fun _ => True) (fun _ _ => True)
      (fun _ event _ hNot _ => doomed_step_iff hNot event) (fun _ _ _ _ _ _ => trivial)
      events _ trivial hStart (eachStep_true events _)
  have hEnough : EachStep step Timely (entered sie1Msg usbCtlVal) events →
      EachStep step Keeps (entered sie1Msg usbCtlVal) events := by
    intro hTimely
    exact (hExact.mpr hTimely).eachStep fun _ event hNot => keeps_of_not_doomed hNot event
  refine ⟨hEnough, fun hEnd => ⟨fun hKeeps => ?_, hEnough⟩⟩
  exact hExact.mp (always_not_doomed_of_keeps hEnd hKeeps)

/-- The completion is posted after the host has read an empty word: the host
clears it and goes on waiting. -/
theorem completion_erased :
    ¬∀ sie1Msg usbCtlVal events, EachStep step Keeps (entered sie1Msg usbCtlVal) events := by
  intro hAll
  obtain ⟨-, -, -, -, hLost, -⟩ :=
    hAll 0 0 [.host, .host, .post husbTDListDone, .host, .host]
  exact absurd (hLost rfl rfl) (by decide)

end Wait

end TwoBallGame.Usb
