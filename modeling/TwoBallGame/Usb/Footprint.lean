import TwoBallGame.Usb.Controller
import TwoBallGame.Usb.Interface

/-! What `main` does to the controller's memory and to the keycode output, whatever
the controller answers. Both follow from the accesses that the watcher allows. -/
namespace TwoBallGame.Usb

open Clocked Ports Chains

/-- The port and the memory behind it after one access. Reads move the address of
the port as writes do. -/
def Hpi.see (h : Hpi) : Event Port (BitVec 16) → Hpi
  | .iowr .hpiAddr a => h.iowr (.addr a)
  | .iowr .hpiData d => h.iowr (.data d)
  | .iord .hpiData _ => { h with address := h.address + 2 }
  | _ => h

/-- The bytes that belong to the host: its registers, the pointer, and 128 bytes of
list. -/
def Footprint (a : Nat) : Prop :=
  (∃ register ∈ Seen.registers, register ≤ a ∧ a < register + 2) ∨
    (0x01B0 ≤ a ∧ a < 0x01B2) ∨ (0x0500 ≤ a ∧ a < 0x0580)

section Watched

variable (w : Seen) (h : Hpi)

theorem Seen.data_address (d : BitVec 16) : (w.data d).address = w.address + 2 := by
  unfold Seen.data
  split_ifs <;> rfl

/-- The watcher knows the address of the port. -/
theorem watch_address (hAddress : w.address = h.address) (event : Event Port (BitVec 16)) :
    (w.watch event).address = (h.see event).address := by
  cases event with
  | iord port answer =>
      cases port with
      | hpiData => exact congrArg (· + 2) hAddress
      | hpiMailbox => exact hAddress
      | hpiAddr => exact hAddress
      | hpiStatus => exact hAddress
      | keycode => exact hAddress
  | iowr port d =>
      cases port with
      | hpiData => exact (w.data_address d).trans (congrArg (· + 2) hAddress)
      | hpiMailbox => exact hAddress
      | hpiAddr => rfl
      | hpiStatus => exact hAddress
      | keycode => exact hAddress

/-- An allowed access leaves every byte outside of the footprint. -/
theorem see_outside (hAddress : w.address = h.address) {event : Event Port (BitVec 16)}
    (hAllows : w.Allows event) {a : Nat} (hOutside : ¬Footprint a) :
    (h.see event).memory a = h.memory a := by
  cases event with
  | iord port answer => cases port <;> rfl
  | iowr port d =>
      cases port with
      | hpiData =>
          have hWritable : w.Writable d := hAllows
          rw [Seen.Writable, hAddress] at hWritable
          have hClear : a < h.address ∨ h.address + 2 ≤ a := by
            by_contra hBad
            apply hOutside
            rcases hWritable with hRegister | ⟨hPointer, -, -⟩ | ⟨hList, hEnd, -⟩
            · exact Or.inl ⟨h.address, hRegister, by omega, by omega⟩
            · exact Or.inr (Or.inl ⟨by omega, by omega⟩)
            · exact Or.inr (Or.inr ⟨by omega, by omega⟩)
          rcases hClear with hBefore | hAfter
          · exact store_of_lt hBefore
          · exact store_of_ge hAfter
      | hpiMailbox => rfl
      | hpiAddr => rfl
      | hpiStatus => rfl
      | keycode => rfl

theorem run_outside (hAddress : w.address = h.address) {trace : List (Event Port (BitVec 16))}
    (hAllows : EachStep Seen.watch Seen.Allows w trace) {a : Nat} (hOutside : ¬Footprint a) :
    (run Hpi.see h trace).memory a = h.memory a := by
  induction trace generalizing w h with
  | nil => rfl
  | cons event rest ih =>
      obtain ⟨hNow, hLater⟩ := hAllows
      have hNext := watch_address w h hAddress event
      exact (ih _ _ hNext hLater).trans (see_outside w h hAddress hNow hOutside)

end Watched

/-- In no run does `main` change a byte of the controller's memory outside of its
registers, the pointer and the 128 bytes of list, and to the mailbox it writes only
its two commands. -/
theorem main_footprint (h : Hpi) (trace : List (Event Port (BitVec 16))) (result : Option Host)
    (hGoes : Goes Host.piece Host.start trace result) :
    (∀ a, ¬Footprint a → (run Hpi.see h trace).memory a = h.memory a) ∧
      (∀ d, .iowr .hpiMailbox d ∈ trace → d = commReset ∨ d = commExecInt) ∧
      ∀ d, .iowr .hpiStatus d ∉ trace := by
  obtain ⟨hAllows, -⟩ := main_follows h.address hGoes
  refine ⟨fun a hOutside => run_outside _ h rfl hAllows hOutside, fun d hMem => ?_,
    fun d hMem => ?_⟩
  · obtain ⟨before, after, rfl⟩ := List.append_of_mem hMem
    exact hAllows.split
  · obtain ⟨before, after, rfl⟩ := List.append_of_mem hMem
    exact hAllows.split

/-- The enumeration and the first poll. -/
theorem main_footprint_keyed :
    (∀ a, ¬Footprint a → (run Hpi.see ⟨0, fun _ => 0⟩ (keyed 0x0028 22).1).memory a = 0) ∧
      (∀ d, .iowr .hpiMailbox d ∈ (keyed 0x0028 22).1 → d = commReset ∨ d = commExecInt) ∧
      ∀ d, .iowr .hpiStatus d ∉ (keyed 0x0028 22).1 :=
  main_footprint ⟨0, fun _ => 0⟩ _ _ (goes_keyed 0x0028 22)

section History

variable (address : Nat) {trace : List (Event Port (BitVec 16))}

/-- The word at `0x051E` is known just after it was read. -/
theorem last_of_keyWord {answer : BitVec 16}
    (h : (run Seen.watch (Seen.start address) trace).keyWord = some answer) :
    ∃ before, trace = before ++ [.iord .hpiData answer] ∧
      (run Seen.watch (Seen.start address) before).address = 0x051E := by
  rcases List.eq_nil_or_concat trace with rfl | ⟨before, event, rfl⟩
  · cases h
  rw [List.concat_eq_append, run_append] at h
  refine ⟨before, ?_⟩
  rw [List.concat_eq_append]
  generalize run Seen.watch (Seen.start address) before = w at h ⊢
  change (w.watch event).keyWord = some answer at h
  cases event with
  | iord port word =>
      cases port with
      | hpiData =>
          simp only [Seen.watch] at h
          split_ifs at h with hAddress
          obtain rfl := Option.some.inj h
          exact ⟨rfl, hAddress⟩
      | hpiMailbox => cases h
      | hpiAddr => cases h
      | hpiStatus => cases h
      | keycode => cases h
  | iowr port d =>
      cases port with
      | hpiData =>
          simp only [Seen.watch, Seen.data] at h
          split_ifs at h
      | hpiMailbox => cases h
      | hpiAddr => cases h
      | hpiStatus => cases h
      | keycode => cases h

/-- A completion has been read since the last list was handed over. -/
theorem exists_of_completed (h : (run Seen.watch (Seen.start address) trace).completed = true) :
    ∃ before after, trace = before ++ .iord .hpiData husbTDListDone :: after ∧
      (run Seen.watch (Seen.start address) before).address = 0x0144 ∧
      (run Seen.watch (Seen.start address) before).handed =
        (run Seen.watch (Seen.start address) trace).handed := by
  induction trace using List.reverseRecOn with
  | nil => cases h
  | append_singleton trace event ih =>
      rw [run_append] at h ⊢
      change ((run Seen.watch (Seen.start address) trace).watch event).completed = true at h
      change ∃ before after, _ ∧ _ ∧ (run Seen.watch (Seen.start address) before).handed =
        ((run Seen.watch (Seen.start address) trace).watch event).handed
      -- the completion was read before this access
      have hEarlier (hThen : (run Seen.watch (Seen.start address) trace).completed = true)
          (hHanded : ((run Seen.watch (Seen.start address) trace).watch event).handed =
            (run Seen.watch (Seen.start address) trace).handed) :
          ∃ before after, trace ++ [event] = before ++ .iord .hpiData husbTDListDone :: after ∧
            (run Seen.watch (Seen.start address) before).address = 0x0144 ∧
            (run Seen.watch (Seen.start address) before).handed =
              ((run Seen.watch (Seen.start address) trace).watch event).handed := by
        obtain ⟨before, after, hTrace, hAddress, hSame⟩ := ih hThen
        refine ⟨before, after ++ [event], ?_, hAddress, hSame.trans hHanded.symm⟩
        conv_lhs => rw [hTrace]
        rw [List.append_assoc, List.cons_append]
      cases event with
      | iord port word =>
          cases port with
          | hpiData =>
              change (_ || decide _) = true at h
              rw [Bool.or_eq_true, decide_eq_true_eq] at h
              rcases h with hThen | ⟨hAddress, rfl⟩
              · exact hEarlier hThen rfl
              · exact ⟨trace, [], rfl, hAddress, rfl⟩
          | hpiMailbox => exact hEarlier h rfl
          | hpiAddr => exact hEarlier h rfl
          | hpiStatus => exact hEarlier h rfl
          | keycode => exact hEarlier h rfl
      | iowr port d =>
          cases port with
          | hpiData =>
              by_cases hPointer : (run Seen.watch (Seen.start address) trace).address = 0x01B0
              · simp only [Seen.watch, Seen.data, if_pos hPointer] at h
                cases h
              · have hSame := Seen.data_of_register _ d hPointer
                exact hEarlier (hSame.2.symm.trans h) hSame.1
          | hpiMailbox => exact hEarlier h rfl
          | hpiAddr => exact hEarlier h rfl
          | hpiStatus => exact hEarlier h rfl
          | keycode => exact hEarlier h rfl

end History

/-- Every keycode shown is the low byte of the word that was read from `0x051E` just
before. The last list handed over by then was a poll, and its completion has been
read. -/
theorem keycode_from_report (address : Nat) (before after : List (Event Port (BitVec 16)))
    (keycode : BitVec 16) (result : Option Host)
    (h : Goes Host.piece Host.start (before ++ .iowr .keycode keycode :: after) result) :
    (∃ earlier answer, before = earlier ++ [.iord .hpiData answer] ∧
        (run Seen.watch (Seen.start address) earlier).address = 0x051E ∧
        keycode = answer &&& 0xff) ∧
      ∃ toggle older newer,
        (run Seen.watch (Seen.start address) before).handed.head? = some (pollWords toggle) ∧
        before = older ++ .iord .hpiData husbTDListDone :: newer ∧
        (run Seen.watch (Seen.start address) older).address = 0x0144 ∧
        (run Seen.watch (Seen.start address) older).handed =
          (run Seen.watch (Seen.start address) before).handed := by
  obtain ⟨hCompleted, ⟨toggle, hPoll⟩, answer, hAnswer, hKeycode⟩ :=
    (main_follows address h).1.split
  obtain ⟨earlier, hBefore, hThere⟩ := last_of_keyWord address hAnswer
  obtain ⟨older, newer, hSplit, hMessage, hHanded⟩ := exists_of_completed address hCompleted
  exact ⟨⟨earlier, answer, hBefore, hThere, hKeycode⟩,
    toggle, older, newer, hPoll, hSplit, hMessage, hHanded⟩

/-- The first keycode is access 585. -/
theorem keyed_split : (keyed 0x0028 22).1 =
    (keyed 0x0028 22).1.take 585 ++ .iowr .keycode 0x0028 :: (keyed 0x0028 22).1.drop 586 := by
  decide +kernel

/-- The start key is shown after the first poll. -/
theorem keycode_from_report_keyed :
    (∃ earlier answer, (keyed 0x0028 22).1.take 585 = earlier ++ [.iord .hpiData answer] ∧
        (run Seen.watch (Seen.start 0) earlier).address = 0x051E ∧ 0x0028 = answer &&& 0xff) ∧
      ∃ toggle older newer,
        (run Seen.watch (Seen.start 0) ((keyed 0x0028 22).1.take 585)).handed.head? =
          some (pollWords toggle) ∧
        (keyed 0x0028 22).1.take 585 = older ++ .iord .hpiData husbTDListDone :: newer ∧
        (run Seen.watch (Seen.start 0) older).address = 0x0144 ∧
        (run Seen.watch (Seen.start 0) older).handed =
          (run Seen.watch (Seen.start 0) ((keyed 0x0028 22).1.take 585)).handed :=
  keycode_from_report 0 _ ((keyed 0x0028 22).1.drop 586) _ _ (keyed_split ▸ goes_keyed 0x0028 22)

end TwoBallGame.Usb
