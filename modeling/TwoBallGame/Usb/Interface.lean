import TwoBallGame.Design.UsbHost
import TwoBallGame.Usb.Toggle

/-! What a watcher at the ports sees of `main`. The lists handed to the controller
are those of the abstract host program, in order; memory and mailbox are written
only where and with what the host has business; a list that is not done is only
written over itself; and a keycode is shown only after a poll, straight from its
report. -/
namespace TwoBallGame.Usb

open Clocked Ports

/-- The words that an issue hands over. -/
def Issue.words : Issue → List (BitVec 16)
  | .request r => r.words
  | .poll td => td
  | .repoll td => td

/-- The lists that `main` builds. -/
def Built (words : List (BitVec 16)) : Prop :=
  (∃ r : Request, words = r.words) ∨ ∃ toggle, words = pollWords toggle

theorem Built.length_le {words : List (BitVec 16)} (h : Built words) : words.length ≤ 64 := by
  rcases h with ⟨r, rfl⟩ | ⟨toggle, rfl⟩
  · cases r <;> decide
  · exact (by decide : 6 ≤ 64)

/-- An access to the controller as it is seen at the ports. -/
def Access.event : Access → Event Port (BitVec 16)
  | .addr a => .iowr .hpiAddr a
  | .data d => .iowr .hpiData d

/-- What can be told from the accesses so far: the address of the port, the words
laid out from `0x0500` on, the lists handed over by their pointer, the newest first,
whether `TDListDone` has been read since, and the word at `0x051E` if it was read
just now. -/
structure Seen where
  address : Nat
  list : List (BitVec 16)
  handed : List (List (BitVec 16))
  completed : Bool
  keyWord : Option (BitVec 16)

namespace Seen

/-- Nothing has been seen, and the port stands at any address. -/
def start (address : Nat) : Seen := ⟨address, [], [], false, none⟩

/-- A write to `HPI_DATA`. -/
def data (s : Seen) (d : BitVec 16) : Seen :=
  if s.address = 0x01B0 then
    { s with address := s.address + 2, handed := s.list :: s.handed, completed := false,
             keyWord := none }
  else if s.address = 0x0500 + 2 * s.list.length then
    { s with address := s.address + 2, list := s.list ++ [d], keyWord := none }
  else { s with address := s.address + 2, keyWord := none }

def watch (s : Seen) : Event Port (BitVec 16) → Seen
  | .iowr .hpiAddr a =>
      { s with address := a.toNat, list := if a = 0x0500 then [] else s.list, keyWord := none }
  | .iowr .hpiData d => s.data d
  | .iord .hpiData answer =>
      { s with
        address := s.address + 2
        completed := s.completed || decide (s.address = 0x0144 ∧ answer = husbTDListDone)
        keyWord := if s.address = 0x051E then some answer else none }
  | _ => { s with keyWord := none }

/-- The registers that `main` writes beside the pointer of the list. -/
def registers : List Nat :=
  [0x0142, 0x0144, 0x0148, 0x01B4, 0x01C2, 0x01C4, 0x01C6, 0x01C8, 0x01CA, 0x01CC, 0x01CE, 0x01D0,
    0x01D2, 0x01D4, 0x01D6, 0x01D8, 0x01DA, 0x01DC, 0x01DE, 0xC08C, 0xC090, 0xC0B0]

/-- The words begin the list last handed over, unless that one is done. -/
def Continues (s : Seen) (words : List (BitVec 16)) : Prop :=
  s.completed = false → ∀ given ∈ s.handed.head?, words <+: given

/-- The words that `main` may write: its registers, the pointer to a list that is built,
and the next word of a list. As long as a list is not done, only the list itself may be
laid out again. -/
def Writable (s : Seen) (d : BitVec 16) : Prop :=
  s.address ∈ registers ∨ (s.address = 0x01B0 ∧ d = 0x0500 ∧ Built s.list) ∨
    (s.address = 0x0500 + 2 * s.list.length ∧ s.address < 0x0580 ∧ s.Continues (s.list ++ [d]))

/-- The accesses that `main` may make. -/
def Allows (s : Seen) : Event Port (BitVec 16) → Prop
  | .iowr .hpiData d => s.Writable d
  | .iowr .hpiMailbox d => d = commReset ∨ d = commExecInt
  | .iowr .hpiStatus _ => False
  | .iowr .keycode d => s.completed = true ∧ (∃ toggle, s.handed.head? = some (pollWords toggle)) ∧
      ∃ answer, s.keyWord = some answer ∧ d = answer &&& 0xff
  | .iord .keycode _ => False
  | _ => True

/-- Nothing has been handed over in between. -/
structure Later (s t : Seen) : Prop where
  handed : t.handed = s.handed
  completed : s.completed = true → t.completed = true

theorem Later.trans {s t u : Seen} (h : s.Later t) (h' : t.Later u) : s.Later u :=
  ⟨h'.handed.trans h.handed, fun hDone => h'.completed (h.completed hDone)⟩

section Functions

variable (s : Seen)

theorem ensures_iord (port : Port) {Post : BitVec 16 → Seen → Prop} :
    Ensures watch Allows (iord port) Post s ↔ ∀ answer,
      Allows s (.iord port answer) ∧ Post answer (s.watch (.iord port answer)) := Iff.rfl

theorem ensures_iowr (port : Port) (data : BitVec 16) {Post : Unit → Seen → Prop} :
    Ensures watch Allows (iowr port data) Post s ↔
      Allows s (.iowr port data) ∧ Post () (s.watch (.iowr port data)) := Iff.rfl

theorem ensures_accessAll (accesses : List Access) {Post : Unit → Seen → Prop} :
    Ensures watch Allows (accessAll accesses) Post s ↔
      EachStep watch Allows s (accesses.map Access.event) ∧
        Post () (run watch s (accesses.map Access.event)) := by
  rw [accessAll, ensures_writes, List.map_map]
  have hEvents :
      (fun a : Port × BitVec 16 => Event.iowr a.1 a.2) ∘ Access.write = Access.event := by
    funext access
    cases access <;> rfl
  rw [hEvents]

/-- The words of a list are laid out where the watcher expects the next ones. -/
theorem run_words (words : List (BitVec 16)) (hAddress : s.address = 0x0500 + 2 * s.list.length)
    (hLength : s.list.length + words.length ≤ 64) (hKey : s.keyWord = none)
    (hContinues : s.Continues (s.list ++ words)) :
    EachStep watch Allows s ((words.map Access.data).map Access.event) ∧
      run watch s ((words.map Access.data).map Access.event) =
        { s with address := s.address + 2 * words.length, list := s.list ++ words } := by
  induction words generalizing s with
  | nil => exact ⟨trivial, by simp⟩
  | cons d rest ih =>
      rw [List.length_cons] at hLength
      have hNext : s.watch (.iowr .hpiData d) =
          { s with address := s.address + 2, list := s.list ++ [d] } := by
        have hPointer : s.address ≠ 0x01B0 := by omega
        simp only [watch, data]
        rw [if_neg hPointer, if_pos hAddress, hKey]
      rw [← List.singleton_append, ← List.append_assoc] at hContinues
      obtain ⟨hEach, hRun⟩ := ih { s with address := s.address + 2, list := s.list ++ [d] }
        (by simp only [List.length_append, List.length_singleton]; omega)
        (by simp only [List.length_append, List.length_singleton]; omega) hKey hContinues
      have hNow : s.Continues (s.list ++ [d]) := fun hOpen given hGiven =>
        (List.prefix_append _ rest).trans (hContinues hOpen given hGiven)
      rw [List.map_cons, List.map_cons]
      refine ⟨⟨Or.inr (Or.inr ⟨hAddress, by omega, hNow⟩), ?_⟩, ?_⟩
      · change EachStep watch Allows (s.watch (.iowr .hpiData d)) _
        rw [hNext]
        exact hEach
      · change run watch (s.watch (.iowr .hpiData d)) _ = _
        rw [hNext, hRun]
        simp only [List.length_cons, List.append_assoc, List.singleton_append]
        congr 1
        omega

/-- A list is handed over as it was built. -/
theorem run_usbRequest {words : List (BitVec 16)} (hBuilt : Built words)
    (hContinues : s.Continues words) :
    EachStep watch Allows s ((usbRequest words).map Access.event) ∧
      run watch s ((usbRequest words).map Access.event) =
        ⟨0x01B2, words, words :: s.handed, false, none⟩ := by
  obtain ⟨hEach, hRun⟩ := run_words (s.watch (.iowr .hpiAddr 0x0500)) words rfl
    (by simpa [watch] using hBuilt.length_le) rfl hContinues
  have hSplit : (usbRequest words).map Access.event =
      .iowr .hpiAddr 0x0500 :: ((words.map Access.data).map Access.event ++
        [.iowr .hpiAddr 0x01B0, .iowr .hpiData 0x0500]) := by
    simp [usbRequest, usbWrite, Access.event, husbSie1PCurrentTDPtr]
  rw [hSplit]
  constructor
  · refine ⟨trivial, ?_⟩
    rw [eachStep_append, hRun]
    exact ⟨hEach, trivial, Or.inr (Or.inl ⟨rfl, rfl, hBuilt⟩), trivial⟩
  · rw [run_cons, run_append, hRun]
    rfl

theorem data_of_register (d : BitVec 16) (h : s.address ≠ 0x01B0) :
    (s.data d).handed = s.handed ∧ (s.data d).completed = s.completed := by
  unfold data
  rw [if_neg h]
  split_ifs
  · exact ⟨rfl, rfl⟩
  · exact ⟨rfl, rfl⟩

/-- Writes to registers hand over nothing. -/
theorem run_registers (pairs : List (BitVec 16 × BitVec 16))
    (hRegisters : (pairs.all fun pair => decide (pair.1.toNat ∈ registers)) = true) :
    EachStep watch Allows s ((pairs.flatMap fun pair => usbWrite pair.1 pair.2).map Access.event) ∧
      s.Later (run watch s
        ((pairs.flatMap fun pair => usbWrite pair.1 pair.2).map Access.event)) := by
  induction pairs generalizing s with
  | nil => exact ⟨trivial, rfl, id⟩
  | cons pair rest ih =>
      rw [List.all_cons, Bool.and_eq_true, decide_eq_true_eq] at hRegisters
      obtain ⟨hRegister, hRest⟩ := hRegisters
      have hPointer : pair.1.toNat ≠ 0x01B0 := by
        intro hBad
        rw [hBad] at hRegister
        exact absurd hRegister (by decide)
      obtain ⟨hHanded, hCompleted⟩ :=
        data_of_register (s.watch (.iowr .hpiAddr pair.1)) pair.2 hPointer
      obtain ⟨hEach, hLater⟩ :=
        ih ((s.watch (.iowr .hpiAddr pair.1)).watch (.iowr .hpiData pair.2)) hRest
      have hNow : s.Later ((s.watch (.iowr .hpiAddr pair.1)).watch (.iowr .hpiData pair.2)) :=
        ⟨hHanded, hCompleted.trans⟩
      exact ⟨⟨trivial, Or.inl hRegister, hEach⟩, hNow.trans hLater⟩

end Functions

end Seen

/-- The point at which the abstract program is meanwhile. -/
def Label.point : Label → Point
  | .usbHotPlug | .statusWait => .sie1Init
  | .detect hotPlugCount => .detect (4 - hotPlugCount)
  | .insertWait => .insert
  | .flagWait r => .requested r
  | .listDone r => .waiting r
  | .retry r | .retryFlag r => .checking r
  | .pollFlag => .polled
  | .pollListDone => .pollWaiting
  | .hotPlug hotPlugCount => .pollDone (6 - hotPlugCount)
  | .removed => .removed

/-- The `for` loops end. -/
def Label.Counts : Label → Prop
  | .detect hotPlugCount => hotPlugCount < 5
  | .hotPlug hotPlugCount => hotPlugCount < 7
  | _ => True

/-- The list that `main` waits for at a loop head. -/
def Host.pending (s : Host) : Option (List (BitVec 16)) :=
  match s.label with
  | .flagWait r | .listDone r => some r.words
  | .pollFlag | .pollListDone => some (pollWords s.toggle)
  | _ => none

/-- The list waited for was handed over last. If there is none, the last one is done. -/
def Seen.Awaits (w : Seen) : Option (List (BitVec 16)) → Prop
  | some words => w.handed.head? = some words
  | none => w.completed = true ∨ w.handed = []

/-- A run of the abstract program is at `point` with `toggle`, and has issued
`handed`, the newest first. -/
def Mirrored (point : Point) (toggle : BitVec 8) (handed : List (List (BitVec 16))) : Prop :=
  ∃ m, Reaches UsbMain.step UsbMain.start m ∧ m.point = point ∧ m.toggle = toggle ∧
    m.bus.map Issue.words = handed

/-- What every piece of `main` keeps. -/
structure Follows (s : Host) (w : Seen) : Prop where
  mirrored : Mirrored s.label.point s.toggle w.handed
  awaits : w.Awaits s.pending
  counts : s.label.Counts

section Mirrored

open UsbMain

variable {point point' : Point} {toggle : BitVec 8} {handed : List (List (BitVec 16))}
  {r : Request}

theorem Mirrored.goto (h : Mirrored point toggle handed) (a : Answers)
    (hStep : ∀ m : UsbMain, m.point = point → m.step a = m.goto point') :
    Mirrored point' toggle handed := by
  obtain ⟨m, hReaches, hPoint, hToggle, hBus⟩ := h
  have hNext := hReaches.next a
  rw [hStep m hPoint] at hNext
  exact ⟨m.goto point', hNext, rfl, hToggle, hBus⟩

theorem Mirrored.issue (h : Mirrored point toggle handed) (a : Answers)
    (hStep : ∀ m : UsbMain, m.point = point → m.step a = m.issue r) :
    Mirrored (.requested r) toggle (r.words :: handed) := by
  obtain ⟨m, hReaches, hPoint, hToggle, hBus⟩ := h
  have hNext := hReaches.next a
  rw [hStep m hPoint] at hNext
  exact ⟨m.issue r, hNext, rfl, hToggle, congrArg (r.words :: ·) hBus⟩

theorem Mirrored.pollTop (h : Mirrored point toggle handed) (a : Answers)
    (hStep : ∀ m : UsbMain, m.point = point → m.step a = m.pollTop) :
    Mirrored .polled (toggle + 1) (pollWords (toggle + 1) :: handed) := by
  obtain ⟨m, hReaches, hPoint, rfl, hBus⟩ := h
  have hNext := hReaches.next a
  rw [hStep m hPoint] at hNext
  exact ⟨m.pollTop, hNext, rfl, rfl, congrArg (pollWords (m.toggle + 1) :: ·) hBus⟩

theorem Mirrored.pollAgain (h : Mirrored .polled toggle handed) :
    Mirrored .polled toggle (pollWords toggle :: handed) := by
  obtain ⟨m, hReaches, hPoint, rfl, hBus⟩ := h
  have hNext := hReaches.next { allWell with status := 0 }
  have hStep : m.step { allWell with status := 0 } = m.pollAgain := by
    simp [step, hPoint, Answers.flagged]
  rw [hStep] at hNext
  exact ⟨m.pollAgain, hNext, hPoint, rfl, congrArg (pollWords m.toggle :: ·) hBus⟩

/-- The two commands of the start are acknowledged. -/
theorem Mirrored.started (h : Mirrored .sie1Init toggle handed) :
    Mirrored (.detect 5) toggle handed := by
  have hReset : Mirrored .husbReset toggle handed := h.goto allWell fun m hPoint => by
    simp [step, hPoint, allWell, hpiStatusSie1msgFlag]
  exact hReset.goto allWell fun m hPoint => by simp [step, hPoint, allWell]

theorem Mirrored.detected {reads : Nat} (h : Mirrored (.detect reads) toggle handed) :
    Mirrored (.requested .setAddress) toggle (Request.setAddress.words :: handed) :=
  h.issue allWell fun m hPoint => by
    simp [step, hPoint, allWell, Answers.present, noDevice]

theorem Mirrored.absent {reads : Nat} (h : Mirrored (.detect reads) toggle handed) :
    Mirrored (if reads = 0 then .insert else .detect (reads - 1)) toggle handed :=
  h.goto { allWell with ctl := 0 } fun m hPoint => by
    split_ifs with hReads <;> simp [step, hPoint, Answers.present, hReads]

theorem Mirrored.inserted (h : Mirrored .insert toggle handed) :
    Mirrored .sie1Init toggle handed :=
  h.goto allWell fun m hPoint => by simp [step, hPoint, allWell, Answers.present, noDevice]

theorem Mirrored.flagged (h : Mirrored (.requested r) toggle handed) :
    Mirrored (.waiting r) toggle handed :=
  h.goto allWell fun m hPoint => by
    simp [step, hPoint, allWell, Answers.flagged, hpiStatusSie1msgFlag]

theorem Mirrored.again (h : Mirrored (.requested r) toggle handed) :
    Mirrored (.requested r) toggle (r.words :: handed) :=
  h.issue { allWell with status := 0 } fun m hPoint => by
    simp [step, hPoint, Answers.flagged]

theorem Mirrored.listDone (h : Mirrored (.waiting r) toggle handed) :
    Mirrored (.checking r) toggle handed :=
  h.goto allWell fun m hPoint => by simp [step, hPoint, allWell]

theorem Mirrored.passed {r' : Request} (h : Mirrored (.checking r) toggle handed)
    (hNext : r.next = some r') : Mirrored (.requested r') toggle (r'.words :: handed) :=
  h.issue allWell fun m hPoint => by simp [step, hPoint, allWell, hNext]

theorem Mirrored.enumerated (h : Mirrored (.checking r) toggle handed) (hNext : r.next = none) :
    Mirrored .polled (toggle + 1) (pollWords (toggle + 1) :: handed) :=
  h.pollTop allWell fun m hPoint => by simp [step, hPoint, allWell, hNext]

theorem Mirrored.gaveUp (h : Mirrored (.checking .setAddress) toggle handed) :
    Mirrored .sie1Init toggle handed :=
  h.goto { allWell with control := 0 } fun m hPoint => by simp [step, hPoint]

theorem Mirrored.pollFlagged (h : Mirrored .polled toggle handed) :
    Mirrored .pollWaiting toggle handed :=
  h.goto allWell fun m hPoint => by
    simp [step, hPoint, allWell, Answers.flagged, hpiStatusSie1msgFlag]

theorem Mirrored.pollListDone (h : Mirrored .pollWaiting toggle handed) :
    Mirrored (.pollDone 7) toggle handed :=
  h.goto allWell fun m hPoint => by simp [step, hPoint, allWell]

theorem Mirrored.polledAgain {reads : Nat} (h : Mirrored (.pollDone reads) toggle handed) :
    Mirrored .polled (toggle + 1) (pollWords (toggle + 1) :: handed) :=
  h.pollTop allWell fun m hPoint => by simp [step, hPoint, allWell, Answers.present, noDevice]

theorem Mirrored.unplugged {reads : Nat} (h : Mirrored (.pollDone reads) toggle handed) :
    Mirrored (if reads = 0 then .removed else .pollDone (reads - 1)) toggle handed :=
  h.goto { allWell with ctl := 0 } fun m hPoint => by
    split_ifs with hReads <;> simp [step, hPoint, Answers.present, hReads]

theorem Mirrored.replugged (h : Mirrored .removed toggle handed) :
    Mirrored .sie1Init toggle handed :=
  h.goto allWell fun m hPoint => by simp [step, hPoint, allWell, Answers.present, noDevice]

end Mirrored

namespace Seen

variable {w w' : Seen} {words : List (BitVec 16)}

theorem Awaits.later {pending : Option (List (BitVec 16))} (hAwaits : w.Awaits pending)
    (h : w.Later w') : w'.Awaits pending := by
  cases pending with
  | some words => exact (congrArg List.head? h.handed).trans hAwaits
  | none => exact hAwaits.imp h.completed h.handed.trans

theorem Awaits.of_completed (h : w.completed = true) : w.Awaits none := Or.inl h

theorem Awaits.continues_of_some (h : w.Awaits (some words)) : w.Continues words := by
  intro _ given hGiven
  have hHead : w.handed.head? = some words := h
  rw [hHead] at hGiven
  rw [Option.mem_some.mp hGiven]

theorem Awaits.continues_of_none (h : w.Awaits none) : w.Continues words := by
  intro hOpen given hGiven
  rcases h with hDone | hNone
  · exact absurd (hOpen.symm.trans hDone) Bool.false_ne_true
  · rw [hNone] at hGiven
    cases hGiven

end Seen

section Pieces

open Seen

variable (s : Host) (w : Seen)

theorem follows_goto (label : Label) (hMirrored : Mirrored label.point s.toggle w.handed)
    (hAwaits : w.Awaits (Host.pending ⟨label, s.toggle⟩)) (hCounts : label.Counts) :
    Ensures watch Allows (s.goto label) Follows w := ⟨hMirrored, hAwaits, hCounts⟩

theorem follows_request {r : Request}
    (h : Mirrored (.requested r) s.toggle (r.words :: w.handed))
    (hContinues : w.Continues r.words) :
    Ensures watch Allows (s.request r) Follows w := by
  obtain ⟨hEach, hRun⟩ := run_usbRequest w (Or.inl ⟨r, rfl⟩) hContinues
  rw [← r.build_eq] at hEach hRun
  rw [Host.request, ensures_bind, ensures_accessAll, hRun]
  exact ⟨hEach, follows_goto s _ _ h rfl trivial⟩

theorem follows_pollTop
    (h : Mirrored .polled (s.toggle + 1) (pollWords (s.toggle + 1) :: w.handed))
    (hContinues : w.Continues (pollWords (s.toggle + 1))) :
    Ensures watch Allows s.pollTop Follows w := by
  obtain ⟨hEach, hRun⟩ := run_usbRequest w (Or.inr ⟨s.toggle + 1, rfl⟩) hContinues
  rw [Host.pollTop, ensures_bind, ensures_accessAll, hRun]
  exact ⟨hEach, h, rfl, trivial⟩

/-- A read does not undo the completion. -/
theorem later_iord (answer : BitVec 16) : w.Later (w.watch (.iord .hpiData answer)) :=
  ⟨rfl, fun hDone => Bool.or_eq_true_iff.mpr (Or.inl hDone)⟩

theorem later_usbRead (address answer : BitVec 16) :
    w.Later ((w.watch (.iowr .hpiAddr address)).watch (.iord .hpiData answer)) :=
  ⟨rfl, (later_iord (w.watch (.iowr .hpiAddr address)) answer).completed⟩

theorem ensures_printWords (count : Nat) {Post : Unit → Seen → Prop}
    (hPost : ∀ w', w.Later w' → Post () w') :
    Ensures watch Allows (printWords count) Post w := by
  induction count generalizing w with
  | zero => exact hPost w ⟨rfl, id⟩
  | succ count ih =>
      intro answer
      exact ⟨trivial, ih _ fun w' hLater => hPost w' ((later_iord w answer).trans hLater)⟩

theorem ensures_deviceInfo {Post : Unit → Seen → Prop} (hPost : ∀ w', w.Later w' → Post () w') :
    Ensures watch Allows Host.deviceInfo Post w := by
  rw [Host.deviceInfo, ensures_bind, usbPrintMem, ensures_bind]
  refine ⟨trivial, ensures_printWords _ _ fun w₁ h₁ => ?_⟩
  refine ⟨trivial, fun answer => ⟨trivial, trivial, hPost _ ?_⟩⟩
  obtain ⟨hHanded, hCompleted⟩ := h₁.trans (later_usbRead w₁ 0x056C answer)
  exact ⟨hHanded, hCompleted⟩

theorem follows_passed {r : Request} (h : Mirrored (.checking r) s.toggle w.handed)
    (hIdle : w.Awaits none) : Ensures watch Allows (s.passed r) Follows w := by
  have hInfo (rest : HostM Host)
      (hRest : ∀ w', w.Later w' → Ensures watch Allows rest Follows w') :
      Ensures watch Allows (do
        if r = .getConfigDesc2 then Host.deviceInfo
        rest) Follows w := by
    by_cases hConfig : r = .getConfigDesc2
    · simp only [if_pos hConfig, ensures_bind]
      exact ensures_deviceInfo w hRest
    · simp only [if_neg hConfig]
      exact hRest w ⟨rfl, id⟩
  cases hNext : r.next with
  | some r' =>
      have hPassed : s.passed r = (do
          if r = .getConfigDesc2 then Host.deviceInfo
          s.request r') := by simp only [Host.passed, hNext]
      rw [hPassed]
      exact hInfo _ fun w' hLater => follows_request s w' (hLater.handed ▸ h.passed hNext)
        (hIdle.later hLater).continues_of_none
  | none =>
      have hPassed : s.passed r = (do
          if r = .getConfigDesc2 then Host.deviceInfo
          s.pollTop) := by simp only [Host.passed, hNext]
      rw [hPassed]
      exact hInfo _ fun w' hLater => follows_pollTop s w' (hLater.handed ▸ h.enumerated hNext)
        (hIdle.later hLater).continues_of_none

theorem follows_tdStatus {r : Request} (h : Mirrored (.checking r) s.toggle w.handed)
    (hIdle : w.Awaits none) : Ensures watch Allows (s.tdStatus r) Follows w := by
  simp only [Host.tdStatus, ensures_bind, ensures_iowr, ensures_iord, ensures_ite]
  refine ⟨trivial, fun status => ⟨trivial, trivial, fun usbCtlVal => ⟨trivial, ?_⟩⟩⟩
  have hIdle' := hIdle.later ((later_usbRead w 0x0506 status).trans
    (later_usbRead _ 0x0508 usbCtlVal))
  constructor
  · intro hRetry
    exact follows_goto s _ _ h hIdle' trivial
  · intro hPassed
    exact follows_passed s _ h hIdle'

theorem follows_retryRead {r : Request} (h : Mirrored (.checking r) s.toggle w.handed)
    (hIdle : w.Awaits none) : Ensures watch Allows (s.retryRead r) Follows w := by
  simp only [Host.retryRead, ensures_bind, ensures_iowr, ensures_iord, ensures_ite]
  refine ⟨trivial, fun usbCtlVal => ⟨trivial, ?_⟩⟩
  have hIdle' := hIdle.later (later_usbRead w 0x0508 usbCtlVal)
  constructor
  · rintro rfl
    exact follows_goto s _ _ h.gaveUp hIdle' trivial
  · intro hOther
    constructor
    · intro hRetry
      exact follows_goto s _ _ h hIdle' trivial
    · intro hPassed
      exact follows_passed s _ h hIdle'

/-- The keycode is the low byte of the word just read. -/
theorem follows_showKeycode (h : Mirrored (.pollDone 7) s.toggle w.handed)
    (hCompleted : w.completed = true) (hPoll : w.handed.head? = some (pollWords s.toggle)) :
    Ensures watch Allows s.showKeycode Follows w := by
  simp only [Host.showKeycode, usbRead, ensures_bind, ensures_iowr, ensures_iord, ensures_ite]
  refine ⟨trivial, fun keycode => ⟨trivial, ?_⟩⟩
  have hSeen := (later_usbRead w 0x051E keycode).completed hCompleted
  refine ⟨⟨hSeen, ⟨s.toggle, hPoll⟩, keycode, rfl, rfl⟩, trivial, fun ctl => ⟨trivial, ?_⟩⟩
  have hIdle := (Awaits.of_completed hSeen).later (later_usbRead _ usb1CtlReg ctl)
  constructor
  · intro hPresent
    exact follows_pollTop s _ h.polledAgain (Awaits.continues_of_none hIdle)
  · intro hAbsent
    exact follows_goto s _ _ h.unplugged hIdle (by decide : (0 : Nat) < 7)

theorem follows_acknowledged {rest : HostM Host} (h : Mirrored .sie1Init s.toggle w.handed)
    (hIdle : w.Awaits none)
    (hRest : ∀ w', w.Later w' → Ensures watch Allows rest Follows w') :
    Ensures watch Allows (s.acknowledged rest) Follows w := by
  simp only [Host.acknowledged, ensures_bind, ensures_iord, ensures_ite]
  refine fun mailbox => ⟨trivial, ?_⟩
  constructor
  · intro hError again
    exact ⟨trivial, follows_goto s _ _ h hIdle trivial⟩
  · intro hAck
    exact hRest _ ⟨rfl, id⟩

/-- The writes of a piece before its last command. -/
theorem ensures_registers (pairs : List (BitVec 16 × BitVec 16))
    (hRegisters : (pairs.all fun pair => decide (pair.1.toNat ∈ registers)) = true)
    {accesses : List Access}
    (hAccesses : accesses = pairs.flatMap fun pair => usbWrite pair.1 pair.2) {Post : Unit → Seen → Prop} (hPost : ∀ w', w.Later w' → Post () w') :
    Ensures watch Allows (accessAll accesses) Post w := by
  obtain ⟨hEach, hLater⟩ := run_registers w pairs hRegisters
  rw [ensures_accessAll, hAccesses]
  exact ⟨hEach, hPost _ hLater⟩

/-- A write of zero to a register that is read before. -/
theorem ensures_clear (register : BitVec 16) (data : BitVec 16)
    (hRegister : register.toNat ∈ registers) {Post : Unit → Seen → Prop}
    (hPost : ∀ w', w.Later w' → Post () w') :
    Ensures watch Allows (accessAll (usbWrite register data)) Post w := by
  apply ensures_registers w [(register, data)]
  · simpa using hRegister
  · rfl
  · exact hPost

theorem ensures_usbSoftReset {Post : Unit → Seen → Prop}
    (hPost : ∀ w', w.Later w' → Post () w') : Ensures watch Allows usbSoftReset Post w := by
  simp only [usbSoftReset, usbRead, ensures_bind, ensures_iord, ensures_iowr]
  refine ⟨Or.inl rfl, fun _ => ⟨trivial, fun _ => ⟨trivial, trivial, fun first => ⟨trivial, ?_⟩⟩⟩⟩
  refine ensures_clear _ _ _ (by decide) fun w₁ h₁ => ⟨trivial, fun second => ⟨trivial, ?_⟩⟩
  refine ensures_clear _ _ _ (by decide) fun w₂ h₂ => ?_
  refine ensures_clear _ _ _ (by decide) fun w₃ h₃ => ?_
  refine ensures_clear _ _ _ (by decide) fun w₄ h₄ => hPost w₄ ?_
  have hFirst := (later_usbRead w hpiSie1MsgAdr first).trans h₁
  exact (hFirst.trans (later_usbRead w₁ hpiSie2MsgAdr second)).trans (h₂.trans (h₃.trans h₄))

/-- The registers that STEP 1 writes, with the words. -/
def step1Pairs : List (BitVec 16 × BitVec 16) :=
  [(hpiSie1MsgAdr, 0), (host1StatReg, 0xFFFF), (husbPEOT, 600),
    (hpiIrqRoutingReg, sofeop1ToCpuEn ||| resume1ToHpiEn),
    (host1IrqEnReg, aChgIrqEn ||| sofEopIrqEn)] ++
    commRs.map (·, 0x0000) ++ [(commIntNum, husbSie1InitInt)]

def step2Pairs : List (BitVec 16 × BitVec 16) :=
  [(commIntNum, husbResetInt), (0x01C4, 0x003c)] ++ commRs.tail.map (·, 0x0000)

theorem follows_hotPlug (h : Mirrored .sie1Init s.toggle w.handed) (hIdle : w.Awaits none) :
    Ensures watch Allows (do
      usbSoftReset
      accessAll step1
      iowr .hpiMailbox commExecInt
      s.goto .statusWait) Follows w := by
  simp only [ensures_bind, ensures_iowr]
  refine ensures_usbSoftReset w fun w₁ h₁ => ?_
  refine ensures_registers w₁ step1Pairs (by decide) rfl fun w₂ h₂ => ?_
  have hIdle₂ := hIdle.later (h₁.trans h₂)
  refine ⟨Or.inr rfl, follows_goto s _ _ ?_ hIdle₂ trivial⟩
  change Mirrored .sie1Init s.toggle w₂.handed
  rw [h₂.handed, h₁.handed]
  exact h

theorem follows_statusWait (h : Mirrored .sie1Init s.toggle w.handed) (hIdle : w.Awaits none) :
    Ensures watch Allows (do
      let status ← iord .hpiStatus
      if status &&& 0xFFFF = 0 then s.goto .statusWait
      else s.acknowledged do
        accessAll step2
        iowr .hpiMailbox commExecInt
        s.acknowledged do
          let ctl ← usbRead usb1CtlReg
          if present ctl then s.request .setAddress else s.goto (.detect 0)) Follows w := by
  rw [ensures_bind, ensures_iord]
  refine fun status => ⟨trivial, (ensures_ite _ _ _ _).mpr ⟨fun hZero => ?_, fun hBusy => ?_⟩⟩
  · exact follows_goto s _ _ h hIdle trivial
  refine follows_acknowledged s _ h hIdle fun w₁ h₁ => ?_
  simp only [ensures_bind, ensures_iowr]
  refine ensures_registers w₁ step2Pairs (by decide) rfl fun w₂ h₂ => ⟨Or.inr rfl, ?_⟩
  have hThere : Mirrored .sie1Init s.toggle (w₂.watch (.iowr .hpiMailbox commExecInt)).handed := by
    change Mirrored .sie1Init s.toggle w₂.handed
    rw [h₂.handed, h₁.handed]
    exact h
  have hStatus : w.Later (w.watch (.iord .hpiStatus status)) := ⟨rfl, id⟩
  have hIdle₂ := hIdle.later (hStatus.trans (h₁.trans h₂))
  refine follows_acknowledged s _ hThere hIdle₂ fun w₃ h₃ => ?_
  have hIdle₃ : w₃.Awaits none := hIdle₂.later ⟨h₃.handed, h₃.completed⟩
  simp only [usbRead, ensures_bind, ensures_iord, ensures_iowr, ensures_ite]
  rw [← h₃.handed] at hThere
  refine ⟨trivial, fun ctl => ⟨trivial, ?_⟩⟩
  have hIdle₄ := hIdle₃.later (later_usbRead w₃ usb1CtlReg ctl)
  refine ⟨fun hPresent => ?_, fun hAbsent => ?_⟩
  · exact follows_request s _ hThere.started.detected hIdle₄.continues_of_none
  · have hAbsent : Mirrored (.detect 4) s.toggle w₃.handed := hThere.started.absent
    exact follows_goto s _ (.detect 0) hAbsent hIdle₄ (by decide : 0 < 5)

/-- The message word is read and cleared; `completed` tells whether it was the
completion. -/
theorem ensures_message {next : BitVec 16 → HostM Host}
    (hNext : ∀ (answer : BitVec 16) (w' : Seen), w'.handed = w.handed →
      (answer = husbTDListDone → w'.completed = true) →
      Ensures watch Allows (next answer) Follows w') :
    Ensures watch Allows (do
      let usbCtlVal ← usbRead hpiSie1MsgAdr
      accessAll (usbWrite hpiSie1MsgAdr 0)
      next usbCtlVal) Follows w := by
  simp only [usbRead, ensures_bind, ensures_iord, ensures_iowr]
  refine ⟨trivial, fun answer => ⟨trivial, ?_⟩⟩
  refine ensures_clear _ _ _ (by decide) fun w' hLater => ?_
  refine hNext answer w' hLater.handed fun hDone => hLater.completed ?_
  change (w.completed || decide (hpiSie1MsgAdr.toNat = 0x0144 ∧ answer = husbTDListDone)) = true
  rw [hDone, Bool.or_eq_true]
  exact Or.inr rfl

/-- From one loop head to the next the abstract program comes along. -/
theorem follows_piece (h : Follows s w) : Ensures watch Allows s.piece Follows w := by
  obtain ⟨label, toggle⟩ := s
  obtain ⟨hMirrored, hAwaits, hCounts⟩ := h
  cases label with
  | usbHotPlug => exact follows_hotPlug ⟨.usbHotPlug, toggle⟩ w hMirrored hAwaits
  | statusWait => exact follows_statusWait ⟨.statusWait, toggle⟩ w hMirrored hAwaits
  | detect count =>
      simp only [Host.piece, usbRead, ensures_bind, ensures_iord, ensures_iowr, ensures_ite]
      refine ⟨trivial, fun ctl => ⟨trivial, ?_⟩⟩
      have hIdle := Awaits.later hAwaits (later_usbRead w usb1CtlReg ctl)
      refine ⟨fun hPresent => ?_, fun hAbsent => ⟨fun hMore => ?_, fun hLast => ?_⟩⟩
      · exact follows_request _ _ hMirrored.detected hIdle.continues_of_none
      · refine follows_goto _ _ _ ?_ hIdle hMore
        have hNext := hMirrored.absent
        rw [if_neg (by omega)] at hNext
        have hReads : 4 - count - 1 = 4 - (count + 1) := by omega
        rw [hReads] at hNext
        exact hNext
      · have hZero : 4 - count = 0 := by omega
        have hNext := hMirrored.absent
        rw [if_pos hZero] at hNext
        exact follows_goto _ _ _ hNext hIdle trivial
  | insertWait =>
      simp only [Host.piece, usbRead, ensures_bind, ensures_iord, ensures_iowr, ensures_ite]
      refine ⟨trivial, fun ctl => ⟨trivial, ?_⟩⟩
      have hIdle := Awaits.later hAwaits (later_usbRead w usb1CtlReg ctl)
      refine ⟨fun hPresent => ?_, fun hAbsent => ?_⟩
      · exact follows_goto _ _ _ hMirrored.inserted hIdle trivial
      · exact follows_goto _ _ _ hMirrored hIdle trivial
  | flagWait r =>
      simp only [Host.piece, ensures_bind, ensures_iord, ensures_ite]
      refine fun status => ⟨trivial, fun hFlagged => ?_, fun hQuiet => ?_⟩
      · exact follows_goto _ _ _ hMirrored.flagged hAwaits trivial
      · exact follows_request _ _ hMirrored.again (Awaits.continues_of_some hAwaits)
  | listDone r =>
      refine ensures_message w fun answer w' hHanded hCompleted => ?_
      rw [← hHanded] at hMirrored
      rw [ensures_ite]
      refine ⟨fun hDone => ?_, fun hOther => ?_⟩
      · exact follows_tdStatus _ _ hMirrored.listDone (.of_completed (hCompleted hDone))
      · exact follows_goto _ _ _ hMirrored ((congrArg List.head? hHanded).trans hAwaits) trivial
  | retry r =>
      simp only [Host.piece, usbRead, ensures_bind, ensures_iord, ensures_iowr, ensures_ite]
      refine fun status => ⟨trivial, trivial, fun answer => ⟨trivial, ?_⟩⟩
      have hIdle := Awaits.later hAwaits (later_usbRead w hpiSie1MsgAdr answer)
      refine ⟨fun hDone => ?_, fun hOther => follows_retryRead _ _ hMirrored hIdle⟩
      refine ensures_clear _ _ _ (by decide) fun w' hLater => ?_
      exact follows_goto _ _ (.retryFlag r) (hLater.handed ▸ hMirrored) (hIdle.later hLater) trivial
  | retryFlag r =>
      simp only [Host.piece, ensures_bind, ensures_iord, ensures_ite]
      refine fun status => ⟨trivial, fun hFlagged => ?_, fun hQuiet => ?_⟩
      · exact follows_retryRead _ _ hMirrored hAwaits
      · exact follows_goto _ _ _ hMirrored hAwaits trivial
  | pollFlag =>
      simp only [Host.piece, ensures_bind, ensures_iord, ensures_ite]
      refine fun status => ⟨trivial, fun hFlagged => ?_, fun hQuiet => ?_⟩
      · exact ⟨hMirrored.pollFlagged, hAwaits, trivial⟩
      · have hAgain : Mirrored .polled toggle (pollWords toggle :: w.handed) := hMirrored.pollAgain
        obtain ⟨hEach, hRun⟩ := run_usbRequest (w.watch (.iord .hpiStatus status))
          (Or.inr ⟨toggle, rfl⟩) (Awaits.continues_of_some hAwaits)
        rw [ensures_accessAll, hRun]
        exact ⟨hEach, hAgain, rfl, trivial⟩
  | pollListDone =>
      refine ensures_message w fun answer w' hHanded hCompleted => ?_
      have hPoll : w.handed.head? = some (pollWords toggle) := hAwaits
      rw [← hHanded] at hMirrored hPoll
      rw [ensures_ite]
      refine ⟨fun hDone => ?_, fun hOther => ?_⟩
      · exact follows_showKeycode _ _ hMirrored.pollListDone (hCompleted hDone) hPoll
      · exact ⟨hMirrored, hPoll, trivial⟩
  | hotPlug count =>
      simp only [Host.piece, usbRead, ensures_bind, ensures_iord, ensures_iowr, ensures_ite]
      refine ⟨trivial, fun ctl => ⟨trivial, ?_⟩⟩
      have hIdle := Awaits.later hAwaits (later_usbRead w usb1CtlReg ctl)
      refine ⟨fun hPresent => ?_, fun hAbsent => ⟨fun hMore => ?_, fun hLast => ?_⟩⟩
      · exact follows_pollTop _ _ hMirrored.polledAgain hIdle.continues_of_none
      · refine follows_goto _ _ _ ?_ hIdle hMore
        have hNext := hMirrored.unplugged
        rw [if_neg (by omega)] at hNext
        have hReads : 6 - count - 1 = 6 - (count + 1) := by omega
        rw [hReads] at hNext
        exact hNext
      · have hZero : 6 - count = 0 := by omega
        have hNext := hMirrored.unplugged
        rw [if_pos hZero] at hNext
        exact follows_goto _ _ _ hNext hIdle trivial
  | removed =>
      simp only [Host.piece, usbRead, ensures_bind, ensures_iord, ensures_iowr, ensures_ite]
      refine ⟨trivial, fun first => ⟨trivial, trivial, fun second => ⟨trivial, trivial,
        fun ctl => ⟨trivial, ?_⟩⟩⟩⟩
      have hBefore := (later_usbRead w usb1CtlReg first).trans (later_usbRead _ usb1CtlReg second)
      have hIdle := Awaits.later hAwaits (hBefore.trans (later_usbRead _ usb1CtlReg ctl))
      refine ⟨fun hPresent => ?_, fun hAbsent => ?_⟩
      · exact follows_goto _ _ _ hMirrored.replugged hIdle trivial
      · exact follows_goto _ _ _ hMirrored hIdle trivial

end Pieces

theorem follows_start (address : Nat) : Follows Host.start (Seen.start address) :=
  ⟨⟨UsbMain.start, Reaches.refl _ _, rfl, rfl, rfl⟩, Or.inr rfl, trivial⟩

/-- In every run each access is allowed, and at every loop head the abstract program
has come along. -/
theorem main_follows (address : Nat) {trace : List (Event Port (BitVec 16))}
    {result : Option Host} (h : Goes Host.piece Host.start trace result) :
    EachStep Seen.watch Seen.Allows (Seen.start address) trace ∧
      ∀ s, result = some s → Follows s (run Seen.watch (Seen.start address) trace) :=
  h.ensures (fun s w hFollows => follows_piece s w hFollows) (follows_start address)

/-- `main` refines the abstract host program: after any run up to a loop head, with
any answers, some run of the abstract program is at the same point with the same
toggle, and the lists handed over by the accesses are those that it has issued. -/
theorem main_refines (trace : List (Event Port (BitVec 16))) (s : Host)
    (h : Goes Host.piece Host.start trace (some s)) :
    ∃ answers, (run UsbMain.step UsbMain.start answers).point = s.label.point ∧
      (run UsbMain.step UsbMain.start answers).toggle = s.toggle ∧
      (run Seen.watch (Seen.start 0) trace).handed =
        (run UsbMain.step UsbMain.start answers).bus.map Issue.words := by
  obtain ⟨m, ⟨answers, rfl⟩, hPoint, hToggle, hBus⟩ := ((main_follows 0 h).2 s rfl).mirrored
  exact ⟨answers, hPoint, hToggle, hBus.symm⟩

/-- A controller with a keyboard on which one key is down, by the address at which
it is read: every request is done at once and well. -/
def keyboard (keycode : BitVec 16) (address : Nat) : Port → BitVec 16
  | .hpiMailbox => commAck
  | .hpiStatus => hpiStatusSie1msgFlag
  | .hpiData =>
      if address = 0x0144 then husbTDListDone
      else if address = 0x0508 then 0x0003
      else if address = 0xC08A then noDevice
      else if address = 0x051E then keycode
      else 0
  | _ => 0

/-- The address of the port after an access. -/
def moveAddress (address : Nat) : Event Port (BitVec 16) → Nat
  | .iowr .hpiAddr a => a.toNat
  | .iowr .hpiData _ => address + 2
  | .iord .hpiData _ => address + 2
  | _ => address

/-- The first pieces of `main` with that keyboard. -/
def keyed (keycode : BitVec 16) (count : Nat) : List (Event Port (BitVec 16)) × Host × Nat :=
  goesAgainst Host.piece (keyboard keycode) moveAddress count Host.start 0

theorem goes_keyed (keycode : BitVec 16) (count : Nat) :
    Goes Host.piece Host.start (keyed keycode count).1 (some (keyed keycode count).2.1) :=
  goes_goesAgainst Host.piece (keyboard keycode) moveAddress count Host.start 0

/-- The enumeration and the first poll. -/
theorem main_refines_keyed :
    ∃ answers, (run UsbMain.step UsbMain.start answers).point =
        (keyed 0x0028 22).2.1.label.point ∧
      (run UsbMain.step UsbMain.start answers).toggle = (keyed 0x0028 22).2.1.toggle ∧
      (run Seen.watch (Seen.start 0) (keyed 0x0028 22).1).handed =
        (run UsbMain.step UsbMain.start answers).bus.map Issue.words :=
  main_refines _ _ (goes_keyed 0x0028 22)

end TwoBallGame.Usb
