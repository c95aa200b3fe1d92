import TwoBallGame.Usb.Enumeration

/-! `main` does not hang. If a controller answers well again and again what it is asked
again and again, acknowledges the commands and keeps the device, then keycodes are shown
again and again. -/
namespace TwoBallGame.Usb

open Clocked Ports

/-- What `main` reads for a decision. -/
inductive Question where
  | flag
  | message
  | control
  | mailbox
  | device
deriving DecidableEq

/-- The question put by a read, which depends on the address of the port. -/
def question (address : Nat) : Port → Option Question
  | .hpiStatus => some .flag
  | .hpiMailbox => some .mailbox
  | .hpiData =>
      if address = 0x0144 then some .message
      else if address = 0x0508 then some .control
      else if address = 0xC08A then some .device
      else none
  | _ => none

/-- The answer that `main` hopes for. -/
def Question.Good : Question → BitVec 16 → Prop
  | .flag, answer => flagged answer = true
  | .message, answer => answer = husbTDListDone
  | .control, answer => answer = 0x03
  | .mailbox, answer => answer = commAck
  | .device, answer => present answer = true

/-- What is heard in a piece of `main`: the address of the port, the answers, the newest
first, and whether a keycode has been shown. -/
structure Heard where
  address : Nat
  answers : List (Question × BitVec 16)
  shown : Bool

namespace Heard

def start (address : Nat) : Heard := ⟨address, [], false⟩

def watch (h : Heard) : Event Port (BitVec 16) → Heard
  | .iord port answer =>
      { h with
        address := moveAddress h.address (.iord port answer)
        answers := ((question h.address port).map (·, answer)).toList ++ h.answers }
  | .iowr port data =>
      { h with
        address := moveAddress h.address (.iowr port data)
        shown := h.shown || decide (port = .keycode) }

/-- Nothing is asked of the accesses themselves. -/
def Free (_ : Heard) (_ : Event Port (BitVec 16)) : Prop := True

/-- The question is put, and no answer to it is the one hoped for. -/
structure Denied (h : Heard) (q : Question) : Prop where
  asked : ∃ answer, (q, answer) ∈ h.answers
  bad : ∀ answer, (q, answer) ∈ h.answers → ¬q.Good answer

end Heard

open Heard

section Functions

variable {Value : Type} (h : Heard)

theorem hear_iord (port : Port) {Post : BitVec 16 → Heard → Prop} :
    Ensures watch Free (iord port) Post h ↔ ∀ answer, Post answer (h.watch (.iord port answer)) :=
  forall_congr' fun _ => iff_of_eq (true_and _)

theorem hear_iowr (port : Port) (data : BitVec 16) {Post : Unit → Heard → Prop} :
    Ensures watch Free (iowr port data) Post h ↔ Post () (h.watch (.iowr port data)) :=
  iff_of_eq (true_and _)

/-- What is heard is not lost. -/
theorem hear_all (p : HostM Value) {Post : Value → Heard → Prop}
    (hPost : ∀ value h', h.answers ⊆ h'.answers → (h.shown = true → h'.shown = true) →
      Post value h') : Ensures watch Free p Post h := by
  induction p generalizing h with
  | ret value => exact hPost value h (List.Subset.refl _) id
  | iord port next ih =>
      refine fun answer => ⟨trivial, ih answer _ fun value h' hAnswers hShown => ?_⟩
      refine hPost value h' (fun heard hMem => hAnswers ?_) hShown
      exact List.mem_append_right _ hMem
  | iowr port data next ih =>
      refine ⟨trivial, ih _ fun value h' hAnswers hShown => ?_⟩
      refine hPost value h' hAnswers fun hBefore => hShown ?_
      exact Bool.or_eq_true_iff.mpr (Or.inl hBefore)

theorem not_flagged_of_idle {status : BitVec 16} (h : status &&& 0xFFFF = 0) :
    ¬Question.flag.Good status := by
  have hOnes : (0xFFFF : BitVec 16) = BitVec.allOnes 16 := rfl
  rw [hOnes, BitVec.and_allOnes] at h
  rw [h]
  exact Bool.false_ne_true

/-- Nothing is heard from writes. -/
theorem hear_accessAll (accesses : List Access) {Post : Unit → Heard → Prop}
    (hPost : ∀ h' : Heard, h'.answers = h.answers → Post () h') :
    Ensures watch Free (accessAll accesses) Post h := by
  induction accesses generalizing h with
  | nil => exact hPost h rfl
  | cons access rest ih =>
      refine ⟨trivial, ih _ fun h' hAnswers => hPost h' ?_⟩
      exact hAnswers

theorem denied_of_eq {q : Question} {answer : BitVec 16} {rest : List (Question × BitVec 16)}
    (hAnswers : h.answers = (q, answer) :: rest) (hBad : ¬q.Good answer)
    (hRest : ∀ answer', (q, answer') ∉ rest) : h.Denied q := by
  refine ⟨⟨answer, by rw [hAnswers]; exact List.mem_cons_self⟩, fun answer' hMem => ?_⟩
  rw [hAnswers] at hMem
  rcases List.mem_cons.mp hMem with hSame | hOld
  · obtain ⟨-, rfl⟩ := Prod.mk.inj hSame
    exact hBad
  · exact absurd hOld (hRest answer')

end Functions

/-- The way that is left to the next keycode. A request has three labels. -/
def Label.rank : Label → Nat
  | .insertWait | .removed => 70
  | .usbHotPlug => 60
  | .statusWait => 50
  | .detect hotPlugCount => 40 + (5 - hotPlugCount)
  | .flagWait r => 3 * (10 - r.downward.length) + 4
  | .listDone r => 3 * (10 - r.downward.length) + 3
  | .retry r | .retryFlag r =>
      -- the first request gives up here
      if r = .setAddress then 65 else 3 * (10 - r.downward.length) + 2
  | .hotPlug hotPlugCount => 3 + (7 - hotPlugCount)
  | .pollFlag => 2
  | .pollListDone => 1

/-- What `main` waits for at a label. -/
def Label.waits : Label → Question
  | .statusWait | .flagWait _ | .pollFlag => .flag
  | .listDone _ | .pollListDone => .message
  | .retry _ | .retryFlag _ => .control
  | _ => .device

/-- Nothing sends `main` back: its commands are acknowledged, the device is there, and
the address is accepted. -/
structure Settled (s : Host) (h : Heard) : Prop where
  mailbox : ∀ answer, (.mailbox, answer) ∈ h.answers → Question.mailbox.Good answer
  device : ∀ answer, (.device, answer) ∈ h.answers → Question.device.Good answer
  address : s.label = .listDone .setAddress →
    ∀ answer, (.control, answer) ∈ h.answers → Question.control.Good answer

/-- The piece has not brought `main` on. Between two looks at the control word
`UsbGetRetryCnt` waits for the flag. -/
inductive Stays (h : Heard) : Label → Label → Prop where
  | denied {label label' : Label} (hRank : label'.rank = label.rank)
      (hWaits : label'.waits = label.waits) (hDenied : h.Denied label.waits) :
      Stays h label label'
  | flagging (r : Request) (hNone : ∀ answer, (.control, answer) ∉ h.answers) :
      Stays h (.retry r) (.retryFlag r)
  | unflagged (r : Request) (hNone : ∀ answer, (.control, answer) ∉ h.answers)
      (hDenied : h.Denied .flag) : Stays h (.retryFlag r) (.retryFlag r)

/-- What a piece comes to when nothing sends `main` back. -/
def Host.Advances (s s' : Host) (h : Heard) : Prop :=
  Settled s h → h.shown = true ∨ s'.label.rank < s.label.rank ∨ Stays h s.label s'.label

section Pieces

variable (s : Host) (h : Heard)

theorem advances_goto {label : Label} (hDrop : label.rank < s.label.rank) :
    Ensures watch Free (s.goto label) s.Advances h := fun _ => Or.inr (Or.inl hDrop)

theorem advances_stays {label : Label} (hStays : Stays h s.label label) :
    Ensures watch Free (s.goto label) s.Advances h := fun _ => Or.inr (Or.inr hStays)

/-- What is waited for has been read once, and it is not there. -/
theorem advances_again {answer : BitVec 16} (hAnswers : h.answers = [(s.label.waits, answer)])
    (hBad : ¬s.label.waits.Good answer) :
    Ensures watch Free (s.goto s.label) s.Advances h := by
  apply advances_stays
  exact .denied rfl rfl (denied_of_eq h hAnswers hBad fun _ => List.not_mem_nil)

theorem advances_request {r : Request} (hDrop : (Label.flagWait r).rank < s.label.rank) :
    Ensures watch Free (s.request r) s.Advances h := by
  rw [Host.request, ensures_bind]
  exact hear_accessAll h _ fun h' _ => advances_goto s h' hDrop

theorem advances_pollTop (hDrop : 2 < s.label.rank) :
    Ensures watch Free s.pollTop s.Advances h := by
  rw [Host.pollTop, ensures_bind]
  exact hear_accessAll h _ fun h' _ _ => Or.inr (Or.inl hDrop)

/-- An answer has sent `main` back. -/
theorem advances_unsettled (p : HostM Host)
    (hBad : ∀ h' : Heard, h.answers ⊆ h'.answers → ¬Settled s h') :
    Ensures watch Free p s.Advances h :=
  hear_all h p fun _ h' hAnswers _ hSettled => absurd hSettled (hBad h' hAnswers)

theorem downward_next {r r' : Request} (h : r.next = some r') :
    3 * (10 - r'.downward.length) + 4 < 3 * (10 - r.downward.length) + 2 := by
  cases r <;> cases h <;> decide

theorem downward_length_le (r : Request) : r.downward.length ≤ 9 := by
  cases r <;> decide

/-- The next request, or the first poll, is nearer to the keycode. -/
theorem advances_passed {r : Request} (hRank : 3 * (10 - r.downward.length) + 2 ≤ s.label.rank) :
    Ensures watch Free (s.passed r) s.Advances h := by
  have hInfo (rest : HostM Host) (hRest : ∀ h', Ensures watch Free rest s.Advances h') :
      Ensures watch Free (do
        if r = .getConfigDesc2 then Host.deviceInfo
        rest) s.Advances h := by
    by_cases hConfig : r = .getConfigDesc2
    · simp only [if_pos hConfig, ensures_bind]
      exact hear_all h _ fun _ h' _ _ => hRest h'
    · simp only [if_neg hConfig]
      exact hRest h
  have hLength := downward_length_le r
  cases hNext : r.next with
  | some r' =>
      simp only [Host.passed, hNext]
      exact hInfo _ fun h' => advances_request s h' ((downward_next hNext).trans_le hRank)
  | none =>
      simp only [Host.passed, hNext]
      exact hInfo _ fun h' => advances_pollTop s h' (by omega)

theorem advances_tdStatus {r : Request} (hLabel : s.label = .listDone r) :
    Ensures watch Free (s.tdStatus r) s.Advances h := by
  simp only [Host.tdStatus, ensures_bind, hear_iowr, hear_iord, ensures_ite]
  intro status usbCtlVal
  constructor
  · intro hRefused
    by_cases hFirst : r = .setAddress
    · refine advances_unsettled s _ _ fun h' hAnswers hSettled => hRefused ?_
      exact hSettled.address (hFirst ▸ hLabel) _ (hAnswers List.mem_cons_self)
    · apply advances_goto
      rw [hLabel, Label.rank, Label.rank, if_neg hFirst]
      exact Nat.lt_succ_self _
  · intro hDone
    apply advances_passed
    rw [hLabel]
    exact Nat.le_succ _

/-- The control word is looked at again. -/
theorem advances_retryRead {r : Request} (hLabel : s.label = .retry r ∨ s.label = .retryFlag r)
    (hNone : ∀ answer, (.control, answer) ∉ h.answers) :
    Ensures watch Free (s.retryRead r) s.Advances h := by
  have hRank : s.label.rank = (Label.retry r).rank := by
    rcases hLabel with hLabel | hLabel
    · rw [hLabel]
    · rw [hLabel]
      rfl
  have hWaits : s.label.waits = .control := by
    rcases hLabel with hLabel | hLabel
    · rw [hLabel]
      rfl
    · rw [hLabel]
      rfl
  simp only [Host.retryRead, ensures_bind, hear_iowr, hear_iord, ensures_ite]
  refine fun usbCtlVal => ⟨fun hFirst => ?_, fun hOther => ⟨fun hRefused => ?_, fun hDone => ?_⟩⟩
  · apply advances_goto
    rw [hRank, Label.rank, Label.rank, if_pos hFirst]
    decide
  · refine advances_stays s _ (.denied hRank.symm hWaits.symm ?_)
    rw [hWaits]
    exact denied_of_eq _ rfl hRefused hNone
  · apply advances_passed
    rw [hRank, Label.rank, if_neg hOther]

/-- The keycode is shown, whatever comes then. -/
theorem advances_showKeycode : Ensures watch Free s.showKeycode s.Advances h := by
  simp only [Host.showKeycode, ensures_bind, hear_iowr, hear_iord]
  refine fun keycode => hear_all _ _ fun _ h' _ hShown => ?_
  exact hear_all h' _ fun _ h'' _ hShown' _ => Or.inl (hShown' (hShown (Bool.or_true _)))

/-- The commands are acknowledged. -/
theorem advances_acknowledged {rest : HostM Host}
    (hRest : ∀ h', Ensures watch Free rest s.Advances h') :
    Ensures watch Free (s.acknowledged rest) s.Advances h := by
  simp only [Host.acknowledged, ensures_bind, hear_iord, ensures_ite]
  refine fun mailbox => ⟨fun hError _ => ?_, fun hAck => hRest _⟩
  refine advances_unsettled s _ _ fun h' hAnswers hSettled => hError ?_
  exact hSettled.mailbox _ (hAnswers (List.mem_cons_of_mem _ List.mem_cons_self))

/-- The device is there. -/
theorem advances_present {p q : HostM Host} (hThere : ∀ h', Ensures watch Free p s.Advances h') :
    Ensures watch Free (do
      let ctl ← usbRead usb1CtlReg
      if present ctl then p else q) s.Advances h := by
  simp only [usbRead, ensures_bind, hear_iowr, hear_iord, ensures_ite]
  refine fun ctl => ⟨fun _ => hThere _, fun hAbsent => ?_⟩
  refine advances_unsettled s _ _ fun h' hAnswers hSettled => hAbsent ?_
  exact hSettled.device _ (hAnswers List.mem_cons_self)

/-- The message word is read and cleared. -/
theorem hear_message {next : BitVec 16 → HostM Host} {Post : Host → Heard → Prop}
    (hNext : ∀ (answer : BitVec 16) (h' : Heard), h'.answers = (.message, answer) :: h.answers →
      Ensures watch Free (next answer) Post h') :
    Ensures watch Free (do
      let usbCtlVal ← usbRead hpiSie1MsgAdr
      accessAll (usbWrite hpiSie1MsgAdr 0)
      next usbCtlVal) Post h := by
  simp only [usbRead, ensures_bind, hear_iowr, hear_iord]
  exact fun answer => hear_accessAll _ _ fun h' hAnswers => hNext answer h' hAnswers

/-- From one loop head to the next. -/
theorem advances_piece (address : Nat) :
    Ensures watch Free s.piece s.Advances (Heard.start address) := by
  obtain ⟨label, toggle⟩ := s
  cases label with
  | usbHotPlug =>
      simp only [Host.piece, ensures_bind, hear_iowr]
      refine hear_all _ _ fun _ h₁ _ _ => hear_all _ _ fun _ h₂ _ _ => ?_
      exact advances_goto _ _ (by decide : Label.statusWait.rank < Label.usbHotPlug.rank)
  | statusWait =>
      simp only [Host.piece, ensures_bind, hear_iord, ensures_ite]
      refine fun status => ⟨fun hIdle => ?_, fun hBusy => ?_⟩
      · exact advances_again ⟨.statusWait, toggle⟩ _ rfl (not_flagged_of_idle hIdle)
      · refine advances_acknowledged _ _ fun h₁ => ?_
        rw [ensures_bind]
        refine hear_all _ _ fun _ h₂ _ _ => ?_
        rw [ensures_bind, hear_iowr]
        refine advances_acknowledged _ _ fun h₃ => advances_present _ _ fun h₄ => ?_
        exact advances_request _ _
          (by decide : (Label.flagWait .setAddress).rank < Label.statusWait.rank)
  | detect count =>
      refine advances_present _ _ fun h₁ => advances_request _ _ ?_
      exact (by decide : (Label.flagWait .setAddress).rank < 40).trans_le (Nat.le_add_right _ _)
  | insertWait =>
      exact advances_present _ _ fun h₁ => advances_goto _ _
        (by decide : Label.usbHotPlug.rank < Label.insertWait.rank)
  | flagWait r =>
      simp only [Host.piece, Host.request, ensures_bind, hear_iord, ensures_ite]
      intro status
      refine ⟨fun hFlagged => advances_goto _ _ (Nat.lt_succ_self _), fun hQuiet => ?_⟩
      refine hear_accessAll _ _ fun h₁ hAnswers => ?_
      exact advances_again ⟨.flagWait r, toggle⟩ h₁ hAnswers hQuiet
  | listDone r =>
      refine hear_message _ fun answer h₁ hAnswers => ?_
      rw [ensures_ite]
      refine ⟨fun hDone => advances_tdStatus _ _ rfl, fun hOther => ?_⟩
      exact advances_again ⟨.listDone r, toggle⟩ h₁ hAnswers hOther
  | retry r =>
      simp only [Host.piece, usbRead, ensures_bind, hear_iord, hear_iowr, ensures_ite]
      intro status answer
      have hNone (control : BitVec 16) :
          (Question.control, control) ∉ [(Question.message, answer), (.flag, status)] := by simp
      refine ⟨fun hDone => ?_, fun hOther => advances_retryRead _ _ (Or.inl rfl) hNone⟩
      refine hear_accessAll _ _ fun h₁ hAnswers => advances_stays _ _ (.flagging r ?_)
      rw [hAnswers]
      exact hNone
  | retryFlag r =>
      simp only [Host.piece, ensures_bind, hear_iord, ensures_ite]
      intro status
      have hNone (control : BitVec 16) :
          (Question.control, control) ∉ [(Question.flag, status)] := by simp
      refine ⟨fun hFlagged => advances_retryRead _ _ (Or.inr rfl) hNone, fun hQuiet => ?_⟩
      apply advances_stays
      exact .unflagged r hNone (denied_of_eq _ rfl hQuiet fun _ => List.not_mem_nil)
  | pollFlag =>
      simp only [Host.piece, ensures_bind, hear_iord, ensures_ite]
      intro status
      refine ⟨fun hFlagged => advances_goto _ _ (Nat.lt_succ_self _), fun hQuiet => ?_⟩
      refine hear_accessAll _ _ fun h₁ hAnswers => ?_
      exact advances_again ⟨.pollFlag, toggle⟩ h₁ hAnswers hQuiet
  | pollListDone =>
      refine hear_message _ fun answer h₁ hAnswers => ?_
      rw [ensures_ite]
      refine ⟨fun hDone => advances_showKeycode _ _, fun hOther => ?_⟩
      exact advances_again ⟨.pollListDone, toggle⟩ h₁ hAnswers hOther
  | hotPlug count =>
      exact advances_present _ _ fun h₁ => advances_pollTop _ _ (by
        change 2 < 3 + (7 - count)
        omega)
  | removed =>
      simp only [Host.piece]
      rw [ensures_bind]
      refine hear_all _ _ fun _ h₁ _ _ => ?_
      rw [ensures_bind]
      refine hear_all _ _ fun _ h₂ _ _ => ?_
      exact advances_present _ _ fun h₃ => advances_goto _ _
        (by decide : Label.usbHotPlug.rank < Label.removed.rank)

end Pieces

section Waiting

variable {h : Heard} {label label' : Label} {r : Request}

theorem Stays.same (hStays : Stays h label label') :
    label'.rank = label.rank ∧ label'.waits = label.waits := by
  cases hStays with
  | denied hRank hWaits hDenied => exact ⟨hRank, hWaits⟩
  | flagging r hNone => exact ⟨rfl, rfl⟩
  | unflagged r hNone hDenied => exact ⟨rfl, rfl⟩

/-- A good answer would have brought `main` on. -/
theorem Stays.bad (hStays : Stays h label label') (answer : BitVec 16)
    (hMem : (label.waits, answer) ∈ h.answers) : ¬label.waits.Good answer := by
  cases hStays with
  | denied hRank hWaits hDenied => exact hDenied.bad answer hMem
  | flagging r hNone => exact absurd hMem (hNone answer)
  | unflagged r hNone hDenied => exact absurd hMem (hNone answer)

theorem Stays.asked (hStays : Stays h label label') :
    (∃ answer, (label.waits, answer) ∈ h.answers) ∨ ∃ r, label' = .retryFlag r := by
  cases hStays with
  | denied hRank hWaits hDenied => exact Or.inl hDenied.asked
  | flagging r hNone => exact Or.inr ⟨r, rfl⟩
  | unflagged r hNone hDenied => exact Or.inr ⟨r, rfl⟩

/-- `UsbGetRetryCnt` reads the control word, or it has not seen the flag. -/
theorem Stays.retryFlag (hStays : Stays h (.retryFlag r) label') :
    (∃ answer, (.control, answer) ∈ h.answers) ∨ (label' = .retryFlag r ∧ h.Denied .flag) := by
  cases hStays with
  | denied hRank hWaits hDenied => exact Or.inl hDenied.asked
  | unflagged r hNone hDenied => exact Or.inr ⟨rfl, hDenied⟩

theorem exists_keycode_of_shown {trace : List (Event Port (BitVec 16))} (hBefore : h.shown = false)
    (hShown : (run watch h trace).shown = true) : ∃ keycode, .iowr .keycode keycode ∈ trace := by
  induction trace generalizing h with
  | nil => exact absurd (hBefore.symm.trans hShown) Bool.false_ne_true
  | cons event rest ih =>
      cases hNow : (h.watch event).shown with
      | false =>
          obtain ⟨keycode, hMem⟩ := ih hNow hShown
          exact ⟨keycode, List.mem_cons_of_mem _ hMem⟩
      | true =>
          cases event with
          | iord port answer => exact absurd (hBefore.symm.trans hNow) Bool.false_ne_true
          | iowr port data =>
              have hPort : port = .keycode := by simpa [watch, hBefore] using hNow
              exact ⟨data, hPort ▸ List.mem_cons_self⟩

end Waiting

/-- What is heard in one piece of an endless run. -/
def heard (address : Nat) (traces : Nat → List (Event Port (BitVec 16))) (n : Nat) : Heard :=
  run watch (Heard.start (after (run moveAddress) address traces n)) (traces n)

/-- The question is put in a piece. -/
def Asks (address : Nat) (traces : Nat → List (Event Port (BitVec 16))) (q : Question) (n : Nat) :
    Prop := ∃ answer, (q, answer) ∈ (heard address traces n).answers

/-- It is put and answered well. -/
def AnsweredWell (address : Nat) (traces : Nat → List (Event Port (BitVec 16))) (q : Question)
    (n : Nat) : Prop := ∃ answer, (q, answer) ∈ (heard address traces n).answers ∧ q.Good answer

section Endless

variable {hosts : Nat → Host} {traces : Nat → List (Event Port (BitVec 16))} {address first : Nat}

/-- While `main` waits for the control word, it reads it again and again. -/
theorem exists_asks
    (hFair : (∀ n, ∃ m, n ≤ m ∧ Asks address traces .flag m) →
      ∀ n, ∃ m, n ≤ m ∧ AnsweredWell address traces .flag m)
    (hStays : ∀ m, first ≤ m →
      Stays (heard address traces m) (hosts m).label (hosts (m + 1)).label) :
    ∃ m, first ≤ m ∧ Asks address traces (hosts m).label.waits m := by
  by_contra hNone
  have hNever (m : Nat) (hm : first ≤ m) : ¬Asks address traces (hosts m).label.waits m :=
    fun hAsks => hNone ⟨m, hm, hAsks⟩
  obtain ⟨r, hFirst⟩ := (hStays first (le_refl _)).asked.resolve_left (hNever first (le_refl _))
  have hThere (m : Nat) (hm : first + 1 ≤ m) : (hosts m).label = .retryFlag r ∧
      (heard address traces m).Denied .flag := by
    have hOn (m : Nat) (hm : first ≤ m) (hLabel : (hosts m).label = .retryFlag r) :
        (hosts (m + 1)).label = .retryFlag r ∧ (heard address traces m).Denied .flag := by
      have hNot := hNever m hm
      have hNext := hStays m hm
      rw [hLabel] at hNot hNext
      exact hNext.retryFlag.resolve_left hNot
    have hLabel : (hosts m).label = .retryFlag r := by
      induction m, hm using Nat.le_induction with
      | base => exact hFirst
      | succ m hm ih => exact (hOn m (by omega) ih).1
    exact ⟨hLabel, (hOn m (by omega) hLabel).2⟩
  have hAgain (n : Nat) : ∃ m, n ≤ m ∧ Asks address traces .flag m :=
    ⟨max n (first + 1), le_max_left _ _, (hThere _ (le_max_right _ _)).2.asked⟩
  obtain ⟨m, hm, answer, hMem, hGood⟩ := hFair hAgain (first + 1)
  exact (hThere m hm).2.bad answer hMem hGood

end Endless

/-- `main` does not hang. In every endless run, from any loop head: if what it reads
again and again for a decision is answered well again and again, and if from some piece
on nothing sends it back, then it shows a keycode again and again. -/
theorem main_keeps_showing (hosts : Nat → Host) (traces : Nat → List (Event Port (BitVec 16)))
    (address : Nat) (hRuns : ∀ n, Program.Runs (hosts n).piece (traces n) (some (hosts (n + 1))))
    (hFair : ∀ q, (∀ n, ∃ m, n ≤ m ∧ Asks address traces q m) →
      ∀ n, ∃ m, n ≤ m ∧ AnsweredWell address traces q m)
    (hSettled : ∃ n, ∀ m, n ≤ m → Settled (hosts m) (heard address traces m)) (n : Nat) :
    ∃ m, n ≤ m ∧ ∃ keycode, .iowr .keycode keycode ∈ traces m := by
  obtain ⟨settled, hSettled⟩ := hSettled
  have hStep (m : Nat) (hm : max n settled ≤ m) :=
    ((advances_piece (hosts m) _).of_runs (hRuns m)).2 _ rfl
      (hSettled m ((le_max_right n settled).trans hm))
  have hStop : ∃ m, max n settled ≤ m ∧ (heard address traces m).shown = true := by
    refine exists_stop_of_fair _ (fun m => (hosts m).label.rank)
      (fun m => (hosts m).label.waits) hFair ?_ ?_ ?_
    · intro m hm hNot
      rcases (hStep m hm).resolve_left hNot with hDrop | hStays
      · exact Or.inl hDrop
      · exact Or.inr hStays.same
    · intro first hFirst hStill
      apply exists_asks (hFair .flag)
      intro m hm
      have hSame := (hStill (m + 1) (by omega)).2.trans (hStill m hm).2.symm
      have hNext := (hStep m (hFirst.trans hm)).resolve_left (hStill m hm).1
      exact hNext.resolve_left hSame.ge.not_gt
    · rintro m hm hNot ⟨answer, hMem, hGood⟩
      refine ((hStep m hm).resolve_left hNot).resolve_right fun hStays => ?_
      exact hStays.bad answer hMem hGood
  obtain ⟨m, hm, hShown⟩ := hStop
  exact ⟨m, (le_max_left n settled).trans hm, exists_keycode_of_shown rfl hShown⟩

section Keyed

variable (key : BitVec 16)

/-- The keyboard, without end. -/
def keyedHosts (n : Nat) : Host :=
  (loopAgainst Host.piece (keyboard key) moveAddress Host.start 0 n).1

def keyedTraces (n : Nat) : List (Event Port (BitVec 16)) :=
  loopTrace Host.piece (keyboard key) moveAddress Host.start 0 n

theorem keyboard_good {address : Nat} {port : Port} {q : Question}
    (h : question address port = some q) : q.Good (keyboard key address port) := by
  cases port with
  | hpiData =>
      simp only [question] at h
      split_ifs at h with hMessage hControl hDevice
      · obtain rfl := Option.some.inj h
        exact if_pos hMessage
      · obtain rfl := Option.some.inj h
        exact (if_neg hMessage).trans (if_pos hControl)
      · obtain rfl := Option.some.inj h
        have hAnswer : keyboard key address .hpiData = noDevice :=
          (if_neg hMessage).trans ((if_neg hControl).trans (if_pos hDevice))
        rw [hAnswer]
        exact (by decide : present noDevice = true)
  | hpiMailbox =>
      obtain rfl := Option.some.inj h
      rfl
  | hpiStatus =>
      obtain rfl := Option.some.inj h
      exact (by decide : flagged hpiStatusSie1msgFlag = true)
  | hpiAddr => cases h
  | keycode => cases h

/-- The keyboard answers well. -/
theorem answers_against {Value : Type} (p : HostM Value) (h : Heard) :
    ∀ pair ∈ (run watch h (p.against (keyboard key) moveAddress h.address).1).answers,
      pair ∈ h.answers ∨ pair.1.Good pair.2 := by
  induction p generalizing h with
  | ret value => exact fun pair hMem => Or.inl hMem
  | iord port next ih =>
      intro pair hMem
      rcases ih _ (h.watch (.iord port (keyboard key h.address port))) pair hMem with hOld | hGood
      · rcases List.mem_append.mp hOld with hNow | hBefore
        · rw [Option.mem_toList, Option.map_eq_some_iff] at hNow
          obtain ⟨q, hq, rfl⟩ := hNow
          exact Or.inr (keyboard_good key hq)
        · exact Or.inl hBefore
      · exact Or.inr hGood
  | iowr port data next ih => exact ih (h.watch (.iowr port data))

theorem answers_keyed (n : Nat) :
    ∀ pair ∈ (heard 0 (keyedTraces key) n).answers, pair.1.Good pair.2 := by
  intro pair hMem
  rw [heard] at hMem
  have hAddress := after_loopTrace Host.piece (keyboard key) moveAddress Host.start 0 n
  change after (run moveAddress) 0 (keyedTraces key) n = _ at hAddress
  rw [hAddress] at hMem
  rcases answers_against key _ _ pair hMem with hOld | hGood
  · exact absurd hOld List.not_mem_nil
  · exact hGood

end Keyed

/-- With the start key held, keycodes are shown after a thousand pieces, too. -/
theorem main_keeps_showing_keyed :
    ∃ m, 1000 ≤ m ∧ ∃ keycode, .iowr .keycode keycode ∈ keyedTraces 0x0028 m :=
  main_keeps_showing (keyedHosts 0x0028) (keyedTraces 0x0028) 0
    (runs_loopTrace Host.piece (keyboard 0x0028) moveAddress Host.start 0)
    (fun q hAgain n => by
      obtain ⟨m, hm, answer, hMem⟩ := hAgain n
      exact ⟨m, hm, answer, hMem, answers_keyed 0x0028 m _ hMem⟩)
    ⟨0, fun m _ => ⟨fun _ => answers_keyed 0x0028 m _, fun _ => answers_keyed 0x0028 m _,
      fun _ _ => answers_keyed 0x0028 m _⟩⟩ 1000

end TwoBallGame.Usb
