import TwoBallGame.Design.UsbRequests

/-! `main.c`: the host program. Its bus accesses are gathered into points at which
it reads a value that decides how it goes on; the values read are inputs. -/
namespace TwoBallGame.Usb

def husbTDListDone : BitVec 16 := 0x1000

/-- The next access of the host inside `UsbWaitTDListDone`: the two accesses of
`UsbRead (HPI_SIE1_MSG_ADR)`, then the two of `UsbWrite (HPI_SIE1_MSG_ADR, 0)`. -/
inductive WaitPoint where
  | readAddr
  | readData
  | clearAddr
  | clearData
  | returned
deriving DecidableEq

/-- The message word of the controller and the host that waits for it. -/
structure Wait where
  point : WaitPoint
  sie1Msg : BitVec 16
  usbCtlVal : BitVec 16
deriving DecidableEq

/-- The host makes its next access, or the controller posts some message bits. -/
inductive WaitEvent where
  | host
  | post (bits : BitVec 16)

def Wait.step (s : Wait) : WaitEvent → Wait
  | .post bits => { s with sie1Msg := s.sie1Msg ||| bits }
  | .host =>
      match s.point with
      | .readAddr => { s with point := .readData }
      | .readData => { s with usbCtlVal := s.sie1Msg, point := .clearAddr }
      | .clearAddr => { s with point := .clearData }
      | .clearData =>
          -- the loop condition is tested after the write
          { s with
            sie1Msg := 0
            point := if s.usbCtlVal = husbTDListDone then .returned else .readAddr }
      | .returned => s

def commAck : BitVec 16 := 0x0FED

def hpiStatusSie1msgFlag : BitVec 16 := 0x0010

/-- `A_DP_STAT | A_DM_STAT`. -/
def noDevice : BitVec 16 := 0x3000

/-- What the reads of `main` give at one point: `HPI_STATUS`, `HPI_MAILBOX`, the
SIE1 message, the TD control word or retry count, and `ctl_reg`. -/
structure Answers where
  status : BitVec 16
  mailbox : BitVec 16
  message : BitVec 16
  control : BitVec 16
  ctl : BitVec 16

namespace Answers

def flagged (a : Answers) : Bool := decide (a.status &&& hpiStatusSie1msgFlag ≠ 0)

def present (a : Answers) : Bool := decide (a.ctl &&& noDevice ≠ 0)

end Answers

/-- Where `main` is. `sie1Init` is reached from `USB_HOT_PLUG`. -/
inductive Point where
  | sie1Init
  | husbReset
  | detect (reads : Nat)
  | insert
  | requested (r : Request)
  | waiting (r : Request)
  | checking (r : Request)
  | polled
  | pollWaiting
  | pollDone (reads : Nat)
  | removed
deriving DecidableEq

/-- What `main` hands to the controller: the list of a request, the TD of a new
poll, or that of a poll once more. -/
inductive Issue where
  | request (r : Request)
  | poll (td : List (BitVec 16))
  | repoll (td : List (BitVec 16))
deriving DecidableEq

/-- `main`, with `toggle` and everything issued so far, the newest first. -/
structure UsbMain where
  point : Point
  toggle : BitVec 8
  bus : List Issue
deriving DecidableEq

def dataSize : BitVec 8 := 0x08

/-- The words of the interrupt IN. The control word is DATA0 for an odd toggle. -/
def pollWords (toggle : BitVec 8) : List (BitVec 16) :=
  [0x051c, 0x000f &&& dataSize.setWidth 16, 0x0291, if toggle % 2 ≠ 0 then 0x0001 else 0x0041,
    0x0013, 0x0000]

/-- The builders called one after the other; the poll loop comes after the last. -/
def Request.next : Request → Option Request
  | .setAddress => some .getDeviceDesc1
  | .getDeviceDesc1 => some .getDeviceDesc2
  | .getDeviceDesc2 => some .getConfigDesc1
  | .getConfigDesc1 => some .getConfigDesc2
  | .getConfigDesc2 => some .setConfig
  | .setConfig => some .classRequest
  | .classRequest => some .getHidDesc
  | .getHidDesc => some .getReportDesc
  | .getReportDesc => none

namespace UsbMain

/-- Power-up: `toggle` is zero, and `USB_HOT_PLUG` is the first label. -/
def start : UsbMain := { point := .sie1Init, toggle := 0, bus := [] }

def goto (s : UsbMain) (point : Point) : UsbMain := { s with point }

def issue (s : UsbMain) (r : Request) : UsbMain :=
  { s with point := .requested r, bus := .request r :: s.bus }

/-- The head of the poll loop: `toggle++`, then the TD. -/
def pollTop (s : UsbMain) : UsbMain :=
  { point := .polled, toggle := s.toggle + 1, bus := .poll (pollWords (s.toggle + 1)) :: s.bus }

/-- The TD written again with the same toggle, as long as there is no message. -/
def pollAgain (s : UsbMain) : UsbMain :=
  { s with bus := .repoll (pollWords s.toggle) :: s.bus }

/-- From one deciding read to the next. -/
def step (s : UsbMain) (a : Answers) : UsbMain :=
  match s.point with
  | .sie1Init =>
      if a.status = 0 then s
      else if a.mailbox ≠ commAck then s.goto .sie1Init
      else s.goto .husbReset
  | .husbReset => if a.mailbox ≠ commAck then s.goto .sie1Init else s.goto (.detect 5)
  | .detect reads =>
      if a.present then s.issue .setAddress
      else if reads = 0 then s.goto .insert
      else s.goto (.detect (reads - 1))
  | .insert => if a.present then s.goto .sie1Init else s
  | .requested r => if a.flagged then s.goto (.waiting r) else s.issue r
  | .waiting r => if a.message = husbTDListDone then s.goto (.checking r) else s
  | .checking r =>
      -- the waits of `UsbGetRetryCnt` are not points; what is issued does not depend on them
      if a.control = 0x03 then
        match r.next with
        | some r' => s.issue r'
        | none => s.pollTop
      -- only the first request gives up; the others read the retry count again
      else if r = .setAddress then s.goto .sie1Init
      else s
  | .polled => if a.flagged then s.goto .pollWaiting else s.pollAgain
  | .pollWaiting => if a.message = husbTDListDone then s.goto (.pollDone 7) else s
  | .pollDone reads =>
      if a.present then s.pollTop
      else if reads = 0 then s.goto .removed
      else s.goto (.pollDone (reads - 1))
  | .removed => if a.present then s.goto .sie1Init else s

end UsbMain

end TwoBallGame.Usb
