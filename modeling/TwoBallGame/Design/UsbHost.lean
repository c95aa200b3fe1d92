import TwoBallGame.Design.UsbMain
import TwoBallGame.Ports.Program

/-! `main.c` access by access. The program is cut at its loop heads; a piece runs
from one head to the next. What it reads from the ports may be any word. -/
namespace TwoBallGame.Usb

open Ports

/-- The four registers of the host port, and the keycode output. -/
inductive Port where
  | hpiData
  | hpiMailbox
  | hpiAddr
  | hpiStatus
  | keycode
deriving DecidableEq

/-- A piece of the host program. -/
abbrev HostM := Program Port (BitVec 16)

def hpiIrqRoutingReg : BitVec 16 := 0x0142

def hpiSie1MsgAdr : BitVec 16 := 0x0144

def hpiSie2MsgAdr : BitVec 16 := 0x0148

def husbPEOT : BitVec 16 := 0x01B4

def commIntNum : BitVec 16 := 0x01C2

/-- `COMM_R0` to `COMM_R13`. -/
def commRs : List (BitVec 16) :=
  [0x01C4, 0x01C6, 0x01C8, 0x01CA, 0x01CC, 0x01CE, 0x01D0, 0x01D2, 0x01D4, 0x01D6, 0x01D8,
    0x01DA, 0x01DC, 0x01DE]

def usb1CtlReg : BitVec 16 := 0xC08A

def host1IrqEnReg : BitVec 16 := 0xC08C

def host1StatReg : BitVec 16 := 0xC090

def host2StatReg : BitVec 16 := 0xC0B0

def commReset : BitVec 16 := 0xFA50

def commExecInt : BitVec 16 := 0xCE01

def husbSie1InitInt : BitVec 16 := 0x0072

def husbResetInt : BitVec 16 := 0x0074

def sofeop1ToCpuEn : BitVec 16 := 0x0400

def resume1ToHpiEn : BitVec 16 := 0x0040

def aChgIrqEn : BitVec 16 := 0x0010

def sofEopIrqEn : BitVec 16 := 0x0200

def iord (port : Port) : HostM (BitVec 16) := .iord port .ret

def iowr (port : Port) (data : BitVec 16) : HostM Unit := .iowr port data (.ret ())

/-- The port of an access to the controller, and the word written. -/
def Access.write : Access → Port × BitVec 16
  | .addr a => (.hpiAddr, a)
  | .data d => (.hpiData, d)

def accessAll (accesses : List Access) : HostM Unit := .writes (accesses.map Access.write)

/-- `UsbRead`. -/
def usbRead (address : BitVec 16) : HostM (BitVec 16) := do
  iowr .hpiAddr address
  iord .hpiData

/-- `UsbSoftReset`. -/
def usbSoftReset : HostM Unit := do
  iowr .hpiMailbox commReset
  let _ ← iord .hpiMailbox
  let _ ← iord .hpiStatus
  let _ ← usbRead hpiSie1MsgAdr
  accessAll (usbWrite hpiSie1MsgAdr 0)
  let _ ← usbRead hpiSie2MsgAdr
  accessAll (usbWrite hpiSie2MsgAdr 0)
  accessAll (usbWrite host1StatReg 0xFFFF)
  accessAll (usbWrite host2StatReg 0xFFFF)

/-- The loop of `UsbPrintMem`. -/
def printWords : Nat → HostM Unit
  | 0 => pure ()
  | count + 1 => do
      let _ ← iord .hpiData
      printWords count

/-- `UsbPrintMem`. -/
def usbPrintMem : HostM Unit := do
  iowr .hpiAddr 0x0500
  printWords 101

/-- The loop heads of `main` and of the functions it waits in. -/
inductive Label where
  | usbHotPlug
  | statusWait
  | detect (hotPlugCount : Nat)
  | insertWait
  | flagWait (r : Request)
  | listDone (r : Request)
  | retry (r : Request)
  | retryFlag (r : Request)
  | pollFlag
  | pollListDone
  | hotPlug (hotPlugCount : Nat)
  | removed
deriving DecidableEq

/-- A place in `main` and the one variable that lives on from piece to piece. -/
structure Host where
  label : Label
  toggle : BitVec 8
deriving DecidableEq

/-- STEP 1a and 1b up to the command. -/
def step1 : List Access :=
  usbWrite hpiSie1MsgAdr 0 ++ usbWrite host1StatReg 0xFFFF ++ usbWrite husbPEOT 600 ++
    usbWrite hpiIrqRoutingReg (sofeop1ToCpuEn ||| resume1ToHpiEn) ++
    usbWrite host1IrqEnReg (aChgIrqEn ||| sofEopIrqEn) ++
    commRs.flatMap (fun r => usbWrite r 0x0000) ++ usbWrite commIntNum husbSie1InitInt

/-- STEP 2 up to the command. -/
def step2 : List Access :=
  usbWrite commIntNum husbResetInt ++ usbWrite 0x01C4 0x003c ++
    commRs.tail.flatMap (fun r => usbWrite r 0x0000)

def flagged (status : BitVec 16) : Bool := decide (status &&& hpiStatusSie1msgFlag ≠ 0)

def present (ctl : BitVec 16) : Bool := decide (ctl &&& noDevice ≠ 0)

namespace Host

def start : Host := ⟨.usbHotPlug, 0⟩

def goto (s : Host) (label : Label) : HostM Host := pure { s with label }

/-- A builder and the loop that repeats it. -/
def request (s : Host) (r : Request) : HostM Host := do
  accessAll r.build
  s.goto (.flagWait r)

/-- The head of the poll loop. -/
def pollTop (s : Host) : HostM Host := do
  accessAll (usbRequest (pollWords (s.toggle + 1)))
  pure ⟨.pollFlag, s.toggle + 1⟩

/-- The mailbox is read once more for the error message. -/
def acknowledged (s : Host) (rest : HostM Host) : HostM Host := do
  let mailbox ← iord .hpiMailbox
  if mailbox ≠ commAck then do
    let _ ← iord .hpiMailbox
    s.goto .usbHotPlug
  else rest

/-- What is read of the configuration before `UsbSetConfig`. -/
def deviceInfo : HostM Unit := do
  usbPrintMem
  iowr .hpiAddr 0x056C
  let _ ← iord .hpiData
  iowr .hpiAddr 0x057B

/-- A request has succeeded. -/
def passed (s : Host) (r : Request) : HostM Host := do
  if r = .getConfigDesc2 then deviceInfo
  match r.next with
  | some r' => s.request r'
  | none => s.pollTop

/-- `UsbWaitTDListDone` has returned: status and control of the first TD. -/
def tdStatus (s : Host) (r : Request) : HostM Host := do
  iowr .hpiAddr 0x0506
  let _ ← iord .hpiData
  iowr .hpiAddr 0x0508
  let usbCtlVal ← iord .hpiData
  if usbCtlVal ≠ 0x03 then s.goto (.retry r) else s.passed r

/-- The end of `UsbGetRetryCnt`; only the first request gives up. -/
def retryRead (s : Host) (r : Request) : HostM Host := do
  iowr .hpiAddr 0x0508
  let usbCtlVal ← iord .hpiData
  if r = .setAddress then s.goto .usbHotPlug
  else if usbCtlVal ≠ 0x03 then s.goto (.retry r)
  else s.passed r

/-- A poll has been done: the third byte of the report is the keycode. -/
def showKeycode (s : Host) : HostM Host := do
  iowr .hpiAddr 0x051E
  let keycode ← iord .hpiData
  iowr .keycode (keycode &&& 0xff)
  let ctl ← usbRead usb1CtlReg
  if present ctl then s.pollTop else s.goto (.hotPlug 0)

/-- From one loop head to the next. -/
def piece (s : Host) : HostM Host :=
  match s.label with
  | .usbHotPlug => do
      usbSoftReset
      accessAll step1
      iowr .hpiMailbox commExecInt
      s.goto .statusWait
  | .statusWait => do
      let status ← iord .hpiStatus
      if status &&& 0xFFFF = 0 then s.goto .statusWait
      else s.acknowledged do
        accessAll step2
        iowr .hpiMailbox commExecInt
        s.acknowledged do
          let ctl ← usbRead usb1CtlReg
          if present ctl then s.request .setAddress else s.goto (.detect 0)
  | .detect hotPlugCount => do
      let ctl ← usbRead usb1CtlReg
      if present ctl then s.request .setAddress
      else if hotPlugCount + 1 < 5 then s.goto (.detect (hotPlugCount + 1))
      else s.goto .insertWait
  | .insertWait => do
      let ctl ← usbRead usb1CtlReg
      if present ctl then s.goto .usbHotPlug else s.goto .insertWait
  | .flagWait r => do
      let status ← iord .hpiStatus
      if flagged status then s.goto (.listDone r) else s.request r
  | .listDone r => do
      let usbCtlVal ← usbRead hpiSie1MsgAdr
      accessAll (usbWrite hpiSie1MsgAdr 0)
      if usbCtlVal = husbTDListDone then s.tdStatus r else s.goto (.listDone r)
  | .retry r => do
      let _ ← iord .hpiStatus
      let usbCtlVal ← usbRead hpiSie1MsgAdr
      if usbCtlVal = husbTDListDone then do
        accessAll (usbWrite hpiSie1MsgAdr 0)
        s.goto (.retryFlag r)
      else s.retryRead r
  | .retryFlag r => do
      let status ← iord .hpiStatus
      if flagged status then s.retryRead r else s.goto (.retryFlag r)
  | .pollFlag => do
      let status ← iord .hpiStatus
      if flagged status then s.goto .pollListDone
      else do
        accessAll (usbRequest (pollWords s.toggle))
        s.goto .pollFlag
  | .pollListDone => do
      let usbCtlVal ← usbRead hpiSie1MsgAdr
      accessAll (usbWrite hpiSie1MsgAdr 0)
      if usbCtlVal = husbTDListDone then s.showKeycode else s.goto .pollListDone
  | .hotPlug hotPlugCount => do
      let ctl ← usbRead usb1CtlReg
      if present ctl then s.pollTop
      else if hotPlugCount + 1 < 7 then s.goto (.hotPlug (hotPlugCount + 1))
      else s.goto .removed
  | .removed => do
      let _ ← usbRead usb1CtlReg
      let _ ← usbRead usb1CtlReg
      let ctl ← usbRead usb1CtlReg
      if present ctl then s.goto .usbHotPlug else s.goto .removed

end Host

end TwoBallGame.Usb
