import TwoBallGame.Chains.Walk

/-! `usb.c`: the host port of the USB controller and the nine builders that lay
out the transfer lists of the enumeration in the memory of the controller. -/
namespace TwoBallGame.Usb

open Chains

/-- The bytes of the controller, by address. -/
abbrev Memory := Nat → BitVec 8

/-- A 16-bit word, low byte first. -/
def word (m : Memory) (a : Nat) : BitVec 16 := m (a + 1) ++ m a

def lowByte (w : BitVec 16) : BitVec 8 := w.setWidth 8

def highByte (w : BitVec 16) : BitVec 8 := w.extractLsb' 8 8

/-- What the host writes to the port: an address to `HPI_ADDR`, a word to `HPI_DATA`. -/
inductive Access where
  | addr (a : BitVec 16)
  | data (d : BitVec 16)
deriving DecidableEq

/-- The address register of the port and the memory behind it. -/
structure Hpi where
  address : Nat
  memory : Memory

/-- `IOWR`. A write to `HPI_DATA` moves the address to the next word. -/
def Hpi.iowr (h : Hpi) : Access → Hpi
  | .addr a => { h with address := a.toNat }
  | .data d =>
      { address := h.address + 2
        memory := store h.memory h.address [lowByte d, highByte d] }

/-- `UsbWrite`. -/
def usbWrite (address data : BitVec 16) : List Access := [.addr address, .data data]

def husbSie1PCurrentTDPtr : BitVec 16 := 0x01B0

/-- The shape that all nine builders share: words from `0x0500` on, then the
pointer to the first of them. -/
def usbRequest (words : List (BitVec 16)) : List Access :=
  .addr 0x0500 :: words.map .data ++ usbWrite husbSie1PCurrentTDPtr 0x0500

/-- The words of the first of the nine builders. A TD has six words: base address,
length, endpoint and device, control, type and retries, next TD. The four words after
the first TD are the setup packet. -/
def setAddressWords : List (BitVec 16) :=
  [0x050C, 0x0008, 0x00D0, 0x0001, 0x0013, 0x0514,
   0x0500, 0x0002, 0x0000, 0x0000,
   0x0000, 0x0000, 0x0090, 0x0041, 0x0013, 0x0000]

def usbSetAddress : List Access := usbRequest setAddressWords

def getDeviceDesc1Words : List (BitVec 16) :=
  [0x050C, 0x0008, 0x02D0, 0x0001, 0x0013, 0x0514,
   0x0680, 0x0100, 0x0000, 0x0008,
   0x052C, 0x0008, 0x0290, 0x0041, 0x0013, 0x0520,
   0x0000, 0x0000, 0x0210, 0x0041, 0x0013, 0x0000]

def usbGetDeviceDesc1 : List Access := usbRequest getDeviceDesc1Words

def getDeviceDesc2Words : List (BitVec 16) :=
  [0x050C, 0x0008, 0x02D0, 0x0001, 0x0013, 0x0514,
   0x0680, 0x0100, 0x0000, 0x0012,
   0x0544, 0x0008, 0x0290, 0x0041, 0x0013, 0x0520,
   0x054c, 0x0008, 0x0290, 0x0001, 0x0013, 0x052c,
   0x0554, 0x0002, 0x0290, 0x0041, 0x0013, 0x0538,
   0x0000, 0x0000, 0x0210, 0x0041, 0x0013, 0x0000]

def usbGetDeviceDesc2 : List Access := usbRequest getDeviceDesc2Words

def getConfigDesc1Words : List (BitVec 16) :=
  [0x050C, 0x0008, 0x02D0, 0x0001, 0x0013, 0x0514,
   0x0680, 0x0200, 0x0000, 0x0009,
   0x0544, 0x0008, 0x0290, 0x0041, 0x0013, 0x0520,
   0x054c, 0x0001, 0x0290, 0x0001, 0x0013, 0x052c,
   0x0000, 0x0000, 0x0210, 0x0041, 0x0013, 0x0000]

def usbGetConfigDesc1 : List Access := usbRequest getConfigDesc1Words

def getConfigDesc2Words : List (BitVec 16) :=
  [0x050C, 0x0008, 0x02D0, 0x0001, 0x0013, 0x0514,
   0x0680, 0x0200, 0x0000, 0x00FF,
   0x055c, 0x0008, 0x0290, 0x0041, 0x0013, 0x0520,
   0x0564, 0x0008, 0x0290, 0x0001, 0x0013, 0x052c,
   0x056c, 0x0008, 0x0290, 0x0041, 0x0013, 0x0538,
   0x0574, 0x0008, 0x0290, 0x0001, 0x0013, 0x0544,
   0x057c, 0x0002, 0x0290, 0x0041, 0x0013, 0x0550,
   0x0000, 0x0000, 0x0210, 0x0041, 0x0013, 0x0000]

def usbGetConfigDesc2 : List Access := usbRequest getConfigDesc2Words

def setConfigWords : List (BitVec 16) :=
  [0x050C, 0x0008, 0x02D0, 0x0001, 0x0013, 0x0514,
   0x0900, 0x0001, 0x0000, 0x0000,
   0x0000, 0x0000, 0x0290, 0x0041, 0x0013, 0x0000]

def usbSetConfig : List Access := usbRequest setConfigWords

def classRequestWords : List (BitVec 16) :=
  [0x050C, 0x0008, 0x02D0, 0x0001, 0x0013, 0x0514,
   0x0A21, 0x0000, 0x0000, 0x0000,
   0x0000, 0x0000, 0x0290, 0x0041, 0x0013, 0x0000]

def usbClassRequest : List Access := usbRequest classRequestWords

def getHidDescWords : List (BitVec 16) :=
  [0x050C, 0x0008, 0x02D0, 0x0001, 0x0013, 0x0514,
   0x0681, 0x2100, 0x0000, 0x007B,
   0x0544, 0x0008, 0x0290, 0x0041, 0x0013, 0x0520,
   0x0000, 0x0000, 0x0210, 0x0041, 0x0013, 0x0000]

def usbGetHidDesc : List Access := usbRequest getHidDescWords

def getReportDescWords : List (BitVec 16) :=
  [0x050C, 0x0008, 0x02D0, 0x0001, 0x0013, 0x0514,
   0x0681, 0x2200, 0x0000, 0x007B,
   0x0580, 0x0008, 0x0290, 0x0041, 0x0013, 0x0520,
   0x0588, 0x0008, 0x0290, 0x0001, 0x0013, 0x052c,
   0x0590, 0x0008, 0x0290, 0x0041, 0x0013, 0x0538,
   0x0598, 0x0008, 0x0290, 0x0001, 0x0013, 0x0544,
   0x05a0, 0x0008, 0x0290, 0x0041, 0x0013, 0x0550,
   0x05a8, 0x0008, 0x0290, 0x0001, 0x0013, 0x055c,
   0x05b0, 0x0008, 0x0290, 0x0041, 0x0013, 0x0568,
   0x05b8, 0x0003, 0x0290, 0x0001, 0x0013, 0x0574,
   0x0000, 0x0000, 0x0210, 0x0041, 0x0013, 0x0000]

def usbGetReportDesc : List Access := usbRequest getReportDescWords

/-- The requests of the enumeration, in the order of `main`. -/
inductive Request where
  | setAddress | getDeviceDesc1 | getDeviceDesc2 | getConfigDesc1 | getConfigDesc2
  | setConfig | classRequest | getHidDesc | getReportDesc
deriving DecidableEq

/-- The words that the builder of a request writes. -/
def Request.words : Request → List (BitVec 16)
  | .setAddress => setAddressWords
  | .getDeviceDesc1 => getDeviceDesc1Words
  | .getDeviceDesc2 => getDeviceDesc2Words
  | .getConfigDesc1 => getConfigDesc1Words
  | .getConfigDesc2 => getConfigDesc2Words
  | .setConfig => setConfigWords
  | .classRequest => classRequestWords
  | .getHidDesc => getHidDescWords
  | .getReportDesc => getReportDescWords

/-- The builder that `main` calls for a request. -/
def Request.build : Request → List Access
  | .setAddress => usbSetAddress
  | .getDeviceDesc1 => usbGetDeviceDesc1
  | .getDeviceDesc2 => usbGetDeviceDesc2
  | .getConfigDesc1 => usbGetConfigDesc1
  | .getConfigDesc2 => usbGetConfigDesc2
  | .setConfig => usbSetConfig
  | .classRequest => usbClassRequest
  | .getHidDesc => usbGetHidDesc
  | .getReportDesc => usbGetReportDesc

theorem Request.build_eq (r : Request) : r.build = usbRequest r.words := by
  cases r <;> rfl

end TwoBallGame.Usb
