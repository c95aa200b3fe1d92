import TwoBallGame.Design.UsbRequests

/-! The USB controller as the host relies on it. It starts at the current TD,
fetches each TD from its memory as it then is, performs it, and follows the next
pointer until it is zero; an IN TD stores the next bytes of the answer. -/
namespace TwoBallGame.Usb

open Chains

/-- The six words of a TD. -/
@[ext]
structure Td where
  base : BitVec 16
  length : BitVec 16
  pid : BitVec 16
  control : BitVec 16
  retry : BitVec 16
  next : BitVec 16
deriving DecidableEq

namespace Td

/-- The packet identifier is the high nibble of the endpoint byte. -/
def isSetup (td : Td) : Prop := td.pid.extractLsb' 4 4 = 0xD

def isIn (td : Td) : Prop := td.pid.extractLsb' 4 4 = 0x9

def isOut (td : Td) : Prop := td.pid.extractLsb' 4 4 = 0x1

instance (td : Td) : Decidable td.isSetup := inferInstanceAs (Decidable (_ = _))

instance (td : Td) : Decidable td.isIn := inferInstanceAs (Decidable (_ = _))

instance (td : Td) : Decidable td.isOut := inferInstanceAs (Decidable (_ = _))

/-- DATA1, not DATA0: bit 6 of the control byte. -/
def data1 (td : Td) : Bool := td.control.getLsbD 6

/-- What the TD stores. -/
def sink (td : Td) : Option Sink :=
  if td.isIn then some ⟨td.base.toNat, td.length.toNat⟩ else none

end Td

def fetchTd (m : Memory) (a : Nat) : Td :=
  ⟨word m a, word m (a + 2), word m (a + 4), word m (a + 6), word m (a + 8), word m (a + 10)⟩

/-- The controller at work on a memory, with the answer of the device. -/
def walkList (fuel addr : Nat) (s : Memory × List (BitVec 8)) :
    Option (List Td × Memory × List (BitVec 8)) :=
  walk fetchTd (fun td => td.next.toNat) Td.sink fuel addr s

/-- The address at which the controller starts. -/
def currentTd (m : Memory) : Nat := (word m husbSie1PCurrentTDPtr.toNat).toNat

/-- Six words at a time. -/
def tdsOfWords : List (BitVec 16) → List Td
  | a :: b :: c :: d :: e :: f :: rest => ⟨a, b, c, d, e, f⟩ :: tdsOfWords rest
  | _ => []

/-- The TDs of a request in the order in which its builder writes them, without
the setup packet after the first. -/
def Request.tds (r : Request) : List Td :=
  tdsOfWords (r.words.take 6) ++ tdsOfWords (r.words.drop 10)

/-- The addresses of the TDs and the setup packet of a request. -/
def Request.InList (r : Request) (a : Nat) : Prop :=
  0x0500 ≤ a ∧ a < 0x0500 + 2 * r.words.length

/-- Where the data of the device goes, TD by TD. -/
def Request.sinks (r : Request) : List Sink := r.tds.filterMap Td.sink

/-- The first IN buffer. -/
def Request.buffer (r : Request) : Nat := (r.sinks.head?.map Sink.base).getD 0

section Build

variable (h : Hpi)

theorem word_of_agree {m m' : Memory} {a : Nat} (hLow : m' a = m a)
    (hHigh : m' (a + 1) = m (a + 1)) : word m' a = word m a := by
  rw [word, word, hLow, hHigh]

/-- A word written is the word read. -/
theorem word_store (m : Memory) (a : Nat) (d : BitVec 16) :
    word (store m a [lowByte d, highByte d]) a = d := by
  have hLow : store m a [lowByte d, highByte d] a = lowByte d := store_get (i := 0) rfl
  have hHigh : store m a [lowByte d, highByte d] (a + 1) = highByte d := store_get (i := 1) rfl
  rw [word, hLow, hHigh]
  apply BitVec.eq_of_getLsbD_eq
  intro i hi
  rw [BitVec.getLsbD_append]
  by_cases hByte : i < 8
  · simp [lowByte, hByte]
  · have hRest : i - 8 < 8 := by omega
    have hSum : 8 + (i - 8) = i := by omega
    simp [highByte, hByte, hRest, hSum]

/-- Consecutive data writes lay out their words and move nothing else. -/
theorem foldl_data (words : List (BitVec 16)) :
    ((words.map Access.data).foldl Hpi.iowr h).address = h.address + 2 * words.length ∧
      (∀ k w, words[k]? = some w →
        word ((words.map Access.data).foldl Hpi.iowr h).memory (h.address + 2 * k) = w) ∧
      ∀ a, a < h.address ∨ h.address + 2 * words.length ≤ a →
        ((words.map Access.data).foldl Hpi.iowr h).memory a = h.memory a := by
  induction words generalizing h with
  | nil => simp
  | cons d rest ih =>
      obtain ⟨hAddress, hWords, hOther⟩ := ih (h.iowr (.data d))
      change _ = h.address + 2 + 2 * rest.length at hAddress
      rw [List.map_cons, List.foldl_cons]
      refine ⟨?_, ?_, ?_⟩
      · rw [hAddress, List.length_cons]
        omega
      · intro k w hk
        cases k with
        | zero =>
            obtain rfl : d = w := by simpa using hk
            have hLow := hOther h.address (Or.inl (Nat.lt_add_of_pos_right (by decide)))
            have hHigh := hOther (h.address + 1) (Or.inl (by
              change h.address + 1 < h.address + 2
              omega))
            exact (word_of_agree hLow hHigh).trans (word_store h.memory h.address d)
        | succ k =>
            have hPlace : h.address + 2 * (k + 1) = h.address + 2 + 2 * k := by omega
            rw [hPlace]
            exact hWords k w (by simpa using hk)
      · intro a ha
        rw [List.length_cons] at ha
        have hLater := hOther a (by
          change a < h.address + 2 ∨ h.address + 2 + 2 * rest.length ≤ a
          omega)
        rw [hLater]
        rcases ha with hBefore | hAfter
        · exact store_of_lt hBefore
        · apply store_of_ge
          change h.address + 2 ≤ a
          omega

/-- A list leaves its words from `0x0500` on and their address in the pointer. -/
theorem usbRequest_words (words : List (BitVec 16)) :
    currentTd ((usbRequest words).foldl Hpi.iowr h).memory = 0x0500 ∧
      ∀ k w, words[k]? = some w →
        word ((usbRequest words).foldl Hpi.iowr h).memory (0x0500 + 2 * k) = w := by
  have hStart : ((0x0500 : BitVec 16)).toNat = 0x0500 := rfl
  obtain ⟨-, hWords, -⟩ := foldl_data (h.iowr (.addr 0x0500)) words
  have hMemory : ((usbRequest words).foldl Hpi.iowr h).memory =
      store ((words.map Access.data).foldl Hpi.iowr (h.iowr (.addr 0x0500))).memory 0x01B0
        [lowByte 0x0500, highByte 0x0500] := by
    simp only [usbRequest, List.cons_append, List.foldl_cons, List.foldl_append]
    rfl
  rw [hMemory]
  refine ⟨?_, ?_⟩
  · have hPointer := word_store
      ((words.map Access.data).foldl Hpi.iowr (h.iowr (.addr 0x0500))).memory 0x01B0 0x0500
    exact (congrArg BitVec.toNat hPointer).trans hStart
  · intro k w hk
    rw [← hWords k w hk]
    apply word_of_agree
    · apply store_of_ge
      change 0x01B0 + 2 ≤ 0x0500 + 2 * k
      omega
    · apply store_of_ge
      change 0x01B0 + 2 ≤ 0x0500 + 2 * k + 1
      omega

/-- The controller's memory after a request has been built. -/
def Request.issue (r : Request) : Memory := (r.build.foldl Hpi.iowr h).memory

/-- A request leaves its words from `0x0500` on and their address in the pointer. -/
theorem issue_words (r : Request) :
    currentTd (r.issue h) = 0x0500 ∧
      ∀ k w, r.words[k]? = some w → word (r.issue h) (0x0500 + 2 * k) = w := by
  rw [Request.issue, r.build_eq]
  exact usbRequest_words h r.words

end Build

end TwoBallGame.Usb
