import TwoBallGame.Usb.Controller

/-! The transfer lists of the nine builders at work. Next pointers, buffers and
lengths fit where the address register put the words, so the controller performs
the TDs as written and the answer of the device comes to stand in one piece. -/
namespace TwoBallGame.Usb

open Chains

namespace Request

variable (r : Request)

/-- The TD that the words of the builder form at an address. -/
def tdAt (addr : Nat) : Option Td :=
  if 0x0500 ≤ addr ∧ addr % 2 = 0 then
    (tdsOfWords ((r.words.drop ((addr - 0x0500) / 2)).take 6)).head?
  else none

/-- The next pointers lead from an address through the given TDs to zero. -/
def Linked : Nat → List Td → Prop
  | addr, [] => addr = 0
  | addr, td :: rest => r.tdAt addr = some td ∧ Linked td.next.toNat rest

instance decidableLinked : ∀ addr tds, Decidable (r.Linked addr tds)
  | addr, [] => inferInstanceAs (Decidable (addr = 0))
  | _, td :: rest =>
      have := decidableLinked td.next.toNat rest
      inferInstanceAs (Decidable (_ ∧ _))

theorem linked_tds : r.Linked 0x0500 r.tds := by
  cases r <;> decide

/-- Every buffer is outside of the list, setup packet included. -/
theorem sinks_outside : ∀ k ∈ r.sinks,
    k.base + k.length ≤ 0x0500 ∨ 0x0500 + 2 * r.words.length ≤ k.base := by
  cases r <;> decide

theorem sinks_consecutive : Sink.Consecutive r.buffer r.sinks := by
  cases r <;> decide

/-- The phases of a control transfer: a setup packet with DATA0, IN data that
begins with DATA1 and alternates, and an empty status packet with DATA1 in the
other direction, or inwards if there is no data. -/
structure Phased (tds : List Td) : Prop where
  setup : ∃ td ∈ tds.head?, td.isSetup ∧ td.data1 = false
  data : ∀ k : Fin tds.tail.dropLast.length, (tds.tail.dropLast.get k).isIn ∧
    (tds.tail.dropLast.get k).data1 = decide (k.val % 2 = 0)
  status : ∃ td ∈ tds.getLast?, td.length = 0 ∧ td.data1 = true ∧
    if tds.tail.dropLast = [] then td.isIn else td.isOut

theorem phased_tds : Phased r.tds := by
  cases r <;> constructor <;> decide

end Request

section Memory

variable {r : Request} {m : Memory}

/-- The first TD has the first six words. -/
theorem head_tdsOfWords {words : List (BitVec 16)} {td : Td}
    (h : (tdsOfWords words).head? = some td) :
    words[0]? = some td.base ∧ words[1]? = some td.length ∧ words[2]? = some td.pid ∧
      words[3]? = some td.control ∧ words[4]? = some td.retry ∧ words[5]? = some td.next := by
  rcases words with _ | ⟨a, _ | ⟨b, _ | ⟨c, _ | ⟨d, _ | ⟨e, _ | ⟨f, rest⟩⟩⟩⟩⟩⟩
  case cons.cons.cons.cons.cons.cons =>
    obtain rfl : (⟨a, b, c, d, e, f⟩ : Td) = td := by simpa [tdsOfWords] using h
    exact ⟨rfl, rfl, rfl, rfl, rfl, rfl⟩
  all_goals cases h

/-- A memory with the words of a builder holds its TDs. -/
theorem fetchTd_of_words (hWords : ∀ k w, r.words[k]? = some w → word m (0x0500 + 2 * k) = w)
    {addr : Nat} {td : Td} (h : r.tdAt addr = some td) : addr ≠ 0 ∧ fetchTd m addr = td := by
  unfold Request.tdAt at h
  split_ifs at h with hAddr
  obtain ⟨k, rfl⟩ : ∃ k, addr = 0x0500 + 2 * k := ⟨(addr - 0x0500) / 2, by omega⟩
  have hIndex : (0x0500 + 2 * k - 0x0500) / 2 = k := by omega
  rw [hIndex] at h
  have hGet (j : Nat) (hj : j < 6) {w : BitVec 16}
      (hw : ((r.words.drop k).take 6)[j]? = some w) : word m (0x0500 + 2 * k + 2 * j) = w := by
    rw [List.getElem?_take_of_lt hj, List.getElem?_drop] at hw
    have hPlace : 0x0500 + 2 * k + 2 * j = 0x0500 + 2 * (k + j) := by omega
    rw [hPlace]
    exact hWords (k + j) w hw
  refine ⟨by omega, ?_⟩
  obtain ⟨hBase, hLength, hPid, hControl, hRetry, hNext⟩ := head_tdsOfWords h
  have hFirst := hGet 0 (by decide) hBase
  have hSecond := hGet 1 (by decide) hLength
  have hThird := hGet 2 (by decide) hPid
  have hFourth := hGet 3 (by decide) hControl
  have hFifth := hGet 4 (by decide) hRetry
  have hSixth := hGet 5 (by decide) hNext
  exact Td.ext hFirst hSecond hThird hFourth hFifth hSixth

theorem chain_of_words (hWords : ∀ k w, r.words[k]? = some w → word m (0x0500 + 2 * k) = w)
    {addr : Nat} {tds : List Td} (h : r.Linked addr tds) :
    Chain fetchTd (fun td => td.next.toNat) m addr tds := by
  induction tds generalizing addr with
  | nil => exact h
  | cons td rest ih =>
      obtain ⟨hTd, hRest⟩ := h
      obtain ⟨hAddr, hFetch⟩ := fetchTd_of_words hWords hTd
      exact ⟨hAddr, hFetch, ih hRest⟩

/-- Words are read within the list. -/
theorem words_of_agree (hWords : ∀ k w, r.words[k]? = some w → word m (0x0500 + 2 * k) = w)
    {m' : Memory} (hSame : ∀ a, r.InList a → m' a = m a) :
    ∀ k w, r.words[k]? = some w → word m' (0x0500 + 2 * k) = w := by
  intro k w hk
  have hLength : k < r.words.length := by
    by_contra hBeyond
    rw [List.getElem?_eq_none (by omega)] at hk
    cases hk
  rw [← hWords k w hk]
  exact word_of_agree (hSame _ ⟨by omega, by omega⟩) (hSame _ ⟨by omega, by omega⟩)

end Memory

/-- The byte that `main` tests after `UsbGetConfigDesc2`. -/
def deviceCode (m : Memory) : BitVec 16 := word m 0x056C &&& 0x00ff

theorem and_low_byte (high low : BitVec 8) : (high ++ low) &&& 0x00ff = low.setWidth 16 := by
  have hLow := low.isLt
  apply BitVec.eq_of_toNat_eq
  have hMask : ((0x00ff : BitVec 16)).toNat = 2 ^ 8 - 1 := rfl
  rw [BitVec.toNat_and, hMask, Nat.and_two_pow_sub_one_eq_mod, BitVec.toNat_append,
    ← Nat.shiftLeft_add_eq_or_of_lt hLow, Nat.shiftLeft_eq, BitVec.toNat_setWidth]
  omega

/-- After any builder, on any memory and with any answer, the controller performs
exactly the TDs written, in order, and stops; nothing it stores is in the list;
and the answer, as far as it goes, stands in one piece from the first buffer on. -/
theorem transfer_intact (r : Request) (h : Hpi) (b : List (BitVec 8)) :
    ∃ out : Memory × List (BitVec 8),
      (∀ fuel, r.tds.length ≤ fuel →
        walkList fuel (currentTd (r.issue h)) (r.issue h, b) = some (r.tds, out)) ∧
      Request.Phased r.tds ∧
      (∀ k ∈ r.sinks, ∀ a, r.InList a → a < k.base ∨ k.base + k.length ≤ a) ∧
      (∀ a, r.InList a → out.1 a = r.issue h a) ∧
      (∀ i byte, b[i]? = some byte → i < Sink.total r.sinks → out.1 (r.buffer + i) = byte) ∧
      (r = .getConfigDesc2 → ∀ byte, b[16]? = some byte →
        deviceCode out.1 = byte.setWidth 16) := by
  obtain ⟨hStart, hWords⟩ := issue_words h r
  have hClear : ∀ k ∈ r.sinks, ∀ a, r.InList a → a < k.base ∨ k.base + k.length ≤ a := by
    intro k hk a ha
    have hOutside := r.sinks_outside k hk
    obtain ⟨hFrom, hTo⟩ := ha
    omega
  have hWalk (fuel : Nat) (hFuel : r.tds.length ≤ fuel) :
      walkList fuel 0x0500 (r.issue h, b) =
          some (r.tds, r.tds.foldl (perform Td.sink) (r.issue h, b)) ∧
        ∀ a, r.InList a → (r.tds.foldl (perform Td.sink) (r.issue h, b)).1 a = r.issue h a :=
    walk_of_chain (fun m' hm' => chain_of_words (words_of_agree hWords hm') r.linked_tds)
      (fun td hTd k hk => hClear k (List.mem_filterMap.mpr ⟨td, hTd, hk⟩))
      (fun _ _ => rfl) hFuel
  have hData (i : Nat) (byte : BitVec 8) (hByte : b[i]? = some byte)
      (hi : i < Sink.total r.sinks) :
      (r.tds.foldl (perform Td.sink) (r.issue h, b)).1 (r.buffer + i) = byte := by
    rw [perform_eq_foldl]
    exact Sink.deliver_contiguous (s := (r.issue h, b)) r.sinks_consecutive hByte hi
  refine ⟨r.tds.foldl (perform Td.sink) (r.issue h, b), ?_, r.phased_tds, hClear, ?_, hData, ?_⟩
  · intro fuel hFuel
    rw [hStart]
    exact (hWalk fuel hFuel).1
  · exact (hWalk r.tds.length (le_refl _)).2
  · rintro rfl byte hByte
    have hTotal : Sink.total Request.getConfigDesc2.sinks = 34 := by decide
    have hBuffer : Request.getConfigDesc2.buffer + 16 = 0x056C := by decide
    have hCode := hData 16 byte hByte (by rw [hTotal]; decide)
    rw [hBuffer] at hCode
    rw [deviceCode, word, hCode, and_low_byte]

end TwoBallGame.Usb
