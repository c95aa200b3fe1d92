import TwoBallGame.Usb.Delivery
import TwoBallGame.Usb.Footprint

/-! A list under way. Until its completion is read, `main` lays out nothing but the same
list over it. What the controller does meanwhile is left open, apart from where it may
store; then the words that it does not write back itself stand at every moment. -/
namespace TwoBallGame.Usb

open Clocked Ports Chains

/-- An access of `main`, or a byte that the controller stores. -/
inductive Activity where
  | access (event : Event Port (BitVec 16))
  | stored (a : Nat) (byte : BitVec 8)

/-- The accesses of `main` among the activities. -/
def accessesOf (activities : List Activity) : List (Event Port (BitVec 16)) :=
  activities.filterMap fun
    | .access event => some event
    | .stored _ _ => none

/-- The host port with its memory, and what is seen of it. -/
structure Bench where
  seen : Seen
  hpi : Hpi

namespace Bench

def start (h : Hpi) : Bench := ⟨Seen.start h.address, h⟩

def step (b : Bench) : Activity → Bench
  | .access event => ⟨b.seen.watch event, b.hpi.see event⟩
  | .stored a byte => { b with hpi := { b.hpi with memory := store b.hpi.memory a [byte] } }

end Bench

/-- The TDs of a list, without the setup packet after the first. -/
def tdsOf (words : List (BitVec 16)) : List Td :=
  tdsOfWords (words.take 6) ++ tdsOfWords (words.drop 10)

/-- Where the controller may store. For the list handed over last, and until the
completion is read, these are the buffers of its IN TDs and the words that the
controller writes back, by their places in the list. -/
inductive MayStore (back : Nat → Prop) (w : Seen) (a : Nat) : Prop where
  | away (hList : a < 0x0500 ∨ 0x0580 ≤ a) (hPointer : a < 0x01B0 ∨ 0x01B2 ≤ a)
  | data {given : List (BitVec 16)} {td : Td} {k : Sink} (hOpen : w.completed = false)
      (hGiven : w.handed.head? = some given) (hTd : td ∈ tdsOf given) (hSink : td.sink = some k)
      (hFrom : k.base ≤ a) (hTo : a < k.base + k.length)
  | back {given : List (BitVec 16)} {i : Nat} (hOpen : w.completed = false)
      (hGiven : w.handed.head? = some given) (hLength : i < given.length) (hBack : back i)
      (hWord : a = 0x0500 + 2 * i ∨ a = 0x0500 + 2 * i + 1)

/-- The controller stores only where it may. -/
def Bench.Obeys (back : Nat → Prop) (b : Bench) : Activity → Prop
  | .access _ => True
  | .stored a _ => MayStore back b.seen a

/-- The words stand in the memory, apart from those written back. -/
def Holds (back : Nat → Prop) (m : Memory) (words : List (BitVec 16)) : Prop :=
  ∀ k w, words[k]? = some w → ¬back k → word m (0x0500 + 2 * k) = w

section Words

variable {back : Nat → Prop} {m m' : Memory} {words : List (BitVec 16)}

theorem Holds.of_agree (h : Holds back m words) (hLength : words.length ≤ 64)
    (hSame : ∀ a, 0x0500 ≤ a → a < 0x0580 → m' a = m a) : Holds back m' words := by
  intro k w hk hBack
  have hShort : k < words.length := (List.getElem?_eq_some_iff.mp hk).1
  rw [← h k w hk hBack]
  exact word_of_agree (hSame _ (by omega) (by omega)) (hSame _ (by omega) (by omega))

theorem Holds.of_prefix {words' : List (BitVec 16)} (h : Holds back m words)
    (hPrefix : words' <+: words) : Holds back m words' := by
  obtain ⟨rest, rfl⟩ := hPrefix
  intro k w hk hBack
  have hShort : k < words'.length := (List.getElem?_eq_some_iff.mp hk).1
  exact h k w ((List.getElem?_append_left hShort).trans hk) hBack

theorem store_byte_of_ne {a a' : Nat} {byte : BitVec 8} (h : a ≠ a') :
    store m a [byte] a' = m a' := by
  rcases Nat.lt_or_gt_of_ne h with hBelow | hAbove
  · exact store_of_ge hBelow
  · exact store_of_lt hAbove

/-- A byte elsewhere, or in a word that is written back. -/
theorem Holds.store_byte (h : Holds back m words) {a : Nat} {byte : BitVec 8}
    (hAway : ∀ k, k < words.length → ¬back k → a ≠ 0x0500 + 2 * k ∧ a ≠ 0x0500 + 2 * k + 1) :
    Holds back (store m a [byte]) words := by
  intro k w hk hBack
  have hShort : k < words.length := (List.getElem?_eq_some_iff.mp hk).1
  obtain ⟨hLow, hHigh⟩ := hAway k hShort hBack
  rw [← h k w hk hBack]
  exact word_of_agree (store_byte_of_ne hLow) (store_byte_of_ne hHigh)

/-- One more word is laid out, or it is written over itself. -/
theorem Holds.store_word {place : Nat} {d : BitVec 16} (hWord : words[place]? = some d)
    (h : ∀ k w, k ≠ place → words[k]? = some w → ¬back k → word m (0x0500 + 2 * k) = w) :
    Holds back (store m (0x0500 + 2 * place) [lowByte d, highByte d]) words := by
  intro k w hk hBack
  by_cases hPlace : k = place
  · rw [hPlace] at hk ⊢
    obtain rfl := Option.some.inj (hWord.symm.trans hk)
    exact word_store m _ d
  · rw [← h k w hPlace hk hBack]
    rcases Nat.lt_or_gt_of_ne hPlace with hBelow | hAbove
    · exact word_of_agree (store_of_lt (by omega)) (store_of_lt (by omega))
    · have hPast (a : Nat) (ha : 0x0500 + 2 * k ≤ a) :
          store m (0x0500 + 2 * place) [lowByte d, highByte d] a = m a := by
        apply store_of_ge
        change 0x0500 + 2 * place + 2 ≤ a
        omega
      exact word_of_agree (hPast _ (le_refl _)) (hPast _ (Nat.le_succ _))

end Words

/-- The TD of a poll is an IN TD. -/
theorem Td.sink_of_pid {td : Td} (h : td.pid = 0x0291) :
    td.sink = some ⟨td.base.toNat, td.length.toNat⟩ := by
  have hIn : td.isIn := by
    rw [Td.isIn, h]
    decide
  rw [Td.sink, if_pos hIn]

/-- The buffers of a list that `main` builds are outside of the list and the pointer. -/
theorem Built.outside {words : List (BitVec 16)} (h : Built words) {td : Td}
    (hTd : td ∈ tdsOf words) {k : Sink} (hSink : td.sink = some k) :
    (k.base + k.length ≤ 0x0500 ∨ 0x0500 + 2 * words.length ≤ k.base) ∧
      (k.base + k.length ≤ 0x01B0 ∨ 0x01B2 ≤ k.base) := by
  rcases h with ⟨r, rfl⟩ | ⟨toggle, rfl⟩
  · have hMem : k ∈ r.sinks := List.mem_filterMap.mpr ⟨td, hTd, hSink⟩
    have hPointer : ∀ k ∈ r.sinks, k.base + k.length ≤ 0x01B0 ∨ 0x01B2 ≤ k.base := by
      cases r <;> decide
    exact ⟨r.sinks_outside k hMem, hPointer k hMem⟩
  · obtain rfl := List.mem_singleton.mp hTd
    rw [Td.sink_of_pid rfl] at hSink
    obtain rfl := Option.some.inj hSink
    change (0x051c + 8 ≤ 0x0500 ∨ 0x0500 + 2 * 6 ≤ 0x051c) ∧
      (0x051c + 8 ≤ 0x01B0 ∨ 0x01B2 ≤ 0x051c)
    decide

/-- The words laid out so far stand. If the list handed over last is not done, they begin
it, and it stands with its pointer. -/
structure Stands (back : Nat → Prop) (b : Bench) : Prop where
  address : b.seen.address = b.hpi.address
  length : b.seen.list.length ≤ 64
  laid : Holds back b.hpi.memory b.seen.list
  built : ∀ given ∈ b.seen.handed.head?, Built given
  begins : b.seen.Continues b.seen.list
  given : b.seen.completed = false → ∀ given ∈ b.seen.handed.head?,
    Holds back b.hpi.memory given ∧ word b.hpi.memory 0x01B0 = 0x0500

namespace Stands

variable {back : Nat → Prop} {b : Bench}

theorem start (back : Nat → Prop) (h : Hpi) : Stands back (Bench.start h) where
  address := rfl
  length := Nat.zero_le _
  laid := fun k w hk => by cases hk
  built := fun given hGiven => by cases hGiven
  begins := fun _ given hGiven => by cases hGiven
  given := fun _ given hGiven => by cases hGiven

/-- An access that writes nothing and hands over nothing. -/
theorem quiet (hs : Stands back b) {b' : Bench} (hAddress : b'.seen.address = b'.hpi.address)
    (hMemory : b'.hpi.memory = b.hpi.memory)
    (hList : b'.seen.list = b.seen.list ∨ b'.seen.list = []) (hLater : b.seen.Later b'.seen) : Stands back b' := by
  have hOpen (h : b'.seen.completed = false) : b.seen.completed = false := by
    cases hBefore : b.seen.completed with
    | false => rfl
    | true => exact absurd (h.symm.trans (hLater.completed hBefore)) Bool.false_ne_true
  obtain ⟨hHanded, -⟩ := hLater
  constructor
  case address => exact hAddress
  case length =>
    rcases hList with hSame | hNone
    · rw [hSame]
      exact hs.length
    · rw [hNone]
      exact Nat.zero_le _
  case laid =>
    rw [hMemory]
    rcases hList with hSame | hNone
    · rw [hSame]
      exact hs.laid
    · rw [hNone]
      exact hs.laid.of_prefix List.nil_prefix
  case built =>
    rw [hHanded]
    exact hs.built
  case begins =>
    intro h given hGiven
    rw [hHanded] at hGiven
    rcases hList with hSame | hNone
    · rw [hSame]
      exact hs.begins (hOpen h) given hGiven
    · rw [hNone]
      exact List.nil_prefix
  case given =>
    intro h
    rw [hHanded, hMemory]
    exact hs.given (hOpen h)

/-- A word is written to a register. -/
theorem register (hs : Stands back b) (hRegister : b.seen.address ∈ Seen.registers)
    (d : BitVec 16) : Stands back (b.step (.access (.iowr .hpiData d))) := by
  have hPlaces : ∀ register ∈ Seen.registers, (register + 2 ≤ 0x01B0 ∨ 0x01B2 ≤ register) ∧
      (register + 2 ≤ 0x0500 ∨ 0x0582 ≤ register) := by decide
  obtain ⟨hPointer, hList⟩ := hPlaces _ hRegister
  have hLength := hs.length
  have hSeen : b.seen.data d = { b.seen with address := b.seen.address + 2, keyWord := none } := by
    have hNotPointer : b.seen.address ≠ 0x01B0 := by omega
    have hNotNext : b.seen.address ≠ 0x0500 + 2 * b.seen.list.length := by omega
    rw [Seen.data, if_neg hNotPointer, if_neg hNotNext]
  have hSame (a : Nat) (ha : a < b.seen.address ∨ b.seen.address + 2 ≤ a) :
      (b.hpi.iowr (.data d)).memory a = b.hpi.memory a := by
    rw [hs.address] at ha
    rcases ha with hBefore | hAfter
    · exact store_of_lt hBefore
    · exact store_of_ge hAfter
  have hKeep {words : List (BitVec 16)} (hWords : words.length ≤ 64)
      (h : Holds back b.hpi.memory words) : Holds back (b.hpi.iowr (.data d)).memory words :=
    h.of_agree hWords fun a hFrom hTo => hSame a (by omega)
  change Stands back ⟨b.seen.data d, b.hpi.iowr (.data d)⟩
  rw [hSeen]
  constructor
  case address => exact congrArg (· + 2) hs.address
  case length => exact hs.length
  case laid => exact hKeep hs.length hs.laid
  case built => exact hs.built
  case begins => exact hs.begins
  case given =>
    intro h given hGiven
    obtain ⟨hHolds, hThere⟩ := hs.given h given hGiven
    refine ⟨hKeep (hs.built given hGiven).length_le hHolds, ?_⟩
    rw [← hThere]
    exact word_of_agree (hSame _ (by omega)) (hSame _ (by omega))

/-- The list is handed over. -/
theorem pointer (hs : Stands back b) (hAddress : b.seen.address = 0x01B0)
    (hBuilt : Built b.seen.list) : Stands back (b.step (.access (.iowr .hpiData 0x0500))) := by
  have hSeen : b.seen.data 0x0500 = { b.seen with
      address := b.seen.address + 2, handed := b.seen.list :: b.seen.handed, completed := false,
      keyWord := none } := by
    rw [Seen.data, if_pos hAddress]
  have hLaid : Holds back (b.hpi.iowr (.data 0x0500)).memory b.seen.list := by
    refine hs.laid.of_agree hs.length fun a hFrom hTo => store_of_ge ?_
    rw [← hs.address, hAddress]
    exact (by decide : 0x01B0 + 2 ≤ 0x0500).trans hFrom
  have hThere : word (b.hpi.iowr (.data 0x0500)).memory 0x01B0 = 0x0500 := by
    rw [← hAddress, hs.address]
    exact word_store b.hpi.memory _ 0x0500
  change Stands back ⟨b.seen.data 0x0500, b.hpi.iowr (.data 0x0500)⟩
  rw [hSeen]
  constructor
  case address => exact congrArg (· + 2) hs.address
  case length => exact hs.length
  case laid => exact hLaid
  case built =>
    intro given hGiven
    obtain rfl := Option.some.inj hGiven
    exact hBuilt
  case begins =>
    intro _ given hGiven
    obtain rfl := Option.some.inj hGiven
    exact List.prefix_rfl
  case given =>
    intro _ given hGiven
    obtain rfl := Option.some.inj hGiven
    exact ⟨hLaid, hThere⟩

/-- The next word is laid out. -/
theorem next (hs : Stands back b) {d : BitVec 16}
    (hAddress : b.seen.address = 0x0500 + 2 * b.seen.list.length) (hEnd : b.seen.address < 0x0580)
    (hContinues : b.seen.Continues (b.seen.list ++ [d])) :
    Stands back (b.step (.access (.iowr .hpiData d))) := by
  have hSeen : b.seen.data d = { b.seen with
      address := b.seen.address + 2, list := b.seen.list ++ [d], keyWord := none } := by
    have hNotPointer : b.seen.address ≠ 0x01B0 := by omega
    rw [Seen.data, if_neg hNotPointer, if_pos hAddress]
  have hMemory : (b.hpi.iowr (.data d)).memory =
      store b.hpi.memory (0x0500 + 2 * b.seen.list.length) [lowByte d, highByte d] := by
    rw [← hAddress, hs.address]
    rfl
  have hPlace : (b.seen.list ++ [d])[b.seen.list.length]? = some d := List.getElem?_concat_length
  change Stands back ⟨b.seen.data d, b.hpi.iowr (.data d)⟩
  rw [hSeen]
  constructor
  case address => exact congrArg (· + 2) hs.address
  case length =>
    change (b.seen.list ++ [d]).length ≤ 64
    rw [List.length_append, List.length_singleton]
    omega
  case laid =>
    change Holds back (b.hpi.iowr (.data d)).memory _
    rw [hMemory]
    refine Holds.store_word hPlace fun k w hOther hk hBack => hs.laid k w ?_ hBack
    have hShort := (List.getElem?_eq_some_iff.mp hk).1
    rw [List.length_append, List.length_singleton] at hShort
    rw [List.getElem?_append_left (by omega)] at hk
    exact hk
  case built => exact hs.built
  case begins => exact hContinues
  case given =>
    intro h given hGiven
    obtain ⟨hHolds, hThere⟩ := hs.given h given hGiven
    obtain ⟨rest, rfl⟩ := hContinues h given hGiven
    change Holds back (b.hpi.iowr (.data d)).memory _ ∧ word (b.hpi.iowr (.data d)).memory _ = _
    rw [hMemory]
    refine ⟨Holds.store_word ?_ fun k w _ hk hBack => hHolds k w hk hBack, ?_⟩
    · exact (List.getElem?_append_left (by simp)).trans hPlace
    · rw [← hThere]
      exact word_of_agree (store_of_lt (by omega)) (store_of_lt (by omega))

/-- The controller stores a byte where it may. -/
theorem stored (hs : Stands back b) {a : Nat} (byte : BitVec 8) (hMay : MayStore back b.seen a) :
    Stands back (b.step (.stored a byte)) := by
  -- the byte is outside of the pointer and of the words that stand in the list given
  have hGiven (h : b.seen.completed = false) (given : List (BitVec 16))
      (hMem : given ∈ b.seen.handed.head?) : (a < 0x01B0 ∨ 0x01B2 ≤ a) ∧
      ∀ k, k < given.length → ¬back k → a ≠ 0x0500 + 2 * k ∧ a ≠ 0x0500 + 2 * k + 1 := by
    have hBuilt := hs.built given hMem
    have hLength := hBuilt.length_le
    cases hMay with
    | away hList hPointer => exact ⟨hPointer, fun k hk _ => by omega⟩
    | data hOpen hSome hTd hSink hFrom hTo =>
        obtain rfl := Option.some.inj (hSome.symm.trans hMem)
        obtain ⟨hList, hPointer⟩ := hBuilt.outside hTd hSink
        exact ⟨by omega, fun k hk _ => by omega⟩
    | back hOpen hSome hShort hBack hWord =>
        obtain rfl := Option.some.inj (hSome.symm.trans hMem)
        refine ⟨by omega, fun k hk hNot => ?_⟩
        have hOther : k ≠ _ := fun hSame => hNot (hSame ▸ hBack)
        omega
  constructor
  case address => exact hs.address
  case length => exact hs.length
  case laid =>
    apply hs.laid.store_byte
    intro k hk hNot
    have hLength := hs.length
    cases hMay with
    | away hList hPointer => omega
    | data hOpen hSome hTd hSink hFrom hTo =>
        have hWithin := (hs.begins hOpen _ hSome).length_le
        exact (hGiven hOpen _ hSome).2 k (by omega) hNot
    | back hOpen hSome hShort hBack hWord =>
        have hWithin := (hs.begins hOpen _ hSome).length_le
        exact (hGiven hOpen _ hSome).2 k (by omega) hNot
  case built => exact hs.built
  case begins => exact hs.begins
  case given =>
    intro h given hMem
    obtain ⟨hHolds, hThere⟩ := hs.given h given hMem
    obtain ⟨hPointer, hWords⟩ := hGiven h given hMem
    refine ⟨hHolds.store_byte hWords, ?_⟩
    rw [← hThere]
    exact word_of_agree (store_byte_of_ne (by omega)) (store_byte_of_ne (by omega))

/-- Every access of `main` that the watcher allows. -/
theorem access (hs : Stands back b) {event : Event Port (BitVec 16)}
    (hAllows : b.seen.Allows event) : Stands back (b.step (.access event)) := by
  cases event with
  | iord port answer =>
      cases port with
      | hpiData =>
          exact hs.quiet (congrArg (· + 2) hs.address) rfl (Or.inl rfl) (later_iord _ answer)
      | hpiMailbox => exact hs.quiet hs.address rfl (Or.inl rfl) ⟨rfl, id⟩
      | hpiAddr => exact hs.quiet hs.address rfl (Or.inl rfl) ⟨rfl, id⟩
      | hpiStatus => exact hs.quiet hs.address rfl (Or.inl rfl) ⟨rfl, id⟩
      | keycode => exact hs.quiet hs.address rfl (Or.inl rfl) ⟨rfl, id⟩
  | iowr port d =>
      cases port with
      | hpiData =>
          rcases hAllows with hRegister | ⟨hAddress, rfl, hBuilt⟩ | ⟨hAddress, hEnd, hContinues⟩
          · exact hs.register hRegister d
          · exact hs.pointer hAddress hBuilt
          · exact hs.next hAddress hEnd hContinues
      | hpiAddr =>
          exact hs.quiet rfl rfl (ite_eq_or_eq (d = 0x0500) [] b.seen.list).symm ⟨rfl, id⟩
      | hpiMailbox => exact hs.quiet hs.address rfl (Or.inl rfl) ⟨rfl, id⟩
      | hpiStatus => exact hs.quiet hs.address rfl (Or.inl rfl) ⟨rfl, id⟩
      | keycode => exact hs.quiet hs.address rfl (Or.inl rfl) ⟨rfl, id⟩

theorem run (hs : Stands back b) {activities : List Activity}
    (hAllows : EachStep Seen.watch Seen.Allows b.seen (accessesOf activities))
    (hStores : EachStep Bench.step (Bench.Obeys back) b activities) :
    Stands back (Clocked.run Bench.step b activities) := by
  induction activities generalizing b with
  | nil => exact hs
  | cons activity rest ih =>
      obtain ⟨hNow, hLater⟩ := hStores
      cases activity with
      | access event => exact ih (hs.access hAllows.1) hAllows.2 hLater
      | stored a byte => exact ih (hs.stored byte hNow) hAllows hLater

end Stands

/-- A list stands until its completion is read. In every run of `main`, `main` lays out
nothing but the same list meanwhile. Whatever a controller does in between that stores
only where it may, the pointer and the words of the list stand in the memory, apart from
the words that the controller writes back itself. -/
theorem list_stands (back : Nat → Prop) (h : Hpi) (activities : List Activity)
    (result : Option Host) (hGoes : Goes Host.piece Host.start (accessesOf activities) result)
    (hStores : EachStep Bench.step (Bench.Obeys back) (Bench.start h) activities)
    (given : List (BitVec 16)) :
    let b := run Bench.step (Bench.start h) activities
    b.seen.handed.head? = some given → b.seen.completed = false →
      b.seen.list <+: given ∧
        (∀ k w, given[k]? = some w → ¬back k → word b.hpi.memory (0x0500 + 2 * k) = w) ∧
        word b.hpi.memory 0x01B0 = 0x0500 := by
  intro b hGiven hOpen
  have hs := (Stands.start back h).run (main_follows h.address hGoes).1 hStores
  exact ⟨hs.begins hOpen given hGiven, hs.given hOpen given hGiven⟩

/-- A controller that does not show its flag, so that a list is written again and again. -/
def unflagged (address : Nat) (port : Port) : BitVec 16 :=
  if port = .hpiStatus then 0x0001 else keyboard 0 address port

/-- The first pieces of `main` with that controller. -/
def unflaggedRun (count : Nat) : List (Event Port (BitVec 16)) × Host × Nat :=
  goesAgainst Host.piece unflagged moveAddress count Host.start 0

/-- A retry count is written back while the first list is written for the third time. -/
def writtenBack : List Activity :=
  ((unflaggedRun 4).1.take 140).map .access ++
    .stored 0x0508 0x03 :: ((unflaggedRun 4).1.drop 140).map .access

theorem accessesOf_access (trace : List (Event Port (BitVec 16))) :
    accessesOf (trace.map .access) = trace := by
  rw [accessesOf, List.filterMap_map]
  exact List.filterMap_some

theorem accessesOf_writtenBack : accessesOf writtenBack = (unflaggedRun 4).1 := by
  have hRest : accessesOf (.stored 0x0508 0x03 :: ((unflaggedRun 4).1.drop 140).map .access) =
      (unflaggedRun 4).1.drop 140 := accessesOf_access _
  rw [writtenBack, accessesOf, List.filterMap_append]
  change accessesOf _ ++ accessesOf _ = _
  rw [accessesOf_access, hRest, List.take_append_drop]

theorem obeys_access (back : Nat → Prop) (b : Bench) (trace : List (Event Port (BitVec 16))) :
    EachStep Bench.step (Bench.Obeys back) b (trace.map .access) := by
  induction trace generalizing b with
  | nil => trivial
  | cons event rest ih => exact ⟨trivial, ih _⟩

theorem list_stands_writtenBack :
    let b := run Bench.step (Bench.start ⟨0, fun _ => 0⟩) writtenBack
    b.seen.list <+: setAddressWords ∧
      (∀ k w, setAddressWords[k]? = some w → ¬(k = 3 ∨ k = 4) →
        word b.hpi.memory (0x0500 + 2 * k) = w) ∧
      word b.hpi.memory 0x01B0 = 0x0500 := by
  refine list_stands (fun k => k = 3 ∨ k = 4) ⟨0, fun _ => 0⟩ writtenBack _
    (accessesOf_writtenBack ▸ goes_goesAgainst Host.piece unflagged moveAddress 4 Host.start 0)
    ?_ setAddressWords (by decide +kernel) (by decide +kernel)
  rw [writtenBack, eachStep_append]
  refine ⟨obeys_access _ _ _, ?_, obeys_access _ _ _⟩
  have hGiven : (run Bench.step (Bench.start ⟨0, fun _ => 0⟩)
      (((unflaggedRun 4).1.take 140).map .access)).seen.handed.head? = some setAddressWords := by
    decide +kernel
  have hLength : 4 < setAddressWords.length := by decide
  exact .back (by decide +kernel) hGiven hLength (Or.inr rfl) (Or.inl rfl)

end TwoBallGame.Usb
