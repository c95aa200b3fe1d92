import Mathlib

/-! Chains of records in a memory that is written while it is walked. Each record
names its successor, and some records store the next items of a stream. If the
records lie outside of what is stored, the walk is the chain as it was laid out. -/
namespace Chains

section Store

variable {Item : Type}

/-- The memory with some items written from `base` on. -/
def store (m : ℕ → Item) (base : ℕ) (items : List Item) : ℕ → Item :=
  fun a => if base ≤ a then (items[a - base]?).getD (m a) else m a

variable {m : ℕ → Item} {base a : ℕ} {items : List Item}

theorem store_of_lt (h : a < base) : store m base items a = m a :=
  if_neg (Nat.not_le_of_lt h)

theorem store_of_ge (h : base + items.length ≤ a) : store m base items a = m a := by
  have hNone : items[a - base]? = none := List.getElem?_eq_none (by omega)
  rw [store, if_pos (by omega), hNone, Option.getD_none]

theorem store_get {i : ℕ} {item : Item} (h : items[i]? = some item) :
    store m base items (base + i) = item := by
  rw [store, if_pos (Nat.le_add_right base i), Nat.add_sub_cancel_left, h, Option.getD_some]

end Store

/-- Where a record stores the next items of the stream, and how many. -/
structure Sink where
  base : ℕ
  length : ℕ
deriving DecidableEq

namespace Sink

variable {Item : Type}

/-- One delivery: as many items as there are, up to the length. -/
def deliver (s : (ℕ → Item) × List Item) (k : Sink) : (ℕ → Item) × List Item :=
  (store s.1 k.base (s.2.take k.length), s.2.drop k.length)

/-- Each sink begins where the one before it ends. -/
def Consecutive : ℕ → List Sink → Prop
  | _, [] => True
  | base, k :: rest => k.base = base ∧ Consecutive (base + k.length) rest

instance decidableConsecutive : ∀ base sinks, Decidable (Consecutive base sinks)
  | _, [] => isTrue trivial
  | base, k :: rest =>
      have := decidableConsecutive (base + k.length) rest
      inferInstanceAs (Decidable (_ ∧ _))

def total (sinks : List Sink) : ℕ := (sinks.map length).sum

variable {s : (ℕ → Item) × List Item} {k : Sink} {base a : ℕ} {sinks : List Sink}

theorem deliver_outside (h : a < k.base ∨ k.base + k.length ≤ a) : (deliver s k).1 a = s.1 a := by
  rcases h with hBefore | hAfter
  · exact store_of_lt hBefore
  · apply store_of_ge
    have hTake := List.length_take_le k.length s.2
    omega

theorem deliver_before (h : Consecutive base sinks) (ha : a < base) :
    (sinks.foldl deliver s).1 a = s.1 a := by
  induction sinks generalizing base s with
  | nil => rfl
  | cons k rest ih =>
      obtain ⟨hBase, hRest⟩ := h
      have hLater := ih (s := deliver s k) hRest (by omega)
      rw [List.foldl_cons, hLater]
      exact deliver_outside (Or.inl (by omega))

/-- Consecutive sinks put the stream together again. -/
theorem deliver_contiguous (h : Consecutive base sinks) {i : ℕ} {item : Item}
    (hItem : s.2[i]? = some item) (hi : i < total sinks) :
    (sinks.foldl deliver s).1 (base + i) = item := by
  induction sinks generalizing base s i with
  | nil => exact absurd hi (Nat.not_lt_zero i)
  | cons k rest ih =>
      obtain ⟨rfl, hRest⟩ := h
      rw [List.foldl_cons]
      by_cases hFirst : i < k.length
      · have hTaken : (s.2.take k.length)[i]? = some item := by
          rw [List.getElem?_take_of_lt hFirst]
          exact hItem
        calc (rest.foldl deliver (deliver s k)).1 (k.base + i)
            = (deliver s k).1 (k.base + i) := deliver_before hRest (by omega)
          _ = item := store_get hTaken
      · have hDropped : (deliver s k).2[i - k.length]? = some item := by
          rw [deliver, List.getElem?_drop, Nat.add_sub_cancel' (Nat.not_lt.mp hFirst)]
          exact hItem
        have hTotal : total (k :: rest) = k.length + total rest := by simp [total]
        have hLater := ih (s := deliver s k) hRest hDropped (by omega)
        have hPlace : k.base + i = k.base + k.length + (i - k.length) := by omega
        rw [hPlace]
        exact hLater

end Sink

section Walk

variable {Item Record : Type} (fetch : (ℕ → Item) → ℕ → Record) (next : Record → ℕ)
  (sink : Record → Option Sink)

/-- Perform one record on the memory and the stream. -/
def perform (s : (ℕ → Item) × List Item) (r : Record) : (ℕ → Item) × List Item :=
  match sink r with
  | none => s
  | some k => k.deliver s

/-- Fetch a record from the memory as it then is, perform it and go on with its
successor, until the address is zero. The result has the records performed. -/
def walk : ℕ → ℕ → (ℕ → Item) × List Item → Option (List Record × (ℕ → Item) × List Item)
  | 0, addr, s => if addr = 0 then some ([], s) else none
  | fuel + 1, addr, s =>
      if addr = 0 then some ([], s)
      else
        let r := fetch s.1 addr
        (walk fuel (next r) (perform sink s r)).map fun out => (r :: out.1, out.2)

/-- The records found from an address on while the memory stands still. -/
def Chain (m : ℕ → Item) : ℕ → List Record → Prop
  | addr, [] => addr = 0
  | addr, r :: rest => addr ≠ 0 ∧ fetch m addr = r ∧ Chain m (next r) rest

variable {fetch next sink}

theorem perform_eq_foldl (records : List Record) (s : (ℕ → Item) × List Item) :
    records.foldl (perform sink) s = (records.filterMap sink).foldl (fun s k => k.deliver s) s := by
  induction records generalizing s with
  | nil => rfl
  | cons r rest ih =>
      rw [List.foldl_cons, ih]
      cases hSink : sink r with
      | none => simp [perform, hSink]
      | some k => simp [perform, hSink]

/-- A walk performs exactly the chain, if nothing that is stored on the way is
in a region that determines the chain. -/
theorem walk_of_chain {Region : ℕ → Prop} {addr : ℕ} {records : List Record}
    {m : ℕ → Item}
    (hChain : ∀ m', (∀ a, Region a → m' a = m a) → Chain fetch next m' addr records)
    (hClear : ∀ r ∈ records, ∀ k, sink r = some k → ∀ a, Region a →
      a < k.base ∨ k.base + k.length ≤ a)
    {s : (ℕ → Item) × List Item} (hSame : ∀ a, Region a → s.1 a = m a) {fuel : ℕ}
    (hFuel : records.length ≤ fuel) :
    walk fetch next sink fuel addr s = some (records, records.foldl (perform sink) s) ∧
      ∀ a, Region a → (records.foldl (perform sink) s).1 a = m a := by
  induction records generalizing addr s fuel with
  | nil =>
      have hEnd : addr = 0 := hChain s.1 hSame
      refine ⟨?_, hSame⟩
      cases fuel with
      | zero => exact if_pos hEnd
      | succ fuel => exact if_pos hEnd
  | cons r rest ih =>
      obtain ⟨hAddr, hFetch, -⟩ := hChain s.1 hSame
      cases fuel with
      | zero => exact absurd hFuel (Nat.not_succ_le_zero _)
      | succ fuel =>
          have hNext : ∀ a, Region a → (perform sink s r).1 a = m a := by
            intro a ha
            rw [← hSame a ha]
            cases hSink : sink r with
            | none => rw [perform, hSink]
            | some k =>
                rw [perform, hSink]
                exact Sink.deliver_outside (hClear r List.mem_cons_self k hSink a ha)
          have hRest : walk fetch next sink fuel (next r) (perform sink s r) =
              some (rest, rest.foldl (perform sink) (perform sink s r)) ∧
                ∀ a, Region a → (rest.foldl (perform sink) (perform sink s r)).1 a = m a :=
            ih (fun m' hm' => (hChain m' hm').2.2)
              (fun r' hr' => hClear r' (List.mem_cons_of_mem r hr')) hNext (by simpa using hFuel)
          refine ⟨?_, hRest.2⟩
          rw [walk, if_neg hAddr]
          simp only [hFetch, hRest.1, Option.map_some]
          rfl

end Walk

end Chains
