import Mathlib

/-! A `for` loop that marks the array entry of every item satisfying a test
and leaves the name of the last such item in a register. -/
namespace Clocked

variable {Item Key Name : Type} [DecidableEq Key]

/-- One pass over `items`, in order. The accumulator is the array and the
register that is overwritten at every hit. -/
def markLoop (hit : Item → Bool) (entry : Item → Key) (name : Item → Name)
    (items : List Item) (start : (Key → Bool) × Name) : (Key → Bool) × Name :=
  items.foldl (fun acc item =>
    if hit item then (Function.update acc.1 (entry item) true, name item) else acc) start

variable (hit : Item → Bool) (entry : Item → Key) (name : Item → Name)

/-- The last item, in loop order, that passes the test. -/
def lastHit (items : List Item) : Option Item :=
  (items.filter hit).getLast?

theorem markLoop_append (first second : List Item) (start : (Key → Bool) × Name) :
    markLoop hit entry name (first ++ second) start =
      markLoop hit entry name second (markLoop hit entry name first start) :=
  List.foldl_append

/-- Renaming the items of a loop renames its test, its entries and its names. -/
theorem markLoop_map {Source : Type} (f : Source → Item) (items : List Source)
    (start : (Key → Bool) × Name) :
    markLoop hit entry name (items.map f) start =
      markLoop (hit ∘ f) (entry ∘ f) (name ∘ f) items start := by
  simp only [markLoop, List.foldl_map, Function.comp_apply]

/-- An entry is set afterwards when it was set before or some hit wrote it. -/
theorem markLoop_fst (items : List Item) (start : (Key → Bool) × Name) (key : Key) :
    (markLoop hit entry name items start).1 key = true ↔
      start.1 key = true ∨ ∃ item ∈ items, hit item = true ∧ entry item = key := by
  induction items generalizing start with
  | nil => simp [markLoop]
  | cons item rest ih =>
      have hUnfold : markLoop hit entry name (item :: rest) start =
          markLoop hit entry name rest
            (if hit item then (Function.update start.1 (entry item) true, name item)
              else start) := rfl
      rw [hUnfold, ih]
      by_cases hHit : hit item = true
      · by_cases hKey : entry item = key
        · simp [hHit, hKey]
        · have hOther : Function.update start.1 (entry item) true key = start.1 key :=
            Function.update_of_ne (Ne.symm hKey) _ _
          simp [hHit, hKey, hOther]
      · simp [hHit]

/-- The register ends with the name of the last hit, or keeps its old value
when nothing was hit. -/
theorem markLoop_snd (items : List Item) (start : (Key → Bool) × Name) :
    (markLoop hit entry name items start).2 =
      ((lastHit hit items).map name).getD start.2 := by
  induction items using List.reverseRecOn with
  | nil => rfl
  | append_singleton rest item ih =>
      rw [markLoop_append]
      by_cases hHit : hit item = true
      · simp [markLoop, lastHit, hHit, List.filter_append]
      · simpa [markLoop, lastHit, hHit, List.filter_append] using ih

variable {hit}

theorem lastHit_some {items : List Item} {item : Item} (h : lastHit hit items = some item) :
    item ∈ items ∧ hit item = true := by
  have hMem := List.mem_of_getLast? h
  exact List.mem_filter.mp hMem

theorem lastHit_eq_none_iff {items : List Item} :
    lastHit hit items = none ↔ ∀ item ∈ items, hit item = false := by
  simp [lastHit]

section Assign

variable {Value : Type} (value : Item → Value)

/-- A `for` loop that assigns to one register at every hit. -/
def assignLoop (hit : Item → Bool) (value : Item → Value) (items : List Item)
    (start : Value) : Value :=
  items.foldl (fun acc item => if hit item then value item else acc) start

/-- Hits that assign what the register already holds do not show. -/
theorem assignLoop_of_same {items : List Item} {start : Value}
    (h : ∀ item ∈ items, hit item = true → value item = start) :
    assignLoop hit value items start = start := by
  induction items with
  | nil => rfl
  | cons item rest ih =>
      have hHead : (if hit item then value item else start) = start := by
        split_ifs with hHit
        · exact h item List.mem_cons_self hHit
        · rfl
      have hRest := ih fun other hMem => h other (List.mem_cons_of_mem _ hMem)
      calc assignLoop hit value (item :: rest) start
          = assignLoop hit value rest (if hit item then value item else start) := rfl
        _ = assignLoop hit value rest start := by rw [hHead]
        _ = start := hRest

theorem assignLoop_of_none {items : List Item} (h : ∀ item ∈ items, hit item = false)
    (start : Value) : assignLoop hit value items start = start := by
  apply assignLoop_of_same
  intro item hMem hHit
  rw [h item hMem] at hHit
  cases hHit

/-- If every hit would assign the same value, a single hit decides the register. -/
theorem assignLoop_of_mem {items : List Item} {item : Item} (hMem : item ∈ items)
    (hHit : hit item = true)
    (hOnly : ∀ other ∈ items, hit other = true → value other = value item) (start : Value) :
    assignLoop hit value items start = value item := by
  induction items using List.reverseRecOn with
  | nil => cases hMem
  | append_singleton rest last ih =>
      have hUnfold : assignLoop hit value (rest ++ [last]) start =
          if hit last then value last else assignLoop hit value rest start := by
        simp [assignLoop]
      rw [hUnfold]
      cases hLast : hit last with
      | true => exact hOnly last (by simp) hLast
      | false =>
          have hNe : item ≠ last := by
            rintro rfl
            rw [hHit] at hLast
            cases hLast
          have hRest : item ∈ rest := by simpa [hNe] using hMem
          exact ih hRest fun other hOther => hOnly other (by simp [hOther])

end Assign

end Clocked
