import Mathlib

/-! Runs of a deterministic clocked machine. A step reads the registers and
one input and gives the registers after the edge. Properties of states and of
steps are lifted to whole runs here, once for every machine. -/
namespace Clocked

variable {State Input : Type} (step : State → Input → State)

/-- The state after a finite sequence of inputs. -/
def run (start : State) (inputs : List Input) : State :=
  inputs.foldl step start

@[simp]
theorem run_nil (start : State) : run step start [] = start := rfl

@[simp]
theorem run_cons (start : State) (input : Input) (rest : List Input) :
    run step start (input :: rest) = run step (step start input) rest := rfl

theorem run_append (start : State) (first second : List Input) :
    run step start (first ++ second) = run step (run step start first) second :=
  List.foldl_append

theorem run_concat (start : State) (inputs : List Input) (input : Input) :
    run step start (inputs ++ [input]) = step (run step start inputs) input :=
  run_append step start inputs [input]

/-- The state after `count` inputs of an endless input stream. -/
def after (start : State) (inputs : Nat → Input) : Nat → State
  | 0 => start
  | count + 1 => step (after start inputs count) (inputs count)

theorem after_succ (start : State) (inputs : Nat → Input) (count : Nat) :
    after step start inputs (count + 1) =
      step (after step start inputs count) (inputs count) := rfl

theorem after_add (start : State) (inputs : Nat → Input) (first second : Nat) :
    after step start inputs (first + second) =
      after step (after step start inputs first) (fun i => inputs (first + i)) second := by
  induction second with
  | zero => rfl
  | succ second ih => rw [Nat.add_succ, after_succ, ih, after_succ]

/-- Some finite sequence of inputs leads from `start` to `finish`. -/
def Reaches (start finish : State) : Prop :=
  ∃ inputs, run step start inputs = finish

theorem Reaches.refl (start : State) : Reaches step start start := ⟨[], rfl⟩

variable {step}

theorem Reaches.next {start finish : State} (h : Reaches step start finish)
    (input : Input) : Reaches step start (step finish input) := by
  obtain ⟨inputs, rfl⟩ := h
  exact ⟨inputs ++ [input], by rw [run_append, run_cons, run_nil]⟩

theorem Reaches.after {start finish : State} (h : Reaches step start finish)
    (inputs : Nat → Input) (count : Nat) :
    Reaches step start (Clocked.after step finish inputs count) := by
  induction count with
  | zero => exact h
  | succ count ih => exact ih.next (inputs count)

/-- What every step preserves holds of every reachable state. -/
theorem Reaches.invariant {start finish : State} (h : Reaches step start finish)
    {Inv : State → Prop} (hStart : Inv start)
    (hStep : ∀ s i, Inv s → Inv (step s i)) : Inv finish := by
  obtain ⟨inputs, rfl⟩ := h
  induction inputs generalizing start with
  | nil => exact hStart
  | cons input rest ih => exact ih (hStep start input hStart)

variable (step)

/-- `P` holds at the start of the run and after each of its inputs. -/
def Always (P : State → Prop) : State → List Input → Prop
  | s, [] => P s
  | s, input :: rest => P s ∧ Always P (step s input) rest

/-- Each step of the run, as a state and the input it reads, satisfies `C`. -/
def EachStep (C : State → Input → Prop) : State → List Input → Prop
  | _, [] => True
  | s, input :: rest => C s input ∧ EachStep C (step s input) rest

theorem eachStep_append {C : State → Input → Prop} {s : State} {first second : List Input} :
    EachStep step C s (first ++ second) ↔
      EachStep step C s first ∧ EachStep step C (run step s first) second := by
  induction first generalizing s with
  | nil => exact (iff_of_eq (true_and _)).symm
  | cons input rest ih =>
      rw [List.cons_append, EachStep, EachStep, ih, run_cons, and_assoc]

variable {step}

/-- Each step of the run, found by what was before it. -/
theorem EachStep.split {C : State → Input → Prop} {s : State} {done rest : List Input}
    {input : Input} (h : EachStep step C s (done ++ input :: rest)) :
    C (run step s done) input :=
  ((eachStep_append step).mp h).2.1

theorem eachStep_replicate {C : State → Input → Prop} {s : State} {input : Input} {n : Nat}
    (h : ∀ m < n, C (run step s (List.replicate m input)) input) :
    EachStep step C s (List.replicate n input) := by
  induction n with
  | zero => trivial
  | succ n ih =>
      rw [List.replicate_succ', eachStep_append]
      exact ⟨ih fun m hm => h m (by omega), h n (Nat.lt_succ_self n), trivial⟩

theorem always_append {P : State → Prop} {s : State} {first second : List Input} :
    Always step P s (first ++ second) ↔
      Always step P s first ∧ Always step P (run step s first) second := by
  induction first generalizing s with
  | nil =>
      rw [List.nil_append, run_nil]
      refine ⟨fun h => ⟨?_, h⟩, fun h => h.2⟩
      cases second with
      | nil => exact h
      | cons input rest => exact h.1
  | cons input rest ih => rw [List.cons_append, Always, Always, ih, run_cons, and_assoc]

theorem Always.head {P : State → Prop} {s : State} {inputs : List Input}
    (h : Always step P s inputs) : P s := by
  cases inputs with
  | nil => exact h
  | cons input rest => exact h.1

/-- `Always` covers exactly the states after the prefixes of the run. -/
theorem always_iff_prefix {P : State → Prop} {s : State} {inputs : List Input} :
    Always step P s inputs ↔ ∀ done rest, inputs = done ++ rest → P (run step s done) := by
  induction inputs generalizing s with
  | nil =>
      constructor
      · intro h done rest heq
        obtain ⟨rfl, rfl⟩ := List.append_eq_nil_iff.mp heq.symm
        exact h
      · intro h
        exact h [] [] rfl
  | cons input tail ih =>
      rw [Always, ih]
      constructor
      · rintro ⟨hHead, hTail⟩ done rest heq
        cases done with
        | nil => exact hHead
        | cons first more =>
            obtain ⟨rfl, htl⟩ := List.cons.inj heq
            exact hTail more rest htl
      · intro h
        exact ⟨h [] _ rfl, fun done rest heq => h (input :: done) rest (by rw [heq]; rfl)⟩

/-- What holds of every step out of `P` holds of each step of a run in `P`. -/
theorem Always.eachStep {P : State → Prop} {C : State → Input → Prop}
    (hStep : ∀ s i, P s → C s i) {s : State} {inputs : List Input}
    (h : Always step P s inputs) : EachStep step C s inputs := by
  induction inputs generalizing s with
  | nil => trivial
  | cons input rest ih => exact ⟨hStep s input h.1, ih h.2⟩

/-- The last state of a run that is always in `P` is in `P`. -/
theorem Always.last {P : State → Prop} {s : State} {inputs : List Input}
    (h : Always step P s inputs) : P (run step s inputs) :=
  always_iff_prefix.mp h inputs [] (List.append_nil _).symm

section Exact

variable (Inv : State → Prop) {P : State → Prop} (Guard Law : State → Input → Prop)
  {Cond : State → Input → Prop}

/-- Exact conditions lift from steps to runs. If from a good state a guarded
step is lawful and leads to a good state just when it meets `Cond`, then a
guarded run is good and lawful throughout just when every step meets `Cond`. -/
theorem always_and_eachStep_iff
    (hStep : ∀ s i, Inv s → P s → Guard s i → ((P (step s i) ∧ Law s i) ↔ Cond s i))
    (hInv : ∀ s i, Inv s → P s → Guard s i → Cond s i → Inv (step s i))
    (inputs : List Input) (s : State) (hs : Inv s) (hp : P s)
    (hGuard : EachStep step Guard s inputs) :
    (Always step P s inputs ∧ EachStep step Law s inputs) ↔
      EachStep step Cond s inputs := by
  induction inputs generalizing s with
  | nil => exact ⟨fun _ => trivial, fun _ => ⟨hp, trivial⟩⟩
  | cons input rest ih =>
      obtain ⟨hNow, hLater⟩ := hGuard
      have hExact := hStep s input hs hp hNow
      constructor
      · rintro ⟨⟨-, hAlways⟩, hLaw, hLaws⟩
        have hCond := hExact.mp ⟨hAlways.head, hLaw⟩
        exact ⟨hCond, (ih _ (hInv s input hs hp hNow hCond) hAlways.head hLater).mp
          ⟨hAlways, hLaws⟩⟩
      · rintro ⟨hCond, hConds⟩
        obtain ⟨hGood, hLaw⟩ := hExact.mpr hCond
        obtain ⟨hAlways, hLaws⟩ :=
          (ih _ (hInv s input hs hp hNow hCond) hGood hLater).mpr hConds
        exact ⟨⟨hp, hAlways⟩, hLaw, hLaws⟩

theorem eachStep_true (inputs : List Input) (s : State) :
    EachStep step (fun _ _ => True) s inputs := by
  induction inputs generalizing s with
  | nil => trivial
  | cons input rest ih => exact ⟨trivial, ih _⟩

/-- The case without a law for the steps themselves. -/
theorem always_iff_eachStep
    (hStep : ∀ s i, Inv s → P s → Guard s i → (P (step s i) ↔ Cond s i))
    (hInv : ∀ s i, Inv s → P s → Guard s i → Cond s i → Inv (step s i))
    (inputs : List Input) (s : State) (hs : Inv s) (hp : P s)
    (hGuard : EachStep step Guard s inputs) :
    Always step P s inputs ↔ EachStep step Cond s inputs := by
  have h := always_and_eachStep_iff Inv Guard (fun _ _ => True)
    (fun s i hi hp hg => by rw [and_true]; exact hStep s i hi hp hg) hInv inputs s hs hp hGuard
  rw [← h]
  exact ⟨fun ha => ⟨ha, eachStep_true inputs s⟩, And.left⟩

end Exact

/-- A measure that drops at every moment before a stop bounds the first one. -/
theorem exists_first_stop (Stop : Nat → Prop) (measure : Nat → Nat)
    (hDrop : ∀ n, ¬Stop n → measure (n + 1) < measure n) :
    ∃ n ≤ measure 0, Stop n ∧ ∀ m < n, ¬Stop m := by
  classical
  have hSome : ∃ n ≤ measure 0, Stop n := by
    by_contra hNone
    push Not at hNone
    have hSum : ∀ n ≤ measure 0 + 1, measure n + n ≤ measure 0 := by
      intro n
      induction n with
      | zero => exact fun _ => le_refl _
      | succ n ih =>
          intro hn
          have hBefore := ih (by omega)
          have hLess := hDrop n (hNone n (by omega))
          omega
    have hLast := hSum (measure 0 + 1) (le_refl _)
    omega
  have hExists : ∃ n, Stop n := hSome.imp fun _ h => h.2
  obtain ⟨k, hk, hStop⟩ := hSome
  exact ⟨Nat.find hExists, (Nat.find_min' hExists hStop).trans hk, Nat.find_spec hExists,
    fun m hm => Nat.find_min hExists hm⟩

/-- Progress under strong fairness: what is asked for again and again is answered well
again and again. If the measure does not grow before a stop, if what is awaited while it
stands still is asked for, and if a good answer to that makes it drop, a stop comes. -/
theorem exists_stop_of_fair {Kind : Type} {Stop : Nat → Prop} (first : Nat) (measure : Nat → Nat)
    (waits : Nat → Kind) {Asks Good : Kind → Nat → Prop}
    (hFair : ∀ kind, (∀ n, ∃ m, n ≤ m ∧ Asks kind m) → ∀ n, ∃ m, n ≤ m ∧ Good kind m)
    (hKeep : ∀ n, first ≤ n → ¬Stop n → measure (n + 1) < measure n ∨
      (measure (n + 1) = measure n ∧ waits (n + 1) = waits n))
    (hAsk : ∀ n, first ≤ n → (∀ m, n ≤ m → ¬Stop m ∧ measure m = measure n) →
      ∃ m, n ≤ m ∧ Asks (waits m) m)
    (hDrop : ∀ n, first ≤ n → ¬Stop n → Good (waits n) n → measure (n + 1) < measure n) :
    ∃ n, first ≤ n ∧ Stop n := by
  by_contra hNone
  have hNever (n : Nat) (hn : first ≤ n) : ¬Stop n := fun hStop => hNone ⟨n, hn, hStop⟩
  have hMono : Antitone fun i => measure (first + i) := by
    refine antitone_nat_of_succ_le fun i => ?_
    rcases hKeep (first + i) (Nat.le_add_right _ _) (hNever _ (Nat.le_add_right _ _))
      with hLess | ⟨hSame, -⟩
    · exact hLess.le
    · exact hSame.le
  obtain ⟨i, hi⟩ := WellFoundedLT.antitone_chain_condition hMono
  -- from here on the measure stands still, so the same answer is awaited for ever
  have hStill (m : Nat) (hm : first + i ≤ m) : measure m = measure (first + i) := by
    obtain ⟨j, rfl⟩ := Nat.exists_eq_add_of_le hm
    rw [Nat.add_assoc]
    exact (hi (i + j) (Nat.le_add_right i j)).symm
  have hWaits (m : Nat) (hm : first + i ≤ m) : waits m = waits (first + i) := by
    induction m, hm using Nat.le_induction with
    | base => rfl
    | succ m hm ih =>
        rcases hKeep m (by omega) (hNever m (by omega)) with hLess | ⟨-, hSame⟩
        · rw [hStill m hm, hStill (m + 1) (by omega)] at hLess
          exact absurd hLess (lt_irrefl _)
        · exact hSame.trans ih
  have hAgain (n : Nat) : ∃ m, n ≤ m ∧ Asks (waits (first + i)) m := by
    obtain ⟨m, hm, hAsks⟩ := hAsk (first + i + n) (by omega) fun m hm =>
      ⟨hNever m (by omega), (hStill m (by omega)).trans (hStill _ (by omega)).symm⟩
    rw [hWaits m (by omega)] at hAsks
    exact ⟨m, by omega, hAsks⟩
  obtain ⟨m, hm, hGood⟩ := hFair _ hAgain (first + i)
  rw [← hWaits m hm] at hGood
  have hLess := hDrop m (by omega) (hNever m (by omega)) hGood
  rw [hStill m hm, hStill (m + 1) (by omega)] at hLess
  exact lt_irrefl _ hLess

/-- Two runs on the same inputs stay related when every step preserves the
relation. No bound on the length of the runs is involved. -/
theorem after_related {R : State → State → Prop}
    (hStep : ∀ s t i, R s t → R (step s i) (step t i)) {s t : State} (h : R s t)
    (inputs : Nat → Input) (count : Nat) :
    R (after step s inputs count) (after step t inputs count) := by
  induction count with
  | zero => exact h
  | succ count ih => exact hStep _ _ _ ih

end Clocked
