import TwoBallGame.Clocked.Run

/-! Programs that work a device through ports. A read may be answered by any word,
so a program stands for all its runs against all devices. A watcher follows the
accesses from outside; what every piece of a loop ensures for the watcher holds at
every access of every run of the loop, also of one that never ends. -/
namespace Ports

open Clocked

/-- One access, as it is seen at the ports. -/
inductive Event (Port Word : Type) where
  | iord (port : Port) (answer : Word)
  | iowr (port : Port) (data : Word)
deriving DecidableEq

/-- A read goes on with its answer, a write just goes on. -/
inductive Program (Port Word Value : Type) where
  | ret (value : Value)
  | iord (port : Port) (next : Word → Program Port Word Value)
  | iowr (port : Port) (data : Word) (next : Program Port Word Value)

namespace Program

variable {Port Word Value Result : Type}

def bind : Program Port Word Value → (Value → Program Port Word Result) →
    Program Port Word Result
  | ret value, f => f value
  | iord port next, f => iord port fun answer => (next answer).bind f
  | iowr port data next, f => iowr port data (next.bind f)

instance : Monad (Program Port Word) where
  pure := ret
  bind := bind

/-- A run of a program, or of its beginning: the accesses made, and the value if
it has returned. -/
inductive Runs : Program Port Word Value → List (Event Port Word) → Option Value → Prop where
  | stop (p : Program Port Word Value) : Runs p [] none
  | ret (value : Value) : Runs (.ret value) [] (some value)
  | iord {port : Port} {next : Word → Program Port Word Value} {answer : Word}
      {trace : List (Event Port Word)} {value : Option Value}
      (rest : Runs (next answer) trace value) :
      Runs (.iord port next) (.iord port answer :: trace) value
  | iowr {port : Port} {data : Word} {next : Program Port Word Value}
      {trace : List (Event Port Word)} {value : Option Value} (rest : Runs next trace value) :
      Runs (.iowr port data next) (.iowr port data :: trace) value

/-- The run against a device, which answers from its state and moves on with every
access: what is seen of it, the value, and the device afterwards. -/
def against {Device : Type} (answer : Device → Port → Word)
    (move : Device → Event Port Word → Device) :
    Program Port Word Value → Device → List (Event Port Word) × Value × Device
  | ret value, d => ([], value, d)
  | iord port next, d =>
      let event := .iord port (answer d port)
      let rest := (next (answer d port)).against answer move (move d event)
      (event :: rest.1, rest.2)
  | iowr port data next, d =>
      let event := .iowr port data
      let rest := next.against answer move (move d event)
      (event :: rest.1, rest.2)

theorem runs_against {Device : Type} (answer : Device → Port → Word)
    (move : Device → Event Port Word → Device) (p : Program Port Word Value) (d : Device) :
    Runs p (p.against answer move d).1 (some (p.against answer move d).2.1) := by
  induction p generalizing d with
  | ret value => exact .ret value
  | iord port next ih => exact .iord (ih _ _)
  | iowr port data next ih => exact .iowr (ih _)

/-- The device has moved on with every access. -/
theorem against_device {Device : Type} (answer : Device → Port → Word)
    (move : Device → Event Port Word → Device) (p : Program Port Word Value) (d : Device) :
    (p.against answer move d).2.2 = run move d (p.against answer move d).1 := by
  induction p generalizing d with
  | ret value => rfl
  | iord port next ih => exact ih _ _
  | iowr port data next ih => exact ih _

/-- Writes, one after the other. -/
def writes : List (Port × Word) → Program Port Word Unit
  | [] => ret ()
  | (port, data) :: rest => iowr port data (writes rest)

end Program

open Program

section Watcher

variable {Port Word Value Result Watch : Type} (watch : Watch → Event Port Word → Watch)
  (allows : Watch → Event Port Word → Prop)

/-- Whatever the answers, each access is allowed when it is made, and `Post` holds
on return. -/
def Ensures : Program Port Word Value → (Value → Watch → Prop) → Watch → Prop
  | .ret value, Post, s => Post value s
  | .iord port next, Post, s => ∀ answer, allows s (.iord port answer) ∧
      Ensures (next answer) Post (watch s (.iord port answer))
  | .iowr port data next, Post, s => allows s (.iowr port data) ∧
      Ensures next Post (watch s (.iowr port data))

variable {Post : Value → Watch → Prop} {s : Watch}

@[simp]
theorem ensures_pure (value : Value) :
    Ensures watch allows (pure value : Program Port Word Value) Post s ↔ Post value s := Iff.rfl

/-- What comes second begins where the first part returns. -/
@[simp]
theorem ensures_bind (p : Program Port Word Value) (f : Value → Program Port Word Result)
    {Post : Result → Watch → Prop} :
    Ensures watch allows (p >>= f) Post s ↔
      Ensures watch allows p (fun value s' => Ensures watch allows (f value) Post s') s := by
  induction p generalizing s with
  | ret value => exact Iff.rfl
  | iord port next ih => exact forall_congr' fun answer => and_congr_right fun _ => ih answer
  | iowr port data next ih => exact and_congr_right fun _ => ih

theorem ensures_ite {c : Prop} [Decidable c] (p q : Program Port Word Value) :
    Ensures watch allows (if c then p else q) Post s ↔
      (c → Ensures watch allows p Post s) ∧ (¬c → Ensures watch allows q Post s) := by
  by_cases h : c
  · simp [h]
  · simp [h]

/-- Writes are allowed if each is allowed after those before it. -/
theorem ensures_writes (accesses : List (Port × Word)) {Post : Unit → Watch → Prop} :
    Ensures watch allows (writes accesses) Post s ↔
      EachStep watch allows s (accesses.map fun a => .iowr a.1 a.2) ∧
        Post () (run watch s (accesses.map fun a => .iowr a.1 a.2)) := by
  induction accesses generalizing s with
  | nil => exact (iff_of_eq (true_and _)).symm
  | cons access rest ih => exact (and_congr_right fun _ => ih).trans and_assoc.symm

variable {watch allows}

/-- What is ensured holds of every run. -/
theorem Ensures.of_runs {p : Program Port Word Value} (h : Ensures watch allows p Post s)
    {trace : List (Event Port Word)} {result : Option Value} (hRuns : Runs p trace result) :
    EachStep watch allows s trace ∧
      ∀ value, result = some value → Post value (run watch s trace) := by
  induction hRuns generalizing s with
  | stop p => exact ⟨trivial, fun value hValue => nomatch hValue⟩
  | ret value =>
      refine ⟨trivial, fun value' hValue => ?_⟩
      cases hValue
      exact h
  | iord rest ih =>
      obtain ⟨hNow, hLater⟩ := h _
      obtain ⟨hEach, hPost⟩ := ih hLater
      exact ⟨⟨hNow, hEach⟩, hPost⟩
  | iowr rest ih =>
      obtain ⟨hNow, hLater⟩ := h
      obtain ⟨hEach, hPost⟩ := ih hLater
      exact ⟨⟨hNow, hEach⟩, hPost⟩

end Watcher

section Loop

variable {Port Word Label Watch : Type} (piece : Label → Program Port Word Label)

/-- Each piece returns the label of the piece to go on with. A run is at a label,
or within a piece. -/
inductive Goes : Label → List (Event Port Word) → Option Label → Prop where
  | here (label : Label) : Goes label [] (some label)
  | within {label : Label} {trace : List (Event Port Word)}
      (part : Runs (piece label) trace none) : Goes label trace none
  | next {label label' : Label} {first rest : List (Event Port Word)} {result : Option Label}
      (whole : Runs (piece label) first (some label')) (later : Goes label' rest result) :
      Goes label (first ++ rest) result

/-- Some pieces of the loop against a device. -/
def goesAgainst {Device : Type} (answer : Device → Port → Word)
    (move : Device → Event Port Word → Device) :
    Nat → Label → Device → List (Event Port Word) × Label × Device
  | 0, label, d => ([], label, d)
  | count + 1, label, d =>
      let first := (piece label).against answer move d
      let rest := goesAgainst answer move count first.2.1 first.2.2
      (first.1 ++ rest.1, rest.2)

theorem goes_goesAgainst {Device : Type} (answer : Device → Port → Word)
    (move : Device → Event Port Word → Device) (count : Nat) (label : Label) (d : Device) :
    Goes piece label (goesAgainst piece answer move count label d).1
      (some (goesAgainst piece answer move count label d).2.1) := by
  induction count generalizing label d with
  | zero => exact .here label
  | succ count ih => exact .next (runs_against answer move (piece label) d) (ih _ _)

section Endless

variable {Device : Type} (answer : Device → Port → Word)
  (move : Device → Event Port Word → Device) (label : Label) (d : Device)

/-- The loop against a device without end: the label and the device after some pieces. -/
def loopAgainst : Nat → Label × Device
  | 0 => (label, d)
  | n + 1 => ((piece (loopAgainst n).1).against answer move (loopAgainst n).2).2

/-- The accesses of one of these pieces. -/
def loopTrace (n : Nat) : List (Event Port Word) :=
  ((piece (loopAgainst piece answer move label d n).1).against answer move
    (loopAgainst piece answer move label d n).2).1

theorem runs_loopTrace (n : Nat) :
    Runs (piece (loopAgainst piece answer move label d n).1)
      (loopTrace piece answer move label d n)
      (some (loopAgainst piece answer move label d (n + 1)).1) :=
  runs_against answer move _ _

theorem after_loopTrace (n : Nat) :
    after (run move) d (loopTrace piece answer move label d) n =
      (loopAgainst piece answer move label d n).2 := by
  induction n with
  | zero => rfl
  | succ n ih =>
      rw [after_succ, ih]
      exact (against_device answer move _ _).symm

end Endless

variable {piece} {watch : Watch → Event Port Word → Watch}
  {allows : Watch → Event Port Word → Prop}

/-- The loop rule: what every piece keeps holds at every label reached, and every
access on the way is allowed. -/
theorem Goes.ensures {Inv : Label → Watch → Prop}
    (hPiece : ∀ label s, Inv label s → Ensures watch allows (piece label) Inv s)
    {label : Label} {s : Watch} (hInv : Inv label s) {trace : List (Event Port Word)}
    {result : Option Label} (h : Goes piece label trace result) :
    EachStep watch allows s trace ∧
      ∀ label', result = some label' → Inv label' (run watch s trace) := by
  induction h generalizing s with
  | here label =>
      refine ⟨trivial, fun label' hLabel => ?_⟩
      cases hLabel
      exact hInv
  | within part =>
      refine ⟨((hPiece _ s hInv).of_runs part).1, fun label' hLabel => nomatch hLabel⟩
  | next whole later ih =>
      obtain ⟨hFirst, hThere⟩ := (hPiece _ s hInv).of_runs whole
      obtain ⟨hRest, hEnd⟩ := ih (hThere _ rfl)
      rw [eachStep_append, run_append]
      exact ⟨⟨hFirst, hRest⟩, hEnd⟩

end Loop

end Ports
