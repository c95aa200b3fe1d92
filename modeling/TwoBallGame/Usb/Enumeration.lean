import Mathlib.Data.List.Destutter
import TwoBallGame.Usb.Interface

/-! The order of the requests of `main`. Whatever the controller answers, a request
follows those before it in the enumeration, and polls follow a whole enumeration. -/
namespace TwoBallGame.Usb

open Clocked Ports

/-- The nine requests, the last one first. -/
def enumeration : List Request :=
  [.getReportDesc, .getHidDesc, .classRequest, .setConfig, .getConfigDesc2, .getConfigDesc1,
    .getDeviceDesc2, .getDeviceDesc1, .setAddress]

/-- A request and the ones that come before it. -/
def Request.downward (r : Request) : List Request := enumeration.dropWhile (· ≠ r)

/-- The newest issues are the requests up to `r` in order, each of them any number of
times. -/
inductive Enumerated : Request → List Issue → Prop where
  | first (rest : List Issue) : Enumerated .setAddress (.request .setAddress :: rest)
  | again {r : Request} {bus : List Issue} (h : Enumerated r bus) :
      Enumerated r (.request r :: bus)
  | next {r r' : Request} {bus : List Issue} (hNext : r.next = some r') (h : Enumerated r bus) :
      Enumerated r' (.request r' :: bus)

/-- The newest issues are polls, down to a whole enumeration. -/
inductive Polling : List Issue → Prop where
  | first {bus : List Issue} (td : List (BitVec 16)) (h : Enumerated .getReportDesc bus) :
      Polling (.poll td :: bus)
  | poll {bus : List Issue} (td : List (BitVec 16)) (h : Polling bus) : Polling (.poll td :: bus)
  | repoll {bus : List Issue} (td : List (BitVec 16)) (h : Polling bus) :
      Polling (.repoll td :: bus)

theorem Request.downward_next {r r' : Request} (h : r.next = some r') :
    r'.downward = r' :: r.downward ∧ r' ≠ r := by
  cases r <;> cases h <;> decide

/-- Without repetitions the newest issues are the requests down to `setAddress`. -/
theorem Enumerated.destutter {r : Request} {bus : List Issue} (h : Enumerated r bus) :
    ∃ tail rest, bus = (.request r :: tail) ++ rest ∧
      (Issue.request r :: tail).destutter (· ≠ ·) = r.downward.map .request := by
  induction h with
  | first rest => exact ⟨[], rest, rfl, rfl⟩
  | @again r bus h ih =>
      obtain ⟨tail, rest, rfl, hTail⟩ := ih
      refine ⟨.request r :: tail, rest, rfl, ?_⟩
      rw [List.destutter_cons', List.destutter'_cons_neg _ (not_not.mpr rfl)]
      exact hTail
  | @next r r' bus hNext h ih =>
      obtain ⟨tail, rest, rfl, hTail⟩ := ih
      obtain ⟨hDown, hOther⟩ := Request.downward_next hNext
      refine ⟨.request r :: tail, rest, rfl, ?_⟩
      have hNe : Issue.request r' ≠ .request r := fun hSame => hOther (Issue.request.inj hSame)
      rw [List.destutter_cons', List.destutter'_cons_pos _ hNe, hDown, List.map_cons]
      exact congrArg _ hTail

/-- Below the polls is a whole enumeration. -/
theorem Polling.destutter {bus : List Issue} (h : Polling bus) :
    ∃ polls requests rest, bus = polls ++ requests ++ rest ∧
      (∀ issue ∈ polls, ∃ td, issue = .poll td ∨ issue = .repoll td) ∧
      requests.destutter (· ≠ ·) = enumeration.map .request := by
  induction h with
  | first td h =>
      obtain ⟨tail, rest, rfl, hTail⟩ := h.destutter
      refine ⟨[.poll td], _, rest, rfl, ?_, hTail⟩
      intro issue hMem
      exact ⟨td, Or.inl (List.mem_singleton.mp hMem)⟩
  | poll td h ih =>
      obtain ⟨polls, requests, rest, rfl, hPolls, hRequests⟩ := ih
      refine ⟨.poll td :: polls, requests, rest, rfl, ?_, hRequests⟩
      intro issue hMem
      rcases List.mem_cons.mp hMem with hNew | hOld
      · exact ⟨td, Or.inl hNew⟩
      · exact hPolls issue hOld
  | repoll td h ih =>
      obtain ⟨polls, requests, rest, rfl, hPolls, hRequests⟩ := ih
      refine ⟨.repoll td :: polls, requests, rest, rfl, ?_, hRequests⟩
      intro issue hMem
      rcases List.mem_cons.mp hMem with hNew | hOld
      · exact ⟨td, Or.inr hNew⟩
      · exact hPolls issue hOld

/-- Every issue stands in its place: a request above those before it, a poll above a
whole enumeration. -/
def Placed : List Issue → Prop
  | [] => True
  | .request r :: rest => Enumerated r (.request r :: rest) ∧ Placed rest
  | .poll td :: rest => Polling (.poll td :: rest) ∧ Placed rest
  | .repoll td :: rest => Polling (.repoll td :: rest) ∧ Placed rest

namespace UsbMain

/-- What the point of `main` tells about its newest issues. -/
def AtPoint (bus : List Issue) : Point → Prop
  | .requested r | .waiting r | .checking r => Enumerated r bus
  | .polled | .pollWaiting | .pollDone _ => Polling bus
  | _ => True

structure InOrder (s : UsbMain) : Prop where
  atPoint : AtPoint s.bus s.point
  placed : Placed s.bus

section InOrder

variable {s : UsbMain}

theorem InOrder.goto {p : Point} (h : s.InOrder) (hPoint : AtPoint s.bus p) :
    (s.goto p).InOrder := ⟨hPoint, h.placed⟩

theorem InOrder.issue {r : Request} (h : s.InOrder)
    (hIssued : Enumerated r (.request r :: s.bus)) : (s.issue r).InOrder :=
  ⟨hIssued, hIssued, h.placed⟩

theorem InOrder.pollTop (h : s.InOrder)
    (hIssued : Polling (.poll (pollWords (s.toggle + 1)) :: s.bus)) : s.pollTop.InOrder :=
  ⟨hIssued, hIssued, h.placed⟩

theorem next_eq_none {r : Request} (h : r.next = none) : r = .getReportDesc := by
  cases r <;> first | rfl | cases h

theorem InOrder.step (h : s.InOrder) (a : Answers) : (s.step a).InOrder := by
  have hAt := h.atPoint
  unfold UsbMain.step
  cases hPoint : s.point with
  | sie1Init =>
      simp only
      split_ifs
      · exact h
      · exact h.goto trivial
      · exact h.goto trivial
  | husbReset =>
      simp only
      split_ifs
      · exact h.goto trivial
      · exact h.goto trivial
  | detect reads =>
      simp only
      split_ifs
      · exact h.issue (.first _)
      · exact h.goto trivial
      · exact h.goto trivial
  | insert =>
      simp only
      split_ifs
      · exact h.goto trivial
      · exact h
  | requested r =>
      rw [hPoint] at hAt
      simp only
      split_ifs
      · exact h.goto hAt
      · exact h.issue (.again hAt)
  | waiting r =>
      rw [hPoint] at hAt
      simp only
      split_ifs
      · exact h.goto hAt
      · exact h
  | checking r =>
      rw [hPoint] at hAt
      simp only
      split_ifs
      · cases hNext : r.next with
        | some r' => exact h.issue (.next hNext hAt)
        | none =>
            obtain rfl := next_eq_none hNext
            exact h.pollTop (.first _ hAt)
      · exact h.goto trivial
      · exact h
  | polled =>
      rw [hPoint] at hAt
      simp only
      split_ifs
      · exact h.goto hAt
      · refine ⟨?_, .repoll _ hAt, h.placed⟩
        change AtPoint (.repoll (pollWords s.toggle) :: s.bus) s.point
        rw [hPoint]
        exact .repoll _ hAt
  | pollWaiting =>
      rw [hPoint] at hAt
      simp only
      split_ifs
      · exact h.goto hAt
      · exact h
  | pollDone reads =>
      rw [hPoint] at hAt
      simp only
      split_ifs
      · exact h.pollTop (.poll _ hAt)
      · exact h.goto trivial
      · exact h.goto hAt
  | removed =>
      simp only
      split_ifs
      · exact h.goto trivial
      · exact h

end InOrder

end UsbMain

end TwoBallGame.Usb
