import TwoBallGame.Balls.Index

/-! Who has painted what. A ball sets the entry of every element it touches,
but names only one of them to the other ball, which clears that one entry. -/
namespace TwoBallGame

open Clocked

namespace Ball

/-- The test of entry `k` of the paint arrays: blocks first, rects from 18 on. -/
def touches (b : Ball) (e : ElementPorts) (k : Fin 30) : Bool :=
  if h : k.val < 18 then b.blockCollision e ⟨k.val, h⟩
  else b.rectCollision e ⟨k.val - 18, by omega⟩

/-- The touched entry whose number the loops leave in `block_hit`. -/
def lastTouched (b : Ball) (e : ElementPorts) : Option (Fin 30) :=
  lastHit (b.touches e) (List.finRange 30)

/-- The entries touched by a ball that takes its collision branch. -/
def paints (reset : Bool) (e : ElementPorts) (mine other : Ball) (k : Fin 30) : Bool :=
  mine.hits reset e other && mine.touches e k

/-- The entry that a hit makes the other ball clear at the same edge. The other
ball is woken by a rising `Collision` only. -/
def reports (reset : Bool) (e : ElementPorts) (mine other : Ball) (k : Fin 30) : Bool :=
  mine.hits reset e other && !mine.collision && decide (mine.lastTouched e = some k)

section Loops

variable (b : Ball) (e : ElementPorts)

/-- The two loops of the source are one loop over the thirty entries. -/
theorem paintLoops_eq :
    b.paintLoops e = markLoop (b.touches e) id (fun k => BitVec.ofNat 6 k.val)
      (List.finRange 30) (b.paint, b.blockHit) := by
  have hSplit : List.finRange 30 =
      (List.finRange 18).map (fun i : Fin 18 => (⟨i, block_lt_elements i⟩ : Fin 30)) ++
        (List.finRange 12).map (fun j : Fin 12 => (⟨j + 18, rect_add_lt_elements j⟩ : Fin 30)) := by
    decide
  have hBlock : b.touches e ∘ (fun i : Fin 18 => (⟨i, block_lt_elements i⟩ : Fin 30)) =
      b.blockCollision e := by
    funext i
    simp [touches, i.isLt]
  have hRect : b.touches e ∘ (fun j : Fin 12 => (⟨j + 18, rect_add_lt_elements j⟩ : Fin 30)) =
      b.rectCollision e := by
    funext j
    simp [touches]
  rw [hSplit, markLoop_append, markLoop_map, markLoop_map, hBlock, hRect]
  rfl

theorem paintLoops_paint (k : Fin 30) :
    (b.paintLoops e).1 k = (b.paint k || b.touches e k) := by
  rw [paintLoops_eq, Bool.eq_iff_iff, markLoop_fst]
  simp

theorem paintLoops_blockHit {k : Fin 30} (h : b.lastTouched e = some k) :
    (b.paintLoops e).2 = BitVec.ofNat 6 k.val := by
  rw [paintLoops_eq, markLoop_snd, ← lastTouched, h]
  rfl

theorem touches_of_lastTouched {k : Fin 30} (h : b.lastTouched e = some k) :
    b.touches e k = true := (lastHit_some h).2

/-- The collision branch is entered only with some entry to set. -/
theorem exists_lastTouched (h : b.collides e = true) : ∃ k, b.lastTouched e = some k := by
  cases hLast : b.lastTouched e with
  | some k => exact ⟨k, rfl⟩
  | none =>
      have hNone := lastHit_eq_none_iff.mp hLast
      simp only [collides, Bool.or_eq_true, List.any_eq_true] at h
      rcases h with ⟨i, -, hi⟩ | ⟨j, -, hj⟩
      · have hFree := hNone ⟨i, by omega⟩ (List.mem_finRange _)
        simp [touches, i.isLt, hi] at hFree
      · have hFree := hNone ⟨j + 18, by omega⟩ (List.mem_finRange _)
        simp [touches, hj] at hFree

end Loops

theorem clearPaint_ofNat (x : Fin 30) (paint : Fin 30 → Bool) (k : Fin 30) :
    clearPaint (BitVec.ofNat 6 x.val) paint k = (paint k && !decide (x = k)) := by
  have hNat : (BitVec.ofNat 6 x.val).toNat = x.val := by
    rw [BitVec.toNat_ofNat]
    omega
  rw [clearPaint, hNat]
  by_cases hk : k.val = x.val
  · simp [hk, Fin.ext hk.symm]
  · have hNe : x ≠ k := fun h => hk (by rw [h])
    simp [hk, hNe]

/-- Clearing an entry that is already clear, or is no entry, changes nothing. -/
theorem clearPaint_of_clear {hit : BitVec 6} {paint : Fin 30 → Bool}
    (h : ∀ k : Fin 30, k.val = hit.toNat → paint k = false) : clearPaint hit paint = paint := by
  funext k
  by_cases hk : k.val = hit.toNat
  · simp [clearPaint, hk, h k hk]
  · simp [clearPaint, hk]

/-- While a ball is held high, the entry it last named is clear in the other. -/
def NamedClear (mine other : Ball) : Prop :=
  other.collision = true → ∀ k : Fin 30, k.val = other.blockHit.toNat → mine.paint k = false

section Frame

variable (color reset : Bool) (keycode : BitVec 8) (e : ElementPorts) {mine other : Ball}

theorem sampled_paint (hReset : reset = false) (h : mine.NamedClear other) (k : Fin 30) :
    (mine.sampled color reset keycode e other).paint k =
      (mine.paint k || mine.paints reset e other k) := by
  subst hReset
  cases hHit : mine.hits false e other with
  | true =>
      rw [sampled_of_hits _ _ _ _ _ _ hHit]
      simp [paintLoops_paint, paints, hHit]
  | false =>
      cases hHigh : other.collision with
      | true =>
          rw [sampled_of_reset _ _ _ _ _ _ (by simp [hHigh])]
          have hKept := clearPaint_of_clear (h hHigh)
          simp [framePorts, hKept, paints, hHit]
      | false =>
          have hFree : mine.collides e = false := by
            simpa [hits, hHigh] using hHit
          rw [sampled_of_free _ _ _ _ _ _ (by simp [hHigh]) hFree]
          simp [paints, hHit]

theorem sampled_blockHit {k : Fin 30} (h : mine.hits reset e other = true)
    (hLast : mine.lastTouched e = some k) :
    (mine.sampled color reset keycode e other).blockHit = BitVec.ofNat 6 k.val := by
  rw [sampled_of_hits _ _ _ _ _ _ h]
  exact paintLoops_blockHit _ _ hLast

/-- The paint after a frame edge with `Reset` low: what was set or is touched
now, less the entry that the other ball's hit names. -/
theorem frame_paint (hReset : reset = false) (h : mine.NamedClear other) (k : Fin 30) :
    (mine.frame color reset keycode e other).paint k =
      ((mine.paint k || mine.paints reset e other k) && !other.reports reset e mine k) := by
  cases hWoken : (other.hits reset e mine && !other.collision) with
  | true =>
      obtain ⟨hOther, hLow⟩ : other.hits reset e mine = true ∧ other.collision = false := by
        simpa using hWoken
      have hTouch : other.collides e = true := by
        simp only [hits, Bool.and_eq_true] at hOther
        exact hOther.2
      obtain ⟨x, hLast⟩ := exists_lastTouched _ _ hTouch
      have hName := sampled_blockHit (!color) reset keycode e hOther hLast
      rw [frame_of_woken _ _ _ _ _ _ hOther hLow, resetBranch_paint]
      simp only [framePorts, hReset, Bool.false_eq_true, if_false]
      rw [← hReset, hName, clearPaint_ofNat, sampled_paint color reset keycode e hReset h]
      simp [reports, hOther, hLow, hLast]
  | false =>
      rw [frame_of_not_woken _ _ _ _ _ _ hWoken, sampled_paint color reset keycode e hReset h]
      simp [reports, hWoken]

/-- With `Reset` high every entry ends clear. -/
theorem frame_paint_reset (k : Fin 30) :
    (mine.frame color true keycode e other).paint k = false := by
  have hNone : other.hits true e mine = false := rfl
  rw [frame_of_not_woken _ _ _ _ _ _ (by simp [hNone]),
    sampled_of_reset _ _ _ _ _ _ (Bool.true_or _)]
  simp [framePorts, clearPaint]

/-- A ball held high after the edge hit at it, and what it named then is clear
in the other ball, provided that no entry shared at this edge went unnamed. -/
theorem NamedClear.frame (h : mine.NamedClear other)
    (hShared : ∀ k, other.paints reset e mine k = true → mine.paint k = true →
      other.reports reset e mine k = true ∨ mine.reports reset e other k = true) :
    (mine.frame color reset keycode e other).NamedClear
      (other.frame (!color) reset keycode e mine) := by
  intro hHigh k hk
  rw [frame_collision, Bool.and_eq_true, Bool.not_eq_true'] at hHigh
  obtain ⟨hHit, hMiss⟩ := hHigh
  have hReset : reset = false := by
    simp only [hits, Bool.and_eq_true, Bool.not_eq_true'] at hHit
    exact hHit.1.1
  have hTouch : other.collides e = true := by
    simp only [hits, Bool.and_eq_true] at hHit
    exact hHit.2
  obtain ⟨x, hLast⟩ := exists_lastTouched _ _ hTouch
  rw [frame_of_not_woken _ _ _ _ _ _ (by simp [hMiss]),
    sampled_blockHit _ _ _ _ hHit hLast, BitVec.toNat_ofNat] at hk
  obtain rfl : k = x := Fin.ext (by omega)
  have hPaints : other.paints reset e mine k = true := by
    simp [paints, hHit, touches_of_lastTouched _ _ hLast]
  rw [frame_paint color reset keycode e hReset h]
  cases hPaint : mine.paint k with
  | false => simp [paints, hMiss]
  | true =>
      rcases hShared k hPaints hPaint with hNames | hNames
      · simp [hNames]
      · simp [reports, hMiss] at hNames

end Frame

end Ball

namespace Balls

/-- No entry is set in both arrays. -/
def OneColour (s : Balls) : Prop := ∀ k, ¬(s.blue.paint k = true ∧ s.red.paint k = true)

/-- What a hit of `mine` alone does to the two arrays: touched entries become
`mine`'s own, and no other entry changes. -/
def Repaints (e : ElementPorts) (mine other mine' other' : Ball) : Prop :=
  ∀ k, if mine.touches e k then mine'.paint k = true ∧ other'.paint k = false
    else mine'.paint k = mine.paint k ∧ other'.paint k = other.paint k

/-- The law of a frame in which exactly one ball collides. -/
def SingleHitRepaints (s : Balls) : BallEvent → Prop
  | .posedgeReset _ _ => True
  | .posedgeFrameClk reset keycode e =>
      (s.blue.hits reset e s.red = true → s.red.hits reset e s.blue = false →
        Repaints e s.blue s.red (s.posedgeFrameClk reset keycode e).blue
          (s.posedgeFrameClk reset keycode e).red) ∧
      (s.red.hits reset e s.blue = true → s.blue.hits reset e s.red = false →
        Repaints e s.red s.blue (s.posedgeFrameClk reset keycode e).red
          (s.posedgeFrameClk reset keycode e).blue)

/-- The condition on one frame: an entry that a ball touches now, while the
other ball has it or touches it too, is one that is named at this edge. -/
def SharedAreNamed (s : Balls) : BallEvent → Prop
  | .posedgeReset _ _ => True
  | .posedgeFrameClk reset _ e => ∀ k,
      (s.blue.paints reset e s.red k = true ∧
          (s.red.paint k = true ∨ s.red.paints reset e s.blue k = true) ∨
        s.red.paints reset e s.blue k = true ∧ s.blue.paint k = true) →
      s.blue.reports reset e s.red k = true ∨ s.red.reports reset e s.blue k = true

/-- The entry last named by a ball held high is clear in the other ball. -/
structure NamedClear (s : Balls) : Prop where
  blue : s.blue.NamedClear s.red
  red : s.red.NamedClear s.blue

section Step

variable {s : Balls} {reset : Bool} {keycode : BitVec 8} {e : ElementPorts}

/-- The four values at one entry after a frame, in terms of those before it. -/
theorem paint_posedgeFrameClk (keycode : BitVec 8) (e : ElementPorts) (h : s.NamedClear)
    (k : Fin 30) :
    (s.posedgeFrameClk false keycode e).blue.paint k =
        ((s.blue.paint k || s.blue.paints false e s.red k) && !s.red.reports false e s.blue k) ∧
      (s.posedgeFrameClk false keycode e).red.paint k =
        ((s.red.paint k || s.red.paints false e s.blue k) && !s.blue.reports false e s.red k) :=
  ⟨Ball.frame_paint false false keycode e rfl h.blue k,
    Ball.frame_paint true false keycode e rfl h.red k⟩

/-- Only a touched entry is ever named. -/
theorem paints_of_reports {mine other : Ball} {k : Fin 30}
    (h : mine.reports reset e other k = true) : mine.paints reset e other k = true := by
  simp only [Ball.reports, Bool.and_eq_true, decide_eq_true_eq] at h
  obtain ⟨⟨hHit, -⟩, hLast⟩ := h
  rw [Ball.paints, hHit, Ball.touches_of_lastTouched _ _ hLast]
  rfl

/-- One entry of the two arrays: it ends in one array at most just when a
shared touch of it is named. -/
theorem entry_oneColour_iff {blue red blueTouch redTouch blueNames redNames : Bool}
    (hOne : ¬(blue = true ∧ red = true)) :
    ¬(((blue || blueTouch) && !redNames) = true ∧ ((red || redTouch) && !blueNames) = true) ↔
      ((blueTouch = true ∧ (red = true ∨ redTouch = true) ∨ redTouch = true ∧ blue = true) →
        blueNames = true ∨ redNames = true) := by
  revert blue red
  cases blueNames <;> cases redNames <;> cases blueTouch <;> cases redTouch <;> decide

/-- One entry beside a ball that hits alone. -/
theorem entry_repainted {mine other touch names : Bool} (hNames : names = true → touch = true)
    (hShared : touch = true ∧ other = true → names = true) :
    if touch then (mine || touch) = true ∧ (other && !names) = false
    else (mine || touch) = mine ∧ (other && !names) = other := by
  revert mine other touch names
  decide

theorem oneColour_posedgeFrameClk_iff (reset : Bool) (keycode : BitVec 8) (e : ElementPorts)
    (h : s.NamedClear) (hp : s.OneColour) :
    (s.posedgeFrameClk reset keycode e).OneColour ↔
      s.SharedAreNamed (.posedgeFrameClk reset keycode e) := by
  cases reset with
  | true =>
      constructor
      · rintro - k (⟨hPaints, -⟩ | ⟨hPaints, -⟩) <;> cases hPaints
      · rintro - k ⟨hBlue, -⟩
        rw [posedgeFrameClk_blue, Ball.frame_paint_reset] at hBlue
        cases hBlue
  | false =>
      refine forall_congr' fun k => ?_
      obtain ⟨hBlue, hRed⟩ := paint_posedgeFrameClk keycode e h k
      rw [hBlue, hRed]
      exact entry_oneColour_iff (hp k)

/-- Under the condition a single hit repaints exactly what it touches. -/
theorem singleHitRepaints_of_named (h : s.NamedClear)
    (hNamed : s.SharedAreNamed (.posedgeFrameClk reset keycode e)) :
    s.SingleHitRepaints (.posedgeFrameClk reset keycode e) := by
  have hLow {mine other : Ball} (hHit : mine.hits reset e other = true) : reset = false := by
    cases reset with
    | true => cases hHit
    | false => rfl
  constructor
  · intro hHit hMiss k
    obtain rfl := hLow hHit
    obtain ⟨hBlue, hRed⟩ := paint_posedgeFrameClk keycode e h k
    have hPaints : s.blue.paints false e s.red k = s.blue.touches e k := by
      simp [Ball.paints, hHit]
    have hIdle : s.red.paints false e s.blue k = false := by simp [Ball.paints, hMiss]
    have hSilent : s.red.reports false e s.blue k = false := by simp [Ball.reports, hMiss]
    have hShared := hNamed k
    rw [hBlue, hRed]
    simp only [hPaints, hIdle, hSilent, Bool.not_false, Bool.and_true, Bool.or_false,
      Bool.false_eq_true, or_false, false_and] at hShared ⊢
    exact entry_repainted (fun hNames => hPaints ▸ paints_of_reports hNames) hShared
  · intro hHit hMiss k
    obtain rfl := hLow hHit
    obtain ⟨hBlue, hRed⟩ := paint_posedgeFrameClk keycode e h k
    have hPaints : s.red.paints false e s.blue k = s.red.touches e k := by
      simp [Ball.paints, hHit]
    have hIdle : s.blue.paints false e s.red k = false := by simp [Ball.paints, hMiss]
    have hSilent : s.blue.reports false e s.red k = false := by simp [Ball.reports, hMiss]
    have hShared := hNamed k
    rw [hBlue, hRed]
    simp only [hPaints, hIdle, hSilent, Bool.not_false, Bool.and_true, Bool.or_false,
      Bool.false_eq_true, false_or, false_and] at hShared ⊢
    exact entry_repainted (fun hNames => hPaints ▸ paints_of_reports hNames) hShared

/-- The ball held high after a frame has named an entry that is clear in the other. -/
theorem namedClear_posedgeFrameClk (h : s.NamedClear)
    (hNamed : s.SharedAreNamed (.posedgeFrameClk reset keycode e)) :
    (s.posedgeFrameClk reset keycode e).NamedClear :=
  ⟨h.blue.frame false reset keycode e fun k hPaints hPaint =>
      (hNamed k (Or.inr ⟨hPaints, hPaint⟩)).symm,
    h.red.frame true reset keycode e fun k hPaints hPaint =>
      hNamed k (Or.inl ⟨hPaints, Or.inl hPaint⟩)⟩

theorem paint_posedgeReset (k : Fin 30) :
    (s.posedgeReset keycode e).blue.paint k = false ∧
      (s.posedgeReset keycode e).red.paint k = false := by
  rw [posedgeReset_eq]
  simp [framePorts, Ball.clearPaint]

theorem namedClear_posedgeReset : (s.posedgeReset keycode e).NamedClear :=
  ⟨fun _ k _ => (paint_posedgeReset k).1, fun _ k _ => (paint_posedgeReset k).2⟩

theorem oneColour_posedgeReset : (s.posedgeReset keycode e).OneColour := by
  rintro k ⟨hBlue, -⟩
  rw [(paint_posedgeReset k).1] at hBlue
  cases hBlue

end Step

end Balls

/-- After `Reset`, no entry is ever set in both arrays and every single hit
repaints exactly what it touches, as long as, at every edge, the entries that
are shared at it are the ones named at it; and only then. -/
theorem oneColour_always_iff (s : Balls) (keycode : BitVec 8) (e : ElementPorts)
    (events : List BallEvent) :
    (Always Balls.step Balls.OneColour (s.posedgeReset keycode e) events ∧
        EachStep Balls.step Balls.SingleHitRepaints (s.posedgeReset keycode e) events) ↔
      EachStep Balls.step Balls.SharedAreNamed (s.posedgeReset keycode e) events := by
  apply always_and_eachStep_iff Balls.NamedClear (fun _ _ => True)
  · intro s event hs hp _
    cases event with
    | posedgeReset keycode e =>
        exact ⟨fun _ => trivial, fun _ => ⟨Balls.oneColour_posedgeReset, trivial⟩⟩
    | posedgeFrameClk reset keycode e =>
        have hIff := Balls.oneColour_posedgeFrameClk_iff reset keycode e hs hp
        exact ⟨fun h => hIff.mp h.1,
          fun h => ⟨hIff.mpr h, Balls.singleHitRepaints_of_named hs h⟩⟩
  · intro s event hs _ _ hNamed
    cases event with
    | posedgeReset keycode e => exact Balls.namedClear_posedgeReset
    | posedgeFrameClk reset keycode e => exact Balls.namedClear_posedgeFrameClk hs hNamed
  · exact Balls.namedClear_posedgeReset
  · exact Balls.oneColour_posedgeReset
  · exact eachStep_true _ _

/-- Blue hits `rect8` at its start point; fourteen frames of the right key bring
red over `rect8` and `rect12`. Red paints both and names only `rect12`. -/
def sharedHitRun : List BallEvent :=
  [.posedgeFrameClk false 0 (wiredPorts fun n => if n = 22 then 380 else 0),
    .posedgeFrameClk false 0 (wiredPorts fun _ => 0)] ++
  List.replicate 14 (.posedgeFrameClk false 7 (wiredPorts fun _ => 0)) ++
  [.posedgeFrameClk false 0 (wiredPorts fun n => if n = 22 ∨ n = 28 then 440 else 0)]

/-- At the end of that run `rect8` has both colours. -/
theorem twoColours_after_sharedHit :
    ¬Always Balls.step Balls.OneColour (Balls.zero.posedgeReset 0 (wiredPorts fun _ => 0))
      sharedHitRun := by
  intro h
  refine h.last 25 ?_
  decide +kernel

end TwoBallGame
