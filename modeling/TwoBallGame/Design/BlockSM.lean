import TwoBallGame.Design.Block

/-! `block_SM`: the state machine that launches the elements of the three
levels on a clock of seconds and restarts a level on a collision. -/
namespace TwoBallGame

/-- The enumeration of `block_SM`, in its order. -/
inductive State where
  | reset | level1 | level2 | final | win | mid1to2 | mid2tofinal
  | block1 | block2 | block3 | block4 | block5 | block6 | block7 | block8 | block9 | block10
  | block11 | block12 | block13 | block14 | block15 | block16 | block17 | block18 | block19 | block20
  | block21 | block22 | block23 | block24 | block25 | block26 | block27 | block28 | block29 | block30
deriving DecidableEq

/-- The combinational `next_state`. `collision` is the source's
`Collision[0] || Collision[1]`. -/
def nextState (state : State) (collision : Bool) (keycode : BitVec 8)
    (seconds : BitVec 10) (endLevel : Fin 30 → Bool) : State :=
  match state with
  | .reset => if keycode = 40 then .level1 else .reset
  | .level1 => if seconds = 1 then .block1 else .level1
  | .block1 =>
      if collision then .block1 else if seconds = 3 then .block2 else .block1
  | .block2 =>
      if collision then .block1 else if seconds = 5 then .block3 else .block2
  | .block3 =>
      if collision then .block1 else if seconds = 7 then .block4 else .block3
  | .block4 =>
      if collision then .block1 else if seconds = 9 then .block5 else .block4
  | .block5 =>
      if collision then .block1 else if seconds = 11 then .block6 else .block5
  | .block6 =>
      if collision then .block1 else if seconds = 13 then .block7 else .block6
  | .block7 =>
      if collision then .block1 else if seconds = 15 then .block8 else .block7
  | .block8 =>
      if collision then .block1 else if seconds = 17 then .block9 else .block8
  | .block9 =>
      if collision then .block1 else if seconds = 19 then .block10 else .block9
  | .block10 =>
      if collision then .block1 else if endLevel 9 then .mid1to2 else .block10
  | .mid1to2 => if seconds = 3 then .level2 else .mid1to2
  | .level2 => if seconds = 5 then .block11 else .level2
  | .block11 =>
      if collision then .level2 else if seconds = 6 then .block12 else .block11
  | .block12 =>
      if collision then .level2 else if seconds = 7 then .block13 else .block12
  | .block13 =>
      if collision then .level2 else if seconds = 8 then .block14 else .block13
  | .block14 =>
      if collision then .level2 else if seconds = 9 then .block15 else .block14
  | .block15 =>
      if collision then .level2 else if seconds = 10 then .block16 else .block15
  | .block16 =>
      if collision then .level2 else if seconds = 11 then .block17 else .block16
  | .block17 =>
      if collision then .level2 else if seconds = 12 then .block18 else .block17
  | .block18 =>
      if collision then .level2 else if seconds = 13 then .block19 else .block18
  | .block19 =>
      if collision then .level2 else if seconds = 14 then .block20 else .block19
  | .block20 =>
      if collision then .level2 else if endLevel 19 then .mid2tofinal else .block20
  | .mid2tofinal => if seconds = 3 then .final else .mid2tofinal
  | .final => if seconds = 5 then .block21 else .final
  | .block21 =>
      if collision then .final else if seconds = 6 then .block22 else .block21
  | .block22 =>
      if collision then .final else if seconds = 7 then .block23 else .block22
  | .block23 =>
      if collision then .final else if seconds = 8 then .block24 else .block23
  | .block24 =>
      if collision then .final else if seconds = 9 then .block25 else .block24
  | .block25 =>
      if collision then .final else if seconds = 10 then .block26 else .block25
  | .block26 =>
      if collision then .final else if seconds = 11 then .block27 else .block26
  | .block27 =>
      if collision then .final else if seconds = 12 then .block28 else .block27
  | .block28 =>
      if collision then .final else if seconds = 13 then .block29 else .block28
  | .block29 =>
      if collision then .final else if seconds = 14 then .block30 else .block29
  | .block30 =>
      if collision then .final else if endLevel 29 then .win else .block30
  | .win => if seconds = 5 then .reset else .win

/-- The entries of `block_ready` that are set in each state. -/
def readyBlocks : State → List (Fin 18)
  | .block1 => [0]
  | .block2 => [0, 1]
  | .block3 => [0, 1, 2]
  | .block4 => [0, 1, 2, 3]
  | .block5 => [0, 1, 2, 3, 4]
  | .block6 => [0, 1, 2, 3, 4, 5]
  | .block7 => [0, 1, 2, 3, 4, 5, 6]
  | .block8 => [0, 1, 2, 3, 4, 5, 6, 7]
  | .block9 => [0, 1, 2, 3, 4, 5, 6, 7, 8]
  | .block10 => [0, 1, 2, 3, 4, 5, 6, 7, 8, 9]
  | .block14 => [10]
  | .block15 => [10, 11]
  | .block16 => [10, 11]
  | .block17 => [10, 11, 12]
  | .block18 => [10, 11, 12]
  | .block19 => [10, 11, 12]
  | .block20 => [10, 11, 12, 13]
  | .block21 => [14]
  | .block22 => [14]
  | .block23 => [14]
  | .block24 => [14, 15]
  | .block25 => [14, 15]
  | .block26 => [14, 15, 16]
  | .block27 => [14, 15, 16]
  | .block28 => [14, 15, 16]
  | .block29 => [14, 15, 16]
  | .block30 => [14, 15, 16, 17]
  | _ => []

/-- The entries of `rect_ready` that are set in each state. -/
def readyRects : State → List (Fin 12)
  | .block11 => [0]
  | .block12 => [0, 1]
  | .block13 => [0, 1, 2]
  | .block14 => [0, 1, 2]
  | .block15 => [0, 1, 2]
  | .block16 => [0, 1, 2, 3]
  | .block17 => [0, 1, 2, 3]
  | .block18 => [0, 1, 2, 3, 4]
  | .block19 => [0, 1, 2, 3, 4, 5]
  | .block20 => [0, 1, 2, 3, 4, 5]
  | .block22 => [6]
  | .block23 => [6, 7]
  | .block24 => [6, 7]
  | .block25 => [6, 7, 8]
  | .block26 => [6, 7, 8]
  | .block27 => [6, 7, 8, 9]
  | .block28 => [6, 7, 8, 9, 10]
  | .block29 => [6, 7, 8, 9, 10, 11]
  | .block30 => [6, 7, 8, 9, 10, 11]
  | _ => []

/-- The registers of `block_SM`. -/
structure BlockSM where
  state : State
  counter : BitVec 28
  pstartCounter : BitVec 28
  hiddenCounter : BitVec 28
  pstart : Bool
  hidden : Bool
  seconds : BitVec 10
deriving DecidableEq

namespace BlockSM

def blockReady (sm : BlockSM) (i : Fin 18) : Bool := decide (i ∈ readyBlocks sm.state)

def rectReady (sm : BlockSM) (j : Fin 12) : Bool := decide (j ∈ readyRects sm.state)

def title (sm : BlockSM) : Bool := decide (sm.state = .reset)

def restart (sm : BlockSM) : Bool := decide (sm.state = .reset)

def levelOne (sm : BlockSM) : Bool := decide (sm.state = .level1)

def levelTwo (sm : BlockSM) : Bool := decide (sm.state = .mid1to2)

def levelFinal (sm : BlockSM) : Bool := decide (sm.state = .mid2tofinal)

def win (sm : BlockSM) : Bool := decide (sm.state = .win)

/-- The nonblocking assignments to `hidden` and `hidden_counter`, in source
order: a later one overrides an earlier one, and all read the old registers. -/
def assignHidden (old new : BlockSM) : BlockSM :=
  let new := if old.state = .final then { new with hidden := false, hiddenCounter := 0 } else new
  if old.hiddenCounter = 25000000 then
    { new with hidden := !old.hidden, hiddenCounter := 0 }
  else
    { new with hiddenCounter := old.hiddenCounter + 1 }

/-- The assignments to `seconds`, `counter` and the start-screen registers. -/
def assignSeconds (old new : BlockSM) : BlockSM :=
  if old.state = .block10 ∨ old.state = .block20 ∨ old.state = .block30 then
    { new with seconds := 0, counter := 0 }
  else if old.counter = 50000000 ∧ old.state ≠ .reset then
    { new with counter := 0, seconds := old.seconds + 1 }
  else if old.state = .reset then
    let new :=
      if old.pstartCounter = 50000000 then
        { new with pstart := !old.pstart, pstartCounter := 0 }
      else
        { new with pstartCounter := old.pstartCounter + 1 }
    { new with seconds := 0, counter := 0 }
  else
    { new with counter := old.counter + 1 }

/-- One activation of the register process, woken by `Clk`, `Reset` or a
`Collision`. `next` is the settled value of `next_state`. -/
def posedge (reset collision : Bool) (next : State) (sm : BlockSM) : BlockSM :=
  if reset then
    { sm with state := .reset, counter := 0, seconds := 0 }
  else if collision then
    { sm with state := next, counter := 0, seconds := 0 }
  else
    assignSeconds sm (assignHidden sm { sm with state := next })

end BlockSM

/-- The edges that wake `block_SM` by itself, with the levels of its inputs. At
an edge of a `Collision` the level that `next_state` has seen may be either. -/
inductive SMEvent where
  | posedgeClk (reset collision : Bool) (keycode : BitVec 8) (endLevel : Fin 30 → Bool)
  | posedgeReset (collision : Bool) (keycode : BitVec 8) (endLevel : Fin 30 → Bool)
  | posedgeCollision (reset seen : Bool) (keycode : BitVec 8) (endLevel : Fin 30 → Bool)

def BlockSM.step (sm : BlockSM) : SMEvent → BlockSM
  | .posedgeClk reset collision keycode endLevel =>
      sm.posedge reset collision (nextState sm.state collision keycode sm.seconds endLevel)
  | .posedgeReset collision keycode endLevel =>
      sm.posedge true collision (nextState sm.state collision keycode sm.seconds endLevel)
  | .posedgeCollision reset seen keycode endLevel =>
      sm.posedge reset true (nextState sm.state seen keycode sm.seconds endLevel)

end TwoBallGame
