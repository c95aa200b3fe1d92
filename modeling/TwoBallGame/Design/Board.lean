import TwoBallGame.Design.FinalProject
import TwoBallGame.Design.UsbHost

/-! The board: the game and the processor on it. All that the processor tells the
game is the keycode, an 8-bit register of `usb_system` that `main` writes. -/
namespace TwoBallGame

open Ports Usb

/-- `data_out` of `usb_system_keycode`, and the game that reads it. -/
structure Board where
  dataOut : BitVec 8
  game : Game

namespace Board

/-- The `s1` slave of `usb_system_keycode`: address zero takes `writedata[7:0]`. -/
def writeS1 (address : BitVec 2) (writedata : BitVec 32) (b : Board) : Board :=
  if address = 0 then { b with dataOut := writedata.setWidth 8 } else b

end Board

/-- What happens on the board: the next access of the processor, in between two
edges of the game, or an edge of the game. The clock never waits for the processor. -/
inductive BoardEvent where
  | access (event : Event Port (BitVec 16))
  | posedgeClk
  | posedgeReset
  | negedgeReset

namespace Board

/-- `reset_reset_n` is tied high, so no edge of `Reset` is seen by the register. -/
def step (b : Board) : BoardEvent → Board
  | .access (.iowr .keycode data) => b.writeS1 0 (data.setWidth 32)
  | .access _ => b
  | .posedgeClk => { b with game := b.game.posedgeClk b.dataOut }
  | .posedgeReset => { b with game := b.game.posedgeReset b.dataOut }
  | .negedgeReset => { b with game := b.game.negedgeReset }

/-- The register is zero when the device has been configured. -/
def powered (g : Game) : Board := ⟨0, g⟩

end Board

/-- The accesses of the processor among the events. -/
def accesses (events : List BoardEvent) : List (Event Port (BitVec 16)) :=
  events.filterMap fun
    | .access event => some event
    | _ => none

end TwoBallGame
