import TwoBallGame.Balls.Exact
import TwoBallGame.Balls.Press
import TwoBallGame.Balls.Symmetry
import TwoBallGame.Board.Reports
import TwoBallGame.Display.Frames
import TwoBallGame.Display.Hidden
import TwoBallGame.Display.Picture
import TwoBallGame.Display.Sync
import TwoBallGame.Display.Tearing
import TwoBallGame.Game.Collision
import TwoBallGame.Game.Deadlines
import TwoBallGame.Game.Motion
import TwoBallGame.Game.Passing
import TwoBallGame.Game.Progress
import TwoBallGame.Game.Reset
import TwoBallGame.Game.Unsteered
import TwoBallGame.Usb.Liveness
import TwoBallGame.Usb.Messages
import TwoBallGame.Usb.Standing
import TwoBallGame.Usb.Toggle
