import SnakeMom.Lib.Machine
import SnakeMom.Lib.Packed
import SnakeMom.Lib.GridWalk
import SnakeMom.Lib.Contact
import SnakeMom.Lib.Route
import SnakeMom.Lib.Schedule
import SnakeMom.Lib.Dialog
import SnakeMom.Lib.Progress
import SnakeMom.Lib.Divider
import SnakeMom.Lib.Raster
import SnakeMom.Lib.Pace
import SnakeMom.Wall.Verify
import SnakeMom.Wall.Boundaries
import SnakeMom.Mover
import SnakeMom.Player.Model
import SnakeMom.Player.Walk
import SnakeMom.Player.Hold
import SnakeMom.Player.Route
import SnakeMom.Player.Trace
import SnakeMom.Player.Facing
import SnakeMom.Ghost.Model
import SnakeMom.Ghost.Walk
import SnakeMom.Ghost.Contact
import SnakeMom.Ghost.Turn
import SnakeMom.Ghost.Cadence
import SnakeMom.Ghost.Tiles
import SnakeMom.Grid
import SnakeMom.Coin.Model
import SnakeMom.Coin.History
import SnakeMom.Game.State
import SnakeMom.Game.Model
import SnakeMom.Game.Invariant
import SnakeMom.Game.Walkthrough
import SnakeMom.Game.Collision
import SnakeMom.Game.Restart
import SnakeMom.Game.Board
import SnakeMom.Game.Level
import SnakeMom.Game.Beat
import SnakeMom.Game.Reach
import SnakeMom.Game.Clocks
import SnakeMom.Game.Timing
import SnakeMom.Game.Outrun
import SnakeMom.Game.Speed
import SnakeMom.Hpi.Model
import SnakeMom.Hpi.Bus
import SnakeMom.Hpi.Read
import SnakeMom.Usb.Commands
import SnakeMom.Usb.Main
import SnakeMom.Usb.Parts
import SnakeMom.Usb.Toggle
import SnakeMom.Usb.Ports
import SnakeMom.Usb.HotPlug
import SnakeMom.Usb.Descriptors
import SnakeMom.Usb.Transfers
import SnakeMom.Usb.Progress
import SnakeMom.Usb.Keyboard
import SnakeMom.Video.Sprites
import SnakeMom.Video.ColorMapper
import SnakeMom.Video.Ghosts
import SnakeMom.Video.Player
import SnakeMom.Video.Coins
import SnakeMom.Video.Level
import SnakeMom.Video.Screen
import SnakeMom.Video.Vga
