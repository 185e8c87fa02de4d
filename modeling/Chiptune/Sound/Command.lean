import Chiptune.Bytes
import Chiptune.Error

/-!
# Commands of a channel stream
-/

namespace Chiptune

inductive Command
  /-- Sets the frames per row. -/
  | speed (frames : UInt8)
  | volume (level : UInt8)
  | instrument (index : Nat)
  /-- A row with a note, and a further empty one where the code of the note says so. -/
  | note (code : UInt8)
  /-- One empty row and `more` further ones. -/
  | emptyRows (more : Nat)
  deriving DecidableEq, Repr

namespace Command

def speedCode : UInt8 := 0xFB
def loopCode : UInt8 := 0xFD
def referenceCode : UInt8 := 0xFF

def bytes : Command → Bytes
  | speed frames => [speedCode, frames]
  | volume level => [0x70 + level]
  | instrument index => [UInt8.ofNat (0x80 + 2 * index)]
  | note code => [code]
  | emptyRows more => [UInt8.ofNat (0x81 + 2 * more)]

/-- Whether the driver spends rows on the command. -/
def isRow : Command → Bool
  | note _ | emptyRows _ => true
  | _ => false

/-- The command for an instrument of the table, whose number is written into seven bits of which
the highest is always set. -/
def instrument? (index : Nat) : Outcome Command :=
  if index < 128 then pure (.instrument (index % 64)) else throw .notAByte

def note? (code : Int) : Outcome Command :=
  if 0 ≤ code ∧ code < 256 then pure (.note (UInt8.ofNat code.toNat)) else throw .notAByte

end Command

/-- The bytes of several commands. -/
def commandBytes (commands : List Command) : Bytes := commands.flatMap Command.bytes

/-- The commands on which the driver spends rows. -/
def rowCommands (commands : List Command) : Nat := commands.countP Command.isRow

end Chiptune
