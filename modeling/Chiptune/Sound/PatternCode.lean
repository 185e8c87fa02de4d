import Chiptune.Sound.Command
import Chiptune.Sound.Flow
import Chiptune.Sound.Kernel

/-!
# The code of a pattern

`encodeRows` writes the rows of one channel slot as commands. Empty rows are gathered into runs,
and the legacy kernel lets one empty row between two filled ones ride along with the note before
it. An instrument is named only where it changes.
-/

namespace Chiptune

/-- What one row asks of the driver in one channel. -/
structure Row where
  value : Int
  volume : Option UInt8 := none
  instrument : Option InstrumentId := none
  speed : Option UInt8 := none
  deriving DecidableEq, Repr

namespace Row

def isNote (row : Row) : Bool := row.value != Note.emptyValue

/-- Whether an empty row before this one cannot be merged with it. -/
def isFilled (row : Row) : Bool := row.isNote || row.speed.isSome

/-- Whether the row can be part of a run of empty rows. -/
def isQuiet (row : Row) : Bool := !row.isNote && row.volume.isNone && row.speed.isNone

def ofNote (kernel : Kernel) (note : Note) (speed : Option Int) : Row where
  value := note.value
  volume := if kernel.supportsVolume then
    note.volume.map fun level => UInt8.ofNat (level % 16).toNat else none
  instrument := if note.isMusical then note.instrument else none
  speed := (speed.filter (0 ≤ ·)).map Bytes.low

/-- The commands that precede the note or the empty row. -/
def lead (row : Row) : List Command :=
  row.speed.toList.map Command.speed ++ row.volume.toList.map Command.volume

end Row

/-- Where the encoding of a channel stands. -/
structure Voicing where
  kernel : Kernel
  voice : Voice
  /-- The place of an instrument in the table. -/
  index : InstrumentId → Option Nat

/-- The change to the instrument of a row, unless it is the active one. -/
def Voicing.change (voicing : Voicing) (active wanted : Option InstrumentId) :
    Outcome (List Command × Option InstrumentId) :=
  match wanted with
  | none => pure ([], active)
  | some id =>
    if active = some id then pure ([], active)
    else do
      let some index := voicing.index id | throw .outOfRange
      return ([← Command.instrument? index], some id)

/-- Whether an empty row follows that rides along with the note before it. Where a pattern ends
too early there is no telling. -/
def Voicing.rides (voicing : Voicing) (short : Bool) (rest : List Row) : Outcome Bool :=
  match voicing.kernel, rest with
  | .extended, _ => pure false
  | .legacy, next :: after :: _ => pure (!next.isFilled && after.isFilled)
  | .legacy, _ => if short then throw .outOfRange else pure false

/-- Quiet rows at the start of `rest`, as many as one command can hold. -/
def Voicing.run (voicing : Voicing) (rest : List Row) : Nat :=
  ((rest.take voicing.kernel.longestRun).takeWhile Row.isQuiet).length

/-- The commands for `rows` and the instrument that is active after them. `short` says that the
pattern has fewer rows than were asked for. -/
def encodeRows (voicing : Voicing) (short : Bool) (active : Option InstrumentId) :
    List Row → Outcome (List Command × Option InstrumentId)
  | [] => if short then throw .outOfRange else pure ([], active)
  | row :: rest => do
    if row.isNote then
      let (change, active) ← voicing.change active row.instrument
      let rides ← voicing.rides short rest
      let flags := if rides then 1 else 0
      let code ← Command.note? (voicing.kernel.noteCode voicing.voice row.value flags)
      let (commands, active) ← encodeRows voicing short active (rest.drop (if rides then 1 else 0))
      return (row.lead ++ change ++ code :: commands, active)
    else
      let more := voicing.run rest
      let (commands, active) ← encodeRows voicing short active (rest.drop more)
      return (row.lead ++ .emptyRows more :: commands, active)
  termination_by rows => rows.length
  decreasing_by all_goals simp only [List.length_drop, List.length_cons]; omega

/-- The notes with the speed changes that fall on their rows. -/
def Row.ofNotes (kernel : Kernel) : List Note → SlotEffects → List Row
  | [], _ => []
  | note :: notes, [] => .ofNote kernel note none :: ofNotes kernel notes []
  | note :: notes, row :: effects => .ofNote kernel note row.speed :: ofNotes kernel notes effects

/-- The notes of a slot, all of them empty where there is no pattern. -/
def Song.slotNotes (song : Song) : Option Nat → Pattern
  | some position => song.pattern position
  | none => List.replicate song.patternLength .empty

/-- What a channel asks of the driver in the first rows of a slot. -/
def Song.rows (song : Song) (kernel : Kernel) (effects : SlotEffects) (takesSpeed : Bool)
    (slot : Option Nat) (count : Nat) : List Row :=
  Row.ofNotes kernel ((song.slotNotes slot).take count) (if takesSpeed then effects else [])

/-- The code of the first `count` rows of a slot and the instrument that is active after them. -/
def Song.encodeSlot (song : Song) (voicing : Voicing) (effects : SlotEffects) (takesSpeed : Bool)
    (active : Option InstrumentId) (slot : Option Nat) (count : Nat) :
    Outcome (List Command × Option InstrumentId) :=
  let rows := song.rows voicing.kernel effects takesSpeed slot count
  encodeRows voicing (rows.length < count) active rows

end Chiptune
