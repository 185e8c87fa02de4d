import Chiptune.Music.Song

/-!
# Flow of a song

Jumps, skips and speed changes act on whole song rows. Of several channels that carry the same
effect in one row the first one counts.
-/

namespace Chiptune

/-- The parameters of the effects in one song row. -/
structure RowEffects where
  jump : Option Int := none
  skip : Option Int := none
  speed : Option Int := none
  deriving DecidableEq, Repr

namespace RowEffects

def ofNote (note : Note) : RowEffects :=
  match note.effect with
  | .none => {}
  | .jump => { jump := some note.param }
  | .skip => { skip := some note.param }
  | .speed => { speed := some note.param }

/-- The effects of a channel together with those of the channels after it. -/
def withLater (first later : RowEffects) : RowEffects where
  jump := first.jump <|> later.jump
  skip := first.skip <|> later.skip
  speed := first.speed <|> later.speed

def param (row : RowEffects) : Effect → Option Int
  | .none => none
  | .jump => row.jump
  | .skip => row.skip
  | .speed => row.speed

end RowEffects

/-- The effects in the rows of one slot. Rows beyond the end carry none. -/
abbrev SlotEffects := List RowEffects

namespace SlotEffects

def withLater : SlotEffects → SlotEffects → SlotEffects
  | [], later => later
  | first, [] => first
  | row :: first, other :: later => row.withLater other :: withLater first later

def row (slot : SlotEffects) (row : Nat) : RowEffects := slot.getD row {}

/-- The first row that carries the effect. -/
def position (slot : SlotEffects) (effect : Effect) : Option Nat :=
  slot.findIdx? fun row => (row.param effect).isSome

end SlotEffects

namespace Song

/-- The effects that one channel puts into a slot. -/
def channelEffects (song : Song) (slot : Nat) (channel : Channel) : SlotEffects :=
  match channel.slots[slot]? with
  | some (some position) => ((song.pattern position).take song.patternLength).map .ofNote
  | _ => []

def slotEffects (song : Song) (slot : Nat) : SlotEffects :=
  (song.channels.map (song.channelEffects slot)).foldr .withLater []

/-- The effects of the whole song, slot by slot. -/
def effects (song : Song) : List SlotEffects := (List.range song.length).map song.slotEffects

/-- The first parameter of the effect in the whole song that is not negative. -/
def firstParam (effects : List SlotEffects) (effect : Effect) : Option Int :=
  effects.flatten.findSome? fun row => (row.param effect).filter (0 ≤ ·)

end Song

/-- A stay of the channels in one slot, with the number of rows that are played there. -/
structure Visit where
  slot : Nat
  rows : Nat
  deriving DecidableEq, Repr

namespace Song

/-- The visits to the slots from number `slot` on. While `skipping`, slots that are no first piece
of a split pattern are passed over; a jump ends the song. -/
def visitsFrom (patternLength : Nat) (factor : Int) :
    (skipping : Bool) → (slot : Nat) → List SlotEffects → List Visit
  | _, _, [] => []
  | skipping, slot, effects :: rest =>
    if skipping ∧ ¬ factor ∣ slot then visitsFrom patternLength factor true (slot + 1) rest
    else match effects.position .skip, effects.position .jump with
      | some row, _ => ⟨slot, row⟩ :: visitsFrom patternLength factor true (slot + 1) rest
      | none, some row => [⟨slot, row⟩]
      | none, none =>
        ⟨slot, patternLength⟩ :: visitsFrom patternLength factor false (slot + 1) rest

def visits (song : Song) (effects : List SlotEffects) (factor : Int) : List Visit :=
  visitsFrom song.patternLength factor false 0 effects

/-- The slot at which the song starts over: the target of the first jump, if it lies in the song. -/
def loopSlot (song : Song) (effects : List SlotEffects) (factor : Int) : Int :=
  let target := (firstParam effects .jump).getD 0 * factor
  if target ≥ song.length then 0 else target

end Song

end Chiptune
