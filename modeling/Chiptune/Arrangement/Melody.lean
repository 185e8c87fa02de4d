import Chiptune.Error
import Chiptune.Midi.Timeline
import Chiptune.Music.Song

/-!
# Melodies

A channel of the song plays one note at a time: of the notes that start in one row the loudest. The
notes fill a column of rows, which is cut into patterns; equal patterns are shared.
-/

namespace Chiptune.Arrangement

open Midi (NoteSpan)

/-- By start, then the loudest first, then by channel and by key. -/
def louder (a b : NoteSpan) : Bool :=
  a.start < b.start || (a.start == b.start &&
    (a.velocity > b.velocity || (a.velocity == b.velocity &&
      (a.channel < b.channel || (a.channel == b.channel && a.key ≤ b.key)))))

/-- The first of the notes that start together, where `last` is the start before them. -/
def firstOfEach : (last : Int) → List NoteSpan → List NoteSpan
  | _, [] => []
  | last, note :: rest =>
    if note.start = last then firstOfEach last rest else note :: firstOfEach note.start rest

/-- The notes that are heard where only one can start in each row. -/
def melody (notes : List NoteSpan) : List NoteSpan := firstOfEach (-1) (notes.mergeSort louder)

/-- The place of a row among `count` rows. Rows before the first count from the end. -/
def rowPlace (count : Nat) (row : Int) : Outcome Nat :=
  if 0 ≤ row ∧ row < count then pure row.toNat
  else if row < 0 ∧ -count ≤ row then pure (row + count).toNat
  else throw .outOfRange

/-- Whether the channel falls silent in row `stop`: inside the song and not after the next note has
started. -/
def endsAt (count : Nat) (stop : Int) (following : List NoteSpan) : Bool :=
  stop < count && match following with
    | [] => true
    | next :: _ => stop ≤ next.start

/-- Puts the notes and the stops after them into a column of rows. -/
def fillColumn {σ : Type} (makeNote : NoteSpan → StateT σ Outcome Note) :
    Array Note → List NoteSpan → StateT σ Outcome (Array Note)
  | rows, [] => pure rows
  | rows, note :: rest => do
    if note.start ≥ rows.size then fillColumn makeNote rows rest
    else
      let filled ← makeNote note
      let place ← rowPlace rows.size note.start
      let rows := rows.setIfInBounds place filled
      if endsAt rows.size note.stop rest then
        let place ← rowPlace rows.size note.stop
        if (rows.getD place .empty).isValid then fillColumn makeNote rows rest
        else fillColumn makeNote (rows.setIfInBounds place { value := Note.stopValue }) rest
      else fillColumn makeNote rows rest

/-- The column of `count` rows that a melody fills. -/
def column {σ : Type} (makeNote : NoteSpan → StateT σ Outcome Note) (count : Nat)
    (notes : List NoteSpan) : StateT σ Outcome (List Note) := do
  return (← fillColumn makeNote (Array.replicate count .empty) notes).toList

/-- The first `count` patterns of a column. -/
def chunks (size : Nat) : (count : Nat) → List Note → List Pattern
  | 0, _ => []
  | count + 1, rows => rows.take size :: chunks size count (rows.drop size)

def isSilent (pattern : Pattern) : Bool :=
  pattern.all fun note => !note.isValid && note.effect = .none

/-- The patterns as slots that name their places after the first `base` patterns of the song. A
silent pattern needs no place and equal ones share theirs. -/
def sharePatterns (base : Nat) (known : List Pattern) :
    List Pattern → List (Option Nat) × List Pattern
  | [] => ([], known)
  | pattern :: rest =>
    if isSilent pattern then
      let (slots, known) := sharePatterns base known rest
      (none :: slots, known)
    else
      let place := known.idxOf pattern
      let known := if place < known.length then known else known ++ [pattern]
      let (slots, known) := sharePatterns base known rest
      (some (base + place) :: slots, known)

end Chiptune.Arrangement

namespace Chiptune.Song

/-- Lets a channel play a column of rows. -/
def fillChannel (song : Song) (voice : Voice) (rows : List Note) : Song :=
  let patterns := Arrangement.chunks song.patternLength song.length rows
  let (slots, known) := Arrangement.sharePatterns song.patterns.length [] patterns
  { song with
    patterns := song.patterns ++ known
    channels := song.channels.map fun channel =>
      if channel.voice = voice then { channel with slots } else channel }

end Chiptune.Song
