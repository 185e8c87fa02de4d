import Chiptune.Midi.Message

/-!
# The timeline of a score

The events of all tracks at their absolute ticks, in order of time; events of one tick stay in the
order of their tracks. `notes` pairs each start of a note with its end.
-/

namespace Chiptune.Midi

structure Moment where
  tick : Int
  event : Event
  deriving DecidableEq, Repr

/-- The messages of a track at their absolute ticks, the first of which counts from `now`. -/
def momentsFrom : (now : Int) → Track → List Moment
  | _, [] => []
  | now, message :: rest =>
    ⟨now + message.delta, message.event⟩ :: momentsFrom (now + message.delta) rest

def moments (track : Track) : List Moment := momentsFrom 0 track

def Score.timeline (score : Score) : List Moment :=
  (score.tracks.flatMap moments).mergeSort fun a b => a.tick ≤ b.tick

def lastTick (timeline : List Moment) : Int := (timeline.getLast?.map Moment.tick).getD 0

/-- A note with the time at which it starts and the time for which it sounds. -/
structure NoteSpan where
  start : Int
  duration : Int
  channel : Nat
  key : Nat
  velocity : Nat
  deriving DecidableEq, Repr

namespace NoteSpan

def stop (span : NoteSpan) : Int := span.start + span.duration

/-- By start, then by channel, then by key. -/
def before (a b : NoteSpan) : Bool :=
  a.start < b.start || (a.start == b.start &&
    (a.channel < b.channel || (a.channel == b.channel && a.key ≤ b.key)))

end NoteSpan

/-- A note that has started and not ended. -/
structure OpenNote where
  channel : Nat
  key : Nat
  start : Int
  velocity : Nat
  deriving DecidableEq, Repr

def OpenNote.closeAt (note : OpenNote) (tick : Int) : NoteSpan :=
  ⟨note.start, max 0 (tick - note.start), note.channel, note.key, note.velocity⟩

def OpenNote.isFor (channel key : Nat) (note : OpenNote) : Bool :=
  note.channel == channel && note.key == key

/-- The notes that sound at some moment, and those that are over, the last one first. -/
structure Sounding where
  active : List OpenNote := []
  ended : List NoteSpan := []
  deriving Repr

namespace Sounding

def stop (sounding : Sounding) (channel key : Nat) (tick : Int) : Sounding :=
  match sounding.active.find? (OpenNote.isFor channel key) with
  | none => sounding
  | some note =>
    ⟨sounding.active.filter (!OpenNote.isFor channel key ·), note.closeAt tick :: sounding.ended⟩

/-- A note that starts again while it sounds ends first. A start without velocity is an end. -/
def step (sounding : Sounding) (moment : Moment) : Sounding :=
  match moment.event with
  | .noteOn channel key velocity =>
    let sounding := sounding.stop channel key moment.tick
    if velocity = 0 then sounding
    else { sounding with active := sounding.active ++ [⟨channel, key, moment.tick, velocity⟩] }
  | .noteOff channel key => sounding.stop channel key moment.tick
  | _ => sounding

/-- All notes, those that still sound ended at `tick`. -/
def finish (sounding : Sounding) (tick : Int) : List NoteSpan :=
  sounding.ended.reverse ++ sounding.active.map (·.closeAt tick)

end Sounding

/-- The notes of a timeline in order. -/
def notes (timeline : List Moment) : List NoteSpan :=
  ((timeline.foldl Sounding.step {}).finish (lastTick timeline)).mergeSort NoteSpan.before

/-- The programs that a channel changes to, with their ticks. -/
def programChanges (timeline : List Moment) (channel : Nat) : List (Int × Nat) :=
  timeline.filterMap fun moment => match moment.event with
    | .program c number => if c = channel then some (moment.tick, number) else none
    | _ => none

def defaultTempo : Int := 500000

/-- The tempo changes in order of time, with the default tempo where none starts the score. -/
def Score.tempos (score : Score) : List Int :=
  let changes : List (Int × Int) :=
    (score.tracks.flatMap moments).filterMap fun moment => match moment.event with
      | .tempo microseconds => some (moment.tick, microseconds)
      | _ => none
  match changes.mergeSort fun a b => a.1 ≤ b.1 with
  | (0, first) :: rest => first :: rest.map (·.2)
  | changes => defaultTempo :: changes.map (·.2)

end Chiptune.Midi
