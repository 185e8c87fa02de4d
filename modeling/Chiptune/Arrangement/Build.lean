import Chiptune.Arrangement.Ensemble
import Chiptune.Arrangement.Melody
import Chiptune.Midi.File
import Chiptune.Music.Project

/-!
# Arrangements

A project with one song made from a MIDI score. The busiest MIDI channels become the tone voices,
one channel becomes drums on noise and samples, and a last slot may jump back to where the song
starts over.
-/

namespace Chiptune.Arrangement

open Midi (NoteSpan)

structure Options where
  name : Option String := none
  rowsPerBeat : Int := 4
  patternLength : Int := 64
  speed : Int := 6
  tempo : Option Int := none
  channels : Int := 3
  /-- The MIDI channel of the drums, without which no channel can be told from them. -/
  drumChannel : Option Int := some 9
  useVelocity : Bool := false
  /-- The row from which the song repeats. There is none at row zero. -/
  loopStart : Option Int := none
  deriving Repr

namespace Options

/-- The row to start over from, if the song does not start over as a whole. -/
def loopRow (options : Options) : Option Int := options.loopStart.filter (· ≠ 0)

def check (options : Options) : Outcome Unit := do
  if options.rowsPerBeat ≤ 0 ∨ options.patternLength ≤ 0 ∨ options.speed ≤ 0 then
    throw (.arrangement .optionsNotPositive)
  if options.channels < 1 ∨ options.channels > 3 then throw (.arrangement .badChannelCount)

end Options

def isDrum (drumChannel : Int) (note : NoteSpan) : Bool := note.channel == drumChannel

/-- The channels with the most notes, the busiest first, of equal ones the lower first. -/
def busiest (notes : List NoteSpan) : List Nat :=
  let channels := (notes.map (·.channel)).eraseDups
  (channels.map fun channel => (notes.countP (·.channel == channel), channel)).mergeSort
    (fun a b => a.1 > b.1 || (a.1 == b.1 && a.2 ≤ b.2)) |>.map (·.2)

/-- A key that no note value stands for. -/
def isOutOfRange (note : NoteSpan) : Bool :=
  (note.key : Int) - lowestKey < Note.lowest || (note.key : Int) - lowestKey > Note.highest

/-- The slots that the notes need, and whether they are more than there can be. -/
def songLength (patternLength rows : Int) (longest : Nat) : Nat × Bool :=
  let wanted := max 1 (-(-rows / patternLength))
  if wanted > longest then (longest, true) else (wanted.toNat, false)

/-- Opens the samples of the map in the order of their notes and maps them. -/
def mapSamples (tree : FileTree) :
    Project → List (Int × SampleSpec) → Outcome Project
  | project, [] => pure project
  | project, (key, spec) :: rest => do
    let data ← match tree.read spec.file with
      | .ok data => pure data
      | .error (.file cause) => throw (.arrangement (.unreadableSample spec.file cause))
      | .error error => throw error
    let name := Text.Path.stem (Text.Path.baseName spec.file)
    let sample := ⟨project.samples.length, name, data⟩
    match project.mapSample (noteValue key) sample spec.pitch spec.loop with
    | .ok project => mapSamples tree project rest
    | .error (.noSampleSlot note) => throw (.arrangement (.noSampleSlot note))
    | .error error => throw error

/-- Fills one voice with the notes that are heard of `notes`. -/
def fillVoice (song : Song) (voice : Voice) (makeNote : NoteSpan → Session Note)
    (notes : List NoteSpan) : Session Song := do
  let rows ← column makeNote (song.length * song.patternLength) (melody notes)
  return song.fillChannel voice rows

def fillTones (score : Score) (notes : List NoteSpan) :
    Song → List (Voice × Nat) → Session Song
  | song, [] => pure song
  | song, (voice, channel) :: rest => do
    let song ← fillVoice song voice (toneNote score) (notes.filter (·.channel == channel))
    fillTones score notes song rest

/-- Whether the map has a sample for the drum. -/
def hasSample (map : InstrumentMap) (note : NoteSpan) : Bool :=
  map.samples.any (·.1 == (note.key : Int))

def hasPeriod (note : NoteSpan) : Bool := drumPeriods.any (·.1 == note.key)

def fillDrums (score : Score) (project : Project) (song : Song) (drums : List NoteSpan) :
    Session (Project × Song) := do
  let samples := score.map.samples.mergeSort fun a b => a.1 ≤ b.1
  let project ← mapSamples score.tree project samples
  let sampled := drums.filter (hasSample score.map)
  let noise := drums.filter fun note => !hasSample score.map note && hasPeriod note
  let dropped := drums.length - sampled.length - noise.length
  if dropped ≠ 0 then warn (.droppedDrums dropped)
  let song ← if noise.isEmpty then pure song
    else fillVoice song .noise (noiseNote score) noise
  let song ← if sampled.isEmpty then pure song
    else fillVoice song .dpcm sampleNote sampled
  return (project, song)

/-- A pattern whose first row jumps to a slot. -/
def jumpPattern (length : Nat) (target : Int) : Pattern :=
  match List.replicate length Note.empty with
  | [] => []
  | first :: rest => { first with effect := .jump, param := target } :: rest

/-- The song with a further slot that jumps back. -/
def withJump (song : Song) (target : Int) : Song :=
  let position := song.patterns.length
  { song with
    length := song.length + 1
    patterns := song.patterns ++ [jumpPattern song.patternLength target]
    channels := song.channels.zipIdx.map fun (channel, number) =>
      { channel with slots := channel.slots ++ [if number = 0 then some position else none] } }

/-- Lets the song start over from the pattern that holds row `start`. -/
def addLoop (song : Song) (start : Int) : Session Song := do
  if start ≥ song.length * song.patternLength then
    warn (.loopPastEnd start)
    return song
  let target := start / song.patternLength
  if start % song.patternLength ≠ 0 then
    let boundary := target * song.patternLength
    if !Text.isWritable boundary then throw .notANumeral
    warn (.loopMoved start boundary)
  return if target = 0 then song else withJump song target

def programRows (grid : Grid) (timeline : List Midi.Moment) : Outcome (List ProgramRows) := do
  let channels := (timeline.filterMap fun moment => match moment.event with
    | .program channel _ => some channel
    | _ => none).eraseDups
  channels.mapM fun channel => do
    let changes ← (Midi.programChanges timeline channel).mapM fun (tick, number) => do
      return (← grid.row tick, number)
    return ⟨channel, changes.toArray⟩

/-- The notes of a score in rows, and the number of rows that the score takes. -/
def alignScore (grid : Grid) (timeline : List Midi.Moment) (notes : List NoteSpan) :
    Outcome (List NoteSpan × Int) := do
  let aligned ← grid.alignAll notes
  let last ← grid.row (Midi.lastTick timeline)
  return (aligned, aligned.foldl (fun rows note => max rows note.stop) last)

def songTempo (options : Options) (midi : Midi.Score) : Outcome Int :=
  match options.tempo with
  | some tempo => pure tempo
  | none => do
    tempo (← beatsPerMinute (midi.tempos.headD Midi.defaultTempo)) options.rowsPerBeat options.speed

/-- The song without its loop. -/
def fillSong (options : Options) (score : Score) (notes : List NoteSpan) (project : Project)
    (song : Song) : Session (Project × Song) := do
  let outOfRange := notes.countP isOutOfRange
  if outOfRange ≠ 0 then warn (.clampedNotes outOfRange)
  let some drumChannel := options.drumChannel | throw .wrongKind
  let tones := notes.filter (!isDrum drumChannel ·)
  let channels := busiest tones
  let dropped := channels.drop options.channels.toNat
  if !dropped.isEmpty then warn (.droppedChannels (dropped.mergeSort (· ≤ ·)))
  let song ← fillTones score notes song (Voice.tones.zip (channels.take options.channels.toNat))
  let drums := notes.filter (isDrum drumChannel)
  if drums.isEmpty then return (project, song) else fillDrums score project song drums

/-- The project made of a score, and what was left out or changed. -/
def ofScore (tree : FileTree) (midi : Midi.Score) (sourceName : String) (options : Options)
    (map : InstrumentMap) : Outcome (Project × List Warning) := do
  options.check
  if midi.type ≠ 0 ∧ midi.type ≠ 1 then throw (.arrangement .unsupportedMidiType)
  let timeline := midi.timeline
  let notes := Midi.notes timeline
  if notes.isEmpty then throw (.arrangement .noNotes)
  let songTempo ← songTempo options midi
  let grid ← Grid.make midi.ticksPerBeat options.rowsPerBeat
  let (notes, rows) ← alignScore grid timeline notes
  let longest := Limits.slots - if options.loopRow.isSome then 1 else 0
  let (length, truncated) := songLength options.patternLength rows longest
  let name := match options.name with
    | some name => if name.isEmpty then sourceName else name
    | none => sourceName
  let score := ⟨tree, map, ← programRows grid timeline, options.useVelocity⟩
  let song := Song.blank 0 name songTempo options.speed options.patternLength.toNat length
  let arrange : Session (Project × Song) := do
    if midi.tempos.eraseDups.length > 1 then warn .tempoChanges
    if truncated then warn (.truncated longest)
    let (project, song) ← fillSong options score notes { name } song
    match options.loopRow with
    | some start => return (project, ← addLoop song start)
    | none => return (project, song)
  let ((project, song), ensemble) ← arrange.run {}
  return ({ project with songs := [song], instruments := ensemble.instruments.map (·.2) },
    ensemble.warnings)

/-- The name of a project made from a file. -/
def nameOfPath (path : Text.Points) : Text.Points :=
  if path.isEmpty then "music" else Text.Path.stem (Text.Path.baseName path)

/-- The project made of a MIDI file. The options are checked before the file is opened. A name that
holds half of a surrogate pair is taken as it is shown. -/
def ofFile (tree : FileTree) (path : Text.Points) (options : Options) (map : InstrumentMap) :
    Outcome (Project × List Warning) := do
  options.check
  match Midi.Score.ofBytes (← tree.read path) with
  | .ok midi => ofScore tree midi (nameOfPath path).shown options map
  | .error cause => throw (.midi cause)

end Chiptune.Arrangement
