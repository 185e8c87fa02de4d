import Chiptune.Bytes
import Chiptune.Error
import Chiptune.Midi.Message

/-!
# MIDI files

A header chunk followed by track chunks. A message that starts inside its track is read to its end
even where it passes the end of the track; a track that is never hit exactly at its end goes on
until the file is over.
-/

namespace Chiptune.Midi

/-- What is left of a file, and how much of the track was read. -/
structure Position where
  rest : Bytes
  read : Nat := 0

abbrev Reader := StateT Position (Except MidiFileError)

def byte : Reader UInt8 := do
  match ← get with
  | ⟨[], _⟩ => throw .endOfData
  | ⟨b :: rest, read⟩ => set (Position.mk rest (read + 1)); return b

/-- A number in groups of seven bits, most significant first. All groups but the last have the
highest bit set. -/
def variableNumber (value read : Nat) : Bytes → Except MidiFileError (Nat × Position)
  | [] => throw .endOfData
  | b :: rest =>
    let value := value * 128 + b.toNat % 128
    if b < 0x80 then pure (value, ⟨rest, read + 1⟩) else variableNumber value (read + 1) rest

def number : Reader Nat := do
  let (value, position) ← variableNumber 0 (← get).read (← get).rest
  set position
  return value

def longestMessage : Nat := 1000000

/-- The next bytes of the file. -/
def block (count : Nat) : Reader Bytes := do
  let ⟨bytes, read⟩ ← get
  if count > longestMessage then throw (.messageTooLong count)
  let taken := bytes.take count
  if taken.length < count then throw .endOfData
  set (Position.mk (bytes.drop count) (read + count))
  return taken

/-- The kinds of meta message that keep their place in time. Other kinds count as simultaneous
with the message before them. -/
def isKnownMeta (kind : UInt8) : Bool :=
  kind ≤ 0x07 || [0x09, 0x20, 0x21, 0x2F, 0x51, 0x54, 0x58, 0x59, 0x7F].contains kind

def isKeySignature (data : Bytes) : Bool :=
  match data with
  | key :: mode :: _ =>
    let key := Bytes.signed 8 key.toNat
    (-7 : Int) ≤ key && key ≤ 7 && mode ≤ 1
  | _ => false

def metaMessage (delta : Nat) : Reader Message := do
  let kind ← byte
  let data ← block (← number)
  if kind = 0x59 ∧ !isKeySignature data then throw .badKeySignature
  if kind = 0x51 then return ⟨delta, .tempo (Bytes.bigEndian (data.take 3))⟩
  return ⟨if isKnownMeta kind then delta else 0, .other⟩

/-- The number of data bytes of a status that is defined. -/
def dataLength? (status : UInt8) : Option Nat :=
  if status < 0xC0 then some 2
  else if status < 0xE0 then some 1
  else if status < 0xF0 then some 2
  else if status = 0xF2 then some 2
  else if status = 0xF1 ∨ status = 0xF3 then some 1
  else if [0xF6, 0xF8, 0xFA, 0xFB, 0xFC, 0xFE].contains status then some 0
  else none

def channelEvent (status : UInt8) (data : Bytes) : Event :=
  let channel := status.toNat % 16
  match status.toNat / 16, data with
  | 8, key :: _ => .noteOff channel key.toNat
  | 9, [key, velocity] => .noteOn channel key.toNat velocity.toNat
  | 12, [program] => .program channel program.toNat
  | _, _ => .other

/-- A message whose status is known; `first` is its first data byte under a running status. -/
def plainMessage (delta : Nat) (status : UInt8) (first : Option UInt8) : Reader Message := do
  let some length := dataLength? status | throw (.undefinedStatus status)
  let data := first.toList ++ (← block (length - first.toList.length))
  if data.any (· > 0x7F) then throw .dataByteTooLarge
  if data.length ≠ length then throw .surplusData
  return ⟨delta, channelEvent status data⟩

def isSystemExclusive (status : UInt8) : Bool := status == 0xF0 || status == 0xF7

/-- The data of a system exclusive message without a mark at its start and one at its end. -/
def exclusiveContent (data : Bytes) : Bytes :=
  let content := if data.head? = some 0xF0 then data.tail else data
  if content.getLast? = some 0xF7 then content.dropLast else content

def exclusiveMessage (delta : Nat) : Reader Message := do
  let data ← block (← number)
  if (exclusiveContent data).any (· > 0x7F) then throw .badExclusiveData
  return ⟨delta, .other⟩

/-- One message and the status that runs on after it. -/
def message (running : Option UInt8) : Reader (Message × Option UInt8) := do
  let delta ← number
  let b ← byte
  let (status, first, running) ←
    if b < 0x80 then match running with
      | none => throw .noRunningStatus
      | some status => pure (status, some b, running)
    else pure (b, none, if b = 0xFF then running else some b)
  if status = 0xFF then return (← metaMessage delta, running)
  if isSystemExclusive status then return (← exclusiveMessage delta, running)
  return (← plainMessage delta status first, running)

/-- The messages up to the end of a track of `size` bytes. Each takes at least one byte, so that
`fuel` bytes of file are enough. -/
def messages (size : Nat) : (fuel : Nat) → (running : Option UInt8) → Reader Track
  | 0, _ => do
    if (← get).read = size then return []
    throw .endOfData
  | fuel + 1, running => do
    if (← get).read = size then return []
    let (first, running) ← message running
    return first :: (← messages size fuel running)

/-- The name and the size of a chunk. -/
def chunkHeader : Reader (Bytes × Nat) := do
  let name ← block 4
  let size ← block 4
  return (name, Bytes.bigEndian size)

def track : Reader Track := do
  let (name, size) ← chunkHeader
  if name ≠ [0x4D, 0x54, 0x72, 0x6B] then throw .noTrackHeader
  modify fun position => { position with read := 0 }
  messages size (← get).rest.length none

def tracks : Nat → Reader (List Track)
  | 0 => return []
  | count + 1 => do
    let first ← track
    return first :: (← tracks count)

def score : Reader Score := do
  let (name, size) ← chunkHeader
  if name ≠ [0x4D, 0x54, 0x68, 0x64] then throw .noHeader
  let header := (← get).rest.take size
  if header.length < 6 then throw .endOfData
  modify fun position => { position with rest := position.rest.drop size }
  let word (k : Nat) := Bytes.signed 16 (Bytes.bigEndian ((header.drop k).take 2))
  return ⟨word 0, word 4, ← tracks (word 2).toNat⟩

/-- The score in a MIDI file. -/
def Score.ofBytes (file : Bytes) : Except MidiFileError Score := do
  return (← score.run { rest := file }).1

end Chiptune.Midi
