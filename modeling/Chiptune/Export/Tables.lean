import Chiptune.Assembly.Line
import Chiptune.Music.Project
import Chiptune.Sound.EnvelopeStream
import Chiptune.Text.Printable

/-!
# Tables of instruments, samples and envelopes

Equal envelope streams are written once. The table of streams starts with the default one, and a
stream gets its number where it is first used.
-/

namespace Chiptune

/-- The places in the stream table of the envelopes of one instrument. -/
structure EnvelopePlaces where
  volume : Nat
  arpeggio : Nat
  pitch : Nat
  deriving DecidableEq, Repr

structure InstrumentTables where
  streams : List Bytes
  places : List EnvelopePlaces := []
  deriving DecidableEq, Repr

namespace InstrumentTables

/-- Holds the neutral value for ever. -/
def defaultStream : Bytes := [0xC0, 0, 0]

/-- The place of a stream, which is appended if it is new. -/
def placeOf (streams : List Bytes) (stream : Bytes) : Nat × List Bytes :=
  let place := streams.idxOf stream
  (place, if place < streams.length then streams else streams ++ [stream])

def placeEnvelope (streams : List Bytes) (envelope : Option Envelope) (allowRelease : Bool) :
    Outcome (Nat × List Bytes) := do
  let stream ← match envelope with
    | some envelope => envelope.stream allowRelease
    | none => pure none
  return placeOf streams (stream.getD defaultStream)

def placeInstrument (kernel : Kernel) (streams : List Bytes) (instrument : Instrument) :
    Outcome (EnvelopePlaces × List Bytes) := do
  let (volume, streams) ← placeEnvelope streams instrument.volume kernel.supportsReleases
  let (arpeggio, streams) ← placeEnvelope streams instrument.arpeggio false
  let (pitch, streams) ← placeEnvelope streams instrument.pitch false
  return (⟨volume, arpeggio, pitch⟩, streams)

def placeAll (kernel : Kernel) :
    (streams : List Bytes) → List Instrument → Outcome InstrumentTables
  | streams, [] => pure { streams }
  | streams, instrument :: rest => do
    let (places, streams) ← placeInstrument kernel streams instrument
    let tables ← placeAll kernel streams rest
    return { tables with places := places :: tables.places }

def build (project : Project) (kernel : Kernel) : Outcome InstrumentTables := do
  if project.instruments.length > Limits.instruments then
    throw (.unexportable (.tooManyInstruments project.instruments.length))
  placeAll kernel [defaultStream] project.instruments

end InstrumentTables

namespace Export

open Assembly

/-- A name as it stands in a comment, on one line. -/
def commentText (name : Text.Points) : String :=
  String.ofList (name.map fun
    | .char c => if Text.isPrintable c then c else ' '
    | .half _ => ' ')

def checkSample (sample : Sample) : Outcome Unit :=
  if sample.data.length / 16 > Limits.sampleUnits then
    throw (.unexportable (.sampleTooLong sample.name sample.data.length))
  else pure ()

def checkSamples (project : Project) : Outcome Unit := do
  project.samples.forM checkSample
  if project.sampleSize > Limits.sampleBank then
    throw (.unexportable (.bankTooLarge project.sampleSize))

def instrumentLines (number : Nat) (instrument : Instrument) (places : EnvelopePlaces) :
    List Line :=
  let flags := instrument.duty % 4 * 64 + 0x30
  let comment := "instrument " ++ String.ofList (Text.hexPair number) ++ " (" ++
    commentText instrument.name ++ ")"
  [.bytes [flags] comment,
    .words ([places.volume, places.arpeggio, places.pitch].map fun n => .label (.envelope n)),
    .bytes [0]]

/-- The pitch with the loop flag set or left as it is. -/
def sampleFlags (pitch : Int) (loop : Bool) : Int :=
  if loop ∧ pitch / 64 % 2 = 0 then pitch + 64 else pitch

def sampleLine (project : Project) (slot : Nat) (entry : Option SampleMapping) : Outcome Line :=
  match entry.bind fun mapping => mapping.sample.map (mapping, ·) with
  | none => pure (.sample 0 0 0 s!"{slot} ")
  | some (mapping, sample) => do
    let address ← project.sampleAddress sample
    return .sample (address / 64) (sample.data.length / 16)
      (sampleFlags mapping.pitch mapping.loop) s!"{slot} ({commentText sample.name})"

/-- The sample table has an entry for every slot but the first. -/
def sampleTable (project : Project) : Outcome (List Line) :=
  if project.usesSamples then do
    let entries := (project.mapping.zipIdx.drop 1).take (Project.mappingSlots - 1)
    let lines ← entries.mapM fun (entry, slot) => sampleLine project slot entry
    return lines ++ [.blank]
  else pure []

def envelopeLines (streams : List Bytes) : List Line :=
  streams.zipIdx.flatMap fun (stream, number) =>
    [.label (.envelope number), .bytes (stream.map fun b => (b.toNat : Int))]

def tableLines (project : Project) (tables : InstrumentTables) : Outcome (List Line) := do
  if project.usesSamples then checkSamples project
  let instruments := (project.instruments.zip tables.places).zipIdx.flatMap
    fun ((instrument, places), number) => instrumentLines number instrument places
  let samples ← sampleTable project
  return .label .instruments :: instruments ++ [.blank, .label .samples] ++ samples ++
    envelopeLines tables.streams

end Export

end Chiptune
