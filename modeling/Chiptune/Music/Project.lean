import Chiptune.Music.Instrument
import Chiptune.Music.Sample
import Chiptune.Music.Song
import Chiptune.Total

/-!
# Projects

Songs, the instruments that their notes name, and the samples with the notes they are mapped to.
-/

namespace Chiptune

structure Project where
  name : String := "untitled"
  songs : List Song := []
  instruments : List Instrument := []
  samples : List Sample := []
  mapping : List (Option SampleMapping) := List.replicate 64 none
  deriving DecidableEq, Repr

namespace Project

/-- The first note value is mapped to slot 0, which the driver never plays. -/
def firstSampleNote : Int := 12

def mappingSlots : Nat := 64

def addSong (project : Project) (song : Song) : Project :=
  { project with songs := project.songs ++ [song] }

/-- One more than the largest identifier of a song, or zero for the first one. -/
def freshSongId (project : Project) : Int :=
  match project.songs.map (·.id) with
  | [] => 0
  | id :: rest => rest.foldl max id + 1

def freshInstrumentId (project : Project) : InstrumentId :=
  (project.instruments.map (·.id + 1)).foldl max 0

def createSong (project : Project) (name : String) (tempo speed : Int)
    (patternLength length : Nat) : Project :=
  project.addSong (.blank project.freshSongId name tempo speed patternLength length)

def createInstrument (project : Project) (name : String) (duty : Int) : Project :=
  let instrument := { id := project.freshInstrumentId, name, duty }
  { project with instruments := project.instruments ++ [instrument] }

/-- Removes the first song that cannot be told from the one at `position`. -/
def deleteSong (project : Project) (position : Nat) : Outcome Project := do
  let some song := project.songs[position]? | throw .outOfRange
  let first := (project.songs.take position).findIdx (·.sameContent song)
  return { project with songs := project.songs.eraseIdx first }

def instrumentsUsed (project : Project) : List InstrumentId :=
  project.songs.flatMap Song.instrumentsUsed

def deleteUnusedInstruments (project : Project) : Project :=
  let used := project.instrumentsUsed
  { project with instruments := project.instruments.filter (used.contains ·.id) }

/-- The place of an instrument in the list, the last one if it is there more than once. -/
def instrumentIndex? (project : Project) (id : InstrumentId) : Option Nat :=
  (project.instruments.reverse.findIdx? (·.id == id)).map (project.instruments.length - 1 - ·)

/-- The slot of the mapping that a note value plays. -/
def mappingSlot? (note : Int) : Option Nat :=
  let slot := note - firstSampleNote
  if 1 ≤ slot ∧ slot < mappingSlots then some slot.toNat else none

/-- Maps a sample to a note value and takes it into the project if it is not there yet. -/
def mapSample (project : Project) (note : Int) (sample : Sample) (pitch : Int) (loop : Bool) :
    Outcome Project := do
  let some slot := mappingSlot? note | throw (.noSampleSlot note)
  let known := project.samples.any (·.id == sample.id)
  return { project with
    samples := if known then project.samples else project.samples ++ [sample]
    mapping := project.mapping.set slot (some ⟨some sample, pitch, loop⟩) }

def usesSamples (project : Project) : Bool :=
  project.mapping.any fun entry => (entry.bind (·.sample)).isSome

/-- The bytes that the samples before the wanted one occupy. -/
def addressIn (wanted : Sample) : List Sample → Outcome Nat
  | [] => throw (.foreignSample wanted.name)
  | sample :: rest =>
    if sample.id = wanted.id then pure 0 else do
      return sample.alignedSize + (← addressIn wanted rest)

def sampleAddress (project : Project) (sample : Sample) : Outcome Nat :=
  addressIn sample project.samples

def sampleSize (project : Project) : Nat := total Sample.alignedSize project.samples

/-- All samples one after the other, each filled up with zeros to its aligned size. -/
def sampleBlob (project : Project) : Bytes := project.samples.flatMap Sample.padded

end Project

end Chiptune
