import Chiptune.Music.Project
import Chiptune.Sound.Kernel

/-!
# Preparing a project for a kernel

The songs that are not wanted are left out, then the instruments that no note uses. Releases are
brought into the form that the kernel can play, and every instrument gets a volume envelope.

Here an envelope and its list of values belong to one instrument in one role. The project that is
prepared may share them, and a change of a shared one is seen by all who hold it; that is described
in `Export.InPlace`, of which this is the case in which nothing is shared.
-/

namespace Chiptune

namespace Envelope

/-- A release must come after the loop point and leave a value to hold. -/
def sanitised (env : Envelope) : Envelope :=
  if 0 ≤ env.release ∧
      (env.release = 0 ∨ env.release ≥ env.values.length ∨ env.release ≤ env.loop) then
    { env with release := -1 }
  else env

/-- The envelope up to its release, for a kernel that never releases a note. -/
def cutAtRelease (env : Envelope) : Envelope :=
  if 0 ≤ env.release then
    let values := env.values.take env.release.toNat
    { values, release := -1, loop := if env.loop ≥ values.length then -1 else env.loop }
  else env

/-- What a kernel makes of the release of a volume envelope. -/
def mended (kernel : Kernel) : Envelope → Envelope :=
  if kernel.supportsReleases then sanitised else cutAtRelease

/-- A constant full volume stands for a missing volume envelope. -/
def orFullVolume : Option Envelope → Envelope
  | some env => if env.values.isEmpty then { values := [Note.loudest] } else env
  | none => { values := [Note.loudest] }

end Envelope

def Note.withoutRelease (note : Note) : Note :=
  if note.isRelease then { note with value := emptyValue } else note

/-- The instrument for a kernel, if it shares its envelopes with no other instrument or role. -/
def Instrument.fitted (kernel : Kernel) (instrument : Instrument) : Instrument :=
  let volume := instrument.volume.map (Envelope.mended kernel)
  { instrument with volume := some (Envelope.orFullVolume volume) }

def Song.fitted (kernel : Kernel) (song : Song) : Song :=
  if kernel.supportsReleases then song else song.mapNotes Note.withoutRelease

namespace Project

/-- The songs with the wanted identifiers, all of them if there is no choice. -/
def select (project : Project) (wanted : Option (List Int)) : Project :=
  match wanted with
  | none => project
  | some ids => { project with songs := project.songs.filter (ids.contains ·.id) }

def prepare (project : Project) (wanted : Option (List Int)) (kernel : Kernel) : Project :=
  let project := project.select wanted
  let project := deleteUnusedInstruments { project with
    songs := project.songs.map (·.fitted kernel) }
  { project with instruments := project.instruments.map (·.fitted kernel) }

end Project

end Chiptune
