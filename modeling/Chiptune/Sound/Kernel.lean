import Chiptune.Error
import Chiptune.Music.Note
import Chiptune.Text.Case

/-!
# Kernels of the sound driver

The driver comes in two versions. The legacy one packs a note and an empty row into one byte; the
extended one has a release note and a volume column.
-/

namespace Chiptune

inductive Kernel
  | legacy
  | extended
  deriving DecidableEq, Repr

namespace Kernel

def name : Kernel → String
  | legacy => "famitone2"
  | extended => "famitone2fs"

def all : List Kernel := [legacy, extended]

def named? (name : String) : Outcome Kernel :=
  let small := String.ofList (Text.lower name.toList)
  match all.find? (·.name == small) with
  | some kernel => pure kernel
  | none => throw (.unknownKernel name)

/-- Most rows that one command for empty rows adds to its own. -/
def longestRun : Kernel → Nat
  | legacy => 60
  | extended => 58

def supportsReleases (kernel : Kernel) : Bool := kernel = extended

def supportsVolume (kernel : Kernel) : Bool := kernel = extended

def clamp (low high value : Int) : Int := max low (min high value)

/-- A code of seven bits with the bits of `flags` set in it. -/
def withFlags (code : Nat) (flags : Int) : Int :=
  flags / 128 * 128 + (code ||| (flags % 128).toNat : Nat)

/-- The code of a note for the legacy kernel. The lowest of its bits tells whether an empty row
follows. -/
def legacyCode (voice : Voice) (value flags : Int) : Int :=
  let pitch := if value = Note.stopValue ∨ voice = .noise then value else max 1 (value - 12)
  withFlags ((pitch % 64).toNat * 2) flags

def extendedCode (voice : Voice) (value : Int) : Int :=
  if value = Note.releaseValue ∨ value = Note.stopValue then value
  else match voice with
    | .dpcm => clamp 1 63 (value - 12)
    | .noise => value
    | _ => clamp 1 87 (value - 9)

def noteCode (kernel : Kernel) (voice : Voice) (value flags : Int) : Int :=
  match kernel with
  | legacy => legacyCode voice value flags
  | extended => extendedCode voice value

end Kernel

end Chiptune
