import Chiptune.Bytes
import Chiptune.Music.Instrument
import Chiptune.Text.Decimal

/-!
# Tracker instrument files

The `.fti` format: the letters FTI, a version of three characters, the type of the instrument, its
name, and a number of sequences, each of which may be absent. Volume, arpeggio, pitch and the first
duty value are taken over. A file that cannot be read completely gives no instrument.
-/

namespace Chiptune.Fti

/-- A step of reading: the value and the bytes that are left, or nothing. -/
abbrev Reader := StateT Bytes Option

def take (count : Nat) : Reader Bytes := fun bytes =>
  if count ≤ bytes.length then some (bytes.take count, bytes.drop count) else none

def byte : Reader UInt8 := fun
  | [] => none
  | b :: rest => some (b, rest)

def int32 : Reader Int := do return Bytes.signed 32 (Bytes.littleEndian (← take 4))

def require (condition : Bool) : Reader Unit := fun bytes =>
  if condition then some ((), bytes) else none

def magic : Bytes := [0x46, 0x54, 0x49]

/-- Whether the version is a number up to 2.4. -/
def isKnownVersion (version : Bytes) : Bool :=
  version.all (· < 0x80) &&
    match Text.readDecimal? (version.map fun b => Char.ofNat b.toNat) with
    | some version => version.atMost 24 10
    | none => false

def longestSequence : Nat := 253

/-- A position that lies outside of the sequence means none. -/
def positionOrNone (count : Nat) (position : Int) : Int :=
  if 0 ≤ position ∧ position < count then position else -1

/-- The items of a sequence with its loop and release points. Its setting is passed over. -/
def readSequence : Reader Envelope := do
  let count ← int32
  require (0 ≤ count && count ≤ longestSequence)
  let loop ← int32
  let release ← int32
  let _ ← int32
  let items ← take count.toNat
  return ⟨items.map fun b => Bytes.signed 8 b.toNat, positionOrNone count.toNat loop,
    positionOrNone count.toNat release⟩

/-- What sequence number `kind` means for the instrument. -/
def applySequence (instrument : Instrument) (kind : Nat) (content : Envelope) : Instrument :=
  match kind with
  | 0 => { instrument with volume := some content }
  | 1 => { instrument with arpeggio := some content }
  | 2 => { instrument with pitch := some content }
  | 4 => match content.values with
    | duty :: _ => { instrument with duty := duty % 4 }
    | [] => instrument
  | _ => instrument

/-- Reads `count` sequences from number `kind` on. -/
def readSequences : (kind count : Nat) → Instrument → Reader Instrument
  | _, 0, instrument => pure instrument
  | kind, count + 1, instrument => do
    let enabled ← byte
    if enabled = 1 then
      readSequences (kind + 1) count (applySequence instrument kind (← readSequence))
    else readSequences (kind + 1) count instrument

/-- A byte outside of ASCII is no character. -/
def nameChar (b : UInt8) : Char := if b < 0x80 then Char.ofNat b.toNat else '\ufffd'

def readInstrument (id : InstrumentId) : Reader Instrument := do
  let length ← int32
  require (0 ≤ length && length < 256)
  let name ← take length.toNat
  let count ← byte
  readSequences 0 count.toNat { id, name := String.ofList (name.map nameChar) }

def readFile (id : InstrumentId) : Reader Instrument := do
  require ((← take 3) = magic)
  require (isKnownVersion (← take 3))
  let kind ← byte
  require (kind == 0 || kind == 1)
  readInstrument id

/-- The instrument in a file, if there is one that can be read. -/
def load? (id : InstrumentId) (file : Bytes) : Option Instrument := (readFile id file).map (·.1)

end Chiptune.Fti
