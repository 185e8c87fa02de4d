import Chiptune.Assoc
import Chiptune.FileTree
import Chiptune.Json.Document
import Chiptune.Music.Instrument
import Chiptune.Sound.Kernel
import Chiptune.Text.Occurrence

/-!
# Instrument maps

A JSON document that says which instrument a MIDI program plays and which sample a drum note. All
that it says is brought into the ranges that a project admits.
-/

namespace Chiptune

structure InstrumentSpec where
  duty : Int := 2
  volume : Option Envelope := none
  arpeggio : Option Envelope := none
  pitch : Option Envelope := none
  /-- The path of a tracker instrument file that is preferred to all the rest. -/
  fti : Option Text.Points := none
  deriving DecidableEq, Repr

structure SampleSpec where
  file : Text.Points
  pitch : Int := 15
  loop : Bool := false
  deriving DecidableEq, Repr

structure InstrumentMap where
  default : InstrumentSpec := {}
  programs : List (Int × InstrumentSpec) := []
  defaultProgram : Int := 0
  samples : List (Int × SampleSpec) := []
  deriving DecidableEq, Repr

namespace InstrumentMap

abbrev Fields := List (String × Json)

def clampedInt (low high : Int) (value : Json) : Outcome Int := do
  return Kernel.clamp low high (← value.toInt)

/-- A field that is there, or nothing. -/
def field? {α : Type} (fields : Fields) (key : String) (read : Json → Outcome α) :
    Outcome (Option α) :=
  match fields.lookup key with
  | some value => do return some (← read value)
  | none => pure none

/-- The values of an envelope with its loop and release points, which must lie inside of it. An
envelope without values is none. -/
def makeEnvelope (values : List Int) (loop release : Int) : Option Envelope :=
  if values.isEmpty then none
  else some {
    values
    loop := if 0 ≤ loop ∧ loop < values.length then loop else -1
    release := if 0 < release ∧ release < values.length then release else -1 }

def readEnvelope (low high : Int) : Json → Outcome (Option Envelope)
  | .null => pure none
  | .array items => do
    return makeEnvelope (← items.mapM (clampedInt low high)) (-1) (-1)
  | .object fields => do
    let items := (← field? fields "values" Json.toItems).getD []
    let values ← items.mapM (clampedInt low high)
    if values.isEmpty then return none
    let loop := (← field? fields "loop" Json.toInt).getD (-1)
    let release := (← field? fields "release" Json.toInt).getD (-1)
    return makeEnvelope values loop release
  | _ => throw .notAnObject

/-- A path in the document is relative to the folder of the document. -/
def readPath (folder : Text.Points) : Json → Outcome Text.Points
  | .string path => pure (Text.Path.join folder path)
  | _ => throw .wrongKind

def readFile? (folder : Text.Points) (fields : Fields) : Outcome (Option Text.Points) :=
  match fields.lookup "fti" with
  | some value => if value.isTruthy then do return some (← readPath folder value) else pure none
  | none => pure none

def readFields (folder : Text.Points) (defaults : InstrumentSpec) (fields : Fields) :
    Outcome InstrumentSpec := do
  let duty ← field? fields "duty" (clampedInt 0 3)
  let volume ← field? fields "volume" (readEnvelope 0 15)
  let arpeggio ← field? fields "arpeggio" (readEnvelope (-64) 63)
  let pitch ← field? fields "pitch" (readEnvelope (-64) 63)
  let fti ← readFile? folder fields
  return {
    duty := duty.getD defaults.duty
    volume := volume.getD defaults.volume
    arpeggio := arpeggio.getD defaults.arpeggio
    pitch := pitch.getD defaults.pitch
    fti := fti <|> defaults.fti }

def fieldNames : List String := ["duty", "volume", "arpeggio", "pitch"]

/-- Whether a value that is no object holds a word, as an item or as a part of a text. Other values
cannot be asked. -/
def holdsWord (word : String) : Json → Outcome Bool
  | .array items => pure (items.any (Json.isString word))
  | .string text => pure (Text.occursIn word.toList text.chars)
  | _ => throw .wrongKind

/-- An instrument whose missing fields are those of `defaults`. A value that counts as false has
none. -/
def readInstrument (folder : Text.Points) (defaults : InstrumentSpec) (raw : Json) :
    Outcome InstrumentSpec :=
  if !raw.isTruthy then pure defaults
  else match raw with
    | .object fields => readFields folder defaults fields
    | _ => do
      for name in fieldNames do
        if ← holdsWord name raw then throw .wrongKind
      throw .notAnObject

def readSample (folder : Text.Points) : Json → Outcome SampleSpec
  | .object fields => do
    let some file := fields.lookup "file" | throw (.arrangement .sampleWithoutFile)
    let file ← readPath folder file
    let pitch ← field? fields "pitch" (clampedInt 0 15)
    let loop := (fields.lookup "loop").map Json.isTruthy
    return { file, pitch := pitch.getD 15, loop := loop.getD false }
  | raw => do
    if ← holdsWord "file" raw then throw .wrongKind
    throw (.arrangement .sampleWithoutFile)

/-- The entries of a field whose keys are numerals. Other keys are passed over. -/
def readTable {α : Type} (fields : Fields) (key : String) (read : Json → Outcome α) :
    Outcome (List (Int × α)) := do
  let entries := (← field? fields key Json.toFields).getD []
  entries.foldlM (fun table (key, raw) =>
    match Text.readInt? .decimal key.toList with
    | some number => do return Assoc.put table number (← read raw)
    | none => pure table) []

/-- The map in a document that lies in `folder`. -/
def ofJson (folder : Text.Points) (document : Json) : Outcome InstrumentMap := do
  let fields ← document.toFields
  let default ← readInstrument folder {} ((fields.lookup "default").getD .null)
  let programs ← readTable fields "programs" (readInstrument folder { default with fti := none })
  let samples ← readTable fields "samples" (readSample folder)
  let defaultProgram ← field? fields "default_program" Json.toInt
  return { default, programs, samples, defaultProgram := defaultProgram.getD 0 }

/-- Reads the map at a path. -/
def load (tree : FileTree) (path : Text.Points) : Outcome InstrumentMap := do
  let bytes ← tree.read path
  let some text := String.fromUTF8? ⟨bytes.toArray⟩ | throw .notUtf8
  match Json.ofText text with
  | .ok document =>
    ofJson (Text.Path.directory (Text.Path.absolute tree.workingDirectory path)) document
  | .error .malformed => throw (.arrangement (.badInstrumentMap path))
  | .error .numeralTooLong => throw .notANumeral
  | .error .tooDeep => throw .nestedTooDeep

end InstrumentMap

end Chiptune
