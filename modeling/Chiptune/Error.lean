import Chiptune.Limits
import Chiptune.Text.Hex
import Chiptune.Text.Quoted

/-!
# Causes of failure

Everything that can go wrong, by cause. `Error.message` holds the wording of all of them.
-/

namespace Chiptune

inductive FileError
  | notFound (path : Text.Points)
  | isDirectory (path : Text.Points)
  | notDirectory (path : Text.Points)
  | nameTooLong (path : Text.Points)
  deriving DecidableEq, Repr

/-- The project does not fit the sound driver. -/
inductive ExportError
  | envelopeTooLong (size : Nat)
  | tooManyInstruments (count : Nat)
  | sampleTooLong (name : Text.Points) (size : Nat)
  | bankTooLarge (size : Nat)
  | noSongs
  | tooManySongs (count : Nat)
  | songTooComplex (name : Text.Points)
  deriving DecidableEq, Repr

inductive AssemblyError
  | badLine (line : String)
  | badOperand (operand : String)
  | undefinedLabel (name : String)
  deriving DecidableEq, Repr

/-- The bytes are no MIDI file. -/
inductive MidiFileError
  | endOfData
  | noHeader
  | noTrackHeader
  | noRunningStatus
  | undefinedStatus (status : UInt8)
  | dataByteTooLarge
  | surplusData
  | badExclusiveData
  | messageTooLong (size : Nat)
  | badKeySignature
  deriving DecidableEq, Repr

/-- The MIDI file or the instrument map cannot be turned into a project. -/
inductive ArrangementError
  | optionsNotPositive
  | badChannelCount
  | unsupportedMidiType
  | noNotes
  | badInstrumentMap (path : Text.Points)
  | sampleWithoutFile
  | unreadableSample (path : Text.Points) (cause : FileError)
  | noSampleSlot (note : Int)
  deriving DecidableEq, Repr

inductive Error
  /-- A row, slot, channel, song or byte beyond the end of what holds it. -/
  | outOfRange
  /-- A value that has to fit into one byte does not. -/
  | notAByte
  | notANumeral
  | notANumber
  | infinite
  | divisionByZero
  /-- A value of a kind that does not admit what is asked of it. -/
  | wrongKind
  | notAnObject
  | nestedTooDeep
  | emptySlot
  | notUtf8
  /-- A text that holds half of a surrogate pair. -/
  | notEncodable
  | nulInPath
  | releaseIntoRun
  | noSampleSlot (note : Int)
  | foreignSample (name : Text.Points)
  | unknownKernel (name : String)
  | unknownDialect (name : String)
  /-- No kernel or no dialect is chosen. -/
  | noChoice
  | file (cause : FileError)
  | unexportable (cause : ExportError)
  | assembly (cause : AssemblyError)
  | midi (cause : MidiFileError)
  | arrangement (cause : ArrangementError)
  deriving DecidableEq, Repr

def FileError.message : FileError → String
  | notFound path => "[Errno 2] No such file or directory: " ++ Text.quoted path
  | isDirectory path => "[Errno 21] Is a directory: " ++ Text.quoted path
  | notDirectory path => "[Errno 20] Not a directory: " ++ Text.quoted path
  | nameTooLong path => "[Errno 36] File name too long: " ++ Text.quoted path

def ExportError.message : ExportError → Text.Points
  | envelopeTooLong size =>
    s!"envelope compiles to {size} bytes, the driver addresses {Limits.envelopeBytes}"
  | tooManyInstruments count =>
    s!"{count} instruments used, the driver supports {Limits.instruments}"
  | sampleTooLong name size =>
    "sample '" ++ name ++
      s!"' is {size} bytes, the driver supports {Limits.sampleUnits * 16 + 15}"
  | bankTooLarge size => s!"samples use {size} bytes, the driver supports {Limits.sampleBank}"
  | noSongs => "no songs to export"
  | tooManySongs count => s!"{count} songs requested, the driver supports {Limits.songs}"
  | songTooComplex name => "song '" ++ name ++ "' is too complex to export"

def AssemblyError.message : AssemblyError → String
  | badLine line => s!"cannot assemble line '{line}'"
  | badOperand operand => s!"bad operand '{operand}'"
  | undefinedLabel name => s!"undefined label '{name}'"

def MidiFileError.message : MidiFileError → String
  | endOfData => ""
  | noHeader => "MThd not found. Probably not a MIDI file"
  | noTrackHeader => "no MTrk header at start of track"
  | noRunningStatus => "running status without last_status"
  | undefinedStatus status =>
    "undefined status byte 0x" ++ String.ofList (Text.hexDigits status.toNat)
  | dataByteTooLarge | badExclusiveData => "data byte must be in range 0..127"
  | surplusData => "wrong number of bytes in message"
  | messageTooLong size => s!"Message length {size} exceeds maximum length 1000000"
  | badKeySignature => "Could not decode key signature"

def noSampleSlotText (note : Int) : String := s!"note {note} has no DPCM mapping slot"

def ArrangementError.message : ArrangementError → Text.Points
  | optionsNotPositive => "rows per beat, pattern length and speed must be > 0"
  | badChannelCount => "channels must be 1..3"
  | unsupportedMidiType => "unsupported MIDI type, use Type 0 or Type 1"
  | noNotes => "no note events found in MIDI"
  | badInstrumentMap path => "bad instrument map '" ++ path ++ "': <json error>"
  | sampleWithoutFile => "sample entry without 'file'"
  | unreadableSample path cause => "cannot read sample '" ++ path ++ "': " ++ cause.message
  | noSampleSlot note => noSampleSlotText note

def Error.message : Error → Text.Points
  | outOfRange => "index out of range"
  | notAByte => "byte must be in range 0..255"
  | notANumeral => "not an integer"
  | notANumber => "not a number"
  | infinite => "number too large"
  | divisionByZero => "division by zero"
  | wrongKind => "value of the wrong kind"
  | notAnObject => "not an object"
  | nestedTooDeep => "nested too deep"
  | emptySlot => "slot without a pattern"
  | notUtf8 => "text is not UTF-8"
  | notEncodable => "text is not encodable"
  | nulInPath => "embedded null byte"
  | releaseIntoRun => "release jumps into a run"
  | noSampleSlot note => noSampleSlotText note
  | foreignSample name => "sample '" ++ name ++ "' is not part of the project"
  | unknownKernel name =>
    s!"unknown kernel '{name}' (expected one of famitone2, famitone2fs)"
  | unknownDialect name =>
    s!"unknown dialect '{name}' (expected one of nesasm, ca65, asm6)"
  | noChoice => "nothing chosen"
  | file cause => cause.message
  | unexportable cause => cause.message
  | assembly cause => cause.message
  | midi cause => cause.message
  | arrangement cause => cause.message

abbrev Outcome (α : Type) := Except Error α

end Chiptune
