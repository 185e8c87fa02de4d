import Chiptune.Arrangement.Build
import Chiptune.CommandLine.Grammar
import Chiptune.Export.Document

/-!
# Settings of a run

The options of the program, their defaults and their admissible values. An option whose value is a
lone separator is set to nothing; whether that matters shows when the value is needed.
-/

namespace Chiptune.CommandLine

open Text (Points)

structure Settings where
  input : Points := []
  output : Option Points := none
  dialect : Option Assembly.Dialect := some .ca65
  kernel : Option Kernel := some .extended
  rowsPerBeat : Option Int := some 4
  patternLength : Option Int := some 64
  speed : Option Int := some 6
  /-- The tempo of the score counts where no tempo is asked for. -/
  tempo : Option (Option Int) := none
  channels : Option Int := some 3
  drumChannel : Option Int := some 9
  instrumentMap : Option Points := none
  useVelocity : Bool := false
  loopStart : Option Int := none
  name : Option Points := none
  sampleOutput : Option Points := none
  binary : Bool := false
  songOffset : Option Int := some 0
  sampleOffset : Option Int := some 0xC000
  capacity : Option Int := some Limits.packedPatterns
  deriving Repr

namespace Settings

def specs : List OptionSpec :=
  ["--dialect", "--kernel", "--rows-per-beat", "--pattern-length", "--speed", "--tempo",
    "--channels", "--noise-channel", "--instrument-map", "--loop-start-row", "--name",
    "--dmc-output", "--song-offset", "--dpcm-offset", "--max-packed-patterns"].map (⟨·, true⟩) ++
  ["--help", "--use-velocity", "--binary"].map (⟨·, false⟩)

def readNumber? (value : Points) : Option Int := Text.readInt? .decimal value.chars

/-- An address is hexadecimal after a dollar sign; otherwise it may announce its base. -/
def readAddress? (value : Points) : Option Int :=
  match value.chars with
  | '$' :: digits => Text.readInt? .hexadecimal digits
  | s => Text.readInt? .announced s

/-- A path or a name that is empty counts as none. -/
def nonEmpty? (value : Points) : Option Points := if value.isEmpty then none else some value

/-- The value of an option, or nothing for a separator, unless a value is not admitted. -/
def admit? {α : Type} (read : Points → Option α) : Option Points → Option (Option α)
  | none => some none
  | some value => (read value).map some

/-- The one of `choices` that goes by a name. -/
def among {α : Type} (choices : List α) (nameOf : α → String) (text : Points) : Option α :=
  choices.find? fun choice => Text.points (nameOf choice) == text

/-- The settings with one more option set, unless its value is not admitted. -/
def set? (settings : Settings) (name : String) (value : Option Points) : Option Settings :=
  let number := admit? readNumber? value
  let address := admit? readAddress? value
  match name with
  | "--dialect" => (admit? (among Assembly.Dialect.all (·.name)) value).map
    fun dialect => { settings with dialect }
  | "--kernel" => (admit? (among Kernel.all (·.name)) value).map
    fun kernel => { settings with kernel }
  | "--rows-per-beat" => number.map fun n => { settings with rowsPerBeat := n }
  | "--pattern-length" => number.map fun n => { settings with patternLength := n }
  | "--speed" => number.map fun n => { settings with speed := n }
  | "--tempo" => number.map fun n => { settings with tempo := some n }
  | "--channels" => number.map fun n => { settings with channels := n }
  | "--noise-channel" => number.map fun n => { settings with drumChannel := n }
  | "--instrument-map" => some { settings with instrumentMap := value.bind nonEmpty? }
  | "--loop-start-row" => number.map fun n => { settings with loopStart := n }
  | "--name" => some { settings with name := value }
  | "--dmc-output" => some { settings with sampleOutput := value.bind nonEmpty? }
  | "--song-offset" => address.map fun n => { settings with songOffset := n }
  | "--dpcm-offset" => address.map fun n => { settings with sampleOffset := n }
  | "--max-packed-patterns" => number.map fun n => { settings with capacity := n }
  | _ => none

def setFlag? (settings : Settings) (name : String) : Option Settings :=
  match name with
  | "--use-velocity" => some { settings with useVelocity := true }
  | "--binary" => some { settings with binary := true }
  | _ => none

/-- The settings after the assignments, in whose order the operands are the input and the output. -/
def assign? : (operands : Nat) → Settings → List Assignment → Option Settings
  | _, settings, [] => some settings
  | operands, settings, .option name value :: rest => do
    assign? operands (← settings.set? name value) rest
  | operands, settings, .flag name :: rest => do
    assign? operands (← settings.setFlag? name) rest
  | 0, settings, .operand value :: rest => assign? 1 { settings with input := value.getD [] } rest
  | operands + 1, settings, .operand value :: rest =>
    assign? (operands + 2) { settings with output := value } rest

inductive Request
  | run (settings : Settings)
  | help
  | refused

def ofWords (words : List Points) : Request :=
  let (assignments, ending) := readWords specs 2 words
  match assign? 0 {} assignments, ending with
  | none, _ => .refused
  | some _, .refused => .refused
  | some _, .help => .help
  | some settings, .complete => .run settings

end Settings

/-- The numbers that every run needs. -/
structure Numbers where
  rowsPerBeat : Int
  patternLength : Int
  speed : Int
  tempo : Option Int
  channels : Int
  capacity : Int
  deriving Repr

namespace Settings

/-- What the song is called. -/
def songName (settings : Settings) : Points :=
  match settings.name with
  | some name => if name.isEmpty then Arrangement.nameOfPath settings.input else name
  | none => Arrangement.nameOfPath settings.input

def arrangement (settings : Settings) (numbers : Numbers) : Arrangement.Options where
  name := settings.name.map (·.shown)
  rowsPerBeat := numbers.rowsPerBeat
  patternLength := numbers.patternLength
  speed := numbers.speed
  tempo := numbers.tempo
  channels := numbers.channels
  drumChannel := settings.drumChannel
  useVelocity := settings.useVelocity
  loopStart := settings.loopStart

end Settings

end Chiptune.CommandLine
