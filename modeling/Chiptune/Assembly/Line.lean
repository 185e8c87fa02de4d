import Chiptune.Assembly.Dialect

/-!
# Lines of assembly text

The lines of an export as data. `Line.text` spells them in a dialect, `Line.size` counts the bytes
they stand for.
-/

namespace Chiptune.Assembly

/-- Every label but the first is local to the music data. -/
inductive Label
  | musicData (name : String)
  | instruments
  | samples
  | envelope (number : Nat)
  | channel (song channel : Nat)
  | channelLoop (song channel : Nat)
  | buffer (number : Nat)
  deriving DecidableEq, Repr

def Label.text (dialect : Dialect) : Label → String
  | musicData name => name ++ "_music_data"
  | instruments => dialect.localMark ++ "instruments"
  | samples => dialect.localMark ++ "samples"
  | envelope number => s!"{dialect.localMark}env{number}"
  | channel song number => s!"{dialect.localMark}song{song}ch{number}"
  | channelLoop song number => s!"{dialect.localMark}song{song}ch{number}loop"
  | buffer number => s!"{dialect.localMark}ref{number}"

inductive Operand
  | label (label : Label)
  /-- The address `distance` bytes before a label. -/
  | before (label : Label) (distance : Nat)
  | number (value : Int)
  deriving DecidableEq, Repr

def Operand.text (dialect : Dialect) : Operand → String
  | label l => l.text dialect
  | before l distance => s!"{l.text dialect}-{distance}"
  | number value => toString value

inductive Line
  | blank
  | comment (text : String)
  | label (label : Label)
  | count (value : Nat)
  | bytes (values : List Int) (remark : String := "")
  | words (operands : List Operand)
  /-- An entry of the sample table: the place in units of 64 bytes, the length in units of sixteen,
  and the flags. -/
  | sample (place units : Nat) (flags : Int) (remark : String)
  deriving DecidableEq, Repr

namespace Line

/-- The address of the samples, which only the program that links the music data knows. -/
def sampleAddress : String := "FT_DPCM_PTR"

def text (dialect : Dialect) : Line → String
  | blank => ""
  | comment text => ";" ++ text
  | label l => l.text dialect ++ ":"
  | count value => "\t" ++ dialect.byteDirective ++ " " ++ toString value
  | bytes values remark => dialect.bytesLine values remark
  | words operands => dialect.wordsLine (operands.map (·.text dialect))
  | sample place units flags remark =>
    "\t" ++ dialect.byteDirective ++ " $" ++ String.ofList (Text.hexPair (place % 256)) ++ "+" ++
      dialect.lowByte ++ "(" ++ sampleAddress ++ "),$" ++
      String.ofList (Text.hexPair (units % 256)) ++ ",$" ++
      String.ofList (Text.hexPairInt flags) ++ "\t;" ++ remark

/-- The bytes that a line stands for. -/
def size : Line → Nat
  | blank | comment _ | label _ => 0
  | count _ => 1
  | bytes values _ => values.length
  | words operands => 2 * operands.length
  | sample .. => 3

end Line

end Chiptune.Assembly
