import Chiptune.Error
import Chiptune.Text.Blank
import Chiptune.Text.Case
import Chiptune.Text.Hex

/-!
# Dialects of assembly text

Three assemblers read the music data. They differ in the names of the directives, in the mark of
a local label and in the operator for the low byte of an address.
-/

namespace Chiptune.Assembly

structure Dialect where
  name : String
  byteDirective : String
  wordDirective : String
  localMark : String
  lowByte : String
  deriving DecidableEq, Repr

namespace Dialect

def nesasm : Dialect := ⟨"nesasm", ".db", ".dw", ".", "LOW"⟩
def ca65 : Dialect := ⟨"ca65", ".byte", ".word", "@", ".lobyte"⟩
def asm6 : Dialect := ⟨"asm6", "db", "dw", "@", "<"⟩

def all : List Dialect := [nesasm, ca65, asm6]

def named? (name : String) : Outcome Dialect :=
  let small := String.ofList (Text.lower name.toList)
  match all.find? (·.name == small) with
  | some dialect => pure dialect
  | none => throw (.unknownDialect name)

/-- Bytes in hexadecimal, of numbers taken modulo 256. -/
def byteList (values : List Int) : String :=
  String.intercalate "," (values.map fun v => "$" ++ String.ofList (Text.hexPair (v % 256).toNat))

def bytesLine (dialect : Dialect) (values : List Int) (comment : String) : String :=
  let line := "\t" ++ dialect.byteDirective ++ " " ++ byteList values
  if comment.isEmpty then line else line ++ "\t;" ++ comment

def wordsLine (dialect : Dialect) (operands : List String) : String :=
  "\t" ++ dialect.wordDirective ++ " " ++ String.intercalate "," operands

end Dialect

/-- A label made of a name: small letters, digits and underscores, and no digit in front. -/
def labelName (name : String) : String :=
  let spelled := (Text.lower (Text.trim name.toList)).map fun c => if c.isAlphanum then c else '_'
  match spelled with
  | [] => "_"
  | c :: _ => String.ofList (if c.isDigit then '_' :: spelled else spelled)

end Chiptune.Assembly
