import Chiptune.Assembly.Line
import Chiptune.Text.Lines
import Chiptune.Text.Numeral

/-!
# Statements of assembly text

What a line of text asks of the assembler, and what an operand stands for. A semicolon starts a
comment; blanks around a statement and around its operands do not count.
-/

namespace Chiptune.Assembly

inductive Statement
  | nothing
  | label (name : List Char)
  /-- Operands of one byte or of two. -/
  | data (width : Nat) (operands : List (List Char))
  deriving DecidableEq, Repr

namespace Statement

def withoutComment (line : List Char) : List Char := line.takeWhile (· != ';')

/-- The operands that are not empty. -/
def operands (text : List Char) : List (List Char) :=
  ((text.splitOn ',').map Text.trim).filter (!·.isEmpty)

/-- The statement of a line, if it is one. -/
def ofLine? (dialect : Dialect) (line : List Char) : Option Statement :=
  let code := Text.trim (withoutComment line)
  let directive := code.takeWhile (· != ' ')
  let rest := (code.dropWhile (· != ' ')).drop 1
  if code.isEmpty then some nothing
  else if directive = dialect.byteDirective.toList then some (data 1 (operands rest))
  else if directive = dialect.wordDirective.toList then some (data 2 (operands rest))
  else if code.getLast? = some ':' then some (label code.dropLast)
  else none

end Statement

def isSymbolStart (c : Char) : Bool := c.isAlpha || c == '_' || c == '.' || c == '@'

def isSymbolPart (c : Char) : Bool := isSymbolStart c || c.isDigit

/-- A name of a label, or such a name with a distance to subtract after a minus sign. -/
def isSymbol (operand : List Char) : Bool :=
  match operand with
  | [] => false
  | c :: rest =>
    isSymbolStart c && match rest.dropWhile isSymbolPart with
      | [] => true
      | '-' :: digits => !digits.isEmpty && digits.all Char.isDigit
      | _ => false

/-- A decimal number, or a hexadecimal one after a dollar sign. -/
def number? (operand : List Char) : Option Int :=
  match operand with
  | '$' :: digits => Text.readInt? .hexadecimal (Text.trim digits)
  | _ => Text.readInt? .decimal operand

def number (operand : List Char) : Outcome Int :=
  match number? operand with
  | some n => pure n
  | none => throw (.assembly (.badOperand (String.ofList operand)))

end Chiptune.Assembly
