import Chiptune.Text.CodePoint
import Chiptune.Text.Hex
import Chiptune.Text.Printable

/-!
# Quoted text

A text in a message stands between apostrophes, or between quotation marks if it holds an
apostrophe and no quotation mark. Code points that cannot be printed are written as escapes.
-/

namespace Chiptune.Text

def padLeft (width : Nat) (s : List Char) : List Char := List.replicate (width - s.length) '0' ++ s

/-- The escape of a code point, in as few digits as its size allows. -/
def codeEscape (n : Nat) : List Char :=
  if n < 0x100 then '\\' :: 'x' :: padLeft 2 (hexDigits n)
  else if n < 0x10000 then '\\' :: 'u' :: padLeft 4 (hexDigits n)
  else '\\' :: 'U' :: padLeft 8 (hexDigits n)

def escapeChar (quote c : Char) : List Char :=
  if c = quote ∨ c = '\\' then ['\\', c]
  else if c = '\t' then ['\\', 't']
  else if c = '\n' then ['\\', 'n']
  else if c = '\r' then ['\\', 'r']
  else if isPrintable c then [c]
  else codeEscape c.toNat

def escapePoint (quote : Char) : CodePoint → List Char
  | .char c => escapeChar quote c
  | .half n => codeEscape n

def quoted (s : Points) : String :=
  let quote := if s.contains (.char '\'') && !s.contains (.char '"') then '"' else '\''
  String.ofList (quote :: s.flatMap (escapePoint quote) ++ [quote])

end Chiptune.Text
