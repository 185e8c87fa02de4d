/-!
# Code points

A text that is written with escapes, the name of a file or a word of a command line can hold one
half of a surrogate pair alone, which is no character. Such a text is a list of code points; every
other text is a `String`.
-/

namespace Chiptune.Text

inductive CodePoint
  | char (c : Char)
  | half (n : Nat)
  deriving DecidableEq, Repr

namespace CodePoint

/-- The character, or the one that stands for what is no character. -/
def toChar : CodePoint → Char
  | char c => c
  | half _ => '\ufffd'

def isChar : CodePoint → Bool
  | char _ => true
  | half _ => false

/-- The halves that stand for single bytes in the name of a file. -/
def isByte (n : Nat) : Bool := 0xDC80 ≤ n && n < 0xDD00

/-- Whether the name of a file can hold the code point. -/
def isNamable : CodePoint → Bool
  | char _ => true
  | half n => isByte n

/-- The bytes that the code point takes in the name of a file. -/
def size : CodePoint → Nat
  | char c => c.utf8Size
  | half _ => 1

end CodePoint

abbrev Points := List CodePoint

/-- The code points of a text without lone halves. -/
def points (s : String) : Points := s.toList.map .char

instance : Coe String Points := ⟨points⟩

namespace Points

def chars (s : Points) : List Char := s.map CodePoint.toChar

/-- Whether the text is one that UTF-8 can encode. -/
def isWhole (s : Points) : Bool := s.all CodePoint.isChar

def shown (s : Points) : String := String.ofList s.chars

end Points

end Chiptune.Text
