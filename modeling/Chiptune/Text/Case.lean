/-!
# Small letters

Names are compared and spelled in small ASCII letters. Besides the capital letters of ASCII two
characters have a small form that holds one: the dotted capital I, which becomes two characters,
and the sign for kelvin. All others stay as they are.
-/

namespace Chiptune.Text

def lowerChar (c : Char) : List Char :=
  if c = '\u0130' then ['i', '\u0307'] else if c = '\u212a' then ['k'] else [c.toLower]

def lower (s : List Char) : List Char := s.flatMap lowerChar

end Chiptune.Text
