/-!
# Lines of a text

A line ends at a line feed, a carriage return, the two together, or at any of the other
line and paragraph separators of Unicode. A break at the end of the text opens no further line.
-/

namespace Chiptune.Text

def isLineBreak (c : Char) : Bool :=
  let n := c.toNat
  (0x0A ≤ n && n ≤ 0x0D) || (0x1C ≤ n && n ≤ 0x1E) || n == 0x85 || n == 0x2028 || n == 0x2029

/-- `current` holds the line read so far in reverse, or nothing before its first character. -/
def linesFrom : Option (List Char) → List Char → List (List Char)
  | none, [] => []
  | some current, [] => [current.reverse]
  | current, '\r' :: '\n' :: rest => (current.getD []).reverse :: linesFrom none rest
  | current, c :: rest =>
    if isLineBreak c then (current.getD []).reverse :: linesFrom none rest
    else linesFrom (some (c :: current.getD [])) rest

def lines (s : List Char) : List (List Char) := linesFrom none s

end Chiptune.Text
