/-!
# Occurrences of a word in a text
-/

namespace Chiptune.Text

def occursIn (word : List Char) : List Char → Bool
  | [] => word.isEmpty
  | c :: rest => word.isPrefixOf (c :: rest) || occursIn word rest

end Chiptune.Text
