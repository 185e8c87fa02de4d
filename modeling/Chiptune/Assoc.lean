/-!
# Ordered tables

Lists of keys with values in the order in which the keys were first set.
-/

namespace Chiptune.Assoc

variable {α β : Type} [BEq α]

/-- Sets the value of a key. A key that is there already keeps its place. -/
def put (table : List (α × β)) (key : α) (value : β) : List (α × β) :=
  if table.any (·.1 == key) then
    table.map fun entry => if entry.1 == key then (entry.1, value) else entry
  else table ++ [(key, value)]

end Chiptune.Assoc
