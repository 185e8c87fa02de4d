import Chiptune.Number.Basic
import Chiptune.Text.CodePoint
import Chiptune.Text.Numeral

/-!
# JSON values

Objects keep the order of their keys. Numbers with a fraction or an exponent are binary floating
point. Texts are code points, except in keys, where nothing depends on what is no character.
-/

namespace Chiptune

inductive Json
  | null
  | bool (value : Bool)
  | number (value : Number)
  | string (value : Text.Points)
  | array (items : List Json)
  | object (fields : List (String × Json))
  deriving Repr

namespace Json

/-- Whether the value counts as true: not null, not false, not zero and not empty. -/
def isTruthy : Json → Bool
  | null => false
  | bool value => value
  | number value => !value.isZero
  | string value => !value.isEmpty
  | array items => !items.isEmpty
  | object fields => !fields.isEmpty

/-- The integer that a number or a numeral stands for, without its fraction. -/
def toInt : Json → Outcome Int
  | bool value => pure (if value then 1 else 0)
  | number value => value.truncate
  | string value => match Text.readInt? .decimal value.chars with
    | some n => pure n
    | none => throw .notANumeral
  | _ => throw .wrongKind

def isString (text : String) : Json → Bool
  | string value => value == Text.points text
  | _ => false

/-- What the value yields one after the other: items, characters or keys. -/
def toItems : Json → Outcome (List Json)
  | array items => pure items
  | string value => pure (value.map fun point => string [point])
  | object fields => pure (fields.map fun field => string (Text.points field.1))
  | _ => throw .wrongKind

def toFields : Json → Outcome (List (String × Json))
  | object fields => pure fields
  | _ => throw .notAnObject

end Json

end Chiptune
