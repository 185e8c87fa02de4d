import Chiptune.Assoc
import Chiptune.Json.Value
import Chiptune.Text.Decimal

/-!
# JSON documents

The text of a JSON value. `NaN` and `Infinity` are accepted as numbers. Of several fields with one
key the last one counts and stands where the first one stood.
-/

namespace Chiptune.Json

open Text (CodePoint Points)

inductive ParseError
  | malformed
  /-- An integer with more digits than are read. -/
  | numeralTooLong
  /-- Arrays and objects inside of one another beyond what is read. -/
  | tooDeep
  deriving DecidableEq, Repr

abbrev Parsed := Except ParseError

def isSpace (c : Char) : Bool := c == ' ' || c == '\t' || c == '\n' || c == '\r'

def skipSpace (s : List Char) : List Char := s.dropWhile isSpace

/-- The rest of `s` after `word`. -/
def after? (word : String) (s : List Char) : Option (List Char) :=
  if word.toList.isPrefixOf s then some (s.drop word.length) else none

def hex4? : List Char → Option (Nat × List Char)
  | a :: b :: c :: d :: rest =>
    let digit (c : Char) := (Text.digitValue? c).filter fun n => c.toNat < 0x80 && n < 16
    match digit a, digit b, digit c, digit d with
    | some a, some b, some c, some d => some (((a * 16 + b) * 16 + c) * 16 + d, rest)
    | _, _, _, _ => none
  | _ => none

/-- The low half of a surrogate pair, if one follows. -/
def lowSurrogate? : List Char → Option (Nat × List Char)
  | '\\' :: 'u' :: rest => (hex4? rest).filter fun (n, _) => 0xDC00 ≤ n && n < 0xE000
  | _ => none

/-- The code point after `\u` and the rest of the text. -/
def unicodeEscape? (s : List Char) : Option (CodePoint × List Char) := do
  let (high, rest) ← hex4? s
  if 0xD800 ≤ high ∧ high < 0xDC00 then
    match lowSurrogate? rest with
    | some (low, rest) =>
      return (.char (Char.ofNat (0x10000 + (high - 0xD800) * 0x400 + (low - 0xDC00))), rest)
    | none => return (.half high, rest)
  return (if 0xDC00 ≤ high ∧ high < 0xE000 then .half high else .char (Char.ofNat high), rest)

def simpleEscape? : Char → Option Char
  | '"' => some '"'
  | '\\' => some '\\'
  | '/' => some '/'
  | 'b' => some '\x08'
  | 'f' => some '\x0c'
  | 'n' => some '\n'
  | 'r' => some '\r'
  | 't' => some '\t'
  | _ => none

/-- The code points up to the closing quotation mark; `done` holds those before in reverse. Each
step takes at least one of `fuel` characters. -/
def stringRest : (fuel : Nat) → (done : Points) → List Char → Parsed (Points × List Char)
  | _, done, '"' :: rest => pure (done.reverse, rest)
  | fuel + 1, done, '\\' :: 'u' :: rest =>
    match unicodeEscape? rest with
    | some (point, rest) => stringRest fuel (point :: done) rest
    | none => throw .malformed
  | fuel + 1, done, '\\' :: c :: rest =>
    match simpleEscape? c with
    | some c => stringRest fuel (.char c :: done) rest
    | none => throw .malformed
  | fuel + 1, done, c :: rest =>
    if c.toNat < 0x20 ∨ c = '\\' then throw .malformed else stringRest fuel (.char c :: done) rest
  | _, _, _ => throw .malformed

/-- The digits at the start of `s` after `mark`, if there are any. -/
def fraction (s : List Char) : List Char × List Char :=
  match s with
  | '.' :: rest =>
    let digits := rest.takeWhile Char.isDigit
    if digits.isEmpty then ([], s) else (digits, rest.drop digits.length)
  | _ => ([], s)

def exponentPart (s : List Char) : Option (Int × List Char) :=
  match s with
  | c :: rest =>
    let (negative, digits) := match rest with
      | '-' :: rest => (true, rest)
      | '+' :: rest => (false, rest)
      | rest => (false, rest)
    let run := digits.takeWhile Char.isDigit
    if (c == 'e' || c == 'E') && !run.isEmpty then
      let value : Int := Text.digitsValue run
      some (if negative then -value else value, digits.drop run.length)
    else none
  | [] => none

/-- The number `mantissa * 10 ^ exponent`, where a mantissa has `places` digits. Numbers far beyond
the range of binary floating point are settled by their size. -/
def real (negative : Bool) (mantissa places : Nat) (exponent : Int) : Number :=
  let signed : Int := if negative then -mantissa else mantissa
  if mantissa = 0 ∨ exponent + places < -400 then .real ⟨0, 0⟩
  else if exponent > 400 then .infinite
  else
    let rounded := if 0 ≤ exponent then Binary64.nearest? (signed * Nat.pow 10 exponent.toNat) 1
      else Binary64.nearest? signed (Nat.pow 10 (-exponent).toNat)
    match rounded with
    | some value => .real value
    | none => .infinite

/-- The digits before the point: a zero, or a run that starts with another digit. -/
def wholeDigits (s : List Char) : List Char :=
  match s with
  | '0' :: _ => ['0']
  | _ => s.takeWhile Char.isDigit

def unsignedNumber (negative : Bool) (s : List Char) : Parsed (Number × List Char) :=
  let whole := wholeDigits s
  let rest := s.drop whole.length
  if whole.isEmpty then throw .malformed
  else
    let (places, rest) := fraction rest
    match places, exponentPart rest with
    | [], none =>
      if whole.length > Text.maxDecimalDigits then throw .numeralTooLong
      else
        let value : Int := Text.digitsValue whole
        pure (.integer (if negative then -value else value), rest)
    | places, exponent =>
      let (exponent, rest) := exponent.getD (0, rest)
      let digits := whole ++ places
      pure (real negative (Text.digitsValue digits) digits.length (exponent - places.length), rest)

def signedNumber (s : List Char) : Parsed (Number × List Char) :=
  match s with
  | '-' :: rest => match after? "Infinity" rest with
    | some rest => pure (.infinite, rest)
    | none => unsignedNumber true rest
  | _ => unsignedNumber false s

/-- The words that are values. -/
def words : List (String × Json) :=
  [("null", .null), ("true", .bool true), ("false", .bool false), ("NaN", .number .notANumber),
    ("Infinity", .number .infinite)]

def word? (s : List Char) : Option (Json × List Char) :=
  words.findSome? fun (word, value) => (after? word s).map (value, ·)

mutual

/-- A value at the start of `s`, without blanks before it, with at most `depth` arrays and objects
inside of one another. Each step into the text takes at least one of `fuel` characters. -/
def value : (fuel depth : Nat) → (s : List Char) → Parsed (Json × List Char)
  | 0, _, _ => throw .malformed
  | fuel + 1, depth, s =>
    match s, depth with
    | '"' :: rest, _ => do
      let (text, rest) ← stringRest rest.length [] rest
      return (.string text, rest)
    | '[' :: _, 0 | '\x7b' :: _, 0 => throw .tooDeep
    | '[' :: rest, depth + 1 =>
      match skipSpace rest with
      | ']' :: rest => pure (.array [], rest)
      | rest => do
        let (items, rest) ← arrayItems fuel depth rest
        return (.array items, rest)
    | '\x7b' :: rest, depth + 1 =>
      match skipSpace rest with
      | '\x7d' :: rest => pure (.object [], rest)
      | rest => do
        let (fields, rest) ← objectFields fuel depth [] rest
        return (.object fields, rest)
    | _, _ => match word? s with
      | some found => pure found
      | none => do
        let (n, rest) ← signedNumber s
        return (.number n, rest)

/-- The items of an array up to its end. -/
def arrayItems : (fuel depth : Nat) → (s : List Char) → Parsed (List Json × List Char)
  | 0, _, _ => throw .malformed
  | fuel + 1, depth, s => do
    let (item, rest) ← value fuel depth s
    match skipSpace rest with
    | ']' :: rest => return ([item], rest)
    | ',' :: rest =>
      let (items, rest) ← arrayItems fuel depth (skipSpace rest)
      return (item :: items, rest)
    | _ => throw .malformed

/-- The fields of an object up to its end; `done` holds those before. -/
def objectFields : (fuel depth : Nat) → (done : List (String × Json)) → (s : List Char) →
    Parsed (List (String × Json) × List Char)
  | 0, _, _, _ => throw .malformed
  | fuel + 1, depth, done, s =>
    match s with
    | '"' :: rest => do
      let (key, rest) ← stringRest rest.length [] rest
      match skipSpace rest with
      | ':' :: rest =>
        let (item, rest) ← value fuel depth (skipSpace rest)
        let done := Assoc.put done key.shown item
        match skipSpace rest with
        | '\x7d' :: rest => return (done, rest)
        | ',' :: rest => objectFields fuel depth done (skipSpace rest)
        | _ => throw .malformed
      | _ => throw .malformed
    | _ => throw .malformed

end

/-- Arrays and objects that may lie inside of one another. -/
def deepest : Nat := 990

/-- The value of a whole document. -/
def ofText (text : String) : Except ParseError Json := do
  let s := text.toList
  let (result, rest) ← value (2 * s.length + 1) deepest (skipSpace s)
  if (skipSpace rest).isEmpty then return result
  throw .malformed

end Chiptune.Json
