import Chiptune.Text.CodePoint
import Chiptune.Text.Digit

/-!
# Words of a command line

Options start with two dashes and may be shortened as long as they stay unambiguous. A value follows
as the next word or after an equals sign. Options and operands mix; after a lone pair of dashes
every word is an operand. A word that looks like a negative number or holds a blank is no option
unless it is the start of one. Words are what the caller passes, bytes that are no text included,
which stand in them as halves of surrogate pairs.
-/

namespace Chiptune.CommandLine

open Text (Points CodePoint)

structure OptionSpec where
  name : String
  takesValue : Bool := true
  deriving DecidableEq, Repr

inductive Word
  | operand (text : Points)
  | separator
  | option (spec : OptionSpec) (value : Option Points)
  | help
  /-- An option that does not exist. -/
  | unknown
  deriving DecidableEq, Repr

/-- What the words assign, in order. A separator in the place of a value stands for no value. -/
inductive Assignment
  | operand (value : Option Points)
  | option (name : String) (value : Option Points)
  | flag (name : String)
  deriving DecidableEq, Repr

inductive Ending
  | complete
  | refused
  | help
  deriving DecidableEq, Repr

def isDecimal : CodePoint → Bool
  | .char c => match Text.digitValue? c with
    | some n => n < 10
    | none => false
  | .half _ => false

/-- Digits of any script, with or without a point among them. -/
def looksNegative (s : Points) : Bool :=
  match s with
  | .char '-' :: digits =>
    let digits := if digits.getLast? = some (.char '\n') then digits.dropLast else digits
    let (whole, rest) := digits.span isDecimal
    match rest with
    | [] => !whole.isEmpty
    | .char '.' :: places => !places.isEmpty && places.all isDecimal
    | _ => false
  | _ => false

/-- The name before an equals sign and the value after it. -/
def splitValue (word : Points) : Points × Option Points :=
  let name := word.takeWhile (· != .char '=')
  match word.drop name.length with
  | [] => (word, none)
  | _ :: value => (name, some value)

/-- The short request for help with what follows it in its word. It may be repeated there, also
after an equals sign; all else is a value, which it does not take. -/
def helpWord (rest : Points) : Word :=
  let value := if rest.head? = some (.char '=') then rest.tail else rest
  if rest.isEmpty || (!value.isEmpty && value.all (· == .char 'h')) then .help
  else .option ⟨"--help", false⟩ (some rest)

def shortWord (s : Points) : Word :=
  match s with
  | .char '-' :: .char 'h' :: rest => helpWord rest
  | _ => if looksNegative s || s.contains (.char ' ') then .operand s else .unknown

def optionWord (spec : OptionSpec) (value : Option Points) : Word :=
  if spec.name = "--help" then if value.isNone then .help else .option spec value
  else .option spec value

def OptionSpec.isCalled (word : Points) (spec : OptionSpec) : Bool := Text.points spec.name == word

/-- What a word is that starts with two dashes. A beginning of several options is refused. -/
def longWord (specs : List OptionSpec) (word : Points) : Option Word :=
  let (name, value) := splitValue word
  match specs.find? (·.isCalled word), specs.find? (·.isCalled name) with
  | some spec, _ => some (optionWord spec none)
  | none, some spec => some (optionWord spec value)
  | none, none =>
    match specs.filter fun spec => name.isPrefixOf spec.name with
    | [] => some (if word.contains (.char ' ') then .operand word else .unknown)
    | [spec] => some (optionWord spec value)
    | _ => none

def wordOf (specs : List OptionSpec) (word : Points) : Option Word :=
  match word with
  | .char '-' :: .char '-' :: _ => longWord specs word
  | .char '-' :: _ :: _ => some (shortWord word)
  | _ => some (.operand word)

/-- The word that ends the options. -/
def dashes : Points := "--"

/-- All words, none of them if one is refused. -/
def wordsOf (specs : List OptionSpec) : List Points → Option (List Word)
  | [] => some []
  | word :: rest =>
    if word = dashes then some (.separator :: rest.map .operand)
    else do return (← wordOf specs word) :: (← wordsOf specs rest)

/-- The value that a text stands for where a separator is none. -/
def valueOf (text : Points) : Option Points := if text = dashes then none else some text

/-- Puts an assignment in front of the others. -/
def Assignment.before (first : Assignment) (rest : List Assignment × Ending) :
    List Assignment × Ending := (first :: rest.1, rest.2)

/-- What words assign while `missing` operands are still to come. `surplus` says that some word had
no use, which is refused in the end. The separator belongs to the operand beside it. -/
def assign : (missing : Nat) → (surplus : Bool) → List Word → List Assignment × Ending
  | missing, surplus, [] => ([], if missing = 0 && !surplus then .complete else .refused)
  | missing + 1, surplus, .separator :: .operand text :: rest =>
    (Assignment.operand (some text)).before (assign missing surplus rest)
  | missing + 1, surplus, .operand text :: .separator :: rest =>
    (Assignment.operand (some text)).before (assign missing surplus rest)
  | missing + 1, surplus, .operand text :: rest =>
    (Assignment.operand (valueOf text)).before (assign missing surplus rest)
  | missing, surplus, .option spec value :: rest =>
    match spec.takesValue, value with
    | true, some value =>
      (Assignment.option spec.name (valueOf value)).before (assign missing surplus rest)
    | true, none =>
      match rest with
      | .operand value :: rest =>
        (Assignment.option spec.name (some value)).before (assign missing surplus rest)
      | _ => ([], .refused)
    | false, some _ => ([], .refused)
    | false, none => (Assignment.flag spec.name).before (assign missing surplus rest)
  | _, _, .help :: _ => ([], .help)
  | missing, _, _ :: rest => assign missing true rest

/-- Reads a command line with a number of operands. -/
def readWords (specs : List OptionSpec) (operands : Nat) (words : List Points) :
    List Assignment × Ending :=
  match wordsOf specs words with
  | none => ([], .refused)
  | some words => assign operands false words

end Chiptune.CommandLine
