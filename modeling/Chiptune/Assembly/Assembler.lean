import Chiptune.Assembly.Statement
import Chiptune.Bytes
import Chiptune.Text.Occurrence

/-!
# The assembler

Two passes. The first lays out the operands and the labels of the text in order; labels that are
known when they are used are filled in at once. The second fills in the others.
-/

namespace Chiptune.Assembly

/-- Where the output will lie. An address may be left open as long as nothing depends on it. -/
structure Target where
  dialect : Dialect := .asm6
  songOffset : Option Int := some 0
  sampleOffset : Option Int := some 0
  deriving Repr

/-- An address on which something depends. -/
def needed (offset : Option Int) : Outcome Int :=
  match offset with
  | some n => pure n
  | none => throw .wrongKind

/-- One operand of the output, of one byte or of two. -/
inductive Cell
  | value (value : Int) (width : Nat)
  | pending (operand : List Char) (width : Nat)
  deriving DecidableEq, Repr

def Cell.width : Cell → Nat
  | value _ width | pending _ width => width

/-- The labels defined so far, the last definition first. -/
abbrev Labels := List (List Char × Int)

/-- What the first pass has read. -/
structure Layout where
  cells : List Cell := []
  address : Nat := 0
  labels : Labels := []
  deriving Repr

/-- The page of the samples that an address in their bank lies in. -/
def samplePage (offset : Int) : Int := offset % 0x4000 / 64

/-- An operand that mentions the address of the samples stands for a number plus their page. -/
def sampleOperand (target : Target) (operand : List Char) : Outcome Int := do
  let base ← number (Text.trim (operand.takeWhile (· != '+')))
  return base + samplePage (← needed target.sampleOffset)

def cell (target : Target) (labels : Labels) (width : Nat) (operand : List Char) : Outcome Cell :=
  match labels.lookup operand with
  | some address => pure (.value address width)
  | none =>
    if Text.occursIn Line.sampleAddress.toList operand then do
      return .value (← sampleOperand target operand) width
    else if isSymbol operand then pure (.pending operand width)
    else do return .value (← number operand) width

namespace Layout

def addCell (target : Target) (width : Nat) (layout : Layout) (operand : List Char) :
    Outcome Layout := do
  let cell ← cell target layout.labels width operand
  return { layout with cells := cell :: layout.cells, address := layout.address + width }

def addLine (target : Target) (layout : Layout) (line : List Char) : Outcome Layout :=
  match Statement.ofLine? target.dialect line with
  | none => throw (.assembly (.badLine (String.ofList (Text.trim line))))
  | some .nothing => pure layout
  | some (.label name) => do
    let address := layout.address + (← needed target.songOffset)
    return { layout with labels := (name, address) :: layout.labels }
  | some (.data width operands) => operands.foldlM (addCell target width) layout

def ofText (target : Target) (text : String) : Outcome Layout := do
  let layout ← (Text.lines text.toList).foldlM (addLine target) {}
  return { layout with cells := layout.cells.reverse }

/-- Where the operands lie that the second pass fills in. -/
def patches (layout : Layout) : List (String × Nat × Nat) :=
  go 0 layout.cells
where
  go (offset : Nat) : List Cell → List (String × Nat × Nat)
    | [] => []
    | .value _ width :: rest => go (offset + width) rest
    | .pending operand width :: rest =>
      (String.ofList operand, offset, width) :: go (offset + width) rest

/-- Every label with its last address, in the order of the names. -/
def symbols (layout : Layout) : List (String × Int) :=
  let names := (layout.labels.map (·.1)).eraseDups
  (names.map fun name => (String.ofList name, (layout.labels.lookup name).getD 0)).mergeSort
    fun a b => a.1 ≤ b.1

end Layout

/-- The distance after the minus sign of a symbol. -/
def distance (digits : List Char) : Outcome Int :=
  if digits.isEmpty then pure 0
  else match Text.readInt? .decimal digits with
    | some n => pure n
    | none => throw .notANumeral

/-- The value of a symbol: the address of its label, less the distance after a minus sign. -/
def resolve (labels : Labels) (operand : List Char) : Outcome Int :=
  let name := operand.takeWhile (· != '-')
  match labels.lookup name with
  | none => throw (.assembly (.undefinedLabel (String.ofList name)))
  | some address => do
    return address - (← distance ((operand.dropWhile (· != '-')).drop 1))

/-- The low bytes of a value. -/
def valueBytes (value : Int) (width : Nat) : Bytes := (Bytes.lowWord value).take width

def Cell.bytes (labels : Labels) : Cell → Outcome Bytes
  | value n width => pure (valueBytes n width)
  | pending operand width => do return valueBytes (← resolve labels operand) width

def Layout.bytes (layout : Layout) : Outcome Bytes := do
  return (← layout.cells.mapM (Cell.bytes layout.labels)).flatten

def assemble (target : Target) (text : String) : Outcome Bytes := do
  (← Layout.ofText target text).bytes

end Chiptune.Assembly
