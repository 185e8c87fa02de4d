/-!
# Notes

One row of one channel: a note value with an optional volume and instrument, and an effect on the
whole song row. Values are plain integers: 0 stops the channel, 1 to 96 are pitches, 247 releases
the note, 255 is an empty row, and the kernel decides what becomes of any other.
-/

namespace Chiptune

/-- The kinds of channel, in the order in which a song holds them. -/
inductive Voice
  | square1
  | square2
  | triangle
  | noise
  | dpcm
  deriving DecidableEq, Repr

namespace Voice

def all : List Voice := [square1, square2, triangle, noise, dpcm]

/-- The voices that carry a melody. -/
def tones : List Voice := [square1, square2, triangle]

end Voice

/-- An instrument keeps its identity while its content and its place in a list change. -/
abbrev InstrumentId := Nat

/-- An effect acts on the whole song row, whichever channel carries it. -/
inductive Effect
  | none
  | jump
  | skip
  | speed
  deriving DecidableEq, Repr

structure Note where
  value : Int := 255
  volume : Option Int := none
  instrument : Option InstrumentId := none
  effect : Effect := .none
  param : Int := 0
  deriving DecidableEq, Repr

namespace Note

def stopValue : Int := 0
def lowest : Int := 1
def highest : Int := 96
def releaseValue : Int := 247
def emptyValue : Int := 255
def loudest : Int := 15

def empty : Note := {}

/-- Whether the row holds anything that sounds, stops or releases. -/
def isValid (note : Note) : Bool := note.value != emptyValue
def isStop (note : Note) : Bool := note.value == stopValue
def isRelease (note : Note) : Bool := note.value == releaseValue
def isMusical (note : Note) : Bool := lowest ≤ note.value && note.value ≤ highest

end Note

/-- The rows of one channel slot. -/
abbrev Pattern := List Note

end Chiptune
