import Chiptune.Music.Song

/-!
# Splitting a song

`Song.split` cuts every pattern into equal pieces. Pieces of one pattern stay shared within a
channel; channels no longer share patterns with one another.
-/

namespace Chiptune

/-- Piece number `k` of the pieces of `size` rows. -/
def Pattern.piece (pattern : Pattern) (size k : Nat) : Pattern :=
  (pattern.drop (k * size)).take size

def Pattern.pieces (pattern : Pattern) (size count : Nat) : List Pattern :=
  (List.range count).map (pattern.piece size)

namespace Channel

/-- The slots after each pattern was cut into `factor` pieces, which lie in the order of
`Channel.used` from position `base` on. -/
def splitSlots (channel : Channel) (base factor : Nat) : List (Option Nat) :=
  channel.slots.flatMap fun
    | none => List.replicate factor none
    | some position =>
      (List.range factor).map fun k => some (base + channel.used.idxOf position * factor + k)

end Channel

namespace Song

/-- The pieces of all patterns of a channel, in the order that `Channel.splitSlots` expects. -/
def channelPieces (song : Song) (size factor : Nat) (channel : Channel) : List Pattern :=
  channel.used.flatMap fun position => (song.pattern position).pieces size factor

/-- Cuts the patterns of the channels one after the other; `done` holds the pieces so far. -/
def splitChannels (song : Song) (size factor : Nat) :
    (done : List Pattern) → List Channel → List Pattern × List Channel
  | done, [] => (done, [])
  | done, channel :: rest =>
    let slots := channel.splitSlots done.length factor
    let (patterns, channels) :=
      splitChannels song size factor (done ++ song.channelPieces size factor channel) rest
    (patterns, { channel with slots } :: channels)

/-- The song with its patterns cut into `factor` pieces each, if the factor divides the pattern
length and the song does not grow beyond the longest one. -/
def split (song : Song) (factor : Int) : Option Song :=
  if factor < 1 ∨ song.patternLength % factor.toNat ≠ 0 then none
  else if factor = 1 then some song
  else
    let count := factor.toNat
    if song.length * count > Limits.slots then none
    else
      let size := song.patternLength / count
      let (patterns, channels) := song.splitChannels size count [] song.channels
      some { song with
        patterns, channels, patternLength := size, length := song.length * count }

end Song

end Chiptune
