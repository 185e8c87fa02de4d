import Chiptune.Music.Split
import Chiptune.Sound.SongCode

/-!
# The choice of speed channel and split

Which channel carries the speed commands and how finely the patterns are cut changes how many
buffers are equal. All candidates are encoded and the smallest code wins, the earliest of several.
-/

namespace Chiptune

structure Candidate where
  channel : Nat
  factor : Nat
  deriving DecidableEq, Repr

structure Choice where
  candidate : Candidate
  code : SongCode
  deriving DecidableEq, Repr

namespace Song

/-- The divisors of the pattern length that leave pieces of at least `pieceRows` rows, or else
no split at all. -/
def factors (song : Song) (pieceRows : Int) : List Nat :=
  let divisors := (List.range song.patternLength).map (· + 1) |>.filter fun f =>
    song.patternLength % f == 0 && pieceRows ≤ (song.patternLength / f : Nat)
  if divisors.isEmpty then [1] else divisors

/-- By channel, then by factor. -/
def candidates (song : Song) (pieceRows : Int) : List Candidate :=
  (List.range song.channels.length).flatMap fun channel =>
    (song.factors pieceRows).map fun factor => ⟨channel, factor⟩

/-- The code that a candidate leads to, or nothing if the song cannot be split that way or has too
many different patterns. -/
def tryCandidate (song : Song) (encoding : Encoding) (pool : PatternPool) (candidate : Candidate) :
    Outcome (Option SongCode) :=
  match song.split candidate.factor with
  | none => pure none
  | some pieces => match pieces.encode encoding candidate.channel candidate.factor pool with
    | .ok code => pure (some code)
    | .error (.poolFull _) => pure none
    | .error (.failure error) => throw error

def smaller (best : Option Choice) (candidate : Candidate) (code : SongCode) : Choice :=
  match best with
  | none => ⟨candidate, code⟩
  | some choice => if code.size < choice.code.size then ⟨candidate, code⟩ else choice

def searchAmong (song : Song) (encoding : Encoding) (pool : PatternPool) :
    (best : Option Choice) → List Candidate → Outcome (Option Choice)
  | best, [] => pure best
  | best, candidate :: rest => do
    match ← song.tryCandidate encoding pool candidate with
    | none => searchAmong song encoding pool best rest
    | some code => searchAmong song encoding pool (some (smaller best candidate code)) rest

/-- The first candidate with the smallest code. -/
def search (song : Song) (encoding : Encoding) (pieceRows : Int) (pool : PatternPool) :
    Outcome Choice := do
  match ← song.searchAmong encoding pool none (song.candidates pieceRows) with
  | some choice => return choice
  | none => throw (.unexportable (.songTooComplex song.name))

end Song

end Chiptune
