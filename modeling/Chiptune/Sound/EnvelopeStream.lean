import Chiptune.Bytes
import Chiptune.Error
import Chiptune.Music.Instrument
import Chiptune.Sound.Kernel

/-!
# Envelope streams

The driver plays an envelope from a stream of bytes. A byte from 128 on is a value, held for one
frame; a count from 1 to 126 holds the last value for that many further frames; a zero and a
position continue the stream at that position. A stream with a release starts with the position at
which the release begins.

A value is held by runs only up to the next place at which the stream may be entered or left, so
every position that is jumped to holds a value.
-/

namespace Chiptune

namespace Envelope

/-- The byte of a sample, clamped to what the driver can add. -/
def biased (value : Int) : UInt8 := UInt8.ofNat (Kernel.clamp (-64) 63 value + 192).toNat

/-- Frames that one count byte can hold. -/
def longestHold : Nat := 126

/-- Bytes that hold the value `v` for `n` further frames. A single frame is written as the value. -/
def hold (v : UInt8) : Nat → Bytes
  | 0 => []
  | 1 => [v]
  | n + 2 =>
    List.replicate ((n + 1) / longestHold) (UInt8.ofNat longestHold) ++
      [UInt8.ofNat ((n + 1) % longestHold + 1)]

/-- The runs of equal samples, each with the number of repetitions of its first sample. -/
def runs : Bytes → List (UInt8 × Nat)
  | [] => []
  | v :: rest => match runs rest with
    | (w, n) :: tail => if v = w then (v, n + 1) :: tail else (v, 0) :: (w, n) :: tail
    | [] => [(v, 0)]

def runCode (run : UInt8 × Nat) : Bytes := run.1 :: hold run.1 run.2

def compress (samples : Bytes) : Bytes := (runs samples).flatMap runCode

/-- The offset of the last run of `samples` in their code. -/
def lastRunOffset (samples : Bytes) : Nat := ((runs samples).dropLast.flatMap runCode).length

/-- The code of the samples from a place of entry to the end, the last of which stands alone. -/
def compressTail (samples : Bytes) : Bytes :=
  compress samples.dropLast ++ samples.getLast?.toList

/-- The position named by a loop or release field, if it lies inside the envelope. -/
def position? (length : Nat) (field : Int) : Option Nat :=
  if 0 ≤ field ∧ field < length then some field.toNat else none

/-- The jump that ends a stream, back to its last value or to the start of the loop. -/
def jumpTo (target : Nat) : Bytes := [0, UInt8.ofNat target]

def jumpToLast (code : Bytes) : Bytes := code ++ jumpTo (code.length - 1)

/-- The stream of an envelope that is never released; `header` bytes precede it. -/
def sustained (header : Bytes) (samples : Bytes) : Option Nat → Bytes
  | none => jumpToLast (header ++ compressTail samples)
  | some loop =>
    let lead := header ++ compress (samples.take loop)
    lead ++ compressTail (samples.drop loop) ++ jumpTo lead.length

/-- The code of the samples after the release point, which may hold the loop point. -/
def releasePart (samples : Bytes) (release : Nat) : Option Nat → Bytes
  | some loop =>
    if release < loop then
      compress ((samples.take loop).drop release) ++ compressTail (samples.drop loop)
    else compressTail (samples.drop release)
  | none => compressTail (samples.drop release)

/-- The stream of an envelope with a release point. Before it the samples repeat from the loop
point, or the last of them is held if the loop does not precede the release. -/
def released (samples : Bytes) (release : Nat) (loop : Option Nat) : Outcome Bytes := do
  let held := samples.take release
  let (code, target) ← match loop with
    | some start =>
      if start < release then
        let lead := compress (held.take start)
        pure (lead ++ compress (held.drop start), lead.length)
      else if start = release then throw .outOfRange
      else if release = 0 then throw .releaseIntoRun
      else pure (compress held, lastRunOffset held)
    | none =>
      if release = 0 then throw .releaseIntoRun
      else pure (compress held, lastRunOffset held)
  let entry := code.length + 3
  return jumpToLast (UInt8.ofNat entry :: code ++ jumpTo (target + 1) ++
    releasePart samples release loop)

/-- The stream of an envelope, or nothing for one without values. -/
def stream (env : Envelope) (allowRelease : Bool) : Outcome (Option Bytes) := do
  if env.values.isEmpty then return none
  let samples := env.values.map biased
  let loop := position? samples.length env.loop
  let bytes ← match allowRelease, position? samples.length env.release with
    | true, some release => released samples release loop
    | true, none => pure (sustained [0] samples loop)
    | false, _ => pure (sustained [] samples loop)
  if bytes.length > Limits.envelopeBytes then
    throw (.unexportable (.envelopeTooLong bytes.length))
  return some bytes

end Envelope

end Chiptune
