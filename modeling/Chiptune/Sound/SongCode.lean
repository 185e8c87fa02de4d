import Chiptune.Assembly.Line
import Chiptune.Sound.PatternCode
import Chiptune.Sound.Pool
import Chiptune.Total

/-!
# The code of a song

Every channel of a song becomes a stream: the speed of the song in one of them, the slots before
the loop point, the slots that are repeated, and the command to repeat them. The code of a slot is
either a new buffer of the pool or, if it is longer than a reference, a reference to an equal one.
-/

namespace Chiptune

/-- The code of one slot. -/
inductive SlotCode
  | buffer (number : Nat) (bytes : Bytes)
  | reference (number : Nat) (rows : Nat)
  deriving DecidableEq, Repr

namespace SlotCode

/-- Bytes of a reference: the command, the number of row commands and the address. -/
def referenceSize : Nat := 4

def size : SlotCode → Nat
  | buffer _ bytes => bytes.length
  | reference _ _ => referenceSize

def lines : SlotCode → List Assembly.Line
  | buffer number bytes => [.label (.buffer number), .bytes (bytes.map fun b => (b.toNat : Int))]
  | reference number rows =>
    [.bytes [Command.referenceCode.toNat, rows], .words [.label (.buffer number)]]

end SlotCode

/-- The stream of one channel. Playback goes on from the start of `body` when it is over. -/
structure ChannelCode where
  speed : Option Int
  intro : List SlotCode
  body : List SlotCode
  deriving DecidableEq, Repr

namespace ChannelCode

def slots (code : ChannelCode) : List SlotCode := code.intro ++ code.body

/-- Bytes of the loop command and its address. -/
def loopSize : Nat := 3

def size (code : ChannelCode) : Nat :=
  (if code.speed.isSome then 2 else 0) + total SlotCode.size code.slots + loopSize

def lines (song channel : Nat) (code : ChannelCode) : List Assembly.Line :=
  [.blank, .label (.channel song channel)] ++
    code.speed.toList.map (fun speed => .bytes [Command.speedCode.toNat, speed]) ++
    code.intro.flatMap SlotCode.lines ++ [.label (.channelLoop song channel)] ++
    code.body.flatMap SlotCode.lines ++
    [.bytes [Command.loopCode.toNat], .words [.label (.channelLoop song channel)]]

end ChannelCode

structure SongCode where
  channels : List ChannelCode
  /-- The pool that was given, extended by the buffers of this song. -/
  pool : PatternPool
  deriving DecidableEq, Repr

namespace SongCode

def size (code : SongCode) : Nat := total ChannelCode.size code.channels

def lines (song : Nat) (code : SongCode) : List Assembly.Line :=
  (code.channels.zipIdx.map fun (channel, number) => channel.lines song number).flatten

end SongCode

/-- Why a song has no code: something is wrong with it, or the pool with the buffers so far may
not grow further. -/
inductive Obstacle
  | failure (error : Error)
  | poolFull (pool : PatternPool)
  deriving DecidableEq, Repr

instance : MonadLift Outcome (Except Obstacle) where
  monadLift
    | .ok value => .ok value
    | .error error => .error (.failure error)

/-- What stays the same while a song is encoded. -/
structure Encoding where
  kernel : Kernel
  index : InstrumentId → Option Nat
  /-- Buffers that the pool may hold. -/
  capacity : Int := Limits.packedPatterns

/-- Progress through a song: the pool and the instrument that is active in the channel. -/
structure Progress where
  pool : PatternPool
  active : Option InstrumentId := none
  deriving DecidableEq, Repr

namespace Song

/-- A buffer shorter than this is written again rather than referred to. -/
def shortestReferred : Nat := SlotCode.referenceSize + 1

/-- Stores the code of a slot in the pool or refers to an equal buffer. No code needs no place. -/
def storeSlot (capacity : Int) (pool : PatternPool) (commands : List Command) :
    Except Obstacle (Option SlotCode × PatternPool) :=
  let bytes := commandBytes commands
  if bytes.isEmpty then pure (none, pool)
  else
    let known := if bytes.length < shortestReferred then none else pool.find? bytes
    match known with
    | some number => pure (some (.reference number (rowCommands commands)), pool)
    | none =>
      if pool.size ≥ capacity then throw (.poolFull pool)
      else pure (some (.buffer pool.size bytes), pool.add bytes)

/-- The codes of the visited slots of a channel. -/
def encodeVisits (song : Song) (encoding : Encoding) (effects : List SlotEffects)
    (channel : Channel) (takesSpeed : Bool) :
    Progress → List Visit → Except Obstacle (List SlotCode × Progress)
  | progress, [] => pure ([], progress)
  | progress, visit :: rest => do
    let voicing := ⟨encoding.kernel, channel.voice, encoding.index⟩
    let some slot := channel.slots[visit.slot]? | throw (.failure .outOfRange)
    let (commands, active) ← song.encodeSlot voicing (effects.getD visit.slot []) takesSpeed
      progress.active slot visit.rows
    let (code, pool) ← storeSlot encoding.capacity progress.pool commands
    let (codes, progress) ←
      encodeVisits song encoding effects channel takesSpeed ⟨pool, active⟩ rest
    return (code.toList ++ codes, progress)

/-- The visits before the loop slot and those from there on, which are never none. -/
def splitVisits (loopSlot : Int) (visits : List Visit) : List Visit × List Visit :=
  match visits.span fun visit => visit.slot < loopSlot with
  | (all, []) => ([], all)
  | parts => parts

def encodeChannel (song : Song) (encoding : Encoding) (effects : List SlotEffects)
    (visits : List Visit × List Visit) (channel : Channel) (takesSpeed : Bool)
    (pool : PatternPool) : Except Obstacle (ChannelCode × PatternPool) := do
  let (intro, progress) ←
    song.encodeVisits encoding effects channel takesSpeed { pool } visits.1
  let (body, progress) ←
    song.encodeVisits encoding effects channel takesSpeed progress visits.2
  return (⟨if takesSpeed then some song.speed else none, intro, body⟩, progress.pool)

def encodeChannels (song : Song) (encoding : Encoding) (effects : List SlotEffects)
    (visits : List Visit × List Visit) (speedChannel : Int) :
    (number : Nat) → PatternPool → List Channel → Except Obstacle (List ChannelCode × PatternPool)
  | _, pool, [] => pure ([], pool)
  | number, pool, channel :: rest => do
    let (code, pool) ←
      song.encodeChannel encoding effects visits channel (number = speedChannel) pool
    let (codes, pool) ←
      encodeChannels song encoding effects visits speedChannel (number + 1) pool rest
    return (code :: codes, pool)

/-- Whether a skip asks for the next first piece where the pieces have no number. -/
def piecesUndefined (effects : List SlotEffects) (factor : Int) (visits : List Visit) : Bool :=
  factor == 0 && visits.any fun visit =>
    visit.slot + 1 < effects.length && ((effects.getD visit.slot []).position .skip).isSome

/-- The code of a song that was split by `factor`, with its speed set in channel `speedChannel`. -/
def encode (song : Song) (encoding : Encoding) (speedChannel factor : Int) (pool : PatternPool) :
    Except Obstacle SongCode := do
  let effects := song.effects
  let visits := song.visits effects factor
  let parts := splitVisits (song.loopSlot effects factor) visits
  let (channels, pool) ← song.encodeChannels encoding effects parts speedChannel 0 pool
    (if piecesUndefined effects factor visits then song.channels.take 1 else song.channels)
  if piecesUndefined effects factor visits && !song.channels.isEmpty then
    throw (.failure .divisionByZero)
  return ⟨channels, pool⟩

end Song

end Chiptune
