import Chiptune.Bytes

/-!
# The pool of pattern buffers

Every buffer written so far in one export, in order. A later pattern with the same code refers to
the first such buffer.
-/

namespace Chiptune

structure PatternPool where
  buffers : Array Bytes := #[]
  deriving DecidableEq, Repr

namespace PatternPool

def size (pool : PatternPool) : Nat := pool.buffers.size

def find? (pool : PatternPool) (buffer : Bytes) : Option Nat :=
  pool.buffers.findIdx? (· == buffer)

def add (pool : PatternPool) (buffer : Bytes) : PatternPool := ⟨pool.buffers.push buffer⟩

end PatternPool

end Chiptune
