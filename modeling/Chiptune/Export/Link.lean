import Chiptune.Assembly.Assembler
import Chiptune.Export.Document

/-!
# Linked music data
-/

namespace Chiptune.Export

/-- The bytes of the music data at an address, and the blob of samples. -/
def link (project : Project) (options : Options) (songOffset sampleOffset : Option Int) :
    Outcome (Bytes × Option Bytes) := do
  let document ← document project options
  let bytes ← Assembly.assemble { songOffset, sampleOffset } (document.text .asm6)
  return (bytes, document.samples)

end Chiptune.Export
