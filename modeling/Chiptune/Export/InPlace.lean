import Chiptune.Export.Document

/-!
# Preparing shared envelopes in place

Instruments can hold an envelope together, an instrument can hold it in two roles, and envelopes can
hold a list of values together. Preparing changes volume envelopes and their lists where they lie,
also those of instruments that are left out afterwards, and all who hold them have the change.

What lies at a place can be held any number of times. What is held only once needs no place; an
instrument that is listed twice holds its envelopes twice. The three slots of an instrument could be
shared as well, which would show nothing more.
-/

namespace Chiptune

/-- What its holder has alone, or the place of what others can hold as well. -/
inductive Ref (α : Type)
  | own (content : α)
  | shared (place : Nat)
  deriving DecidableEq, Repr

namespace Ref

variable {α : Type}

def get (places : Nat → α) : Ref α → α
  | own content => content
  | shared place => places place

/-- The reference when its content is replaced. A place stays the same. -/
def set (content : α) : Ref α → Ref α
  | own _ => own content
  | shared place => shared place

/-- The places when the content of a reference is replaced. -/
def store (content : α) (places : Nat → α) : Ref α → Nat → α
  | own _ => places
  | shared place => fun other => if other = place then content else places other

def place? : Ref α → Option Nat
  | own _ => none
  | shared place => some place

/-- Both lead to one place. -/
def Meets (ref other : Ref α) : Prop := ∃ place, ref.place? = some place ∧ other.place? = some place

end Ref

structure EnvelopeObject where
  values : Ref (List Int)
  loop : Int := -1
  release : Int := -1
  deriving DecidableEq, Repr

namespace EnvelopeObject

/-- The object with the content of an envelope, in the list that it has. -/
def filled (object : EnvelopeObject) (env : Envelope) : EnvelopeObject :=
  ⟨object.values.set env.values, env.loop, env.release⟩

/-- One step at full volume, in a list that is new. -/
def full : EnvelopeObject := { values := .own [Note.loudest] }

end EnvelopeObject

abbrev EnvelopeRef := Ref EnvelopeObject

/-- The lists and the envelopes at all places. -/
structure EnvelopeHeap where
  lists : Nat → List Int := fun _ => []
  envelopes : Nat → EnvelopeObject := fun _ => { values := .own [] }

namespace EnvelopeHeap

def object (heap : EnvelopeHeap) (ref : EnvelopeRef) : EnvelopeObject := ref.get heap.envelopes

def read (heap : EnvelopeHeap) (ref : EnvelopeRef) : Envelope where
  values := (heap.object ref).values.get heap.lists
  loop := (heap.object ref).loop
  release := (heap.object ref).release

/-- Mends a volume envelope for a kernel: the list of values is cut, and the points are set. -/
def mend (kernel : Kernel) (heap : EnvelopeHeap) (ref : EnvelopeRef) :
    EnvelopeRef × EnvelopeHeap :=
  let object := heap.object ref
  let env := (heap.read ref).mended kernel
  (ref.set (object.filled env),
    ⟨object.values.store env.values heap.lists, ref.store (object.filled env) heap.envelopes⟩)

/-- Gives a new list to a volume envelope without values. -/
def fill (heap : EnvelopeHeap) (ref : EnvelopeRef) : EnvelopeRef × EnvelopeHeap :=
  if (heap.read ref).values.isEmpty then
    (ref.set .full, { heap with envelopes := ref.store .full heap.envelopes })
  else (ref, heap)

def mendVolume (kernel : Kernel) (heap : EnvelopeHeap) :
    Option EnvelopeRef → Option EnvelopeRef × EnvelopeHeap
  | none => (none, heap)
  | some ref => (heap.mend kernel ref).map some id

def fillVolume (heap : EnvelopeHeap) : Option EnvelopeRef → Option EnvelopeRef × EnvelopeHeap
  | none => (some (.own .full), heap)
  | some ref => (heap.fill ref).map some id

end EnvelopeHeap

structure InstrumentObject where
  id : InstrumentId
  name : String
  duty : Int := 0
  volume : Option EnvelopeRef := none
  arpeggio : Option EnvelopeRef := none
  pitch : Option EnvelopeRef := none
  deriving DecidableEq, Repr

namespace InstrumentObject

/-- The instrument as its envelopes are at the moment. -/
def view (heap : EnvelopeHeap) (instrument : InstrumentObject) : Instrument where
  id := instrument.id
  name := instrument.name
  duty := instrument.duty
  volume := instrument.volume.map heap.read
  arpeggio := instrument.arpeggio.map heap.read
  pitch := instrument.pitch.map heap.read

/-- Changes the volumes of instruments one after the other. -/
def changeVolumes
    (change : EnvelopeHeap → Option EnvelopeRef → Option EnvelopeRef × EnvelopeHeap) :
    EnvelopeHeap → List InstrumentObject → List InstrumentObject × EnvelopeHeap
  | heap, [] => ([], heap)
  | heap, instrument :: rest =>
    let (volume, heap) := change heap instrument.volume
    let (changed, heap) := changeVolumes change heap rest
    ({ instrument with volume } :: changed, heap)

end InstrumentObject

structure ProjectObject where
  name : String := "untitled"
  songs : List Song := []
  instruments : List InstrumentObject := []
  samples : List Sample := []
  mapping : List (Option SampleMapping) := List.replicate 64 none
  heap : EnvelopeHeap := {}

namespace ProjectObject

/-- The project as its envelopes are at the moment. -/
def view (project : ProjectObject) : Project where
  name := project.name
  songs := project.songs
  instruments := project.instruments.map (·.view project.heap)
  samples := project.samples
  mapping := project.mapping

def changeVolumes (project : ProjectObject)
    (change : EnvelopeHeap → Option EnvelopeRef → Option EnvelopeRef × EnvelopeHeap) :
    ProjectObject :=
  let (instruments, heap) :=
    InstrumentObject.changeVolumes change project.heap project.instruments
  { project with instruments, heap }

def deleteUnusedInstruments (project : ProjectObject) : ProjectObject :=
  let used := project.view.instrumentsUsed
  { project with instruments := project.instruments.filter (used.contains ·.id) }

/-- Prepares a copy of a project, in which is shared what was shared before. All instruments are
mended, and those that are kept get their volume. -/
def prepare (project : ProjectObject) (wanted : Option (List Int)) (kernel : Kernel) :
    ProjectObject :=
  let songs := (project.view.select wanted).songs.map (·.fitted kernel)
  let mended := { project with songs }.changeVolumes (EnvelopeHeap.mendVolume kernel)
  mended.deleteUnusedInstruments.changeVolumes EnvelopeHeap.fillVolume

def document (project : ProjectObject) (options : Export.Options) : Outcome Export.Document :=
  Export.documentOf (project.prepare options.wanted options.kernel).view options

def exportText (dialect : Assembly.Dialect) (project : ProjectObject) (options : Export.Options) :
    Outcome String := do
  return (← project.document options).text dialect

end ProjectObject

def Envelope.object (env : Envelope) : EnvelopeRef :=
  .own ⟨.own env.values, env.loop, env.release⟩

def Instrument.object (instrument : Instrument) : InstrumentObject where
  id := instrument.id
  name := instrument.name
  duty := instrument.duty
  volume := instrument.volume.map Envelope.object
  arpeggio := instrument.arpeggio.map Envelope.object
  pitch := instrument.pitch.map Envelope.object

/-- A project in which nothing is shared. -/
def Project.object (project : Project) : ProjectObject where
  name := project.name
  songs := project.songs
  instruments := project.instruments.map Instrument.object
  samples := project.samples
  mapping := project.mapping

end Chiptune
