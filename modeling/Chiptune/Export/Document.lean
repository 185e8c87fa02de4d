import Chiptune.Export.Prepare
import Chiptune.Export.Tables
import Chiptune.Sound.Search
import Chiptune.Text.Numeral

/-!
# The exported document

A project becomes one text: a header, the tables, and the code of the songs, which share one pool
of buffers. The samples form a blob of their own.
-/

namespace Chiptune

namespace Export

open Assembly

structure Options where
  kernel : Kernel := .extended
  /-- The identifiers of the songs to export, all songs if there is no choice. -/
  wanted : Option (List Int) := none
  /-- Name the data after the first song instead of the project. -/
  nameBySong : Bool := false
  capacity : Int := Limits.packedPatterns
  pieceRows : Int := Limits.pieceRows
  deriving Repr

/-- What an export tells about a song. -/
structure SongSummary where
  name : String
  speedChannel : Nat
  factor : Nat
  size : Nat
  deriving DecidableEq, Repr

structure Document where
  lines : List Line
  songs : List SongSummary
  samples : Option Bytes
  size : Nat
  deriving Repr

/-- The steps of the tempo accumulator for 50 and for 60 frames a second. -/
def tempoWords (tempo : Int) : Int × Int := (256 * tempo / 125, 256 * tempo / 150)

/-- A tempo whose steps are too long to be written is refused. -/
def checkTempo (song : Song) : Outcome Unit :=
  let (pal, ntsc) := tempoWords song.tempo
  if Text.isWritable pal && Text.isWritable ntsc then pure () else throw .notANumeral

def headerLine (song : Song) (number : Nat) : Line :=
  let (pal, ntsc) := tempoWords song.tempo
  .words ((List.range Voice.all.length).map (fun channel => .label (.channel number channel)) ++
    [.number pal, .number ntsc])

/-- The first line of every document. -/
def titleLine : Line := .comment "this file for FamiTone2 library generated by midi-to-famitone"

def headerLines (project : Project) (name : String) : List Line :=
  [.blank, .label (.musicData name), .count project.songs.length,
    .words [.label .instruments], .words [.before .samples 3]] ++
    project.songs.zipIdx.map (fun (song, number) => headerLine song number) ++ [.blank]

def summaryText (summary : SongSummary) (number : Nat) : String :=
  s!"{number} '{summary.name}': speed channel {summary.speedChannel}, " ++
    s!"split factor {summary.factor}, {summary.size} bytes"

def summaryLine (summary : SongSummary) (number : Nat) : Line :=
  .comment ("song " ++ summaryText summary number)

/-- The songs encoded one after the other, each with the pool of those before it. -/
def encodeSongs (encoding : Encoding) (pieceRows : Int) :
    PatternPool → List Song → Outcome (List (Song × Choice))
  | _, [] => pure []
  | pool, song :: rest => do
    let choice ← song.search encoding pieceRows pool
    return (song, choice) :: (← encodeSongs encoding pieceRows choice.code.pool rest)

def summary (song : Song) (choice : Choice) : SongSummary :=
  ⟨song.name, choice.candidate.channel, choice.candidate.factor, choice.code.size⟩

/-- The document of a project that is prepared. -/
def documentOf (prepared : Project) (options : Options) : Outcome Document := do
  let first :: _ := prepared.songs | throw (.unexportable .noSongs)
  if prepared.songs.length > Limits.songs then
    throw (.unexportable (.tooManySongs prepared.songs.length))
  prepared.songs.forM checkTempo
  let name := labelName (if options.nameBySong then first.name else prepared.name)
  let tables ← InstrumentTables.build prepared options.kernel
  let tableLines ← tableLines prepared tables
  let encoding := ⟨options.kernel, prepared.instrumentIndex?, options.capacity⟩
  let songs ← encodeSongs encoding options.pieceRows {} prepared.songs
  let header := headerLines prepared name
  let summaries := songs.map fun (song, choice) => summary song choice
  let codes := songs.zipIdx.flatMap fun ((_, choice), number) => choice.code.lines number
  let tableSize := total Line.size (header ++ tableLines)
  return {
    lines := titleLine :: summaries.zipIdx.map (fun (s, number) => summaryLine s number) ++
      header ++ tableLines ++ codes
    songs := summaries
    samples := if prepared.usesSamples then some prepared.sampleBlob else none
    size := tableSize + total SongSummary.size summaries }

def document (project : Project) (options : Options) : Outcome Document :=
  documentOf (project.prepare options.wanted options.kernel) options

def Document.text (document : Document) (dialect : Dialect) : String :=
  String.join (document.lines.map fun line => line.text dialect ++ "\n")

end Export

end Chiptune
