import Chiptune.Proofs.DocumentLabels

/-!
# The size of a document

The size that an export announces is the number of bytes that its lines stand for. It is counted from
the songs, the instruments, the mapping and the envelopes alone.
-/

namespace Chiptune

open Assembly

lemma SlotCode.size_lines (slot : SlotCode) : total Line.size slot.lines = slot.size := by
  cases slot with
  | buffer number bytes => simp [lines, size, total, Line.size]
  | reference number rows => rfl

lemma ChannelCode.size_lines (song number : Nat) (code : ChannelCode) :
    total Line.size (code.lines song number) = code.size := by
  have hslots : ∀ slots : List SlotCode,
      total Line.size (slots.flatMap SlotCode.lines) = total SlotCode.size slots := by
    intro slots
    rw [total_flatMap]
    simp only [SlotCode.size_lines]
  have hspeed : total Line.size (code.speed.toList.map fun speed =>
      .bytes [Command.speedCode.toNat, speed]) = if code.speed.isSome then 2 else 0 := by
    cases code.speed <;> rfl
  rw [lines, total_append, total_append, total_append, total_append, total_append, hspeed, hslots,
    hslots, size, slots, total_append]
  simp only [total, Line.size, loopSize, List.length_cons, List.length_nil]
  omega

lemma SongCode.size_lines (song : Nat) (code : SongCode) :
    total Line.size (code.lines song) = code.size := by
  rw [lines, ← List.flatMap_def, total_flatMap]
  simp only [ChannelCode.size_lines]
  exact total_zipIdx _ _

lemma size_songLines (codes : List SongCode) :
    total Line.size (songLines codes) = total SongCode.size codes := by
  rw [songLines, total_flatMap]
  simp only [SongCode.size_lines]
  exact total_zipIdx _ _

namespace Export

/-- The bytes of the tables: eight for an instrument, three for a sample slot if there are samples,
and the streams of the envelopes. -/
def tableSize (project : Project) (tables : InstrumentTables) : Nat :=
  8 * project.instruments.length +
    (if project.usesSamples then
      3 * min (Project.mappingSlots - 1) (project.mapping.length - 1) else 0) +
    total List.length tables.streams

section Tables

variable {project : Project} {tables : InstrumentTables}

lemma size_instrumentTable (h : tables.places.length = project.instruments.length) :
    total Line.size (instrumentTable project tables) = 8 * project.instruments.length := by
  have hentry : ∀ entry : (Instrument × EnvelopePlaces) × Nat,
      total Line.size (instrumentLines entry.2 entry.1.1 entry.1.2) = 8 := fun _ => rfl
  rw [instrumentTable, total_flatMap, total_const 8 fun entry _ => hentry entry,
    List.length_zipIdx, List.length_zip, h, min_self]

lemma size_sampleTable {lines : List Line} (h : sampleTable project = .ok lines) :
    total Line.size lines = if project.usesSamples then
      3 * min (Project.mappingSlots - 1) (project.mapping.length - 1) else 0 := by
  rcases sampleTable_eq_ok h with ⟨huses, rfl⟩ | ⟨huses, entries, rfl, hlength, hall⟩
  · rw [huses]
    rfl
  · have hentry : ∀ line ∈ entries, line.size = 3 := by
      intro line hm
      obtain ⟨place, units, flags, remark, rfl⟩ := hall line hm
      rfl
    rw [if_pos huses, total_append, total_const 3 hentry, hlength]
    rfl

lemma size_envelopeLines (streams : List Bytes) :
    total Line.size (envelopeLines streams) = total List.length streams := by
  have hentry : ∀ entry : Bytes × Nat, total Line.size [.label (.envelope entry.2),
      .bytes (entry.1.map fun b => (b.toNat : Int))] = entry.1.length := by
    intro entry
    simp [total, Line.size]
  rw [envelopeLines, total_flatMap]
  simp only [hentry]
  exact total_zipIdx _ _

end Tables

section Document

variable {prepared : Project} {options : Options} {parts : Parts}

lemma size_comments (parts : Parts) : total Line.size parts.comments = 0 := by
  rw [total_const 0, Nat.zero_mul]
  intro line hm
  rcases List.mem_cons.mp hm with rfl | hm
  · rfl
  · obtain ⟨entry, -, rfl⟩ := List.mem_map.mp hm
    rfl

lemma size_headerLines (project : Project) (name : String) :
    total Line.size (headerLines project name) = 5 + 14 * project.songs.length := by
  have hsongs : total Line.size
      (project.songs.zipIdx.map fun entry => headerLine entry.1 entry.2) =
        14 * project.songs.length := by
    rw [total_const 14, List.length_map, List.length_zipIdx]
    intro line hm
    obtain ⟨entry, -, rfl⟩ := List.mem_map.mp hm
    rfl
  rw [headerLines, total_append, total_append, hsongs]
  simp [total, Line.size]

lemma size_tableLines (h : Composed prepared options parts) :
    total Line.size parts.tableLines = tableSize prepared parts.tables := by
  obtain ⟨samples, hsamples, hlines⟩ := tableLines_eq_ok h.tableLines
  have hinstruments := size_instrumentTable (InstrumentTables.build_within h.tables).1
  rw [hlines, total_append, total_append, size_envelopeLines, total, total_append, hinstruments,
    show total Line.size (.label .samples :: samples) = 0 + total Line.size samples from rfl,
    size_sampleTable hsamples, tableSize]
  simp [total, Line.size]

/-- The announced size is that of the header, the tables and the songs, and the document has it. -/
theorem Parts.size_document (h : Composed prepared options parts) :
    (parts.document prepared).size = 5 + 14 * prepared.songs.length +
        tableSize prepared parts.tables + total SongSummary.size parts.summaries ∧
      total Line.size (parts.lines prepared) = (parts.document prepared).size := by
  have hcodes : total SongCode.size parts.codes = total SongSummary.size parts.summaries := by
    rw [Parts.codes, Parts.summaries, total_map, total_map]
    rfl
  have hsize : (parts.document prepared).size = total Line.size (headerLines prepared parts.name) +
      total Line.size parts.tableLines + total SongSummary.size parts.summaries := by
    rw [Parts.document, total_append]
  refine ⟨by rw [hsize, size_headerLines, size_tableLines h], ?_⟩
  rw [hsize, Parts.lines, total_append, total_append, total_append, size_comments, size_songLines,
    hcodes, Nat.zero_add]

end Document

end Export

end Chiptune
