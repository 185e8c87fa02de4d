import Chiptune.Proofs.ChosenSplits
import Chiptune.Proofs.DocumentLines
import Chiptune.Proofs.LineMeaning
import Chiptune.Proofs.SplitPieces

/-!
# The labels that a document uses

All of them are local. A document defines those of its tables and of its buffers itself, and the
labels in its header too if every song has a channel for each voice.
-/

namespace Chiptune

open Assembly

/-- The places are places of streams. -/
structure EnvelopePlaces.Within (places : EnvelopePlaces) (count : Nat) : Prop where
  volume : places.volume < count
  arpeggio : places.arpeggio < count
  pitch : places.pitch < count

lemma EnvelopePlaces.Within.mono {places : EnvelopePlaces} {count more : Nat}
    (h : places.Within count) (hle : count ≤ more) : places.Within more :=
  ⟨h.volume.trans_le hle, h.arpeggio.trans_le hle, h.pitch.trans_le hle⟩

namespace InstrumentTables

variable {kernel : Kernel} {streams later : List Bytes} {place : Nat}

lemma placeOf_lt (streams : List Bytes) (stream : Bytes) :
    (placeOf streams stream).1 < (placeOf streams stream).2.length ∧
      streams.length ≤ (placeOf streams stream).2.length := by
  unfold placeOf
  dsimp only
  by_cases hknown : streams.idxOf stream < streams.length
  · rw [if_pos hknown]
    exact ⟨hknown, le_refl _⟩
  · rw [if_neg hknown, List.length_append, List.length_singleton]
    have hle : streams.idxOf stream ≤ streams.length := List.idxOf_le_length
    omega

lemma placeEnvelope_lt {envelope : Option Envelope} {allowRelease : Bool}
    (h : placeEnvelope streams envelope allowRelease = .ok (place, later)) :
    place < later.length ∧ streams.length ≤ later.length := by
  obtain ⟨stream, hplaced⟩ : ∃ stream, placeOf streams stream = (place, later) := by
    cases envelope with
    | none => exact ⟨_, Except.ok.inj h⟩
    | some envelope =>
      obtain ⟨stream, -, h⟩ := (bind_eq_ok_iff _ _ _).mp h
      exact ⟨_, Except.ok.inj h⟩
  have hlt := placeOf_lt streams stream
  rwa [hplaced] at hlt

lemma placeInstrument_within {instrument : Instrument} {places : EnvelopePlaces}
    (h : placeInstrument kernel streams instrument = .ok (places, later)) :
    places.Within later.length ∧ streams.length ≤ later.length := by
  obtain ⟨⟨volume, first⟩, hvolume, h⟩ := (bind_eq_ok_iff _ _ _).mp h
  obtain ⟨⟨arpeggio, second⟩, harpeggio, h⟩ := (bind_eq_ok_iff _ _ _).mp h
  obtain ⟨⟨pitch, third⟩, hpitch, h⟩ := (bind_eq_ok_iff _ _ _).mp h
  obtain ⟨rfl, rfl⟩ := Prod.mk.injEq .. ▸ Except.ok.inj h
  have hv := placeEnvelope_lt hvolume
  have ha := placeEnvelope_lt harpeggio
  have hp := placeEnvelope_lt hpitch
  exact ⟨⟨by dsimp only; omega, by dsimp only; omega, hp.1⟩, by omega⟩

lemma placeAll_within {instruments : List Instrument} {tables : InstrumentTables}
    (h : placeAll kernel streams instruments = .ok tables) :
    tables.places.length = instruments.length ∧ streams.length ≤ tables.streams.length ∧
      ∀ places ∈ tables.places, places.Within tables.streams.length := by
  induction instruments generalizing streams tables with
  | nil =>
    obtain rfl := Except.ok.inj h
    exact ⟨rfl, le_refl _, by simp⟩
  | cons instrument rest ih =>
    obtain ⟨⟨places, later⟩, hplaces, h⟩ := (bind_eq_ok_iff _ _ _).mp h
    obtain ⟨others, hothers, h⟩ := (bind_eq_ok_iff _ _ _).mp h
    obtain rfl := Except.ok.inj h
    obtain ⟨hlength, hmore, hwithin⟩ := ih hothers
    obtain ⟨hfirst, hle⟩ := placeInstrument_within hplaces
    refine ⟨by simp [hlength], hle.trans hmore, ?_⟩
    intro other ho
    rcases List.mem_cons.mp ho with rfl | ho
    -- Streams are only ever appended, so earlier places stay valid.
    · exact hfirst.mono hmore
    · exact hwithin other ho

lemma build_within {project : Project} {tables : InstrumentTables}
    (h : build project kernel = .ok tables) :
    tables.places.length = project.instruments.length ∧
      ∀ places ∈ tables.places, places.Within tables.streams.length := by
  unfold build at h
  split at h
  · cases h
  · obtain ⟨hlength, -, hwithin⟩ := placeAll_within h
    exact ⟨hlength, hwithin⟩

end InstrumentTables

namespace Export

open Text

lemma length_of_build {project : Project} {kernel : Kernel} {tables : InstrumentTables}
    (h : InstrumentTables.build project kernel = .ok tables) :
    project.instruments.length ≤ Limits.instruments := by
  unfold InstrumentTables.build at h
  by_cases hmany : project.instruments.length > Limits.instruments
  · rw [if_pos hmany] at h
    exact nomatch h
  · exact not_lt.mp hmany

section Tables

variable {project : Project} {tables : InstrumentTables} {line : Line} {l : Label}

lemma uses_instrumentTable
    (h : ∀ places ∈ tables.places, places.Within tables.streams.length)
    (hm : line ∈ instrumentTable project tables) :
    line.Writable ∧ ∀ l ∈ line.uses, ∃ n < tables.streams.length, l = .envelope n := by
  obtain ⟨entry, he, hm⟩ := List.mem_flatMap.mp hm
  have hplaces := h _ (List.of_mem_zip (List.fst_mem_of_mem_zipIdx he)).2
  simp only [instrumentLines, List.mem_cons, List.not_mem_nil, or_false] at hm
  rcases hm with rfl | rfl | rfl
  · exact ⟨trivial, by simp [Line.uses]⟩
  · refine ⟨by simp [Line.Writable, Operand.Writable], ?_⟩
    intro l hl
    simp only [Line.uses, List.mem_filterMap, List.mem_map] at hl
    obtain ⟨operand, ⟨n, hn, rfl⟩, hl⟩ := hl
    obtain rfl := Option.some.inj hl
    refine ⟨n, ?_, rfl⟩
    simp only [List.mem_cons, List.not_mem_nil, or_false] at hn
    rcases hn with rfl | rfl | rfl
    · exact hplaces.volume
    · exact hplaces.arpeggio
    · exact hplaces.pitch
  · exact ⟨trivial, by simp [Line.uses]⟩

lemma sampleLine_eq_ok {slot : Nat} {entry : Option SampleMapping}
    (h : sampleLine project slot entry = .ok line) :
    ∃ place units flags remark, line = .sample place units flags remark := by
  unfold sampleLine at h
  split at h
  · exact ⟨_, _, _, _, (Except.ok.inj h).symm⟩
  · obtain ⟨address, -, h⟩ := (bind_eq_ok_iff _ _ _).mp h
    exact ⟨_, _, _, _, (Except.ok.inj h).symm⟩

lemma sampleTable_eq_ok {lines : List Line} (h : sampleTable project = .ok lines) :
    (project.usesSamples = false ∧ lines = []) ∨
      project.usesSamples = true ∧ ∃ entries, lines = entries ++ [Line.blank] ∧
        entries.length = min (Project.mappingSlots - 1) (project.mapping.length - 1) ∧
        ∀ line ∈ entries, ∃ place units flags remark, line = .sample place units flags remark := by
  unfold sampleTable at h
  split at h
  · next huses =>
    obtain ⟨entries, hentries, h⟩ := (bind_eq_ok_iff _ _ _).mp h
    obtain rfl := Except.ok.inj h
    have hall := (mapM_eq_ok_iff _ _ _).mp hentries
    refine .inr ⟨huses, entries, rfl, ?_, fun line hm => ?_⟩
    · rw [← hall.length_eq, List.length_take, List.length_drop, List.length_zipIdx]
    · obtain ⟨entry, -, hline⟩ := exists_left_of_mem hall hm
      exact sampleLine_eq_ok hline
  · next huses =>
    exact .inl ⟨by simpa using huses, (Except.ok.inj h).symm⟩

lemma uses_sampleTable {lines : List Line} (h : sampleTable project = .ok lines)
    (hm : line ∈ lines) : line.Writable ∧ line.uses = [] := by
  rcases sampleTable_eq_ok h with ⟨-, rfl⟩ | ⟨-, entries, rfl, -, hall⟩
  · cases hm
  · rcases List.mem_append.mp hm with hm | hm
    · obtain ⟨place, units, flags, remark, rfl⟩ := hall line hm
      exact ⟨trivial, rfl⟩
    · obtain rfl := List.mem_singleton.mp hm
      exact ⟨trivial, rfl⟩

lemma uses_envelopeLines {streams : List Bytes} (hm : line ∈ envelopeLines streams) :
    line.Writable ∧ line.uses = [] := by
  obtain ⟨entry, -, hm⟩ := List.mem_flatMap.mp hm
  simp only [List.mem_cons, List.not_mem_nil, or_false] at hm
  rcases hm with rfl | rfl
  · exact ⟨trivial, rfl⟩
  · exact ⟨trivial, rfl⟩

end Tables

section Songs

variable {codes : List SongCode} {jobs : List SongJob} {line : Line} {l : Label}

lemma mem_songLines : line ∈ songLines codes ↔ ∃ (song : Nat) (code : SongCode)
    (number : Nat) (channel : ChannelCode), codes[song]? = some code ∧
      code.channels[number]? = some channel ∧ line ∈ channel.lines song number := by
  simp only [songLines, SongCode.lines, List.mem_flatMap, List.mem_flatten, List.mem_map,
    Prod.exists, List.mem_zipIdx_iff_getElem?]
  constructor
  · rintro ⟨code, song, hcode, lines, ⟨channel, number, hchannel, rfl⟩, hm⟩
    exact ⟨song, code, number, channel, hcode, hchannel, hm⟩
  · rintro ⟨song, code, number, channel, hcode, hchannel, hm⟩
    exact ⟨code, song, hcode, _, ⟨channel, number, hchannel, rfl⟩, hm⟩

lemma uses_channelLines {song number : Nat} {channel : ChannelCode}
    (hm : line ∈ channel.lines song number) : line.Writable ∧ ∀ l ∈ line.uses,
      l = .channelLoop song number ∨
        ∃ buffer rows, .reference buffer rows ∈ channel.slots ∧ l = .buffer buffer := by
  have hslots : ∀ slots : List SlotCode, line ∈ slots.flatMap SlotCode.lines →
      line.Writable ∧ ∀ l ∈ line.uses,
        ∃ buffer rows, .reference buffer rows ∈ slots ∧ l = .buffer buffer := by
    intro slots hm
    obtain ⟨slot, hslot, hm⟩ := List.mem_flatMap.mp hm
    cases slot with
    | buffer buffer bytes =>
      simp only [SlotCode.lines, List.mem_cons, List.not_mem_nil, or_false] at hm
      rcases hm with rfl | rfl
      · exact ⟨trivial, by simp [Line.uses]⟩
      · exact ⟨trivial, by simp [Line.uses]⟩
    | reference buffer rows =>
      simp only [SlotCode.lines, List.mem_cons, List.not_mem_nil, or_false] at hm
      rcases hm with rfl | rfl
      · exact ⟨trivial, by simp [Line.uses]⟩
      · refine ⟨by simp [Line.Writable, Operand.Writable], ?_⟩
        intro l hl
        exact ⟨buffer, rows, hslot, by simpa [Line.uses, Operand.label?] using hl⟩
  simp only [ChannelCode.lines, List.mem_append, List.mem_cons, List.not_mem_nil, or_false,
    List.mem_map] at hm
  rcases hm with (((((rfl | rfl) | ⟨speed, -, rfl⟩) | hm) | rfl) | hm) | rfl | rfl
  · exact ⟨trivial, by simp [Line.uses]⟩
  · exact ⟨trivial, by simp [Line.uses]⟩
  · exact ⟨trivial, by simp [Line.uses]⟩
  · obtain ⟨hw, hl⟩ := hslots _ hm
    refine ⟨hw, fun l hm => ?_⟩
    obtain ⟨buffer, rows, hslot, rfl⟩ := hl l hm
    exact .inr ⟨buffer, rows, List.mem_append_left _ hslot, rfl⟩
  · exact ⟨trivial, by simp [Line.uses]⟩
  · obtain ⟨hw, hl⟩ := hslots _ hm
    refine ⟨hw, fun l hm => ?_⟩
    obtain ⟨buffer, rows, hslot, rfl⟩ := hl l hm
    exact .inr ⟨buffer, rows, List.mem_append_right _ hslot, rfl⟩
  · exact ⟨trivial, by simp [Line.uses]⟩
  · refine ⟨by simp [Line.Writable, Operand.Writable], ?_⟩
    intro l hl
    exact .inl (by simpa [Line.uses, Operand.label?] using hl)

lemma uses_songLines (h : encodeInTurn {} jobs = .ok codes) (hm : line ∈ songLines codes) :
    line.Writable ∧ ∀ l ∈ line.uses, .label l ∈ songLines codes ∧ l.isLocal = true := by
  obtain ⟨song, code, number, channel, hcode, hchannel, hm⟩ := mem_songLines.mp hm
  obtain ⟨hw, huses⟩ := uses_channelLines hm
  refine ⟨hw, fun l hl => ?_⟩
  rcases huses l hl with rfl | ⟨buffer, rows, hslot, rfl⟩
  · exact ⟨mem_songLines.mpr ⟨song, code, number, channel, hcode, hchannel,
      by simp [ChannelCode.lines]⟩, rfl⟩
  · exact ⟨mem_referredLabel h hcode hchannel hslot, rfl⟩

end Songs

section Document

variable {prepared : Project} {options : Options} {parts : Parts} {jobs : List SongJob}
  {line : Line} {l : Label}

lemma checkTempo_eq_ok {song : Song} (h : checkTempo song = .ok ()) :
    isWritable (tempoWords song.tempo).1 = true ∧ isWritable (tempoWords song.tempo).2 = true := by
  unfold checkTempo at h
  dsimp only at h
  generalize isWritable (tempoWords song.tempo).1 = first at h ⊢
  generalize isWritable (tempoWords song.tempo).2 = second at h ⊢
  cases first with
  | false => cases h
  | true =>
    cases second with
    | false => cases h
    | true => exact ⟨rfl, rfl⟩

lemma uses_headerLine {song : Song} (h : checkTempo song = .ok ()) (number : Nat) :
    (headerLine song number).Writable ∧ ∀ l ∈ (headerLine song number).uses,
      ∃ place < Voice.all.length, l = .channel number place := by
  obtain ⟨hpal, hntsc⟩ := checkTempo_eq_ok h
  have hline : headerLine song number =
      .words ((List.range Voice.all.length).map (fun place => .label (.channel number place)) ++
        [.number (tempoWords song.tempo).1, .number (tempoWords song.tempo).2]) := rfl
  rw [hline]
  constructor
  · intro operand ho
    rcases List.mem_append.mp ho with ho | ho
    · obtain ⟨place, -, rfl⟩ := List.mem_map.mp ho
      exact trivial
    · simp only [List.mem_cons, List.not_mem_nil, or_false] at ho
      rcases ho with rfl | rfl
      · exact hpal
      · exact hntsc
  · intro l hl
    obtain ⟨operand, ho, hl⟩ := List.mem_filterMap.mp hl
    rcases List.mem_append.mp ho with ho | ho
    · obtain ⟨place, hplace, rfl⟩ := List.mem_map.mp ho
      exact ⟨place, List.mem_range.mp hplace, (Option.some.inj hl).symm⟩
    · simp only [List.mem_cons, List.not_mem_nil, or_false] at ho
      rcases ho with rfl | rfl
      · cases hl
      · cases hl

lemma uses_headerLines (hcount : prepared.songs.length ≤ Limits.songs)
    (htempo : prepared.songs.forM checkTempo = .ok ()) (name : String)
    (hm : line ∈ headerLines prepared name) : line.Writable ∧ ∀ l ∈ line.uses,
      l = .instruments ∨ l = .samples ∨ ∃ number < prepared.songs.length,
        ∃ place < Voice.all.length, l = .channel number place := by
  rcases List.mem_append.mp hm with hm | hm
  · rcases List.mem_append.mp hm with hm | hm
    · simp only [List.mem_cons, List.not_mem_nil, or_false] at hm
      rcases hm with rfl | rfl | rfl | rfl | rfl
      · exact ⟨trivial, by simp [Line.uses]⟩
      · exact ⟨trivial, by simp [Line.uses]⟩
      · have hlt : prepared.songs.length < 100 := hcount.trans_lt (by decide)
        exact ⟨isWritable_of_lt hlt, by simp [Line.uses]⟩
      · exact ⟨by simp [Line.Writable, Operand.Writable],
          by simp [Line.uses, Operand.label?]⟩
      · have hdistance : isWritable ((3 : Nat) : Int) = true := isWritable_of_lt (by decide)
        exact ⟨by simpa [Line.Writable, Operand.Writable] using hdistance,
          by simp [Line.uses, Operand.label?]⟩
    · obtain ⟨⟨song, number⟩, hentry, rfl⟩ := List.mem_map.mp hm
      have hsong := List.fst_mem_of_mem_zipIdx hentry
      have hnumber : number < prepared.songs.length := List.snd_lt_of_mem_zipIdx hentry
      obtain ⟨hw, huses⟩ := uses_headerLine ((forM_eq_ok_iff _ _).mp htempo song hsong) number
      refine ⟨hw, fun l hl => ?_⟩
      obtain ⟨place, hplace, rfl⟩ := huses l hl
      exact .inr (.inr ⟨number, hnumber, place, hplace, rfl⟩)
  · obtain rfl := List.mem_singleton.mp hm
    exact ⟨trivial, by simp [Line.uses]⟩

lemma uses_tableLines {kernel : Kernel} {tables : InstrumentTables} {lines : List Line}
    (htables : InstrumentTables.build prepared kernel = .ok tables)
    (h : tableLines prepared tables = .ok lines) (hm : line ∈ lines) :
    line.Writable ∧ ∀ l ∈ line.uses, ∃ n < tables.streams.length, l = .envelope n := by
  obtain ⟨samples, hsamples, hlines⟩ := tableLines_eq_ok h
  simp only [hlines, List.cons_append, List.mem_cons, List.mem_append, List.not_mem_nil,
    or_false] at hm
  rcases hm with rfl | ((hm | rfl) | rfl | hm) | hm
  · exact ⟨trivial, by simp [Line.uses]⟩
  · exact uses_instrumentTable (InstrumentTables.build_within htables).2 hm
  · exact ⟨trivial, by simp [Line.uses]⟩
  · exact ⟨trivial, by simp [Line.uses]⟩
  · obtain ⟨hw, huses⟩ := uses_sampleTable hsamples hm
    exact ⟨hw, by simp [huses]⟩
  · obtain ⟨hw, huses⟩ := uses_envelopeLines hm
    exact ⟨hw, by simp [huses]⟩

lemma Parts.mem_lines_label (h : Composed prepared options parts)
    (hl : l = .instruments ∨ l = .samples ∨
      (∃ n < parts.tables.streams.length, l = .envelope n) ∨ .label l ∈ songLines parts.codes) :
    .label l ∈ parts.lines prepared := by
  rw [← mem_labelsOf, Parts.labelsOf_lines h]
  rcases hl with rfl | rfl | ⟨n, hn, rfl⟩ | hl
  · simp
  · simp
  · simp [hn]
  · exact List.mem_append_right _ (mem_labelsOf.mpr hl)

/-- A document can be written, and it uses its own labels and those that its header names. -/
theorem Parts.uses_lines (h : Composed prepared options parts)
    (htempo : prepared.songs.forM checkTempo = .ok ())
    (hjobs : encodeInTurn {} jobs = .ok parts.codes) (hm : line ∈ parts.lines prepared) :
    line.Writable ∧ ∀ l ∈ line.uses, l.isLocal = true ∧
      (.label l ∈ parts.lines prepared ∨ ∃ number < prepared.songs.length,
        ∃ place < Voice.all.length, l = .channel number place) := by
  simp only [Parts.lines, List.mem_append] at hm
  rcases hm with ((hm | hm) | hm) | hm
  · rcases List.mem_cons.mp hm with rfl | hm
    · exact ⟨trivial, by simp [Line.uses, titleLine]⟩
    · obtain ⟨entry, -, rfl⟩ := List.mem_map.mp hm
      exact ⟨trivial, by simp [Line.uses, summaryLine]⟩
  · obtain ⟨hw, huses⟩ := uses_headerLines h.count htempo parts.name hm
    refine ⟨hw, fun l hl => ?_⟩
    rcases huses l hl with rfl | rfl | ⟨number, hnumber, place, hplace, rfl⟩
    · exact ⟨rfl, .inl (Parts.mem_lines_label h (.inl rfl))⟩
    · exact ⟨rfl, .inl (Parts.mem_lines_label h (.inr (.inl rfl)))⟩
    -- Whether the song has a channel in that place is not known here.
    · exact ⟨rfl, .inr ⟨number, hnumber, place, hplace, rfl⟩⟩
  · obtain ⟨hw, huses⟩ := uses_tableLines h.tables h.tableLines hm
    refine ⟨hw, fun l hl => ?_⟩
    obtain ⟨n, hn, rfl⟩ := huses l hl
    exact ⟨rfl, .inl (Parts.mem_lines_label h (.inr (.inr (.inl ⟨n, hn, rfl⟩))))⟩
  · obtain ⟨hw, huses⟩ := uses_songLines hjobs hm
    refine ⟨hw, fun l hl => ?_⟩
    obtain ⟨hl, hlocal⟩ := huses l hl
    exact ⟨hlocal, .inl (Parts.mem_lines_label h (.inr (.inr (.inr hl))))⟩

lemma mem_channelLabel {encoding : Encoding} (hjobs : encodeInTurn {} jobs = .ok parts.codes)
    (hof : List.Forall₂ (JobOf encoding) parts.songs jobs) {number place : Nat}
    {entry : Song × Choice} (hentry : parts.songs[number]? = some entry)
    (hplace : place < entry.1.channels.length) :
    .label (.channel number place) ∈ songLines parts.codes := by
  obtain ⟨job, hjob, hjobOf⟩ := exists_right_of_getElem? hof hentry
  obtain ⟨code, hcode, hlength, -⟩ := exists_right_of_getElem? (encodeInTurn_carries hjobs) hjob
  obtain ⟨size, -, hcut⟩ := split_cut hjobOf.split
  have hchannel := List.getElem?_eq_getElem (show place < code.channels.length by
    rwa [hlength, hcut.channels])
  exact mem_songLines.mpr ⟨number, code, place, _, hcode, hchannel, by simp [ChannelCode.lines]⟩

/-- A document whose songs have a channel for each voice defines all labels that it uses. -/
theorem Parts.selfContained {encoding : Encoding} (h : Composed prepared options parts)
    (htempo : prepared.songs.forM checkTempo = .ok ())
    (hjobs : encodeInTurn {} jobs = .ok parts.codes)
    (hof : List.Forall₂ (JobOf encoding) parts.songs jobs)
    (hsongs : parts.songs.map Prod.fst = prepared.songs)
    (hvoices : ∀ song ∈ prepared.songs, song.channels.length = Voice.all.length) :
    SelfContained (parts.lines prepared) := by
  intro line hm l hl
  rcases ((Parts.uses_lines h htempo hjobs hm).2 l hl).2 with
    hl | ⟨number, hnumber, place, hplace, rfl⟩
  · exact hl
  · have hlt : number < parts.songs.length := by rwa [← hsongs, List.length_map] at hnumber
    have hentry := List.getElem?_eq_getElem hlt
    have hsong : parts.songs[number].1 ∈ prepared.songs :=
      hsongs ▸ List.mem_map_of_mem (List.getElem_mem hlt)
    rw [← hvoices _ hsong] at hplace
    exact List.mem_append_right _ (mem_channelLabel hjobs hof hentry hplace)

end Document

end Export

end Chiptune
