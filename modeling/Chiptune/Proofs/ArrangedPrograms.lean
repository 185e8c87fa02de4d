import Chiptune.Proofs.ArrangedInstruments

/-!
# Programs in an arrangement

A row of a song is followed back to the start of its note: from the slot to the column of the voice,
from there to the quantised note, and from this to the message in the timeline. The instrument of
the row is the one for the program that is in force for the start.
-/

namespace Chiptune.Arrangement

open Midi (NoteSpan Moment)

/-- The MIDI channel is the one whose notes the voice plays. -/
def PlaysChannel (options : Options) (drumChannel : Int) (notes : List NoteSpan) (voice : Voice)
    (channel : Nat) : Prop :=
  if voice = .noise then (channel : Int) = drumChannel
  else (voice, channel) ∈ assigned options drumChannel notes

/-- The note is written in row `place` of `count` rows for a start in the timeline, and it has the
instrument that is made for the program in force there. -/
structure Plays (tree : FileTree) (map : InstrumentMap) (grid : Grid) (timeline : List Moment)
    (made : List (Option Int × Instrument)) (voice : Voice) (count place : Nat) (written : Note)
    (start : Start) : Prop where
  starts : start.In grid timeline
  place : rowPlace count start.row = .ok place
  value : written.value = playedValue voice start.key
  instrument :
    let entry := map.entry (start.program map.defaultProgram)
    ∃ instrument, (entry.1, instrument) ∈ made ∧ written.instrument = some instrument.id ∧
      Builds tree entry.2 (programName entry.1) instrument

section Slots

variable {song : Song} {options : Options} {channel : Channel} {slot row size count : Nat}
  {written : Note}

/-- A slot with a note is no slot of the loop, and plays a pattern. -/
lemma slot_of_musical (hc : channel ∈ (looped options song).channels)
    (hget : ((looped options song).slotNotes (channel.slots.getD slot none))[row]? = some written)
    (hmusical : written.isMusical = true) :
    ∃ source ∈ song.channels, channel.voice = source.voice ∧
      ∃ position, source.slots[slot]? = some (some position) ∧
        channel.slots.getD slot none = some position := by
  cases hslot : channel.slots.getD slot none with
  | none =>
    rw [hslot] at hget
    obtain rfl := List.eq_of_mem_replicate (List.mem_of_getElem? hget)
    cases hmusical
  | some position =>
    have hplace : channel.slots[slot]? = some (some position) := by
      rw [List.getD_eq_getElem?_getD, Option.getD_eq_iff] at hslot
      exact hslot.resolve_right fun h => nomatch h.2
    rcases looped_cases options song with heq | ⟨target, heq, -⟩
    · rw [heq] at hc
      exact ⟨channel, hc, rfl, position, hplace, rfl⟩
    · rw [heq] at hc hget
      obtain ⟨source, hs, hv, last, hslots, hlast⟩ := mem_withJump hc
      rw [hslots] at hplace
      by_cases hlt : slot < source.slots.length
      · rw [List.getElem?_append_left hlt] at hplace
        exact ⟨source, hs, hv, position, hplace, rfl⟩
      · -- The slot of the loop has no note.
        rw [List.getElem?_append_right (not_lt.mp hlt)] at hplace
        have hlast' := List.mem_singleton.mp (List.mem_of_getElem? hplace)
        rcases hlast with rfl | rfl
        · cases hlast'
        · rw [hslot, hlast', Song.slotNotes, withJump_pattern] at hget
          have hempty := jumpPattern_empty (List.mem_of_getElem? hget)
          rw [Note.isMusical, hempty] at hmusical
          exact absurd hmusical (by decide)

lemma chunks_getElem? {rows : List Note} {pattern : Pattern}
    (h : (chunks size count rows)[slot]? = some pattern) :
    pattern = (rows.drop (slot * size)).take size := by
  induction count generalizing slot rows with
  | zero => cases h
  | succ count ih =>
    rw [chunks] at h
    cases slot with
    | zero =>
      rw [Nat.zero_mul, List.drop_zero]
      exact (Option.some.inj h).symm
    | succ slot =>
      rw [List.getElem?_cons_succ] at h
      rw [ih h, List.drop_drop, Nat.succ_mul, Nat.add_comm]

/-- A row of a slot is one of the column that the slots spell. -/
lemma row_of_spells {slots : List (Option Nat)} {rows : List Note} {position : Nat}
    (h : song.Spells slots (chunks size count rows)) (hslot : slots[slot]? = some (some position))
    (hget : (song.slotNotes (some position))[row]? = some written) :
    rows[slot * size + row]? = some written := by
  have hpattern := chunks_getElem? (h.pattern_eq hslot).1
  rw [Song.slotNotes, hpattern, List.getElem?_take] at hget
  split at hget
  · rwa [List.getElem?_drop] at hget
  · cases hget

end Slots

variable {tree : FileTree} {midi : Midi.Score} {sourceName : String} {options : Options}
  {map : InstrumentMap} {project : Project} {warnings : List Warning} {plan : Plan}
  {last : Ensemble}

/-- Each note of the song is written for a note of a part, in the row where that starts. -/
lemma Plan.Staffs.note_of_musical (h : plan.Leads midi options map project)
    (hstaffs : plan.Staffs tree midi options project last) :
    Roster tree map last.instruments ∧
      ∀ channel ∈ (looped options (plan.song options)).channels, ∀ slot row written,
        ((looped options (plan.song options)).slotNotes
          (channel.slots.getD slot none))[row]? = some written → written.isMusical = true →
        ∃ part ∈ parts options plan.drumChannel plan.score plan.notes, channel.voice = part.voice ∧
          ∃ note ∈ melody part.notes,
            rowPlace (plan.length options * options.patternLength.toNat) note.start =
              .ok (slot * options.patternLength.toNat + row) ∧
            Due plan.score part.voice last.instruments note written := by
  obtain ⟨hroster, -, columns, hsong, hcolumns⟩ :=
    hstaffs.fills.columns (fun _ hp => hp) (roster_nil _ _)
  rw [hstaffs.tree, h.ofMap] at hroster
  refine ⟨hroster, fun channel hc slot row written hget hmusical => ?_⟩
  obtain ⟨source, hs, hvoice, position, hslot, hposition⟩ := slot_of_musical hc hget hmusical
  rw [hposition] at hget
  rw [hsong] at hs
  rcases Song.mem_fillAll hs with ⟨-, hblank⟩ | ⟨rows, hmem, hspells⟩
  · -- A voice without a part plays nothing.
    obtain ⟨voice, -, rfl⟩ := List.mem_map.mp hblank
    have hnone := List.eq_of_mem_replicate (List.mem_of_getElem? hslot)
    cases hnone
  · obtain ⟨part, hp, hv, hlength, hcovered⟩ := hcolumns _ hmem
    rw [← hsong] at hspells
    have hrow := row_of_spells (hspells.mono (prefix_looped options _)) hslot hget
    obtain ⟨note, hn, hplace, hdue⟩ := hcovered _ written hrow hmusical
    rw [hlength] at hplace
    exact ⟨part, hp, hvoice.trans hv, note, hn, hplace, hdue⟩

section Sources

variable {drumChannel : Int} {score : Score} {notes : List NoteSpan} {part : Part}
  {note : NoteSpan}

/-- A part has the notes of the MIDI channel that its voice plays. -/
lemma part_source (hp : part ∈ parts options drumChannel score notes) (hv : part.voice ≠ .dpcm)
    (hn : note ∈ part.notes) :
    note ∈ notes ∧ PlaysChannel options drumChannel notes part.voice note.channel := by
  rcases List.mem_append.mp hp with hp | hp
  · obtain ⟨entry, he, rfl⟩ := List.mem_map.mp hp
    obtain ⟨hmem, hchannel⟩ := List.mem_filter.mp hn
    have htone := (mem_tones.mp (List.of_mem_zip he).1).1
    refine ⟨hmem, ?_⟩
    change PlaysChannel options drumChannel notes entry.1 note.channel
    rw [PlaysChannel, if_neg htone, beq_iff_eq.mp hchannel]
    exact he
  · rcases List.mem_cons.mp (List.mem_filter.mp hp).1 with rfl | hp
    · obtain ⟨hmem, hdrum⟩ := List.mem_filter.mp (List.mem_filter.mp hn).1
      exact ⟨hmem, beq_iff_eq.mp hdrum⟩
    · obtain rfl := List.mem_singleton.mp hp
      exact absurd rfl hv

/-- The start of a quantised note, at its row. -/
lemma Plan.Leads.exists_start (h : plan.Leads midi options map project)
    (hgrid : 0 ≤ plan.grid.ticksPerRow.mantissa)
    (hprograms : programRows plan.grid midi.timeline = .ok plan.score.programs)
    (hn : note ∈ plan.notes) : ∃ start : Start, start.In plan.grid midi.timeline ∧
      start.channel = note.channel ∧ start.key = note.key ∧ start.row = note.start := by
  obtain ⟨quantised, hquantised, hsorted⟩ := alignScore_sorted h.aligned
  rw [hsorted, List.mem_mergeSort] at hn
  obtain ⟨source, hs, haligned⟩ := exists_left_of_mem ((mapM_eq_ok_iff _ _ _).mp hquantised) hn
  obtain ⟨row, hrow, haligned⟩ := (bind_eq_ok_iff _ _ _).mp haligned
  obtain ⟨stop, -, haligned⟩ := (bind_eq_ok_iff _ _ _).mp haligned
  obtain rfl := Except.ok.inj haligned
  have hordered := Midi.timeline_pairwise midi
  obtain ⟨positions, -, -, hspans⟩ := (Midi.spans_notes hordered).each
  obtain ⟨position, -, hspan⟩ := exists_left_of_mem hspans hs
  obtain ⟨start, hin, hchannel, hkey, -, hplace⟩ :=
    Arrangement.exists_start hgrid hordered hprograms hspan hrow
  exact ⟨start, hin, hchannel, hkey, hplace⟩

end Sources

/-- Each note of a tone voice or on noise has the instrument for the program that is in force for
its start: that of the last change of its MIDI channel up to its row. -/
theorem ofScore_programs (hticks : 0 ≤ midi.ticksPerBeat)
    (h : ofScore tree midi sourceName options map = .ok (project, warnings)) :
    ∃ song grid notes rows drumChannel made,
      project.songs = [song] ∧ Grid.make midi.ticksPerBeat options.rowsPerBeat = .ok grid ∧
      alignScore grid midi.timeline (Midi.notes midi.timeline) = .ok (notes, rows) ∧
      options.drumChannel = some drumChannel ∧
      project.instruments = made.map Prod.snd ∧ Roster tree map made ∧
      let length := (songLength options.patternLength rows (Limits.slots - options.loopSlots)).1
      ∀ channel ∈ song.channels, channel.voice ≠ .dpcm → ∀ slot row written,
        (song.slotNotes (channel.slots.getD slot none))[row]? = some written →
        written.isMusical = true →
        ∃ start, PlaysChannel options drumChannel notes channel.voice start.channel ∧
          Plays tree map grid midi.timeline made channel.voice (length * song.patternLength)
            (slot * song.patternLength + row) written start := by
  obtain ⟨plan, hplan, last, hstaffs⟩ := ofScore_staffed h
  obtain ⟨hroster, hnotes⟩ := hstaffs.note_of_musical hplan
  have hgrid := Grid.make_nonneg hplan.grid hticks (check_positive hplan.check).1
  have hsize : (looped options (plan.song options)).patternLength = options.patternLength.toNat :=
    (looped_patternLength options _).trans (plan.song_sameFrame options).2
  refine ⟨_, plan.grid, plan.notes, plan.rows, plan.drumChannel, last.instruments, hplan.songs,
    hplan.grid, hplan.aligned, hplan.drumChannel, hstaffs.instruments, hroster, ?_⟩
  intro length channel hc hv slot row written hget hmusical
  obtain ⟨part, hp, hvoice, note, hn, hplace, hdue⟩ :=
    hnotes channel hc slot row written hget hmusical
  rw [hvoice] at hv ⊢
  obtain ⟨hvalue, instrument, hmem, hid⟩ := hdue hv
  obtain ⟨hnote, hplays⟩ := part_source hp hv (mem_of_mem_melody hn)
  obtain ⟨start, hin, hchannel, hkey, hrow⟩ := hplan.exists_start hgrid hstaffs.programs hnote
  have hprogram := hin.program_eq hgrid (Midi.timeline_pairwise midi) hstaffs.programs
  have hentry := entry_eq plan.score (plan.score.program note.channel note.start)
  rw [← hchannel, ← hrow, hprogram, hplan.ofMap] at hentry
  rw [← hchannel, ← hrow, hprogram] at hmem
  have hmade : ((map.entry (start.program map.defaultProgram)).1, instrument) ∈
      last.instruments := by
    rw [hentry, ← hplan.ofMap]
    exact hmem
  rw [hsize]
  refine ⟨start, hchannel ▸ hplays, hin, hrow ▸ hplace, hkey ▸ hvalue, instrument, hmade, hid, ?_⟩
  exact hroster.builds hmade

/-- Entries for the programs 1 and 5. -/
def duetMap : InstrumentMap := { programs := [(1, { duty := 1 }), (5, { duty := 3 })] }

def duet (score : Midi.Score) : Outcome (Project × List Warning) :=
  ofScore ⟨"/", [], []⟩ score "duet" { patternLength := 6 } duetMap

/-- A note whose program changes half a row after its start. -/
def lateScore : Midi.Score where
  type := 1
  ticksPerBeat := 8
  tracks := [[⟨0, .program 0 1⟩, ⟨4, .noteOn 0 60 100⟩, ⟨1, .program 0 5⟩]]

/-- A note whose program changes four rows after its start, where rows are counted backwards. -/
def backwardScore : Midi.Score where
  type := 1
  ticksPerBeat := -4
  tracks := [[⟨0, .program 0 1⟩, ⟨4, .noteOn 0 60 100⟩, ⟨4, .program 0 5⟩]]

def duetSong : Song where
  id := 0
  name := "duet"
  tempo := 120
  patternLength := 6
  patterns := [[.empty, .empty, { value := 49, instrument := some 0 }, stopNote, .empty, .empty]]
  channels := [⟨.square1, [some 0]⟩, ⟨.square2, [none]⟩, ⟨.triangle, [none]⟩, ⟨.noise, [none]⟩,
    ⟨.dpcm, [none]⟩]

def duetInstrument : Instrument := { id := 0, name := "program 5", duty := 3 }

/-- The instrument of the change behind its start is the only one. -/
def PlaysLast (score : Midi.Score) : Prop :=
  ∃ project warnings, duet score = .ok (project, warnings) ∧ project.songs = [duetSong] ∧
    project.instruments = [duetInstrument]

lemma playsLast_of_map {score : Midi.Score}
    (h : (duet score).map (fun made => (made.1.songs, made.1.instruments)) =
      .ok ([duetSong], [duetInstrument])) : PlaysLast score := by
  cases hmade : duet score with
  | error error =>
    rw [hmade] at h
    cases h
  | ok made =>
    rw [hmade] at h
    obtain ⟨hsongs, hinstruments⟩ := Prod.mk.injEq .. ▸ Except.ok.inj h
    exact ⟨made.1, made.2, hmade, hsongs, hinstruments⟩

lemma lateScore_timeline : lateScore.timeline =
    [⟨0, .program 0 1⟩, ⟨4, .noteOn 0 60 100⟩, ⟨5, .program 0 5⟩] :=
  List.mergeSort_of_pairwise (by decide)

lemma backwardScore_timeline : backwardScore.timeline =
    [⟨0, .program 0 1⟩, ⟨4, .noteOn 0 60 100⟩, ⟨8, .program 0 5⟩] :=
  List.mergeSort_of_pairwise (by decide)

lemma lateScore_playsLast : PlaysLast lateScore := by
  refine playsLast_of_map ?_
  unfold duet ofScore
  rw [lateScore_timeline]
  decide +kernel

lemma backwardScore_playsLast : PlaysLast backwardScore := by
  refine playsLast_of_map ?_
  unfold duet ofScore
  rw [backwardScore_timeline]
  decide +kernel

/-- The change in the row of the note is the last one up to it. -/
theorem lateScore_programs : 0 ≤ lateScore.ticksPerBeat ∧
    ∃ project warnings grid made count start, duet lateScore = .ok (project, warnings) ∧
      project.songs = [duetSong] ∧ project.instruments = [duetInstrument] ∧
      project.instruments = made.map Prod.snd ∧
      Plays ⟨"/", [], []⟩ duetMap grid lateScore.timeline made .square1 count 2
        { value := 49, instrument := some 0 } start := by
  have hticks : 0 ≤ lateScore.ticksPerBeat := by decide
  obtain ⟨project, warnings, hmade, hsongs, hinstruments⟩ := lateScore_playsLast
  obtain ⟨song, grid, notes, rows, drumChannel, made, hsong, -, -, -, hroster, -, hplays⟩ :=
    ofScore_programs hticks hmade
  obtain rfl : duetSong = song := List.singleton_inj.mp (hsongs.symm.trans hsong)
  obtain ⟨start, -, hstart⟩ := hplays ⟨.square1, [some 0]⟩ List.mem_cons_self (by decide) 0 2
    { value := 49, instrument := some 0 } rfl (by decide)
  exact ⟨hticks, project, warnings, grid, made, _, start, hmade, hsongs, hinstruments, hroster,
    hstart⟩

/-- Program 1 is the last one before the only start of a note, but the instrument of the note is not
one that is built for program 1. -/
structure Overridden (score : Midi.Score) : Prop where
  events : score.timeline.map Moment.event = [.program 0 1, .noteOn 0 60 100, .program 0 5]
  plays : PlaysLast score
  note : ((duetSong.slotNotes (some 0)).filter Note.isMusical).map Note.instrument =
    [some duetInstrument.id]
  other : ¬ Builds ⟨"/", [], []⟩ (duetMap.entry 1).2 (programName (duetMap.entry 1).1)
    duetInstrument

/-- A change behind the start of a note counts if it lies in its row, and in a score with negative
beats even if it lies in a later one. -/
theorem duet_overridden : Overridden lateScore ∧ Overridden backwardScore := by
  have hnote : ((duetSong.slotNotes (some 0)).filter Note.isMusical).map Note.instrument =
      [some duetInstrument.id] := by decide
  have hother : ¬ Builds ⟨"/", [], []⟩ (duetMap.entry 1).2 (programName (duetMap.entry 1).1)
      duetInstrument := by
    intro hbuilt
    have hduty : duetInstrument.duty = 1 := congrArg Instrument.duty hbuilt
    exact absurd hduty (by decide)
  exact ⟨⟨congrArg (List.map Moment.event) lateScore_timeline, lateScore_playsLast, hnote, hother⟩,
    ⟨congrArg (List.map Moment.event) backwardScore_timeline, backwardScore_playsLast, hnote,
      hother⟩⟩

end Chiptune.Arrangement
