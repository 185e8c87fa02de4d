import Chiptune.Export.Prepare
import Chiptune.Export.Tables
import Chiptune.Proofs.Score
import Chiptune.Proofs.Spelling

/-!
# Prepared songs

Preparing a project for a kernel leaves the songs playable: a change of notes that keeps their
effects keeps the order of play, and an instrument that a note names stays in the table.
-/

namespace Chiptune

/-- A song whose numbers fit into the commands of the driver, with instruments of a list. -/
structure Song.Playable (listed : List InstrumentId) (song : Song) : Prop where
  voices : song.channels.length = Voice.all.length
  formed : song.Formed
  short : song.patternLength ≤ 255
  range : ∀ note ∈ song.notes, note.InRange
  volume : ∀ note ∈ song.notes, ∀ level, note.volume = some level → 0 ≤ level ∧ level ≤ 15
  start : 0 ≤ song.speed ∧ song.speed ≤ 255
  speed : ∀ note ∈ song.notes, note.effect = .speed → 0 ≤ note.param ∧ note.param ≤ 255
  listed : ∀ note ∈ song.notes, ∀ id, note.instrument = some id → id ∈ listed
  unmixed : ∀ slot ∈ song.effects, slot.Unmixed
  name : Text.OneLine song.name.toList

section Played

variable {song : Song}

lemma speed_withLater {first later : SlotEffects} {row : Nat} {frames : Int}
    (h : ((first.withLater later).row row).speed = some frames) :
    (first.row row).speed = some frames ∨ (later.row row).speed = some frames := by
  induction first generalizing later row with
  | nil => exact .inr h
  | cons effects first ih =>
    cases later with
    | nil => exact .inl h
    | cons other later =>
      cases row with
      | zero =>
        have hrow : (effects.speed <|> other.speed) = some frames := h
        cases hspeed : effects.speed with
        | none =>
          rw [hspeed] at hrow
          exact .inr hrow
        | some own =>
          rw [hspeed] at hrow
          exact .inl (hspeed.trans hrow)
      | succ row => exact ih h

lemma speed_of_slotEffects {slot row : Nat} {frames : Int}
    (h : ((song.slotEffects slot).row row).speed = some frames) :
    ∃ note ∈ song.notes, note.effect = .speed ∧ note.param = frames := by
  have hchannel : ∀ channel ∈ song.channels,
      ((song.channelEffects slot channel).row row).speed = some frames →
      ∃ note ∈ song.notes, note.effect = .speed ∧ note.param = frames := by
    intro channel hc hspeed
    unfold Song.channelEffects at hspeed
    split at hspeed
    · next position hslot =>
      rw [SlotEffects.row, List.getD_eq_getElem?_getD, List.getElem?_map] at hspeed
      cases hnote : ((song.pattern position).take song.patternLength)[row]? with
      | none =>
        rw [hnote] at hspeed
        cases hspeed
      | some note =>
        rw [hnote] at hspeed
        have hmem := List.mem_of_mem_take (List.mem_of_getElem? hnote)
        refine ⟨note, Song.mem_notes hc (List.mem_of_getElem? hslot) hmem, ?_⟩
        have hof : (RowEffects.ofNote note).speed = some frames := hspeed
        unfold RowEffects.ofNote at hof
        cases heffect : note.effect with
        | speed =>
          rw [heffect] at hof
          exact ⟨rfl, Option.some.inj hof⟩
        | none | jump | skip =>
          rw [heffect] at hof
          cases hof
    · cases hspeed
  unfold Song.slotEffects at h
  revert hchannel
  generalize song.channels = channels at h ⊢
  induction channels with
  | nil => cases h
  | cons channel rest ih =>
    intro hall
    rcases speed_withLater h with h | h
    · exact hall channel (by simp) h
    · exact ih h fun other ho => hall other (by simp [ho])

lemma mem_noteAt {channel : Channel} (hc : channel ∈ song.channels) (slot row : Nat) :
    song.noteAt channel slot row ∈ song.notes ∨ song.noteAt channel slot row = .empty := by
  rw [Song.noteAt, List.getD_eq_getElem?_getD]
  cases hrow : (song.slotNotes (channel.slots.getD slot none))[row]? with
  | none => exact .inr rfl
  | some note =>
    have hmem := List.mem_of_getElem? hrow
    rw [Option.getD_some]
    cases hslot : channel.slots.getD slot none with
    | none =>
      rw [hslot] at hmem
      exact .inr (List.eq_of_mem_replicate hmem)
    | some position =>
      rw [hslot] at hmem
      exact .inl (Song.mem_notes hc (mem_of_getD_eq_some hslot) hmem)

/-- The rows that a channel of a playable song plays fit into the commands of the driver. -/
lemma fits_played {listed : List InstrumentId} (h : song.Playable listed) {voicing : Voicing}
    (hindex : ∀ note ∈ song.notes, ∀ id, note.instrument = some id →
      ∃ place, voicing.index id = some place ∧ place < Limits.instruments)
    {channel : Channel} (hc : channel ∈ song.channels) :
    ∀ entry ∈ song.played channel, voicing.Fits entry := by
  intro entry he
  obtain ⟨slot, -, he⟩ := List.mem_flatMap.mp he
  obtain ⟨row, -, rfl⟩ := List.mem_map.mp he
  have hspeed : ∀ frames, ((song.slotEffects slot).row row).speed = some frames →
      0 ≤ frames ∧ frames ≤ 255 := by
    intro frames hf
    obtain ⟨note, hn, heffect, rfl⟩ := speed_of_slotEffects hf
    exact h.speed note hn heffect
  rcases mem_noteAt hc slot row with hn | hn
  · exact ⟨h.range _ hn, h.volume _ hn, hspeed, fun _ => hindex _ hn⟩
  · exact ⟨by rw [hn]; exact .inr (.inr rfl), by simp [hn, Note.empty], hspeed, by
      simp [hn, Note.empty]⟩

end Played

section Change

variable {song : Song} {change : Note → Note}

lemma pattern_mapNotes (song : Song) (change : Note → Note) (position : Nat) :
    (song.mapNotes change).pattern position = (song.pattern position).map change := by
  rw [Song.pattern, Song.pattern, Song.mapNotes, List.getD_eq_getElem?_getD,
    List.getD_eq_getElem?_getD, List.getElem?_map]
  cases song.patterns[position]? <;> rfl

lemma notes_mapNotes (song : Song) (change : Note → Note) :
    (song.mapNotes change).notes = song.notes.map change := by
  have hpattern : (song.mapNotes change).pattern = fun position =>
      (song.pattern position).map change := funext (pattern_mapNotes song change)
  rw [Song.notes, hpattern, Song.notes, List.map_flatMap]
  rfl

lemma formed_mapNotes (h : song.Formed) : (song.mapNotes change).Formed where
  slots := h.slots
  rows := by
    intro position hp
    rw [pattern_mapNotes, List.length_map]
    exact h.rows position hp

lemma slotEffects_mapNotes
    (h : ∀ note, (change note).effect = note.effect ∧ (change note).param = note.param)
    (slot : Nat) : (song.mapNotes change).slotEffects slot = song.slotEffects slot := by
  have hnote : RowEffects.ofNote ∘ change = RowEffects.ofNote := by
    funext note
    obtain ⟨heffect, hparam⟩ := h note
    rw [Function.comp, RowEffects.ofNote, RowEffects.ofNote, heffect, hparam]
  have hchannel : (song.mapNotes change).channelEffects slot = song.channelEffects slot := by
    funext channel
    unfold Song.channelEffects
    split
    · rw [pattern_mapNotes, ← List.map_take, List.map_map, hnote]
      rfl
    · rfl
  rw [Song.slotEffects, hchannel, Song.slotEffects]
  rfl

lemma effects_mapNotes
    (h : ∀ note, (change note).effect = note.effect ∧ (change note).param = note.param) :
    (song.mapNotes change).effects = song.effects := by
  rw [Song.effects, funext (slotEffects_mapNotes h), Song.effects]
  rfl

lemma noteAt_mapNotes (hempty : change .empty = .empty) (channel : Channel) (slot row : Nat) :
    (song.mapNotes change).noteAt channel slot row = change (song.noteAt channel slot row) := by
  have hnotes : (song.mapNotes change).slotNotes (channel.slots.getD slot none) =
      (song.slotNotes (channel.slots.getD slot none)).map change := by
    cases channel.slots.getD slot none with
    | none =>
      rw [Song.slotNotes, Song.slotNotes, List.map_replicate, hempty]
      rfl
    | some position => exact pattern_mapNotes song change position
  rw [Song.noteAt, hnotes, Song.noteAt]
  generalize song.slotNotes (channel.slots.getD slot none) = notes
  rw [List.getD_eq_getElem?_getD, List.getElem?_map, List.getD_eq_getElem?_getD]
  cases notes[row]? with
  | none => exact hempty.symm
  | some note => rfl

/-- A change that keeps effects and empty rows changes the notes of the rows that are played, and
keeps the order of play. -/
lemma rows_mapNotes
    (h : ∀ note, (change note).effect = note.effect ∧ (change note).param = note.param)
    (hempty : change .empty = .empty) (channel : Channel) :
    (song.mapNotes change).played channel =
        (song.played channel).map (fun row => (change row.1, row.2)) ∧
      (song.mapNotes change).repeated channel =
        (song.repeated channel).map fun row => (change row.1, row.2) := by
  have hslots : (song.mapNotes change).slotEffects = song.slotEffects :=
    funext (slotEffects_mapNotes h)
  have hrows : ∀ slot, (song.mapNotes change).slotRows channel slot =
      (song.slotRows channel slot).map fun row => (change row.1, row.2) := by
    intro slot
    have haudible : (song.mapNotes change).audible slot = song.audible slot := by
      rw [Song.audible, hslots, Song.audible]
      rfl
    rw [Song.slotRows, haudible, Song.slotRows, List.map_map]
    refine List.map_congr_left fun row _ => ?_
    rw [noteAt_mapNotes hempty, hslots]
    rfl
  have hplayed : (song.mapNotes change).playedSlots = song.playedSlots := by
    have hjumps : (song.mapNotes change).jumps = song.jumps := by
      funext slot
      rw [Song.jumps, hslots, Song.jumps]
    rw [Song.playedSlots, hjumps]
    rfl
  have hrepeated : (song.mapNotes change).repeatedSlots = song.repeatedSlots := by
    rw [Song.repeatedSlots, hplayed, effects_mapNotes h]
    rfl
  constructor
  · rw [Song.played, hplayed, Song.played, List.map_flatMap]
    exact List.flatMap_congr fun slot _ => hrows slot
  · rw [Song.repeated, hrepeated, Song.repeated, List.map_flatMap]
    exact List.flatMap_congr fun slot _ => hrows slot

/-- What a change of a note must keep for its song to stay playable. -/
structure Keeps (note changed : Note) : Prop where
  range : note.InRange → changed.InRange
  volume : changed.volume = note.volume
  instrument : changed.instrument = note.instrument
  effect : changed.effect = note.effect ∧ changed.param = note.param

lemma playable_mapNotes {listed : List InstrumentId} (h : song.Playable listed)
    (hkeeps : ∀ note, Keeps note (change note)) : (song.mapNotes change).Playable listed where
  voices := h.voices
  formed := formed_mapNotes h.formed
  short := h.short
  range := by
    rw [notes_mapNotes]
    intro note hn
    obtain ⟨source, hs, rfl⟩ := List.mem_map.mp hn
    exact (hkeeps source).range (h.range source hs)
  volume := by
    rw [notes_mapNotes]
    intro note hn level hl
    obtain ⟨source, hs, rfl⟩ := List.mem_map.mp hn
    exact h.volume source hs level ((hkeeps source).volume ▸ hl)
  start := h.start
  speed := by
    rw [notes_mapNotes]
    intro note hn he
    obtain ⟨source, hs, rfl⟩ := List.mem_map.mp hn
    obtain ⟨heffect, hparam⟩ := (hkeeps source).effect
    rw [heffect] at he
    rw [hparam]
    exact h.speed source hs he
  listed := by
    rw [notes_mapNotes]
    intro note hn id hid
    obtain ⟨source, hs, rfl⟩ := List.mem_map.mp hn
    exact h.listed source hs id ((hkeeps source).instrument ▸ hid)
  unmixed := by
    rw [effects_mapNotes fun note => (hkeeps note).effect]
    exact h.unmixed
  name := h.name

lemma keeps_withoutRelease (note : Note) : Keeps note note.withoutRelease := by
  unfold Note.withoutRelease
  by_cases hr : note.isRelease = true
  · rw [if_pos hr]
    exact ⟨fun _ => .inr (.inr rfl), rfl, rfl, rfl, rfl⟩
  · rw [if_neg hr]
    exact ⟨id, rfl, rfl, rfl, rfl⟩

/-- A note as a kernel can play it. -/
def Note.fitted (kernel : Kernel) (note : Note) : Note :=
  if kernel.supportsReleases then note else note.withoutRelease

lemma song_fitted (kernel : Kernel) (song : Song) :
    song.fitted kernel = song.mapNotes (Note.fitted kernel) := by
  unfold Song.fitted Note.fitted
  by_cases hr : kernel.supportsReleases = true
  · simp [hr, Song.mapNotes]
  · simp [hr]

lemma keeps_fitted (kernel : Kernel) (note : Note) : Keeps note (note.fitted kernel) := by
  unfold Note.fitted
  by_cases hr : kernel.supportsReleases = true
  · rw [if_pos hr]
    exact ⟨id, rfl, rfl, rfl, rfl⟩
  · rw [if_neg hr]
    exact keeps_withoutRelease note

lemma playable_fitted {listed : List InstrumentId} (h : song.Playable listed) (kernel : Kernel) :
    (song.fitted kernel).Playable listed := by
  rw [song_fitted]
  exact playable_mapNotes h (keeps_fitted kernel)

/-- A song for a kernel plays the rows of the song, as far as the kernel can play their notes. -/
theorem rows_fitted (kernel : Kernel) (song : Song) (channel : Channel) :
    (song.fitted kernel).played channel =
        (song.played channel).map (fun row => (row.1.fitted kernel, row.2)) ∧
      (song.fitted kernel).repeated channel =
        (song.repeated channel).map fun row => (row.1.fitted kernel, row.2) := by
  rw [song_fitted]
  refine rows_mapNotes (fun note => (keeps_fitted kernel note).effect) ?_ channel
  cases kernel <;> rfl

end Change

namespace Project

variable {project : Project} {wanted : Option (List Int)} {kernel : Kernel}

lemma mem_select {song : Song} (h : song ∈ (project.select wanted).songs) :
    song ∈ project.songs := by
  cases wanted with
  | none => exact h
  | some ids => exact List.mem_of_mem_filter h

lemma select_instruments (project : Project) (wanted : Option (List Int)) :
    (project.select wanted).instruments = project.instruments := by
  cases wanted <;> rfl

lemma prepare_songs (project : Project) (wanted : Option (List Int)) (kernel : Kernel) :
    (project.prepare wanted kernel).songs =
      (project.select wanted).songs.map (·.fitted kernel) := rfl

theorem prepare_playable {listed : List InstrumentId}
    (h : ∀ song ∈ project.songs, song.Playable listed) :
    ∀ song ∈ (project.prepare wanted kernel).songs, song.Playable listed := by
  intro song hs
  rw [prepare_songs] at hs
  obtain ⟨source, hsource, rfl⟩ := List.mem_map.mp hs
  exact playable_fitted (h source (mem_select hsource)) kernel

lemma instrumentIndex?_of_mem {id : InstrumentId}
    (h : id ∈ project.instruments.map Instrument.id) :
    ∃ place, project.instrumentIndex? id = some place ∧ place < project.instruments.length := by
  obtain ⟨instrument, hi, hid⟩ := List.mem_map.mp h
  have hpos := List.length_pos_of_mem hi
  unfold instrumentIndex?
  cases hfind : project.instruments.reverse.findIdx? (·.id == id) with
  | none =>
    have hnone := List.findIdx?_eq_none_iff.mp hfind instrument (List.mem_reverse.mpr hi)
    simp [hid] at hnone
  | some place =>
    refine ⟨_, rfl, ?_⟩
    dsimp only
    omega

/-- An instrument that a note of a prepared song names is still listed. -/
lemma prepare_listed {song : Song}
    (hs : song ∈ (project.prepare wanted kernel).songs) {note : Note} (hn : note ∈ song.notes)
    {id : InstrumentId} (hid : note.instrument = some id)
    (hl : id ∈ project.instruments.map Instrument.id) :
    id ∈ (project.prepare wanted kernel).instruments.map Instrument.id := by
  have hused : id ∈ (project.prepare wanted kernel).songs.flatMap Song.instrumentsUsed :=
    List.mem_flatMap.mpr ⟨song, hs, List.mem_filterMap.mpr ⟨note, hn, hid⟩⟩
  obtain ⟨instrument, hi, rfl⟩ := List.mem_map.mp hl
  refine List.mem_map.mpr ⟨instrument.fitted kernel, List.mem_map_of_mem ?_, rfl⟩
  refine List.mem_filter.mpr ⟨?_, List.contains_iff_mem.mpr hused⟩
  show instrument ∈ (project.select wanted).instruments
  rwa [select_instruments]

/-- An instrument that a note of a prepared song names is in the table. -/
lemma prepare_instrumentIndex {song : Song}
    (hs : song ∈ (project.prepare wanted kernel).songs) {note : Note} (hn : note ∈ song.notes)
    {id : InstrumentId} (hid : note.instrument = some id)
    (hl : id ∈ project.instruments.map Instrument.id) :
    ∃ place, (project.prepare wanted kernel).instrumentIndex? id = some place ∧
      place < (project.prepare wanted kernel).instruments.length :=
  instrumentIndex?_of_mem (prepare_listed hs hn hid hl)

end Project

end Chiptune
