import Chiptune.Proofs.ArrangedVoices
import Chiptune.Proofs.QuantisedNotes

/-!
# Arranged melodies

The first slots of a tone voice play the notes of its MIDI channel that are heard: each row is known
from the quantised notes alone, and so is what sounds in it. Equal patterns are shared.
-/

namespace Chiptune

open Midi (NoteSpan)

/-- The rows that a channel plays in its first slots. -/
def Song.firstRows (song : Song) (channel : Channel) (count : Nat) : List Note :=
  (channel.slots.take count).flatMap song.slotNotes

/-- The start and the value of the note that sounds after `count` rows. -/
def soundingAfter (rows : List Note) : (count : Nat) → Option (Nat × Int)
  | 0 => none
  | count + 1 =>
    let note := rows.getD count .empty
    if note.isMusical then some (count, note.value)
    else if note.isStop then none
    else soundingAfter rows count

namespace Arrangement

/-- What a row holds: the note that is heard to start there, a stop where the last one before it
ends, or nothing. -/
def MelodyRow (notes : List NoteSpan) (row : Nat) (written : Note) : Prop :=
  match heardAt notes row with
  | some note => written.value = noteValue note.key ∧ written.effect = .none
  | none => written =
      if (lastHeard notes row).any (·.stop == (row : Int)) then stopNote else .empty

/-- In its first slots the channel plays the notes that are heard, each until it ends or the next
one starts, and its slots share just the equal patterns that are not empty. -/
structure PlaysMelody (song : Song) (channel : Channel) (count : Nat) (notes : List NoteSpan) :
    Prop where
  length : (song.firstRows channel count).length = count * song.patternLength
  rows : ∀ row < count * song.patternLength,
    MelodyRow notes row ((song.firstRows channel count).getD row .empty)
  sounds : ∀ row < count * song.patternLength, ∀ start value,
    soundingAfter (song.firstRows channel count) (row + 1) = some (start, value) ↔
      ∃ note, heardAt notes start = some note ∧ value = noteValue note.key ∧
        start ≤ row ∧ row < note.stop ∧
        ∀ later : Nat, start < later → later ≤ row → heardAt notes later = none
  shares : ∀ i < count, ∀ j < count,
    (∃ position, channel.slots[i]? = some (some position) ∧
      channel.slots[j]? = some (some position)) ↔
    song.slotNotes (channel.slots.getD i none) = song.slotNotes (channel.slots.getD j none) ∧
      ∃ note ∈ song.slotNotes (channel.slots.getD i none), note ≠ .empty

section Rows

variable {notes : List NoteSpan} {rows : List Note} {row count : Nat} {written : Note}

section Columns

variable {channel : Nat} (hstart : ∀ note ∈ notes, 0 ≤ note.start)
  (hchannel : ∀ note ∈ notes, note.channel = channel)

include hstart hchannel

/-- Where nothing is heard to start, what has started is heard before. -/
lemma heard_before {note : NoteSpan} (hnow : heardAt notes row = none) (hn : note ∈ melody notes)
    (hle : note.start ≤ row) :
    ∃ start < row, note.start = (start : Int) ∧ heardAt notes start = some note := by
  obtain ⟨start, hs⟩ := Int.eq_ofNat_of_zero_le (hstart note (mem_of_mem_melody hn))
  have hnote := (mem_melody hstart hchannel).mp hn
  rw [hs] at hnote
  have hne : start ≠ row := by
    rintro rfl
    rw [hnow] at hnote
    cases hnote
  exact ⟨start, by omega, hs, hnote⟩

lemma melody_of_heardAt {at' : Int} {note : NoteSpan} (h : heardAt notes at' = some note) :
    note.start = at' ∧ note ∈ melody notes := by
  have hat := (mem_of_heardAt h).2
  exact ⟨hat, (mem_melody hstart hchannel).mpr (hat ▸ h)⟩

lemma latest_of_lastHeard {note : NoteSpan} (hnow : heardAt notes row = none)
    (hlast : lastHeard notes row = some note) :
    Latest (melody notes) row note ∧ note.start ≠ row := by
  obtain ⟨start, hlt, hnote, hnone⟩ := lastHeard_eq_some_iff.mp hlast
  obtain ⟨heq, hmem⟩ := melody_of_heardAt hstart hchannel hnote
  refine ⟨⟨hmem, by omega, fun other ho hle => ?_⟩, by omega⟩
  by_contra hlater
  obtain ⟨next, hnext, hn, hother⟩ := heard_before hstart hchannel hnow ho hle
  rw [hnone next (by omega) hnext] at hother
  cases hother

/-- A row of a column is known from the notes that are heard. -/
lemma melodyRow_of_shows {score : Score}
    (h : Shows (toneNote score) (melody notes) row .empty written) :
    MelodyRow notes row written := by
  unfold MelodyRow
  cases hnow : heardAt notes row with
  | some note =>
    obtain ⟨heq, hmem⟩ := melody_of_heardAt hstart hchannel hnow
    exact made_pitched (h.start note ⟨hmem, heq.le, fun other _ hle => heq ▸ hle⟩ heq)
  | none =>
    dsimp only
    cases hlast : lastHeard notes row with
    | none =>
      refine h.before fun note hn => ?_
      by_contra hle
      obtain ⟨start, hlt, -, hnote⟩ := heard_before hstart hchannel hnow hn (not_lt.mp hle)
      rw [lastHeard_eq_none_iff.mp hlast start hlt] at hnote
      cases hnote
    | some note =>
      obtain ⟨hlatest, hne⟩ := latest_of_lastHeard hstart hchannel hnow hlast
      rw [h.later note hlatest hne]
      by_cases hends : note.stop = row
      · rw [if_pos hends, if_pos (by simpa using hends)]
      · rw [if_neg hends, if_neg (by simpa using hends)]

end Columns

lemma noteValue_isMusical {key : Int} (h : written.value = noteValue key) :
    written.isMusical = true := by
  rw [Note.isMusical, h, Bool.and_eq_true, decide_eq_true_eq, decide_eq_true_eq]
  exact noteValue_musical key

/-- The note heard last sounds until it ends. -/
lemma soundingAfter_eq (hstop : ∀ note ∈ notes, note.start < note.stop)
    (h : ∀ row < count, MelodyRow notes row (rows.getD row .empty)) :
    soundingAfter rows count = (lastHeard notes count).bind fun note =>
      if count ≤ note.stop then some (note.start.toNat, noteValue note.key) else none := by
  induction count with
  | zero => rfl
  | succ count ih =>
    have hbefore := ih fun row hlt => h row (by omega)
    have hrow := h count (by omega)
    rw [soundingAfter, lastHeard]
    unfold MelodyRow at hrow
    cases hnow : heardAt notes count with
    | some note =>
      rw [hnow] at hrow
      have hmusical := noteValue_isMusical hrow.1
      have hmem := mem_of_heardAt hnow
      have hends := hstop note hmem.1
      have hgoes : ((count + 1 : Nat) : Int) ≤ note.stop := by
        push_cast
        omega
      rw [if_pos hmusical, Option.some_or, Option.bind_some, if_pos hgoes, hrow.1, hmem.2]
      rfl
    | none =>
      rw [hnow] at hrow
      rw [Option.none_or]
      cases hlast : lastHeard notes count with
      | none =>
        rw [hlast] at hrow hbefore
        rw [show rows.getD count .empty = .empty from hrow]
        exact hbefore
      | some note =>
        rw [hlast] at hrow hbefore
        by_cases hends : note.stop = count
        · rw [show rows.getD count .empty = stopNote from
            hrow.trans (if_pos (by simpa using hends)), if_neg (by decide), if_pos (by decide),
            Option.bind_some, if_neg (by push_cast; omega)]
        · rw [show rows.getD count .empty = .empty from
            hrow.trans (if_neg (by simpa using hends))]
          refine hbefore.trans ?_
          rw [Option.bind_some, Option.bind_some]
          by_cases hle : count ≤ note.stop
          · rw [if_pos hle, if_pos (by push_cast; omega)]
          · rw [if_neg hle, if_neg (by push_cast; omega)]

/-- So what sounds in a row has started in it or before it and goes on, and nothing else has started
since. -/
lemma soundingAfter_iff (hstop : ∀ note ∈ notes, note.start < note.stop)
    (h : ∀ row < count, MelodyRow notes row (rows.getD row .empty)) (hrow : row < count)
    (start : Nat) (value : Int) :
    soundingAfter rows (row + 1) = some (start, value) ↔
      ∃ note, heardAt notes start = some note ∧ value = noteValue note.key ∧
        start ≤ row ∧ row < note.stop ∧
        ∀ later : Nat, start < later → later ≤ row → heardAt notes later = none := by
  rw [soundingAfter_eq hstop fun other ho => h other (by omega), Option.bind_eq_some_iff]
  constructor
  · rintro ⟨note, hlast, hsounds⟩
    obtain ⟨first, hlt, hnote, hnone⟩ := lastHeard_eq_some_iff.mp hlast
    by_cases hends : ((row + 1 : Nat) : Int) ≤ note.stop
    · rw [if_pos hends, Option.some_inj, Prod.mk.injEq] at hsounds
      have hstart := (mem_of_heardAt hnote).2
      obtain rfl : first = start := by omega
      exact ⟨note, hnote, hsounds.2.symm, by omega, by omega,
        fun later hs hle => hnone later hs (by omega)⟩
    · rw [if_neg hends] at hsounds
      cases hsounds
  · rintro ⟨note, hnote, rfl, hle, hends, hnone⟩
    have hstart := (mem_of_heardAt hnote).2
    refine ⟨note, lastHeard_eq_some_iff.mpr ⟨start, by omega, hnote,
      fun later hs hlt => hnone later hs (by omega)⟩, ?_⟩
    rw [if_pos (by omega), hstart]
    rfl

end Rows

section Channels

variable {song : Song} {channel : Channel} {count : Nat} {notes : List NoteSpan} {rows : List Note}

/-- A channel whose slots play a column shares just the patterns that are equal and not empty. -/
lemma shares_of_spells (hlength : (channel.slots.take count).length = count)
    (hspells : song.Spells (channel.slots.take count) (chunks song.patternLength count rows))
    (hslots : (channel.slots.take count).map song.slotNotes =
      chunks song.patternLength count rows)
    (hsilent : ∀ pattern ∈ chunks song.patternLength count rows,
      isSilent pattern = true ↔ ∀ note ∈ pattern, note = .empty)
    {i j : Nat} (hi : i < count) (hj : j < count) :
    (∃ position, channel.slots[i]? = some (some position) ∧
      channel.slots[j]? = some (some position)) ↔
    song.slotNotes (channel.slots.getD i none) = song.slotNotes (channel.slots.getD j none) ∧
      ∃ note ∈ song.slotNotes (channel.slots.getD i none), note ≠ .empty := by
  have hchunk : ∀ k < count, (chunks song.patternLength count rows)[k]? =
      some (song.slotNotes (channel.slots.getD k none)) := by
    intro k hk
    have hin : k < channel.slots.length := by
      rw [List.length_take] at hlength
      omega
    rw [← hslots, List.getElem?_map, List.getElem?_take_of_lt hk, List.getD_eq_getElem?_getD,
      List.getElem?_eq_getElem hin]
    rfl
  have hshared := hspells.shared_iff (hchunk i hi) (hchunk j hj)
  rw [List.getElem?_take_of_lt hi, List.getElem?_take_of_lt hj] at hshared
  rw [hshared, ← Bool.not_eq_true, hsilent _ (List.mem_of_getElem? (hchunk i hi))]
  simp only [not_forall, exists_prop]

lemma melodyRow_congr {others : List NoteSpan}
    (h : ∀ row, heardAt notes row = heardAt others row) (row : Nat) (written : Note) :
    MelodyRow notes row written ↔ MelodyRow others row written := by
  unfold MelodyRow
  rw [h, lastHeard_congr h]

/-- Which order the quantised notes are in does not matter for what is heard of a channel. -/
lemma heardAt_channel (quantised : List NoteSpan) (number : Nat) (row : Int) :
    heardAt ((quantised.mergeSort NoteSpan.before).filter (·.channel == number)) row =
      heardAt (quantised.filter (·.channel == number)) row := by
  refine heardAt_filter_mergeSort before_trans before_total fun a _ b _ ha hb hab => ?_
  rw [alike_iff] at hab
  simp only [beq_iff_eq] at ha hb
  simp only [NoteSpan.before, Bool.or_eq_true, Bool.and_eq_true, decide_eq_true_eq, beq_iff_eq]
  omega

/-- A channel with the column of a tone part plays its melody. -/
lemma playsMelody_of_column {options : Options} {drumChannel : Int} {score : Score}
    {quantised : List NoteSpan} {number : Nat}
    (hquantised : ∀ note ∈ quantised, 0 ≤ note.start ∧ note.start < note.stop)
    (hsorted : notes = quantised.mergeSort NoteSpan.before)
    (hp : tonePart score notes (channel.voice, number) ∈ parts options drumChannel score notes)
    (hcolumn : (tonePart score notes (channel.voice, number)).Column
      (count * song.patternLength) (channel.voice, rows))
    (hlength : (channel.slots.take count).length = count)
    (hspells : song.Spells (channel.slots.take count) (chunks song.patternLength count rows)) :
    PlaysMelody song channel count (quantised.filter (·.channel == number)) := by
  obtain ⟨before, after, hfilled⟩ := hcolumn.filled
  have hcount := (column_holds hfilled).1
  have hslots := Plan.slotNotes_column hp hcolumn hspells
  have hrows : song.firstRows channel count = rows := by
    rw [Song.firstRows, List.flatMap_def, hslots, flatten_chunks hcount]
  have hheard : ∀ row, heardAt (notes.filter (·.channel == number)) row =
      heardAt (quantised.filter (·.channel == number)) row :=
    fun row => hsorted ▸ heardAt_channel quantised number row
  have hnotes : ∀ note ∈ notes.filter (·.channel == number),
      note ∈ quantised ∧ note.channel = number := by
    intro note hn
    rw [List.mem_filter, beq_iff_eq, hsorted, List.mem_mergeSort] at hn
    exact hn
  have hstart : ∀ note ∈ notes.filter (·.channel == number), 0 ≤ note.start :=
    fun note hn => (hquantised note (hnotes note hn).1).1
  have hshows := column_shows (melody_sorted hstart)
    (fun note hn => hstart note (mem_of_mem_melody hn))
    (fun note hn => (hquantised note (hnotes note (mem_of_mem_melody hn)).1).2) hfilled
  have hmelody : ∀ row < count * song.patternLength,
      MelodyRow (quantised.filter (·.channel == number)) row (rows.getD row .empty) :=
    fun row hrow => (melodyRow_congr hheard row _).mp
      (melodyRow_of_shows hstart (fun note hn => (hnotes note hn).2) (hshows row hrow))
  refine ⟨by rw [hrows, hcount], by rw [hrows]; exact hmelody, fun row hrow start value => ?_, ?_⟩
  · rw [hrows]
    refine soundingAfter_iff (fun note hn => ?_) hmelody hrow start value
    exact (hquantised note (List.mem_filter.mp hn).1).2
  · intro i hi j hj
    refine shares_of_spells hlength hspells hslots (fun pattern hpattern => ?_) hi hj
    exact Plan.silent_rows hp hcolumn ((chunks_spec hcount).2 pattern hpattern).2

end Channels

variable {tree : FileTree} {midi : Midi.Score} {sourceName : String} {options : Options}
  {map : InstrumentMap} {project : Project} {warnings : List Warning}

/-- A tone voice plays the notes of its MIDI channel that are heard, up to the slot of the loop. -/
theorem ofScore_melody (hmidi : midi.Forward) (hticks : 0 < midi.ticksPerBeat)
    (h : ofScore tree midi sourceName options map = .ok (project, warnings)) :
    ∃ song grid quantised rows drumChannel,
      project.songs = [song] ∧ song.channels.map Channel.voice = Voice.all ∧
      Grid.make midi.ticksPerBeat options.rowsPerBeat = .ok grid ∧
      (Midi.notes midi.timeline).mapM grid.align = .ok quantised ∧
      alignScore grid midi.timeline (Midi.notes midi.timeline) =
        .ok (quantised.mergeSort NoteSpan.before, rows) ∧
      options.drumChannel = some drumChannel ∧
      let count := (songLength options.patternLength rows (Limits.slots - options.loopSlots)).1
      (song.length = count ∨ song.length = count + 1 ∧ options.loopRow.isSome = true) ∧
      (song.patternLength : Int) = options.patternLength ∧
      ∀ voice number, (voice, number) ∈
          assigned options drumChannel (quantised.mergeSort NoteSpan.before) →
        ∀ channel ∈ song.channels, channel.voice = voice →
          PlaysMelody song channel count (quantised.filter (·.channel == number)) := by
  obtain ⟨plan, hplan, hholds⟩ := ofScore_plan h
  obtain ⟨quantised, hquantised, hsorted⟩ := alignScore_sorted hplan.aligned
  have haligned := hplan.aligned
  rw [hsorted] at haligned
  obtain ⟨hcount, hsize⟩ := plan.song_sameFrame options
  have hpattern : (looped options (plan.song options)).patternLength =
      options.patternLength.toNat := (looped_patternLength options _).trans hsize
  refine ⟨_, plan.grid, quantised, plan.rows, plan.drumChannel, hplan.songs,
    hholds.arranged.voices, hplan.grid, hquantised, haligned, hplan.drumChannel, ?_,
    hholds.patternLength, ?_⟩
  · have hlength := looped_length options (plan.song options)
    rwa [hcount] at hlength
  rintro voice number hentry channel hc rfl
  rw [← hsorted] at hentry
  -- The part of the voice is the one that the channel plays.
  have hpart : tonePart plan.score plan.notes (channel.voice, number) ∈
      parts options plan.drumChannel plan.score plan.notes :=
    List.mem_append_left _ (List.mem_map_of_mem hentry)
  obtain ⟨hslots, ⟨hnone, -⟩ | ⟨part, hp, rows, hcolumn, hspells⟩⟩ := hplan.channel_cases hc
  · exact absurd (List.mem_map_of_mem hpart) hnone
  obtain rfl := part_unique hp hpart hcolumn.voice.symm
  rw [← hpattern] at hcolumn hspells
  have hstart := quantised_start hmidi hticks (check_positive hplan.check).1 hplan.grid hquantised
  exact playsMelody_of_column hstart hsorted hpart hcolumn hslots hspells

/-- Of the two notes that start each phrase the louder one is heard until the third one starts, which
is stopped in its fifth row. -/
theorem peal_melody : pealScore.Forward ∧ peal = .ok (pealProject, []) ∧
    PlaysMelody pealSong ⟨.square1, [some 0, some 0, some 0]⟩ 3 pealNotes ∧
    MelodyRow pealNotes 6 { value := 49, instrument := some 0 } ∧
    MelodyRow pealNotes 8 { value := 56, instrument := some 0 } ∧
    MelodyRow pealNotes 11 stopNote := by
  have hforward : pealScore.Forward := by
    unfold Midi.Score.Forward
    decide
  obtain ⟨song, grid, quantised, rows, drumChannel, hsongs, -, hgrid, hquantised, haligned,
    hdrums, -, -, hplays⟩ := ofScore_melody hforward (by decide) peal_eq
  obtain rfl : pealSong = song := List.singleton_inj.mp hsongs
  obtain rfl : pealGrid = grid := Except.ok.inj (make_pealGrid.symm.trans hgrid)
  rw [notes_pealScore] at hquantised haligned
  obtain rfl := Except.ok.inj (mapM_pealNotes.symm.trans hquantised)
  obtain ⟨hsorted, rfl⟩ := Prod.mk.injEq .. ▸ Except.ok.inj (alignScore_pealNotes.symm.trans haligned)
  obtain rfl : (9 : Int) = drumChannel := Option.some.inj hdrums
  rw [← hsorted] at hplays
  have hplays : PlaysMelody pealSong ⟨.square1, [some 0, some 0, some 0]⟩ 3 pealNotes :=
    hplays .square1 0 (by decide +kernel) _ List.mem_cons_self rfl
  exact ⟨hforward, peal_eq, hplays, hplays.rows 6 (by decide), hplays.rows 8 (by decide),
    hplays.rows 11 (by decide)⟩

/-- A note two rows before the start of its score. -/
def upbeatScore : Midi.Score where
  type := 1
  ticksPerBeat := 4
  tracks := [[⟨-2, .noteOn 0 60 100⟩]]

def upbeat : Outcome (Project × List Warning) :=
  ofScore ⟨"/", [], []⟩ upbeatScore "upbeat" { patternLength := 6 } {}

def upbeatSong : Song where
  id := 0
  name := "upbeat"
  tempo := 120
  patternLength := 6
  patterns := [List.replicate 4 .empty ++ [{ value := 49, instrument := some 0 }, stopNote]]
  channels := [⟨.square1, [some 0]⟩, ⟨.square2, [none]⟩, ⟨.triangle, [none]⟩, ⟨.noise, [none]⟩,
    ⟨.dpcm, [none]⟩]

/-- The note is played two rows before the end of the song, where none starts: rows before the first
count from the end. -/
theorem upbeat_misplaced : 0 < upbeatScore.ticksPerBeat ∧ ¬ upbeatScore.Forward ∧
    ∃ project warnings grid, upbeat = .ok (project, warnings) ∧ project.songs = [upbeatSong] ∧
      Grid.make upbeatScore.ticksPerBeat 4 = .ok grid ∧
      (Midi.notes upbeatScore.timeline).mapM grid.align = .ok [⟨-2, 1, 0, 60, 100⟩] ∧
      (.square1, 0) ∈ assigned { patternLength := 6 } 9 [⟨-2, 1, 0, 60, 100⟩] ∧
      ∃ channel ∈ upbeatSong.channels, channel.voice = .square1 ∧
        ¬ PlaysMelody upbeatSong channel 1 [⟨-2, 1, 0, 60, 100⟩] := by
  have hforward : ¬ upbeatScore.Forward := by
    intro h
    exact absurd (h _ List.mem_cons_self _ List.mem_cons_self) (by decide)
  have hok : upbeat.isOk = true := by decide +kernel
  obtain ⟨⟨project, warnings⟩, hmade⟩ := ok_of_isOk hok
  have hone : upbeat.map (·.1.songs) = .ok [upbeatSong] := by decide +kernel
  rw [hmade] at hone
  have hunit : Grid.make 4 4 = .ok ⟨⟨4503599627370496, -52⟩⟩ := by decide +kernel
  refine ⟨by decide, hforward, project, warnings, _, hmade, Except.ok.inj hone, hunit,
    by decide +kernel, by decide +kernel, ⟨.square1, [some 0]⟩, List.mem_cons_self, rfl, ?_⟩
  intro hplays
  have hrow : { value := 49, instrument := some 0 } = Note.empty := hplays.rows 4 (by decide)
  exact absurd hrow (by decide)

end Arrangement

end Chiptune
