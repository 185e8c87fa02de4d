import Chiptune.Proofs.MelodyRows
import Chiptune.Proofs.VoiceSlots
import Chiptune.Proofs.ArrangedExport

/-!
# The voices of an arrangement

`ofScore` fills one voice after the other and adds the loop at last. `Plan` holds what it has
settled by then, and `ofScore_plan` says that the song is filled with the columns of its parts.
-/

namespace Chiptune.Arrangement

open Midi (NoteSpan)

/-- A voice with the notes that it is to play and with what is written for each of them. -/
structure Part where
  voice : Voice
  makeNote : NoteSpan → Session Note
  notes : List NoteSpan

/-- The column of a part, which its melody fills. -/
structure Part.Column (part : Part) (count : Nat) (column : Voice × List Note) : Prop where
  voice : column.1 = part.voice
  filled : ∃ before after,
    (Arrangement.column part.makeNote count (melody part.notes)).run before = .ok (column.2, after)

/-- The song is filled with the columns of the parts. -/
def Filled (song : Song) (parts : List Part) (filled : Song) : Prop :=
  ∃ columns, List.Forall₂ (fun part column => part.Column (song.length * song.patternLength) column)
    parts columns ∧ filled = song.fillAll columns

/-- The parts fill the song one after the other, each with the instruments that the one before it
leaves. There may be warnings in between. -/
inductive FillsInTurn : Song → Ensemble → List Part → Song → Ensemble → Prop
  | nil {song before after} (h : after.instruments = before.instruments) :
      FillsInTurn song before [] song after
  | cons {song filled part rows rest before first middle after}
      (h : first.instruments = before.instruments)
      (hcolumn : (Arrangement.column part.makeNote (song.length * song.patternLength)
        (melody part.notes)).run first = .ok (rows, middle))
      (hrest : FillsInTurn (song.fillChannel part.voice rows) middle rest filled after) :
      FillsInTurn song before (part :: rest) filled after

/-- The MIDI channels of the tone voices. -/
def assigned (options : Options) (drumChannel : Int) (notes : List NoteSpan) :
    List (Voice × Nat) :=
  let tones := notes.filter (!isDrum drumChannel ·)
  Voice.tones.zip ((busiest tones).take options.channels.toNat)

def tonePart (score : Score) (notes : List NoteSpan) (entry : Voice × Nat) : Part :=
  ⟨entry.1, toneNote score, notes.filter (·.channel == entry.2)⟩

/-- The drums on noise and those on samples, if there are any. -/
def drumParts (score : Score) (drums : List NoteSpan) : List Part :=
  let noise : Part := ⟨.noise, noiseNote score,
    drums.filter fun note => !hasSample score.map note && hasPeriod note⟩
  let sampled : Part := ⟨.dpcm, sampleNote, drums.filter (hasSample score.map)⟩
  [noise, sampled].filter fun part => !part.notes.isEmpty

def parts (options : Options) (drumChannel : Int) (score : Score) (notes : List NoteSpan) :
    List Part :=
  (assigned options drumChannel notes).map (tonePart score notes) ++
    drumParts score (notes.filter (isDrum drumChannel))

/-- The song that jumps back to the slot of row `start`, unless that is its first slot or none. -/
def withLoop (song : Song) (start : Int) : Song :=
  if start ≥ song.length * song.patternLength ∨ start / song.patternLength = 0 then song
  else withJump song (start / song.patternLength)

/-- The song with the loop that is wanted. -/
def looped (options : Options) (song : Song) : Song :=
  match options.loopRow with
  | none => song
  | some start => withLoop song start

section Filling

variable {song filled last : Song} {score : Score} {before middle after : Ensemble}

/-- A warning changes nothing of what follows it. -/
lemma run_warnIf {α : Type} {condition : Prop} [Decidable condition] {warning : Warning}
    {session : Session α} {a : α}
    (h : (if condition then warn warning >>= fun _ => session else session).run before =
      .ok (a, after)) : ∃ middle, middle.instruments = before.instruments ∧
        session.run middle = .ok (a, after) := by
  by_cases hc : condition
  · rw [if_pos hc] at h
    obtain ⟨u, middle, hwarn, h⟩ := run_bind h
    exact ⟨middle, run_warn hwarn, h⟩
  · rw [if_neg hc] at h
    exact ⟨before, rfl, h⟩

/-- What is skipped or not comes before the rest. -/
lemma run_skipIf {α β : Type} {skip : Bool} {a : α} {session : Session α} {rest : α → Session β}
    {b : β} (h : (if skip = true then pure a >>= rest else session >>= rest).run before =
      .ok (b, after)) :
    ∃ c middle, (if skip = true then pure a else session).run before = .ok (c, middle) ∧
      (rest c).run middle = .ok (b, after) := by
  refine run_bind ?_
  cases skip with
  | true => exact h
  | false => exact h

namespace FillsInTurn

/-- Only the instruments of the first ensemble matter. -/
lemma congr {parts : List Part} (h : FillsInTurn song middle parts filled after)
    (hsame : middle.instruments = before.instruments) :
    FillsInTurn song before parts filled after := by
  cases h with
  | nil h => exact .nil (h.trans hsame)
  | cons h hcolumn hrest => exact .cons (h.trans hsame) hcolumn hrest

lemma append {some more : List Part} (h : FillsInTurn song before some filled middle)
    (h' : FillsInTurn filled middle more last after) :
    FillsInTurn song before (some ++ more) last after := by
  induction h with
  | nil h => exact h'.congr h
  | cons h hcolumn hrest ih => exact .cons h hcolumn (ih h')

lemma toFilled {parts : List Part} (h : FillsInTurn song before parts filled after) :
    Filled song parts filled := by
  induction h with
  | nil h => exact ⟨[], .nil, rfl⟩
  | @cons song filled part rows rest before first middle after h hcolumn hrest ih =>
    obtain ⟨columns, hcolumns, rfl⟩ := ih
    exact ⟨(part.voice, rows) :: columns, .cons ⟨rfl, first, middle, hcolumn⟩ hcolumns, rfl⟩

end FillsInTurn

lemma fillVoice_fills {voice : Voice} {makeNote : NoteSpan → Session Note}
    {notes : List NoteSpan}
    (h : (fillVoice song voice makeNote notes).run before = .ok (filled, after)) :
    FillsInTurn song before [⟨voice, makeNote, notes⟩] filled after := by
  obtain ⟨rows, middle, hrows, h⟩ := run_bind h
  obtain ⟨rfl, rfl⟩ := run_pure h
  exact .cons rfl hrows (.nil rfl)

lemma fillTones_fills {notes : List NoteSpan} {entries : List (Voice × Nat)}
    (h : (fillTones score notes song entries).run before = .ok (filled, after)) :
    FillsInTurn song before (entries.map (tonePart score notes)) filled after := by
  induction entries generalizing song before with
  | nil =>
    obtain ⟨rfl, rfl⟩ := run_pure h
    exact .nil rfl
  | cons entry rest ih =>
    obtain ⟨first, middle, hfirst, h⟩ := run_bind h
    exact (fillVoice_fills hfirst).append (ih h)

/-- A voice without notes is left alone. -/
lemma fillPart_fills {voice : Voice} {makeNote : NoteSpan → Session Note} {notes : List NoteSpan}
    (h : (if notes.isEmpty = true then pure song
      else fillVoice song voice makeNote notes).run before = .ok (filled, after)) :
    FillsInTurn song before
      ([(⟨voice, makeNote, notes⟩ : Part)].filter fun part => !part.notes.isEmpty)
      filled after := by
  cases hempty : notes.isEmpty with
  | true =>
    rw [if_pos hempty] at h
    obtain ⟨rfl, rfl⟩ := run_pure h
    simpa [hempty] using FillsInTurn.nil rfl
  | false =>
    rw [if_neg (by rw [hempty]; decide)] at h
    simpa [hempty] using fillVoice_fills h

lemma fillDrums_fills {project : Project} {drums : List NoteSpan} {result : Project × Song}
    (h : (fillDrums score project song drums).run before = .ok (result, after)) :
    FillsInTurn song before (drumParts score drums) result.2 after ∧
      mapSamples score.tree project (score.map.samples.mergeSort fun a b => a.1 ≤ b.1) =
        .ok result.1 := by
  obtain ⟨mapped, state, hlift, h⟩ := run_bind h
  obtain ⟨hmapped, rfl⟩ := run_lift hlift
  obtain ⟨middle, hwarned, h⟩ := run_warnIf h
  obtain ⟨noisy, later, hnoisy, h⟩ := run_skipIf h
  obtain ⟨sampled, final, hsampled, h⟩ := run_skipIf h
  obtain ⟨rfl, rfl⟩ := run_pure h
  have hfills := (fillPart_fills hnoisy).append (fillPart_fills hsampled)
  rw [← List.filter_append] at hfills
  exact ⟨hfills.congr hwarned, hmapped⟩

lemma addLoop_eq {start : Int} (h : (addLoop song start).run before = .ok (filled, after)) :
    filled = withLoop song start ∧ after.instruments = before.instruments := by
  have hinside : ∀ {state}, ¬ start ≥ song.length * song.patternLength →
      state.instruments = before.instruments →
      (pure (if start / song.patternLength = 0 then song
        else withJump song (start / song.patternLength)) : Session Song).run state =
        .ok (filled, after) →
      filled = withLoop song start ∧ after.instruments = before.instruments := by
    intro state hlt hsame hrun
    obtain ⟨rfl, rfl⟩ := run_pure hrun
    exact ⟨by simp only [withLoop, hlt, false_or], hsame⟩
  unfold addLoop at h
  by_cases hbehind : start ≥ song.length * song.patternLength
  · rw [if_pos hbehind] at h
    obtain ⟨u, middle, hwarn, h⟩ := run_bind h
    obtain ⟨rfl, rfl⟩ := run_pure h
    rw [withLoop, if_pos (.inl hbehind)]
    exact ⟨rfl, run_warn hwarn⟩
  · rw [if_neg hbehind] at h
    dsimp only at h
    by_cases hmoved : start % song.patternLength ≠ 0
    · rw [if_pos hmoved] at h
      by_cases hlong : (!Text.isWritable (start / song.patternLength * song.patternLength)) = true
      · rw [if_pos hlong] at h
        obtain ⟨u, middle, hnever, -⟩ := run_bind h
        cases hnever
      · rw [if_neg hlong] at h
        obtain ⟨u, middle, hwarn, h⟩ := run_bind h
        exact hinside hbehind (run_warn hwarn) h
    · rw [if_neg hmoved] at h
      exact hinside hbehind rfl h

lemma fillSong_fills {project : Project} {options : Options} {notes : List NoteSpan}
    {result : Project × Song}
    (h : (fillSong options score notes project song).run before = .ok (result, after)) :
    ∃ drumChannel, options.drumChannel = some drumChannel ∧
      FillsInTurn song before (parts options drumChannel score notes) result.2 after ∧
      (notes.filter (isDrum drumChannel) ≠ [] → mapSamples score.tree project
        (score.map.samples.mergeSort fun a b => a.1 ≤ b.1) = .ok result.1) := by
  obtain ⟨middle, hwarned, h⟩ := run_warnIf h
  split at h
  · next drumChannel hdrums =>
    obtain ⟨state, hdropped, h⟩ := run_warnIf h
    obtain ⟨toned, later, htoned, h⟩ := run_bind h
    have htones := (fillTones_fills htoned).congr (hdropped.trans hwarned)
    refine ⟨drumChannel, hdrums, ?_⟩
    dsimp only at h
    split at h
    · next hnone =>
      obtain ⟨rfl, rfl⟩ := run_pure h
      have hempty := List.isEmpty_iff.mp hnone
      refine ⟨?_, fun hne => absurd hempty hne⟩
      rw [parts, hempty]
      exact htones.append (.nil rfl)
    · obtain ⟨hdrums, hmapped⟩ := fillDrums_fills h
      exact ⟨htones.append hdrums, fun _ => hmapped⟩
  · cases h

end Filling

/-- What an arrangement has settled when it adds the loop. -/
structure Plan where
  name : String
  tempo : Int
  grid : Grid
  notes : List NoteSpan
  rows : Int
  drumChannel : Int
  score : Score
  columns : List (Voice × List Note)

namespace Plan

/-- The slots of the song without the one of its loop. -/
def length (plan : Plan) (options : Options) : Nat :=
  (songLength options.patternLength plan.rows (Limits.slots - options.loopSlots)).1

def song (plan : Plan) (options : Options) : Song :=
  (Song.blank 0 plan.name plan.tempo options.speed options.patternLength.toNat
    (plan.length options)).fillAll plan.columns

/-- The project is made as planned. -/
structure Leads (plan : Plan) (midi : Midi.Score) (options : Options) (map : InstrumentMap)
    (project : Project) : Prop where
  check : options.check = .ok ()
  grid : Grid.make midi.ticksPerBeat options.rowsPerBeat = .ok plan.grid
  aligned : alignScore plan.grid midi.timeline (Midi.notes midi.timeline) =
    .ok (plan.notes, plan.rows)
  drumChannel : options.drumChannel = some plan.drumChannel
  ofMap : plan.score.map = map
  useVelocity : plan.score.useVelocity = options.useVelocity
  columns : List.Forall₂
    (fun part column => part.Column (plan.length options * options.patternLength.toNat) column)
    (parts options plan.drumChannel plan.score plan.notes) plan.columns
  songs : project.songs = [looped options (plan.song options)]
  samples : plan.notes.filter (isDrum plan.drumChannel) ≠ [] → ∃ blank mapped,
    mapSamples plan.score.tree blank (plan.score.map.samples.mergeSort fun a b => a.1 ≤ b.1) =
      .ok mapped

/-- The parts of the plan are filled one after the other, and the instruments that are made for
their notes on the way are those of the project. -/
structure Staffs (plan : Plan) (tree : FileTree) (midi : Midi.Score) (options : Options)
    (project : Project) (last : Ensemble) : Prop where
  tree : plan.score.tree = tree
  programs : programRows plan.grid midi.timeline = .ok plan.score.programs
  fills : FillsInTurn (Song.blank 0 plan.name plan.tempo options.speed options.patternLength.toNat
    (plan.length options)) {} (parts options plan.drumChannel plan.score plan.notes)
    (plan.song options) last
  instruments : project.instruments = last.instruments.map (·.2)

end Plan

variable {tree : FileTree} {midi : Midi.Score} {sourceName : String} {options : Options}
  {map : InstrumentMap} {project : Project} {warnings : List Warning}

/-- Whatever an arrangement makes is made by a plan, with the instruments of its notes. -/
lemma ofScore_staffed (h : ofScore tree midi sourceName options map = .ok (project, warnings)) :
    ∃ plan : Plan, plan.Leads midi options map project ∧
      ∃ last, plan.Staffs tree midi options project last := by
  obtain ⟨tempo, grid, notes, rows, programs, made, song, ensemble, hcheck, -, hgrid, haligned,
    hprograms, hrun, rfl⟩ := ofScore_eq_ok h
  obtain ⟨state, htempos, hrun⟩ := run_warnIf hrun
  obtain ⟨state', hlong, hrun⟩ := run_warnIf hrun
  obtain ⟨⟨mapped, plain⟩, middle, hfill, hrun⟩ := run_bind hrun
  obtain ⟨drumChannel, hdrums, hfills, hsamples⟩ := fillSong_fills hfill
  obtain ⟨columns, hcolumns, hplain⟩ := hfills.toFilled
  obtain ⟨hmade, rfl, rfl⟩ : ensemble.instruments = middle.instruments ∧
      song = looped options plain ∧ made = mapped := by
    dsimp only at hrun
    rw [looped]
    cases hloop : options.loopRow with
    | none =>
      rw [hloop] at hrun
      obtain ⟨heq, rfl⟩ := run_pure hrun
      obtain ⟨rfl, rfl⟩ := Prod.mk.injEq .. ▸ heq
      exact ⟨rfl, rfl, rfl⟩
    | some start =>
      rw [hloop] at hrun
      obtain ⟨last, later, hlast, hrun⟩ := run_bind hrun
      obtain ⟨heq, rfl⟩ := run_pure hrun
      obtain ⟨rfl, rfl⟩ := Prod.mk.injEq .. ▸ heq
      exact ⟨(addLoop_eq hlast).2, (addLoop_eq hlast).1, rfl⟩
  obtain rfl : plain = _ := hplain
  refine ⟨⟨songName options sourceName, tempo, grid, notes, rows, drumChannel,
    ⟨tree, map, programs, options.useVelocity⟩, columns⟩, ⟨hcheck, hgrid, haligned, hdrums, rfl,
    rfl, hcolumns, rfl, fun hne => ⟨_, _, hsamples hne⟩⟩, middle, rfl, hprograms, ?_, ?_⟩
  · exact hfills.congr (hlong.trans htempos)
  · exact congrArg (List.map Prod.snd) hmade

/-- The song of an arrangement is the one of its plan, with the loop. -/
lemma ofScore_plan (h : ofScore tree midi sourceName options map = .ok (project, warnings)) :
    ∃ plan : Plan, plan.Leads midi options map project ∧
      Holds options project (looped options (plan.song options)) := by
  obtain ⟨plan, hplan, -⟩ := ofScore_staffed h
  obtain ⟨song, hholds⟩ := ofScore_holds h
  obtain rfl : looped options (plan.song options) = song :=
    List.singleton_inj.mp (hplan.songs.symm.trans hholds.songs)
  exact ⟨plan, hplan, hholds⟩

section Written

variable {options : Options} {drumChannel : Int} {score : Score} {notes : List NoteSpan}
  {note : NoteSpan} {written : Note}

lemma made_pitched {value : Int} (h : Made (pitchedNote score value) note written) :
    written.value = value ∧ written.effect = .none := by
  obtain ⟨before, after, h⟩ := h
  obtain ⟨volume, middle, -, h⟩ := run_bind h
  obtain ⟨instrument, last, -, h⟩ := run_bind h
  obtain ⟨rfl, rfl⟩ := run_pure h
  exact ⟨rfl, rfl⟩

lemma made_sample (h : Made sampleNote note written) :
    written.value = noteValue note.key ∧ written.effect = .none := by
  obtain ⟨before, after, h⟩ := h
  obtain ⟨rfl, rfl⟩ := run_pure h
  exact ⟨rfl, rfl⟩

lemma lookup_of_hasPeriod (h : hasPeriod note = true) :
    drumPeriods.lookup note.key = some ((drumPeriods.lookup note.key).getD 0) := by
  cases hlookup : drumPeriods.lookup note.key with
  | some period => rfl
  | none =>
    obtain ⟨entry, he, hkey⟩ := List.any_eq_true.mp h
    have hne := List.lookup_eq_none_iff.mp hlookup entry he
    rw [beq_iff_eq.mp hkey] at hne
    simp at hne

/-- The note that a part writes, by its voice. -/
inductive Writing (score : Score) (note : NoteSpan) : Voice → Int → Prop
  | tone {voice} (h : voice ∈ Voice.tones) : Writing score note voice (noteValue note.key)
  | noise {period} (h : drumPeriods.lookup note.key = some period) :
      Writing score note .noise period
  | sample (h : hasSample score.map note = true) :
      Writing score note .dpcm (noteValue note.key)

lemma writing_of_made {part : Part} (hp : part ∈ parts options drumChannel score notes)
    (hn : note ∈ part.notes) (h : Made part.makeNote note written) :
    Writing score note part.voice written.value ∧ written.effect = .none := by
  rcases List.mem_append.mp hp with hp | hp
  · obtain ⟨entry, he, rfl⟩ := List.mem_map.mp hp
    obtain ⟨hvalue, heffect⟩ := made_pitched h
    rw [hvalue]
    exact ⟨.tone (List.of_mem_zip he).1, heffect⟩
  · rcases List.mem_cons.mp (List.mem_filter.mp hp).1 with rfl | hp
    · obtain ⟨hvalue, heffect⟩ := made_pitched h
      have hperiod := (List.mem_filter.mp hn).2
      rw [Bool.and_eq_true] at hperiod
      rw [hvalue]
      exact ⟨.noise (lookup_of_hasPeriod hperiod.2), heffect⟩
    · obtain rfl := List.mem_singleton.mp hp
      obtain ⟨hvalue, heffect⟩ := made_sample h
      rw [hvalue]
      exact ⟨.sample (List.mem_filter.mp hn).2, heffect⟩

lemma Writing.musical {voice : Voice} {value : Int} (h : Writing score note voice value) :
    Note.lowest ≤ value ∧ value ≤ Note.highest := by
  cases h with
  | tone _ => exact noteValue_musical note.key
  | noise hperiod => exact drumPeriod_musical hperiod
  | sample _ => exact noteValue_musical note.key

end Written

/-! ### What the channels play -/

lemma map_fst_zip_sublist {α β : Type} (xs : List α) (ys : List β) :
    ((xs.zip ys).map Prod.fst).Sublist xs := by
  induction xs generalizing ys with
  | nil => exact List.Sublist.refl _
  | cons x xs ih =>
    cases ys with
    | nil => exact List.nil_sublist _
    | cons y ys => exact (ih ys).cons_cons x

lemma parts_voices (options : Options) (drumChannel : Int) (score : Score)
    (notes : List NoteSpan) :
    ((parts options drumChannel score notes).map Part.voice).Sublist Voice.all := by
  rw [parts, List.map_append, List.map_map]
  have htones := map_fst_zip_sublist Voice.tones
    ((busiest (notes.filter (!isDrum drumChannel ·))).take options.channels.toNat)
  have hdrums : ((drumParts score (notes.filter (isDrum drumChannel))).map Part.voice).Sublist
      [.noise, .dpcm] := List.filter_sublist.map Part.voice
  exact htones.append hdrums

lemma part_unique {options : Options} {drumChannel : Int} {score : Score} {notes : List NoteSpan}
    {part other : Part} (hp : part ∈ parts options drumChannel score notes)
    (ho : other ∈ parts options drumChannel score notes) (h : part.voice = other.voice) :
    part = other := by
  have hall : Voice.all.Nodup := by decide
  exact List.inj_on_of_nodup_map (hall.sublist (parts_voices options drumChannel score notes))
    hp ho h

section Loop

variable {song : Song} {channel : Channel} {target start : Int}

/-- The further slot of a channel holds the jump or nothing. -/
lemma mem_withJump (hc : channel ∈ (withJump song target).channels) :
    ∃ source ∈ song.channels, channel.voice = source.voice ∧ ∃ last,
      channel.slots = source.slots ++ [last] ∧
        (last = none ∨ last = some song.patterns.length) := by
  obtain ⟨⟨source, number⟩, hs, rfl⟩ := List.mem_map.mp hc
  refine ⟨source, List.fst_mem_of_mem_zipIdx hs, rfl, _, rfl, ?_⟩
  split
  · exact .inr rfl
  · exact .inl rfl

lemma withJump_pattern (song : Song) (target : Int) :
    (withJump song target).pattern song.patterns.length =
      jumpPattern song.patternLength target := by
  rw [Song.pattern, withJump, List.getD_eq_getElem?_getD, List.getElem?_concat_length]
  rfl

lemma looped_cases (options : Options) (song : Song) :
    looped options song = song ∨ ∃ target, looped options song = withJump song target ∧
      options.loopRow.isSome = true := by
  unfold looped
  cases hloop : options.loopRow with
  | none => exact .inl rfl
  | some start =>
    dsimp only
    unfold withLoop
    split
    · exact .inl rfl
    · exact .inr ⟨_, rfl, rfl⟩

lemma looped_patternLength (options : Options) (song : Song) :
    (looped options song).patternLength = song.patternLength := by
  rcases looped_cases options song with heq | ⟨target, heq, -⟩
  · rw [heq]
  · rw [heq]
    rfl

lemma looped_length (options : Options) (song : Song) :
    (looped options song).length = song.length ∨
      (looped options song).length = song.length + 1 ∧ options.loopRow.isSome = true := by
  rcases looped_cases options song with heq | ⟨target, heq, hloop⟩
  · exact .inl (congrArg Song.length heq)
  · exact .inr ⟨congrArg Song.length heq, hloop⟩

lemma prefix_looped (options : Options) (song : Song) :
    song.patterns <+: (looped options song).patterns := by
  rcases looped_cases options song with heq | ⟨target, heq, -⟩
  · rw [heq]
  · rw [heq]
    exact List.prefix_append _ _

/-- But for the further slot each channel is one of the song without the loop. -/
lemma mem_looped {options : Options} (hc : channel ∈ (looped options song).channels) :
    ∃ source ∈ song.channels, channel.voice = source.voice ∧
      (source.slots.length = song.length →
        channel.slots.take song.length = source.slots) := by
  rcases looped_cases options song with heq | ⟨target, heq, -⟩
  · rw [heq] at hc
    exact ⟨channel, hc, rfl, fun hlength => List.take_of_length_le hlength.le⟩
  · rw [heq] at hc
    obtain ⟨source, hs, hv, last, hslots, -⟩ := mem_withJump hc
    refine ⟨source, hs, hv, fun hlength => ?_⟩
    rw [hslots, List.take_left' hlength]

end Loop

namespace Plan

variable {plan : Plan}

lemma song_sameFrame (plan : Plan) (options : Options) :
    (plan.song options).length = plan.length options ∧
      (plan.song options).patternLength = options.patternLength.toNat := by
  have hframe := Song.fillAll_sameFrame (Song.blank 0 plan.name plan.tempo options.speed
    options.patternLength.toNat (plan.length options)) plan.columns
  exact ⟨hframe.length, hframe.patternLength⟩

lemma Leads.slots_length (h : plan.Leads midi options map project) {channel : Channel}
    (hc : channel ∈ (plan.song options).channels) :
    channel.slots.length = plan.length options := by
  rcases Song.mem_fillAll hc with ⟨-, hblank⟩ | ⟨rows, hmem, hspells⟩
  · obtain ⟨voice, -, rfl⟩ := List.mem_map.mp hblank
    exact List.length_replicate
  · obtain ⟨part, -, hcolumn⟩ := exists_left_of_mem h.columns hmem
    obtain ⟨before, after, hfilled⟩ := hcolumn.filled
    exact hspells.length_eq.trans (chunks_spec (column_holds hfilled).1).1

/-- Until the slot of the loop, each channel plays the column of the part of its voice, or nothing
if there is none. -/
lemma Leads.channel_cases (h : plan.Leads midi options map project) {channel : Channel}
    (hc : channel ∈ (looped options (plan.song options)).channels) :
    let slots := channel.slots.take (plan.length options)
    let parts := parts options plan.drumChannel plan.score plan.notes
    slots.length = plan.length options ∧
      (channel.voice ∉ parts.map Part.voice ∧ slots = List.replicate (plan.length options) none ∨
        ∃ part ∈ parts, ∃ rows,
          part.Column (plan.length options * options.patternLength.toNat) (channel.voice, rows) ∧
          (looped options (plan.song options)).Spells slots
            (chunks options.patternLength.toNat (plan.length options) rows)) := by
  dsimp only
  obtain ⟨source, hs, hv, htake⟩ := mem_looped hc
  have hlength := h.slots_length hs
  rw [(song_sameFrame plan options).1] at htake
  rw [hv, htake hlength]
  refine ⟨hlength, ?_⟩
  rcases Song.mem_fillAll hs with ⟨hnone, hblank⟩ | ⟨rows, hmem, hspells⟩
  · obtain ⟨voice, -, rfl⟩ := List.mem_map.mp hblank
    refine .inl ⟨fun hm => hnone ?_, rfl⟩
    obtain ⟨part, hp, hpart⟩ := List.mem_map.mp hm
    obtain ⟨column, hcolumn, hfilled⟩ := exists_right_of_mem h.columns hp
    exact List.mem_map.mpr ⟨column, hcolumn, hfilled.voice.trans hpart⟩
  · obtain ⟨part, hp, hcolumn⟩ := exists_left_of_mem h.columns hmem
    exact .inr ⟨part, hp, rows, hcolumn, hspells.mono (prefix_looped options _)⟩

/-- A row of a column is empty, a stop or a note. -/
lemma column_row {part : Part} {score : Score} {drumChannel : Int} {notes : List NoteSpan}
    (hp : part ∈ parts options drumChannel score notes) {count : Nat} {voice : Voice}
    {rows : List Note} (h : part.Column count (voice, rows)) {written : Note}
    (hw : written ∈ rows) :
    written = .empty ∨ written = stopNote ∨
      ∃ note ∈ part.notes, Writing score note voice written.value ∧ written.effect = .none := by
  obtain ⟨before, after, hfilled⟩ := h.filled
  refine ((column_holds hfilled).2 written hw).imp_right fun hnew => hnew.imp_right ?_
  rintro ⟨note, hn, hmade⟩
  have hnote := mem_of_mem_melody hn
  have hvoice : voice = part.voice := h.voice
  exact ⟨note, hnote, hvoice ▸ writing_of_made hp hnote hmade⟩

/-- So a silent pattern of a column has nothing but empty rows. -/
lemma silent_rows {part : Part} {score : Score} {drumChannel : Int} {notes : List NoteSpan}
    (hp : part ∈ parts options drumChannel score notes) {count : Nat} {voice : Voice}
    {rows : List Note} (h : part.Column count (voice, rows)) {pattern : Pattern}
    (hsub : ∀ written ∈ pattern, written ∈ rows) :
    isSilent pattern = true ↔ ∀ written ∈ pattern, written = .empty := by
  rw [isSilent, List.all_eq_true]
  refine forall₂_congr fun written hw => ?_
  rcases column_row hp h (hsub written hw) with rfl | rfl | ⟨note, -, hnote, -⟩
  · exact ⟨fun _ => rfl, fun _ => rfl⟩
  · exact ⟨fun hsilent => absurd hsilent (by decide), fun hempty => absurd hempty (by decide)⟩
  · have hmusical := hnote.musical
    have hne : written.value ≠ Note.emptyValue := by
      simp only [Note.lowest, Note.highest, Note.emptyValue] at hmusical ⊢
      omega
    constructor
    · intro hsilent
      simp [Note.isValid, hne] at hsilent
    · rintro rfl
      exact absurd rfl hne

/-- The slots of a channel play its column. -/
lemma slotNotes_column {part : Part} {score : Score} {drumChannel : Int} {notes : List NoteSpan}
    (hp : part ∈ parts options drumChannel score notes) {song : Song} {count : Nat} {voice : Voice}
    {rows : List Note} (h : part.Column (count * song.patternLength) (voice, rows))
    {slots : List (Option Nat)}
    (hspells : song.Spells slots (chunks song.patternLength count rows)) :
    slots.map song.slotNotes = chunks song.patternLength count rows := by
  obtain ⟨before, after, hfilled⟩ := h.filled
  have hchunks := (chunks_spec (column_holds hfilled).1).2
  refine hspells.map_slotNotes fun pattern hpattern hsilent => ?_
  obtain ⟨hlength, hsub⟩ := hchunks pattern hpattern
  exact List.eq_replicate_iff.mpr ⟨hlength, (silent_rows hp h hsub).mp hsilent⟩

end Plan

end Chiptune.Arrangement
