import Chiptune.Proofs.ArrangedSongs
import Chiptune.Proofs.Dialects

/-!
# Exports of arrangements

A project made of a score holds one well-formed song and all that it refers to. So it is exported or
refused, unless its tempo was asked for and is too long to be written.
-/

namespace Chiptune

lemma Song.Arranged.mem_patterns {song : Song} {listed : List InstrumentId}
    (h : song.Arranged listed) {position : Nat} (hp : position ∈ song.used) :
    song.pattern position ∈ song.patterns := by
  obtain ⟨channel, hc, hslot⟩ := mem_used.mp hp
  rw [Song.pattern, List.getD_eq_getElem _ _ (h.places channel hc position hslot)]
  exact List.getElem_mem _

lemma Note.Arranged.inRange {note : Note} {listed : List InstrumentId}
    (h : note.Arranged listed) : note.InRange := by
  rcases h.value with hstop | hpitch | hempty
  · exact .inl (hstop ▸ by decide)
  · have hpitch : lowest ≤ note.value ∧ note.value ≤ highest := by simpa [isMusical] using hpitch
    simp only [lowest, highest] at hpitch
    exact .inl (by omega)
  · exact .inr (.inr hempty)

lemma Song.Arranged.encodable {song : Song} {listed : List InstrumentId}
    (h : song.Arranged listed) : song.Encodable listed := by
  have hnotes : ∀ note ∈ song.notes, note.Arranged listed := by
    intro note hn
    obtain ⟨position, hp, hn⟩ := List.mem_flatMap.mp hn
    exact h.notes _ (h.mem_patterns hp) note hn
  refine ⟨⟨h.slots, fun position hp => ?_⟩, fun note hn => (hnotes note hn).inRange,
    fun note hn => (hnotes note hn).instrument⟩
  exact (h.rows _ (h.mem_patterns hp)).ge

/-- An arranged song has no releases, so it is the same for every kernel. -/
lemma Song.Arranged.fitted_eq {song : Song} {listed : List InstrumentId} (h : song.Arranged listed)
    (kernel : Kernel) : song.fitted kernel = song := by
  have hnote : ∀ pattern ∈ song.patterns, ∀ note ∈ pattern, note.fitted kernel = note := by
    intro pattern hp note hn
    have hrelease : ¬ note.isRelease = true := by
      rw [Note.isRelease, beq_iff_eq]
      rcases (h.notes pattern hp note hn).value with hstop | hpitch | hempty
      · rw [hstop]
        decide
      · have hpitch : Note.lowest ≤ note.value ∧ note.value ≤ Note.highest := by
          simpa [Note.isMusical] using hpitch
        simp only [Note.lowest, Note.highest] at hpitch
        simp only [Note.releaseValue]
        omega
      · rw [hempty]
        decide
    unfold Note.fitted Note.withoutRelease
    rw [if_neg hrelease, ite_self]
  have hpatterns : song.patterns.map (·.map (Note.fitted kernel)) = song.patterns := by
    refine (List.map_congr_left fun pattern hp => ?_).trans (List.map_id song.patterns)
    exact (List.map_congr_left fun note hn => hnote pattern hp note hn).trans (List.map_id pattern)
  rw [song_fitted, Song.mapNotes, hpatterns]

namespace Arrangement

variable {tree : FileTree} {midi : Midi.Score} {sourceName : String} {options : Options}
  {map : InstrumentMap} {project : Project} {warnings : List Warning} {song : Song}

/-- The song of a project that was made with the options. -/
structure Holds (options : Options) (project : Project) (song : Song) : Prop where
  songs : project.songs = [song]
  one_le_length : 1 ≤ song.length
  length_le : song.length ≤ Limits.slots
  patternLength : (song.patternLength : Int) = options.patternLength
  speed : song.speed = options.speed
  speed_pos : 0 < song.speed
  tempo : options.tempo = some song.tempo ∨
    options.tempo = none ∧ slowest ≤ song.tempo ∧ song.tempo ≤ fastest
  arranged : song.Arranged (project.instruments.map Instrument.id)
  numbered : project.instruments.map Instrument.id = List.range project.instruments.length
  samples : ∀ mapping : SampleMapping, some mapping ∈ project.mapping →
    ∀ sample, mapping.sample = some sample → sample ∈ project.samples

lemma songLength_bounds (patternLength rows : Int) {longest : Nat} (h : 1 ≤ longest) :
    1 ≤ (songLength patternLength rows longest).1 ∧
      (songLength patternLength rows longest).1 ≤ longest := by
  unfold songLength
  dsimp only
  split
  · exact ⟨h, le_refl _⟩
  · next hle =>
    dsimp only
    omega

lemma blank_arranged (id : Int) (name : String) (tempo speed : Int) (patternLength length : Nat)
    (listed : List InstrumentId) :
    (Song.blank id name tempo speed patternLength length).Arranged listed where
  voices := rfl
  slots := by
    intro channel hc
    obtain ⟨voice, -, rfl⟩ := List.mem_map.mp hc
    exact List.length_replicate
  places := by
    intro channel hc position hp
    obtain ⟨voice, -, rfl⟩ := List.mem_map.mp hc
    exact nomatch List.eq_of_mem_replicate hp
  rows := fun _ h => absurd h List.not_mem_nil
  notes := fun _ h => absurd h List.not_mem_nil

lemma songTempo_cases {tempo : Int} (h : songTempo options midi = .ok tempo) :
    options.tempo = some tempo ∨ options.tempo = none ∧ slowest ≤ tempo ∧ tempo ≤ fastest := by
  unfold songTempo at h
  split at h
  · next wanted hwanted =>
    obtain rfl := Except.ok.inj h
    exact .inl hwanted
  · next hnone =>
    obtain ⟨bpm, -, h⟩ := (bind_eq_ok_iff _ _ _).mp h
    obtain ⟨rows, -, h⟩ := (bind_eq_ok_iff _ _ _).mp h
    obtain ⟨frames, -, h⟩ := (bind_eq_ok_iff _ _ _).mp h
    obtain ⟨beats, -, h⟩ := (bind_eq_ok_iff _ _ _).mp h
    obtain ⟨rounded, -, h⟩ := (bind_eq_ok_iff _ _ _).mp h
    obtain rfl := Except.ok.inj h
    refine .inr ⟨hnone, ?_⟩
    simp only [Kernel.clamp, slowest, fastest]
    omega

lemma check_positive {u : Unit} (h : options.check = .ok u) :
    0 < options.rowsPerBeat ∧ 0 < options.patternLength ∧ 0 < options.speed := by
  unfold Options.check at h
  by_cases hp : options.rowsPerBeat ≤ 0 ∨ options.patternLength ≤ 0 ∨ options.speed ≤ 0
  · rw [if_pos hp] at h
    exact nomatch h
  · omega

/-- The slots that the loop of a song may need. -/
def Options.loopSlots (options : Options) : Nat := if options.loopRow.isSome then 1 else 0

lemma Options.loopSlots_le (options : Options) : options.loopSlots ≤ 1 := by
  unfold Options.loopSlots
  split <;> decide

lemma gives_fillLoop {score : Score} {count : Nat} (hp : Sampled project)
    (h : song.Arranged (List.range count)) (notes : List Midi.NoteSpan) :
    Gives (do
        let (project, song) ← fillSong options score notes project song
        match options.loopRow with
        | some start => return (project, ← addLoop song start)
        | none => return (project, song)) count
      fun n result => Sampled result.1 ∧ Loops song options.loopSlots n result.2 := by
  refine (gives_fillSong hp h notes).bind fun n result _ ⟨hsampled, hfilled, hsame⟩ => ?_
  obtain ⟨made, filled⟩ := result
  have hframe : ∀ more, Song.SameFrame { song with length := song.length + more }
      { filled with length := filled.length + more } := fun more =>
    ⟨hsame.id, hsame.tempo, hsame.speed, hsame.patternLength, congrArg (· + more) hsame.length⟩
  dsimp only
  split
  · next start hstart =>
    refine (gives_addLoop start hfilled).bind fun n looped _ ⟨hlooped, more, hmore, hlast⟩ => ?_
    refine gives_pure fun m hm => ⟨hsampled, hlooped.mono hm, more, ?_, (hframe more).trans hlast⟩
    rw [Options.loopSlots, hstart]
    exact hmore
  · exact gives_pure fun m hm => ⟨hsampled, hfilled.mono hm, 0, Nat.zero_le _, hsame⟩

/-- The name of the song, which is that of its source unless another one is wanted. -/
def songName (options : Options) (sourceName : String) : String :=
  match options.name with
  | some name => if name.isEmpty then sourceName else name
  | none => sourceName

/-- All that has been settled, and the session that has been run, when an arrangement is made. -/
lemma ofScore_eq_ok (h : ofScore tree midi sourceName options map = .ok (project, warnings)) :
    ∃ tempo grid notes rows programs made song ensemble,
      options.check = .ok () ∧ songTempo options midi = .ok tempo ∧
      Grid.make midi.ticksPerBeat options.rowsPerBeat = .ok grid ∧
      alignScore grid midi.timeline (Midi.notes midi.timeline) = .ok (notes, rows) ∧
      programRows grid midi.timeline = .ok programs ∧
      let longest := Limits.slots - if options.loopRow.isSome then 1 else 0
      let (length, truncated) := songLength options.patternLength rows longest
      let name := songName options sourceName
      StateT.run (do
        if midi.tempos.eraseDups.length > 1 then warn .tempoChanges
        if truncated then warn (.truncated longest)
        let (project, song) ← fillSong options ⟨tree, map, programs, options.useVelocity⟩ notes
          { name } (Song.blank 0 name tempo options.speed options.patternLength.toNat length)
        match options.loopRow with
        | some start => return (project, ← addLoop song start)
        | none => return (project, song) : Session (Project × Song)) {} =
          .ok ((made, song), ensemble) ∧
      project = { made with songs := [song], instruments := ensemble.instruments.map (·.2) } := by
  unfold ofScore at h
  obtain ⟨u, hcheck, h⟩ := (bind_eq_ok_iff _ _ _).mp h
  by_cases htype : midi.type ≠ 0 ∧ midi.type ≠ 1
  · rw [if_pos htype] at h
    exact nomatch h
  rw [if_neg htype] at h
  dsimp only at h
  by_cases hnotes : (Midi.notes midi.timeline).isEmpty = true
  · rw [if_pos hnotes] at h
    exact nomatch h
  rw [if_neg hnotes] at h
  obtain ⟨tempo, htempo, h⟩ := (bind_eq_ok_iff _ _ _).mp h
  obtain ⟨grid, hgrid, h⟩ := (bind_eq_ok_iff _ _ _).mp h
  obtain ⟨⟨notes, rows⟩, haligned, h⟩ := (bind_eq_ok_iff _ _ _).mp h
  obtain ⟨programs, hprograms, h⟩ := (bind_eq_ok_iff _ _ _).mp h
  obtain ⟨⟨⟨made, song⟩, ensemble⟩, hrun, h⟩ := (bind_eq_ok_iff _ _ _).mp h
  obtain ⟨rfl, rfl⟩ := Prod.mk.injEq .. ▸ Except.ok.inj h
  exact ⟨tempo, grid, notes, rows, programs, made, song, ensemble, hcheck, htempo, hgrid, haligned,
    hprograms, hrun, rfl⟩

/-- Whatever the score, the options and the map are, an arrangement holds one well-formed song. -/
theorem ofScore_holds (h : ofScore tree midi sourceName options map = .ok (project, warnings)) :
    ∃ song, Holds options project song := by
  obtain ⟨tempo, grid, notes, rows, programs, made, song, ensemble, hcheck, htempo, -, -, -, hrun,
    rfl⟩ := ofScore_eq_ok h
  have hslots : 1 ≤ Limits.slots - options.loopSlots := by
    have := options.loopSlots_le
    simp only [Limits.slots]
    omega
  obtain ⟨hpositive, hbounded⟩ := songLength_bounds options.patternLength rows hslots
  -- A slot is kept back for the loop, so the song is not too long with it.
  obtain ⟨hnumbered, -, hsampled, harranged, more, hmore, hframe⟩ :=
    (gives_warnIf fun n _ => gives_warnIf fun n _ =>
      gives_fillLoop (sampled_blank _) (blank_arranged ..) notes) {} ensemble (made, song)
      (show Ensemble.Numbered {} from rfl) (le_refl _) hrun
  have hids : ensemble.instruments.map (fun entry => entry.2.id) =
      (ensemble.instruments.map Prod.snd).map Instrument.id := (List.map_map).symm
  rw [Ensemble.Numbered, hids] at hnumbered
  have hlength : song.length = (songLength options.patternLength rows
      (Limits.slots - options.loopSlots)).1 + more := hframe.length
  have hpattern : song.patternLength = options.patternLength.toNat := hframe.patternLength
  have hwanted := check_positive hcheck
  have hspeed : song.speed = options.speed := hframe.speed
  refine ⟨song, rfl, by omega, by omega, by omega, hspeed, by omega, ?_, ?_, ?_, hsampled.mapped⟩
  · exact hframe.tempo ▸ songTempo_cases htempo
  · rw [hnumbered]
    exact harranged
  · rw [hnumbered, List.length_map]

lemma Holds.complete (h : Holds options project song) : project.Complete where
  songs := by
    intro other ho
    rw [h.songs] at ho
    obtain rfl := List.mem_singleton.mp ho
    exact h.arranged.encodable
  samples := h.samples

lemma Holds.select_songs (h : Holds options project song) {wanted : Option (List Int)}
    (hne : (project.select wanted).songs ≠ []) : (project.select wanted).songs = [song] := by
  cases wanted with
  | none => exact h.songs
  | some ids =>
    simp only [Project.select, h.songs, List.filter_singleton] at hne ⊢
    cases hkept : ids.contains song.id with
    | true => rfl
    | false => exact absurd (congrArg (bif · then [song] else []) hkept) hne

lemma isWritable_tempoWord {tempo frames : Int}
    (h : tempo.natAbs < 10 ^ (Text.maxDecimalDigits - 1)) (hf : frames = 125 ∨ frames = 150) :
    Text.isWritable (256 * tempo / frames) = true := by
  have hdigits : Text.maxDecimalDigits = Text.maxDecimalDigits - 1 + 1 := rfl
  rw [Text.isWritable, hdigits, Nat.pow_eq, pow_succ, decide_eq_true_eq]
  -- The power is far too large to be computed.
  generalize 10 ^ (Text.maxDecimalDigits - 1) = bound at h ⊢
  rcases hf with rfl | rfl <;> omega

lemma Holds.checkTempo_ok (h : Holds options project song) (hshort : ∀ tempo,
    options.tempo = some tempo → tempo.natAbs < 10 ^ (Text.maxDecimalDigits - 1)) :
    Export.checkTempo song = .ok () := by
  have hlt : song.tempo.natAbs < 10 ^ (Text.maxDecimalDigits - 1) := by
    rcases h.tempo with htempo | ⟨-, hslow, hfast⟩
    · exact hshort song.tempo htempo
    · have hsmall : song.tempo.natAbs < 10 ^ 3 := by
        simp only [slowest, fastest] at hslow hfast
        omega
      exact hsmall.trans_le (Nat.pow_le_pow_right (by decide) (by decide))
  rw [Export.checkTempo, Export.tempoWords]
  dsimp only
  rw [isWritable_tempoWord hlt (.inl rfl), isWritable_tempoWord hlt (.inr rfl)]
  rfl

/-- A project made of a score holds one well-formed song and all that it refers to. In every dialect
it is exported, or refused with a cause, unless its tempo is too long to be written. -/
theorem ofScore_exportable
    (h : ofScore tree midi sourceName options map = .ok (project, warnings)) :
    ∃ song, Holds options project song ∧
      ((∀ tempo, options.tempo = some tempo → tempo.natAbs < 10 ^ (Text.maxDecimalDigits - 1)) →
        Export.checkTempo song = .ok ()) ∧
      ∀ (dialect : Assembly.Dialect) (target : Export.Options),
        (Export.checkTempo song = .ok () →
          Orderly (Export.exportText dialect project target)) ∧
        (Export.checkTempo song ≠ .ok () → song ∈ (project.select target.wanted).songs →
          Export.exportText dialect project target = .error .notANumeral) := by
  obtain ⟨song, hholds⟩ := ofScore_holds h
  refine ⟨song, hholds, hholds.checkTempo_ok, fun dialect target => ⟨fun htempo => ?_, ?_⟩⟩
  · refine (document_orderly hholds.complete fun other ho => ?_).bind fun _ _ => orderly_ok _
    have hother := hholds.songs ▸ Project.mem_select ho
    exact List.mem_singleton.mp hother ▸ htempo
  · intro htempo hm
    have hone := hholds.select_songs (List.ne_nil_of_mem hm)
    rw [Export.exportText, document_notANumeral hone htempo]
    rfl

/-- Three notes in six rows: two start together, and the third one starts while they sound. -/
def pealPhrase : Midi.Track :=
  [⟨0, .noteOn 0 60 100⟩, ⟨0, .noteOn 0 64 80⟩, ⟨2, .noteOn 0 67 90⟩, ⟨1, .noteOff 0 60⟩,
    ⟨1, .noteOff 0 64⟩, ⟨1, .noteOff 0 67⟩, ⟨1, .other⟩]

/-- The phrase three times. -/
def pealScore : Midi.Score where
  type := 1
  ticksPerBeat := 4
  tracks := [pealPhrase ++ pealPhrase ++ pealPhrase]

def peal : Outcome (Project × List Warning) :=
  ofScore ⟨"/", [], []⟩ pealScore "peal" { patternLength := 6 } {}

/-- The notes of the score, which are their own rows. -/
def pealNotes : List Midi.NoteSpan :=
  [⟨0, 3, 0, 60, 100⟩, ⟨0, 4, 0, 64, 80⟩, ⟨2, 3, 0, 67, 90⟩, ⟨6, 3, 0, 60, 100⟩, ⟨6, 4, 0, 64, 80⟩,
    ⟨8, 3, 0, 67, 90⟩, ⟨12, 3, 0, 60, 100⟩, ⟨12, 4, 0, 64, 80⟩, ⟨14, 3, 0, 67, 90⟩]

/-- The louder one of the first two notes is cut short by the third, and the rows of the three
phrases are one pattern. -/
def pealSong : Song where
  id := 0
  name := "peal"
  tempo := 120
  patternLength := 6
  length := 3
  patterns := [[{ value := 49, instrument := some 0 }, .empty, { value := 56, instrument := some 0 },
    .empty, .empty, { value := Note.stopValue }]]
  channels := [⟨.square1, [some 0, some 0, some 0]⟩, ⟨.square2, [none, none, none]⟩,
    ⟨.triangle, [none, none, none]⟩, ⟨.noise, [none, none, none]⟩, ⟨.dpcm, [none, none, none]⟩]

def pealProject : Project where
  name := "peal"
  songs := [pealSong]
  instruments := [{ id := 0, name := "default", duty := 2 }]

/-- There are four ticks and four rows in a beat. -/
def pealGrid : Grid := ⟨⟨4503599627370496, -52⟩⟩

lemma make_pealGrid : Grid.make 4 4 = .ok pealGrid := by decide +kernel

lemma notes_pealScore : Midi.notes pealScore.timeline = pealNotes := by cbv

lemma mapM_pealNotes : pealNotes.mapM pealGrid.align = .ok pealNotes := by decide +kernel

lemma alignScore_pealNotes :
    alignScore pealGrid pealScore.timeline pealNotes = .ok (pealNotes, 18) := by
  have hsorted : pealNotes.mergeSort Midi.NoteSpan.before = pealNotes :=
    List.mergeSort_of_pairwise (by decide)
  have hlast : Midi.lastTick pealScore.timeline = 18 := by cbv
  have hrow : pealGrid.row 18 = .ok 18 := by decide +kernel
  unfold alignScore Grid.alignAll
  rw [mapM_pealNotes, hlast, hrow, ok_bind]
  simp only [hsorted]
  rfl

lemma peal_eq : peal = .ok (pealProject, []) := by
  have hcheck : Options.check { patternLength := 6 } = .ok () := rfl
  have htempo : songTempo { patternLength := 6 } pealScore = .ok 120 := by decide +kernel
  have hgrid : Grid.make pealScore.ticksPerBeat 4 = .ok pealGrid := make_pealGrid
  have hprograms : programRows pealGrid pealScore.timeline = .ok [] := by cbv
  unfold peal ofScore
  dsimp only
  rw [hcheck, notes_pealScore, htempo, hgrid]
  simp only [ok_bind, alignScore_pealNotes, hprograms]
  cbv

theorem peal_exportable : peal = .ok (pealProject, []) ∧
    Holds { patternLength := 6 } pealProject pealSong ∧ Export.checkTempo pealSong = .ok () ∧
    ∀ (dialect : Assembly.Dialect) (target : Export.Options),
      Orderly (Export.exportText dialect pealProject target) := by
  obtain ⟨song, hholds, htempo, htexts⟩ := ofScore_exportable peal_eq
  obtain rfl : pealSong = song := List.singleton_inj.mp hholds.songs
  have htempo := htempo fun _ h => nomatch h
  exact ⟨peal_eq, hholds, htempo, fun dialect target => (htexts dialect target).1 htempo⟩

/-- One note, arranged with the options. -/
def chime (options : Options) : Outcome (Project × List Warning) :=
  ofScore ⟨"/", [], []⟩ { type := 1, ticksPerBeat := 4, tracks := [[⟨0, .noteOn 0 60 100⟩]] }
    "chime" options {}

/-- A tempo whose words have one digit more than can be written. -/
def rushed : Options := { patternLength := 6, tempo := some (5 * 10 ^ 4299) }

theorem rushedChime_notWritten : ∃ project warnings,
    chime rushed = .ok (project, warnings) ∧ ∀ dialect : Assembly.Dialect,
      Export.exportText dialect project {} = .error .notANumeral := by
  have hok : (chime rushed).isOk = true := by decide +kernel
  obtain ⟨⟨project, warnings⟩, hmade⟩ := ok_of_isOk hok
  obtain ⟨song, hholds⟩ := ofScore_holds hmade
  have htempo : song.tempo = 5 * 10 ^ 4299 := by
    rcases hholds.tempo with h | ⟨h, -⟩
    · exact (Option.some.inj h).symm
    · cases h
  have hlong : Text.isWritable (256 * (5 * 10 ^ 4299) / 125) = false := by decide +kernel
  have hall : (project.select ({} : Export.Options).wanted).songs = [song] := hholds.songs
  refine ⟨project, warnings, hmade, fun dialect => ?_⟩
  rw [Export.exportText, document_notANumeral hall]
  · rfl
  · rw [Export.checkTempo, Export.tempoWords, htempo]
    dsimp only
    rw [hlong]
    intro h
    cases h

end Arrangement

end Chiptune
