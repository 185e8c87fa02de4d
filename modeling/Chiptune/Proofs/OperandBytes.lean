import Chiptune.CommandLine.Run
import Chiptune.Proofs.ArrangedExport

/-!
# Operand bytes

Every value in the code of a song is a byte, but for two of them: the speed of the song, which is
any positive number, and the count of a reference, which reaches 256 where a pattern of that many
rows is referred to as a whole. Where both are small, nothing of a value is cut off.
-/

namespace Chiptune

open Assembly Export

/-- No value of the line loses anything where it is cut down to a byte. -/
def Assembly.Line.Intact : Line → Prop
  | bytes values _ => ∀ value ∈ values, ((Bytes.low value).toNat : Int) = value
  | _ => True

/-- The count of a reference is the number of row commands in its buffer, of which there are at most
`most`. -/
def ChannelCode.Counted (kernel : Kernel) (pool : PatternPool) (most : Int)
    (code : ChannelCode) : Prop :=
  ∀ number rows, .reference number rows ∈ code.slots → ∃ bytes commands,
    pool.buffers[number]? = some bytes ∧ Command.readAll? kernel bytes = some commands ∧
      rows = rowCommands commands ∧ (rows : Int) ≤ most

lemma slotLines_intact (slot : SlotCode) : (∀ line ∈ slot.lines, line.Intact) ↔ slot.Fits := by
  cases slot with
  | buffer number bytes =>
    refine iff_of_true ?_ trivial
    simp only [SlotCode.lines, List.forall_mem_cons, Line.Intact, List.forall_mem_map, low_eq_iff,
      true_and, List.not_mem_nil, false_implies, implies_true, and_true]
    intro byte _
    have := byte.toNat_lt
    omega
  | reference number rows =>
    have hcode : Command.referenceCode.toNat = 255 := rfl
    simp only [SlotCode.lines, List.forall_mem_cons, Line.Intact, low_eq_iff, hcode,
      List.not_mem_nil, false_implies, implies_true, and_true, SlotCode.Fits]
    omega

lemma channelLines_intact (code : ChannelCode) (song number : Nat) :
    (∀ line ∈ code.lines song number, line.Intact) ↔
      (∀ speed, code.speed = some speed → 0 ≤ speed ∧ speed ≤ 255) ∧ code.Fits := by
  have hslots : ∀ slots : List SlotCode, (∀ line ∈ slots.flatMap SlotCode.lines, line.Intact) ↔
      ∀ slot ∈ slots, slot.Fits := by
    intro slots
    rw [List.forall_mem_flatMap]
    exact forall₂_congr fun slot _ => slotLines_intact slot
  have hspeed : (∀ line ∈ code.speed.toList.map fun speed =>
      Line.bytes [Command.speedCode.toNat, speed], line.Intact) ↔
        ∀ speed, code.speed = some speed → 0 ≤ speed ∧ speed ≤ 255 := by
    have hcode : Command.speedCode.toNat = 251 := rfl
    simp [Line.Intact, low_eq_iff, hcode]
  have hloop : (Bytes.low Command.loopCode.toNat).toNat = Command.loopCode.toNat := rfl
  simp only [ChannelCode.lines, List.forall_mem_append, hslots, hspeed, ChannelCode.fits_iff]
  simp [Line.Intact, hloop, and_assoc]

lemma songLines_intact (codes : List SongCode) :
    (∀ line ∈ songLines codes, line.Intact) ↔ ∀ code ∈ codes, ∀ channel ∈ code.channels,
      (∀ speed, channel.speed = some speed → 0 ≤ speed ∧ speed ≤ 255) ∧ channel.Fits := by
  constructor
  · intro h code hcode channel hchannel
    obtain ⟨song, hsong⟩ := List.mem_iff_getElem?.mp hcode
    obtain ⟨number, hnumber⟩ := List.mem_iff_getElem?.mp hchannel
    refine (channelLines_intact channel song number).mp fun line hm => h line ?_
    exact mem_songLines.mpr ⟨song, code, number, channel, hsong, hnumber, hm⟩
  · intro h line hm
    obtain ⟨song, code, number, channel, hcode, hchannel, hm⟩ := mem_songLines.mp hm
    have hchannel := h code (List.mem_of_getElem? hcode) channel (List.mem_of_getElem? hchannel)
    exact (channelLines_intact channel song number).mpr hchannel line hm

/-- The counts of songs that are encoded in turn. -/
lemma encodeInTurn_counted {pool : PatternPool} {jobs : List SongJob} {codes : List SongCode}
    (hn : ∀ job ∈ jobs, ∀ note ∈ job.song.notes, note.InRange)
    (h : encodeInTurn pool jobs = .ok codes) : List.Forall₂ (fun job code =>
      ∀ channel ∈ code.channels, channel.Counted job.encoding.kernel (finalPool pool codes)
        job.song.patternLength) jobs codes := by
  refine ((List.forall₂_and_left jobs codes).mpr ⟨hn, encodeInTurn_carries h⟩).imp ?_
  rintro job code ⟨hnotes, hlength, hchannels⟩ channel hc buffer rows hslot
  obtain ⟨number, hnumber⟩ := List.mem_iff_getElem?.mp hc
  obtain ⟨-, stream, hstream, hcarries⟩ := hchannels number channel hnumber
  obtain ⟨hlt, -⟩ := List.getElem?_eq_some_iff.mp hnumber
  obtain ⟨-, -, hblocks⟩ :=
    stream_renders hnotes (List.getElem?_eq_getElem (hlength ▸ hlt)) hstream
  obtain ⟨block, hb, hbuffer, rfl⟩ := hcarries.exists_block hslot
  obtain ⟨hreadable, hrows⟩ := hblocks block hb
  exact ⟨_, block, hbuffer, Command.readAll?_commandBytes hreadable.writable, rfl, by omega⟩

namespace Arrangement

variable {tree : FileTree} {midi : Midi.Score} {sourceName : String} {options : Options}
  {map : InstrumentMap} {project : Project} {warnings : List Warning}

/-- What can become too large in the code of a song, and where it comes from. -/
structure Encodes (options : Options) (kernel : Kernel) (code : SongCode) : Prop where
  follow : BuffersFollow code.pool (songLines [code])
  counted : ∀ channel ∈ code.channels, channel.Counted kernel code.pool options.patternLength
  speeds : ∀ channel ∈ code.channels, ∀ speed, channel.speed = some speed → speed = options.speed
  started : ∃ channel ∈ code.channels, channel.speed = some options.speed

section Encoded

variable {song : Song} {target : Export.Options}

/-- The only song that a document of the project can have is encoded from an empty pool. -/
lemma Holds.encoded (h : Holds options project song) {result : Export.Document}
    (hdoc : Export.document project target = .ok result) :
    let prepared := project.prepare target.wanted target.kernel
    ∃ parts choice job, Export.Composed prepared target parts ∧ result = parts.document prepared ∧
      parts.codes = [choice.code] ∧ encodeInTurn {} [job] = .ok [choice.code] ∧
      Export.JobOf ⟨target.kernel, prepared.instrumentIndex?, target.capacity⟩
        (song.fitted target.kernel, choice) job := by
  have hne : (project.select target.wanted).songs ≠ [] := by
    intro hnone
    rw [document_noSongs hnone] at hdoc
    cases hdoc
  obtain ⟨parts, hcomposed, -, rfl⟩ := Export.document_eq_ok hdoc
  obtain ⟨hsongs, jobs, hjobs, hof⟩ := Export.encodeSongs_inTurn hcomposed.songs
  rw [Project.prepare_songs, h.select_songs hne, List.map_singleton] at hsongs
  obtain ⟨⟨source, choice⟩, hentry, rfl⟩ := List.map_eq_singleton_iff.mp hsongs
  rw [hentry] at hjobs hof
  obtain ⟨job, rest, hjob, hrest, rfl⟩ := List.forall₂_cons_left_iff.mp hof
  obtain rfl := List.forall₂_nil_left_iff.mp hrest
  have hcodes : parts.codes = [choice.code] := by
    rw [Export.Parts.codes, hentry]
    rfl
  exact ⟨parts, choice, job, hcomposed, rfl, hcodes, hjobs, hjob⟩

lemma Holds.encodes (h : Holds options project song) {encoding : Encoding} {choice : Choice}
    {job : SongJob} (hkernel : encoding.kernel = target.kernel)
    (hjob : encodeInTurn {} [job] = .ok [choice.code])
    (hof : Export.JobOf encoding (song.fitted target.kernel, choice) job) :
    Encodes options target.kernel choice.code := by
  obtain ⟨size, -, hcut⟩ := split_cut hof.split
  have hfitted := song_fitted target.kernel song
  have hwhole : song.patternLength = choice.candidate.factor * size :=
    (congrArg Song.patternLength hfitted).symm.trans hcut.whole
  have hsize : (job.song.patternLength : Int) ≤ options.patternLength := by
    rw [← h.patternLength, hcut.patternLength]
    exact_mod_cast hwhole ▸ Nat.le_mul_of_pos_left size hcut.positive
  have hspeed : job.song.speed = options.speed :=
    (hcut.speed.trans (congrArg Song.speed hfitted)).trans h.speed
  have hrange : ∀ other ∈ [job], ∀ note ∈ other.song.notes, note.InRange := by
    intro other ho note hn
    obtain rfl := List.mem_singleton.mp ho
    exact (encodable_fitted h.arranged.encodable target.kernel).range note (notes_cut hcut hn)
  have hcounted := (List.forall₂_cons.mp (encodeInTurn_counted hrange hjob)).1
  obtain ⟨hlength, hchannels⟩ := (List.forall₂_cons.mp (encodeInTurn_carries hjob)).1
  refine ⟨encodeInTurn_follow hjob, ?_, ?_, ?_⟩
  · intro channel hc number rows hslot
    obtain ⟨bytes, commands, hbuffer, hread, hrows, hle⟩ := hcounted channel hc number rows hslot
    rw [hof.encoding, hkernel] at hread
    exact ⟨bytes, commands, hbuffer, hread, hrows, hle.trans hsize⟩
  · intro channel hc speed hs
    obtain ⟨number, hnumber⟩ := List.mem_iff_getElem?.mp hc
    rw [(hchannels number channel hnumber).1] at hs
    split at hs
    · exact (Option.some.inj hs).symm.trans hspeed
    · cases hs
  · have hlt : choice.candidate.channel < choice.code.channels.length := by
      rw [hlength, hcut.channels]
      exact hof.channel
    refine ⟨_, List.getElem_mem hlt, ?_⟩
    rw [(hchannels _ _ (List.getElem?_eq_getElem hlt)).1, if_pos hof.speedChannel.symm, hspeed]

end Encoded

section Intact

variable {kernel : Kernel} {code : SongCode}

/-- Nothing is cut off if and only if the speed is a byte and all counts are. -/
lemma Encodes.intact_iff (h : Encodes options kernel code) (hpos : 0 < options.speed) :
    (∀ line ∈ songLines [code], line.Intact) ↔
      options.speed ≤ 255 ∧ ∀ channel ∈ code.channels, channel.Fits := by
  rw [songLines_intact, List.forall_mem_singleton]
  constructor
  · intro hintact
    obtain ⟨channel, hc, hs⟩ := h.started
    exact ⟨((hintact channel hc).1 _ hs).2, fun other ho => (hintact other ho).2⟩
  · rintro ⟨hslow, hfits⟩ channel hc
    refine ⟨fun speed hs => ?_, hfits channel hc⟩
    rw [h.speeds channel hc speed hs]
    omega

lemma Encodes.fits (h : Encodes options kernel code) (hshort : options.patternLength ≤ 255) :
    ∀ channel ∈ code.channels, channel.Fits := by
  intro channel hc slot hs
  cases slot with
  | buffer number bytes => trivial
  | reference number rows =>
    obtain ⟨-, -, -, -, -, hle⟩ := h.counted channel hc number rows hs
    rw [SlotCode.Fits]
    omega

end Intact

/-- No value of the song in an export is cut off if and only if its speed is a byte and the counts
of its references are. The counts are right in any case, and patterns of less than 256 rows have no
larger ones. -/
theorem ofScore_operandBytes
    (hmade : ofScore tree midi sourceName options map = .ok (project, warnings))
    {target : Export.Options} {result : Export.Document}
    (hdoc : Export.document project target = .ok result) :
    let prepared := project.prepare target.wanted target.kernel
    ∃ parts code, Export.Composed prepared target parts ∧ result = parts.document prepared ∧
      parts.codes = [code] ∧ BuffersFollow code.pool (songLines [code]) ∧
      (∀ channel ∈ code.channels,
        channel.Counted target.kernel code.pool options.patternLength) ∧
      ((∀ line ∈ songLines [code], line.Intact) ↔
        options.speed ≤ 255 ∧ ∀ channel ∈ code.channels, channel.Fits) ∧
      (options.patternLength ≤ 255 → ∀ channel ∈ code.channels, channel.Fits) := by
  obtain ⟨song, hholds⟩ := ofScore_holds hmade
  obtain ⟨parts, choice, job, hcomposed, hresult, hcodes, hjob, hof⟩ := hholds.encoded hdoc
  have hencodes : Encodes options target.kernel choice.code := hholds.encodes rfl hjob hof
  have hpos : 0 < options.speed := hholds.speed ▸ hholds.speed_pos
  exact ⟨parts, choice.code, hcomposed, hresult, hcodes, hencodes.follow, hencodes.counted,
    hencodes.intact_iff hpos, hencodes.fits⟩

/-- The third phrase of the peal is written as a reference to the second one. -/
theorem peal_operandBytes : ∃ result parts code,
    peal = .ok (pealProject, []) ∧ Export.document pealProject {} = .ok result ∧
    result = Export.Parts.document parts (pealProject.prepare none .extended) ∧
    parts.codes = [code] ∧ (∀ line ∈ songLines [code], line.Intact) ∧
    .bytes [Command.referenceCode.toNat, 5] ∈ result.lines := by
  have hshort : (Export.document pealProject {}).toOption.map
      (fun result => decide (.bytes [Command.referenceCode.toNat, 5] ∈ result.lines)) =
      some true := by decide +kernel
  cases hdoc : Export.document pealProject {} with
  | error error =>
    rw [hdoc] at hshort
    cases hshort
  | ok result =>
    rw [hdoc] at hshort
    obtain ⟨parts, code, -, hparts, hcodes, -, -, hintact, hfits⟩ :=
      ofScore_operandBytes peal_eq hdoc
    exact ⟨result, parts, code, peal_eq, rfl, hparts, hcodes,
      hintact.mpr ⟨by decide, hfits (by decide)⟩, of_decide_eq_true (Option.some.inj hshort)⟩

/-- The settings of a run with the least speed that is not a byte. -/
def slow : CommandLine.Settings := { patternLength := some 6, speed := some 256 }

/-- The speed is accepted, and cut down to zero. -/
theorem slowChime_truncated : ∃ numbers project warnings result,
    (((CommandLine.checkNumbers slow).run .utf8).run { tree := ⟨"/", [], []⟩ }).1 =
      .ok numbers ∧
    chime (slow.arrangement numbers) = .ok (project, warnings) ∧
    Export.document project {} = .ok result ∧
    .bytes [Command.speedCode.toNat, 256] ∈ result.lines ∧
    ¬ (Line.bytes [Command.speedCode.toNat, 256]).Intact := by
  let numbers : CommandLine.Numbers := ⟨4, 6, 256, none, 3, Limits.packedPatterns⟩
  have hspeed : ((chime (slow.arrangement numbers) >>= fun made =>
      Export.document made.1 {}).toOption.map fun result =>
        decide (.bytes [Command.speedCode.toNat, 256] ∈ result.lines)) = some true := by
    decide +kernel
  have hcut : ¬ (Line.bytes [Command.speedCode.toNat, 256]).Intact := by
    intro h
    exact absurd ((low_eq_iff 256).mp (h 256 (by simp))) (by decide)
  cases hresult : chime (slow.arrangement numbers) >>= fun made => Export.document made.1 {} with
  | error error =>
    rw [hresult] at hspeed
    cases hspeed
  | ok result =>
    rw [hresult] at hspeed
    obtain ⟨⟨project, warnings⟩, hmade, hdoc⟩ := (bind_eq_ok_iff _ _ _).mp hresult
    exact ⟨numbers, project, warnings, result, rfl, hmade, hdoc,
      of_decide_eq_true (Option.some.inj hspeed), hcut⟩

end Arrangement

end Chiptune
