import Chiptune.Export.Link
import Chiptune.Proofs.DocumentSize
import Chiptune.Proofs.PreparedSongs

/-!
# Playing linked songs

A driver that follows the pointers in the header of linked music data plays every channel of every
song as its score says, whichever way the songs were cut and their buffers shared.
-/

namespace Chiptune.Export

open Assembly

section Document

variable {project : Project} {options : Options} {prepared : Project} {parts : Parts}
  {jobs : List SongJob} {target : Target} {image : Image}

/-- The music data at an address, straight from the lines of the document. -/
def linkLines (project : Project) (options : Options) (offset : Int) (sampleOffset : Option Int) :
    Outcome (Bytes × Option Bytes) := do
  let result ← document project options
  let bytes ← code { songOffset := some offset, sampleOffset }
    (addresses .asm6 offset result.lines) result.lines
  return (bytes, result.samples)

lemma document_coherent {result : Document} (h : document project options = .ok result)
    (hnames : ∀ song ∈ (project.prepare options.wanted options.kernel).songs,
      Text.OneLine song.name.toList) : Coherent result.lines := by
  obtain ⟨parts, hcomposed, -, rfl⟩ := document_eq_ok h
  obtain ⟨hsongs, jobs, hjobs, -⟩ := encodeSongs_inTurn hcomposed.songs
  exact Parts.coherent hcomposed hjobs fun entry he =>
    hnames entry.1 (hsongs ▸ List.mem_map_of_mem he)

/-- Nothing is lost on the way through the text. -/
theorem link_eq_ok_iff {offset : Int} {sampleOffset : Option Int} {linked : Bytes × Option Bytes}
    (hnames : ∀ song ∈ (project.prepare options.wanted options.kernel).songs,
      Text.OneLine song.name.toList) :
    link project options (some offset) sampleOffset = .ok linked ↔
      linkLines project options offset sampleOffset = .ok linked := by
  have hsound : Dialect.asm6.Sound := Dialect.sound_of_mem (by simp [Dialect.all])
  unfold link linkLines
  rw [bind_eq_ok_iff, bind_eq_ok_iff]
  refine exists_congr fun result => and_congr_right fun hresult => ?_
  have hassemble : ∀ bytes,
      assemble { songOffset := some offset, sampleOffset } (result.text .asm6) = .ok bytes ↔
        code { songOffset := some offset, sampleOffset } (addresses .asm6 offset result.lines)
          result.lines = .ok bytes :=
    fun _ => assemble_lines rfl hsound (document_coherent hresult hnames)
  rw [bind_eq_ok_iff, bind_eq_ok_iff]
  exact exists_congr fun bytes => and_congr_left' (hassemble bytes)

/-- Linked music data is a document in memory, and its songs were encoded in turn. -/
lemma link_linked {offset : Nat} {sampleOffset : Option Int} {bytes : Bytes}
    {samples : Option Bytes}
    (h : link project options (some (offset : Int)) sampleOffset = .ok (bytes, samples))
    (hfits : offset + bytes.length ≤ 0x10000)
    (hnames : ∀ song ∈ (project.prepare options.wanted options.kernel).songs,
      Text.OneLine song.name.toList) :
    ∃ parts jobs, Composed (project.prepare options.wanted options.kernel) options parts ∧
      encodeInTurn {} jobs = .ok parts.codes ∧
      List.Forall₂ (JobOf ⟨options.kernel,
        (project.prepare options.wanted options.kernel).instrumentIndex?, options.capacity⟩)
        parts.songs jobs ∧
      parts.songs.map Prod.fst = (project.prepare options.wanted options.kernel).songs ∧
      Linked { songOffset := some (offset : Int), sampleOffset }
        (parts.lines (project.prepare options.wanted options.kernel)) ⟨offset, bytes⟩ := by
  obtain ⟨result, hresult, h⟩ := (bind_eq_ok_iff _ _ _).mp ((link_eq_ok_iff hnames).mp h)
  obtain ⟨linked, hlinked, h⟩ := (bind_eq_ok_iff _ _ _).mp h
  obtain ⟨rfl, -⟩ := Prod.mk.injEq .. ▸ Except.ok.inj h
  have hcoherent := document_coherent hresult hnames
  obtain ⟨parts, hcomposed, -, rfl⟩ := document_eq_ok hresult
  obtain ⟨hsongs, jobs, hjobs, hof⟩ := encodeSongs_inTurn hcomposed.songs
  exact ⟨parts, jobs, hcomposed, hjobs, hof, hsongs,
    Dialect.sound_of_mem (by simp [Dialect.all]), hcoherent, hlinked, hfits⟩

/-- The header has five bytes and then fourteen for each song. -/
lemma header_split (parts : Parts) {number : Nat} {song : Song}
    (hs : prepared.songs[number]? = some song) : ∃ before after,
      parts.lines prepared = before ++ headerLine song number :: after ∧
      total Line.size before = 5 + 14 * number := by
  have hget : prepared.songs.zipIdx[number]? = some (song, number) := by
    rw [List.getElem?_zipIdx, hs]
    simp
  let entries := prepared.songs.zipIdx.map fun entry => headerLine entry.1 entry.2
  have hentry : entries[number]? = some (headerLine song number) := by
    rw [List.getElem?_map, hget]
    rfl
  let start : List Line := [.blank, .label (.musicData parts.name), .count prepared.songs.length,
    .words [.label .instruments], .words [.before .samples 3]]
  have hheader : headerLines prepared parts.name = start ++ entries ++ [Line.blank] := rfl
  have hentries : total Line.size (entries.take number) = 14 * number := by
    have hlt := (List.getElem?_eq_some_iff.mp hentry).1
    rw [total_const 14, List.length_take, min_eq_left hlt.le]
    intro line hm
    obtain ⟨entry, -, rfl⟩ := List.mem_map.mp (List.mem_of_mem_take hm)
    rfl
  refine ⟨parts.comments ++ (start ++ entries.take number), entries.drop (number + 1) ++
    ([Line.blank] ++ (parts.tableLines ++ songLines parts.codes)), ?_, ?_⟩
  · rw [Parts.lines, hheader]
    conv_lhs => rw [eq_take_cons_drop hentry]
    simp
  · rw [total_append, total_append, size_comments, hentries]
    simp [start, total, Line.size]

/-- The header points to the channels of the songs. -/
lemma header_pointer (h : Linked target (parts.lines prepared) image) {number place : Nat}
    {song : Song} (hs : prepared.songs[number]? = some song) (hp : place < Voice.all.length)
    (hl : .label (.channel number place) ∈ parts.lines prepared)
    (hlt : addressOf image.offset (parts.lines prepared) (.channel number place) < 0x10000) :
    image.pointer? (5 + 14 * number + 2 * place) =
      some (addressOf image.offset (parts.lines prepared) (.channel number place)) := by
  obtain ⟨before, after, hlines, hsize⟩ := header_split parts hs
  obtain ⟨x, y, hx, -, hdrop⟩ := (code_append [headerLine song number] after).mp
    (h.drop_lines hlines)
  let operand : Nat → Operand := fun channel => .label (.channel number channel)
  have hsplit : headerLine song number = .words ((List.range place).map operand ++
      ([operand place] ++ ((List.range (4 - place)).map (fun i => operand (place + 1 + i)) ++
        [.number (tempoWords song.tempo).1, .number (tempoWords song.tempo).2]))) := by
    have hfive : place < 5 := hp
    interval_cases place <;> rfl
  rw [hsplit] at hx
  obtain ⟨first, later, hfirst, hlater, rfl⟩ := (code_words_append _ _).mp hx
  obtain ⟨pointer, last, hpointer, -, rfl⟩ := (code_words_append _ _).mp hlater
  obtain rfl := Except.ok.inj ((code_address (h.lookup hl)).symm.trans hpointer)
  have hlength : first.length = 2 * place := by
    rw [code_length hfirst]
    simp [total, Line.size]
  obtain ⟨low, high, hword, haddress⟩ := lowWord_word hlt
  have hat : image.bytes.drop (5 + 14 * number + 2 * place) = low :: high :: (last ++ y) := by
    rw [← List.drop_drop, ← hsize, hdrop, ← hlength, hword]
    simp
  rw [Image.pointer?, hat, ← haddress]

lemma holds_finalPool (h : Linked target (parts.lines prepared) image)
    (hjobs : encodeInTurn {} jobs = .ok parts.codes) :
    image.Holds (addressOf image.offset (parts.lines prepared)) (finalPool {} parts.codes) := by
  intro number bytes hbuffer
  obtain ⟨before, after, hsplit⟩ := List.append_of_mem (mem_bufferLabel hjobs hbuffer)
  obtain ⟨found, rest, hfound, rfl⟩ := encodeInTurn_follow hjobs before after number hsplit
  obtain rfl := Option.some.inj (hfound.symm.trans hbuffer)
  have hlines : parts.lines prepared =
      (parts.comments ++ headerLines prepared parts.name ++ parts.tableLines ++ before) ++
        .label (.buffer number) :: (.bytes (found.map fun b => (b.toNat : Int)) :: rest) := by
    rw [Parts.lines, hsplit, List.append_assoc _ before]
  obtain ⟨x, y, hx, -, hat⟩ := (code_append [_] rest).mp (h.at_label hlines)
  have hbytes : code target (addresses target.dialect image.offset (parts.lines prepared))
      [.bytes (found.map fun b => (b.toNat : Int))] = .ok _ := code_bytes h.names _ ""
  rw [map_low_toNat] at hbytes
  obtain rfl := Except.ok.inj (hbytes.symm.trans hx)
  refine ⟨h.addressOf_lt hlines ?_, y, hat⟩
  have hfilled := List.length_pos_of_ne_nil (buffer_ne_nil hjobs hbuffer)
  simp only [total, Line.size, List.length_map]
  omega

/-- A channel lies in a document with all buffers that it refers to. -/
lemma channelIn {code : SongCode} {channelCode : ChannelCode} {number place : Nat}
    (hjobs : encodeInTurn {} jobs = .ok parts.codes) (hcode : parts.codes[number]? = some code)
    (hchannel : code.channels[place]? = some channelCode) : ∃ before after,
      ChannelIn (parts.lines prepared) before after channelCode number place := by
  let songLinesOf : SongCode × Nat → List Line := fun entry => entry.1.lines entry.2
  let channelLinesOf : ChannelCode × Nat → List Line := fun entry => entry.1.lines number entry.2
  obtain ⟨after, hsong⟩ := flatMap_zipIdx_split songLinesOf hcode
  obtain ⟨last, hplace⟩ := flatMap_zipIdx_split channelLinesOf hchannel
  let before := (parts.codes.take number).zipIdx.flatMap songLinesOf
  let first := (code.channels.take place).zipIdx.flatMap channelLinesOf
  have hlines : code.lines number = first ++ (channelCode.lines number place ++ last) := by
    rw [← hplace, SongCode.lines, ← List.flatMap_def]
  refine ⟨parts.comments ++ headerLines prepared parts.name ++ parts.tableLines ++ before ++ first,
    last ++ after, ?_, ?_⟩
  · rw [Parts.lines, songLines, hsong, show songLinesOf (code, number) = code.lines number from rfl,
      hlines]
    simp [before]
  · intro buffer rows hreference
    exact List.mem_append_right _ (mem_referredLabel hjobs hcode hchannel hreference)

end Document

section Rows

variable {kernel : Kernel} {song pieces : Song} {encoding : Encoding} {channel : Channel}
  {speedChannel factor : Int} {place : Nat} {stream : ChannelStream}

lemma hear_speedCommands (kernel : Kernel) (speed : Option Int) (events : List Event) :
    hear { instrument := none } (commandEvents kernel (speedCommands speed) ++ events) =
      hear { speed := speed.map Bytes.low, instrument := none } events := by
  cases speed with
  | none => rfl
  | some frames => rfl

/-- However a song was cut, the stream of a channel asks for the rows that the channel plays. -/
lemma stream_played {listed : List InstrumentId} (h : song.Playable listed)
    (hsplit : song.split factor = some pieces) (hc : song.channels[place]? = some channel)
    (hs : pieces.stream encoding speedChannel factor place = .ok stream) :
    let voicing : Voicing := ⟨encoding.kernel, channel.voice, encoding.index⟩
    let takesSpeed := decide ((place : Int) = speedChannel)
    stream.intro.flatMap (commandEvents encoding.kernel) ++
        stream.body.flatMap (commandEvents encoding.kernel) =
      voicing.events none ((song.played channel).map (playedRow encoding.kernel takesSpeed)) ∧
    eventRows (stream.body.flatMap (commandEvents encoding.kernel)) =
      (song.repeated channel).length ∧
    ∀ block ∈ stream.slots, Readable encoding.kernel block ∧ rowCommands block ≤ 255 := by
  extract_lets voicing takesSpeed
  obtain ⟨size, hfactor, hcut⟩ := split_cut hsplit
  obtain ⟨slots, hget, hslots⟩ := hcut.channel place channel hc
  have hmem := List.mem_of_getElem? hc
  obtain ⟨hintro, hbody, hblocks⟩ :=
    stream_renders (fun note hm => h.range note (notes_cut hcut hm)) hget hs
  obtain ⟨hintroRows, hbodyRows⟩ := rows_cut hcut h.unmixed hslots (h.formed.slots channel hmem)
    encoding.kernel takesSpeed
  rw [hfactor] at hintroRows hbodyRows
  refine ⟨?_, ?_, ?_⟩
  · rw [hintro, hbody, ← Voicing.events_append, hintroRows, hbodyRows,
      rows_played h.formed h.unmixed hmem]
  · rw [hbody, eventRows_events, hbodyRows, rows_repeated h.formed h.unmixed hmem,
      List.length_map]
  · intro block hb
    obtain ⟨hread, hrows⟩ := hblocks block hb
    have hsize : pieces.patternLength ≤ song.patternLength := by
      rw [hcut.patternLength, hcut.whole]
      exact Nat.le_mul_of_pos_left size hcut.positive
    exact ⟨hread, hrows.trans (hsize.trans h.short)⟩

end Rows

/-- From an address on the driver plays a score, and then the rows at its end over and over, as
many as are to be repeated. -/
def Plays (kernel : Kernel) (image : Image) (address : Nat) (score : List Sounding)
    (repeats : Nat) : Prop :=
  ∃ first again loop, drive? kernel image (image.at address) = some ⟨first ++ again, loop⟩ ∧
    (hear { instrument := none } (first ++ again)).map Beat.sounding = score ∧
    drive? kernel image (image.at loop) = some ⟨again, loop⟩ ∧ eventRows again = repeats

section Songs

variable {project : Project} {options : Options} {parts : Parts} {jobs : List SongJob}
  {target : Target} {image : Image}

/-- The rows of a song to export fit into the commands of the driver. -/
lemma fits_prepared {song : Song}
    (hcomposed : Composed (project.prepare options.wanted options.kernel) options parts)
    (hsong : song ∈ (project.prepare options.wanted options.kernel).songs)
    (hp : song.Playable (project.instruments.map Instrument.id)) {channel : Channel}
    (hc : channel ∈ song.channels) : ∀ entry ∈ song.played channel,
      Voicing.Fits ⟨options.kernel, channel.voice,
        (project.prepare options.wanted options.kernel).instrumentIndex?⟩ entry := by
  refine fits_played hp (fun note hn id hid => ?_) hc
  obtain ⟨place, hplace, hlt⟩ :=
    Project.prepare_instrumentIndex hsong hn hid (hp.listed note hn id hid)
  exact ⟨place, hplace, lt_of_lt_of_le hlt (length_of_build hcomposed.tables)⟩

/-- A channel of a song plays its score from where the header points to. -/
lemma plays_channel {prepared : Project} {number place : Nat} {channel : Channel}
    {entry : Song × Choice} {encoding : Encoding}
    (hlinked : Linked target (parts.lines prepared) image)
    (hjobs : encodeInTurn {} jobs = .ok parts.codes)
    (hof : List.Forall₂ (JobOf encoding) parts.songs jobs)
    (hentry : parts.songs[number]? = some entry) (hsong : prepared.songs[number]? = some entry.1)
    {listed : List InstrumentId} (hp : entry.1.Playable listed)
    (hc : entry.1.channels[place]? = some channel)
    (hfits : ∀ row ∈ entry.1.played channel,
      Voicing.Fits ⟨encoding.kernel, channel.voice, encoding.index⟩ row) :
    let takesSpeed := decide (place = entry.2.candidate.channel)
    ∃ address, image.pointer? (5 + 14 * number + 2 * place) = some address ∧
      Plays encoding.kernel image address
        (Voicing.score ⟨encoding.kernel, channel.voice, encoding.index⟩ takesSpeed
          (if takesSpeed then some entry.1.speed else none) none (entry.1.played channel))
        (entry.1.repeated channel).length := by
  extract_lets takesSpeed
  obtain ⟨job, hjob, hjobOf⟩ := exists_right_of_getElem? hof hentry
  obtain ⟨code, hcode, hlength, hchannels⟩ :=
    exists_right_of_getElem? (encodeInTurn_carries hjobs) hjob
  obtain ⟨size, hfactor, hcut⟩ := split_cut hjobOf.split
  have hplace : place < entry.1.channels.length := (List.getElem?_eq_some_iff.mp hc).1
  have hplace' : place < code.channels.length := by rwa [hlength, hcut.channels]
  obtain ⟨channelCode, hchannel⟩ : ∃ found, code.channels[place]? = some found :=
    ⟨_, List.getElem?_eq_getElem hplace'⟩
  obtain ⟨hspeed, stream, hstream, hcarries⟩ := hchannels place channelCode hchannel
  rw [hjobOf.encoding, hjobOf.factor] at hstream
  have htakes : decide ((place : Int) = job.speedChannel) = takesSpeed := by
    simp [hjobOf.speedChannel, takesSpeed]
  clear_value takesSpeed
  let speed := if takesSpeed then some entry.1.speed else none
  have hspeed' : channelCode.speed = speed := by
    rw [hspeed, hcut.speed]
    simp only [speed, ← htakes, decide_eq_true_eq]
  obtain ⟨before, after, hin⟩ := channelIn hjobs hcode hchannel
  obtain ⟨hevents, hrepeated, hblocks⟩ := stream_played hp hjobOf.split hc hstream
  rw [htakes] at hevents
  obtain ⟨hfirst, hagain⟩ :=
    hlinked.drive?_channel hin (holds_finalPool hlinked hjobs) hcarries hblocks
  have hmem : .label (.channel number place) ∈ parts.lines prepared := by
    rw [hin.at_channel]
    simp
  have hlt : addressOf image.offset (parts.lines prepared) (.channel number place) < 0x10000 := by
    have hpos := repeatedLines_size channelCode number place after
    refine hlinked.addressOf_lt hin.at_channel ?_
    rw [total_append, total_append, total]
    omega
  have hbyte : (speed.map Bytes.low).map (fun frames => (frames.toNat : Int)) = speed := by
    cases takesSpeed with
    | false => rfl
    | true => exact congrArg some (toNat_low hp.start)
  rw [← List.append_assoc] at hfirst
  refine ⟨_, header_pointer hlinked hsong (hp.voices ▸ hplace) hmem hlt, _, _, _, hfirst, ?_,
    hagain, hrepeated⟩
  rw [List.append_assoc, hear_speedCommands, hspeed', hevents]
  refine (hear_score hfits (fun id (hid : none = some id) => by cases hid) _).trans ?_
  rw [hbyte]

end Songs

/-- Linked music data that lies in the first 64 kilobytes of memory plays all songs that were
exported: the driver finds every channel of every song through the header and plays the rows that the
channel has in the project, with the speed of the song in one channel. -/
theorem link_plays {project : Project} {options : Options} {offset : Nat}
    {sampleOffset : Option Int} {bytes : Bytes} {samples : Option Bytes}
    (h : link project options (some (offset : Int)) sampleOffset = .ok (bytes, samples))
    (hsongs : ∀ song ∈ project.songs, song.Playable (project.instruments.map Instrument.id))
    (hfits : offset + bytes.length ≤ 0x10000) :
    let index := (project.prepare options.wanted options.kernel).instrumentIndex?
    let image : Image := ⟨offset, bytes⟩
    ∀ (number : Nat) (song : Song),
      (project.select options.wanted).songs[number]? = some song →
      ∃ speedChannel < song.channels.length, ∀ (place : Nat) (channel : Channel),
        song.channels[place]? = some channel → ∃ address,
          image.pointer? (5 + 14 * number + 2 * place) = some address ∧
          Plays options.kernel image address
            (Voicing.score ⟨options.kernel, channel.voice, index⟩ (place = speedChannel)
              (if place = speedChannel then some song.speed else none) none
              ((song.played channel).map fun row => (row.1.fitted options.kernel, row.2)))
            (song.repeated channel).length := by
  extract_lets index image
  have hprepared : ∀ song ∈ (project.prepare options.wanted options.kernel).songs,
      song.Playable (project.instruments.map Instrument.id) := Project.prepare_playable hsongs
  obtain ⟨parts, jobs, hcomposed, hjobs, hof, hmap, hlinked⟩ :=
    link_linked h hfits fun song hs => (hprepared song hs).name
  intro number song hnumber
  have hsong : (project.prepare options.wanted options.kernel).songs[number]? =
      some (song.fitted options.kernel) := by
    rw [Project.prepare_songs, List.getElem?_map, hnumber]
    rfl
  have hmem := List.mem_of_getElem? hsong
  obtain ⟨entry, hentry, hfirst⟩ : ∃ entry, parts.songs[number]? = some entry ∧
      entry.1 = song.fitted options.kernel := by
    rw [← hmap, List.getElem?_map, Option.map_eq_some_iff] at hsong
    exact hsong
  have hchannels : (song.fitted options.kernel).channels = song.channels := by
    rw [song_fitted]
    rfl
  have hspeed : (song.fitted options.kernel).speed = song.speed := by
    rw [song_fitted]
    rfl
  obtain ⟨job, -, hjob⟩ := exists_right_of_getElem? hof hentry
  refine ⟨entry.2.candidate.channel, ?_, fun place channel hc => ?_⟩
  · have hlt := hjob.channel
    rwa [hfirst, hchannels] at hlt
  · rw [← hchannels] at hc
    have hrows := fits_prepared hcomposed hmem (hprepared _ hmem) (List.mem_of_getElem? hc)
    rw [← hfirst] at hsong hc hrows hspeed
    have hplays := plays_channel hlinked hjobs hof hentry hsong
      (hprepared _ (List.mem_of_getElem? hsong)) hc hrows
    obtain ⟨hplayed, hrepeated⟩ := rows_fitted options.kernel song channel
    rw [hspeed, hfirst, hplayed, hrepeated, List.length_map] at hplays
    simpa using hplays

/-- A song whose second slot repeats a pattern, changes the speed and ends with a jump to itself. -/
def lullaby : Song where
  id := 0
  name := "lullaby"
  patternLength := 6
  length := 2
  patterns := [
    [30, 32, 34, 35, 37, 39].map fun value => { value, instrument := some 7 },
    [{ value := 247 }, {}, { effect := .speed, param := 5 }, {}, { volume := some 9 },
      { effect := .jump, param := 1 }]]
  channels := [⟨.square1, [some 0, some 0]⟩, ⟨.square2, [some 0, none]⟩,
    ⟨.triangle, [none, some 1]⟩, ⟨.noise, [none, none]⟩, ⟨.dpcm, [none, none]⟩]

def nursery : Project where
  name := "nursery"
  songs := [lullaby]
  instruments := [{ id := 3, name := "unused" }, { id := 7, name := "bell" }]

lemma lullaby_playable : lullaby.Playable (nursery.instruments.map Instrument.id) := by
  have hvolume : ∀ note ∈ lullaby.notes, ∀ level ∈ note.volume, 0 ≤ level ∧ level ≤ 15 := by
    decide +kernel
  have hlisted : ∀ note ∈ lullaby.notes, ∀ id ∈ note.instrument,
      id ∈ nursery.instruments.map Instrument.id := by decide +kernel
  exact ⟨rfl, ⟨by decide, by decide⟩, by decide, by decide, hvolume, by decide, by decide, hlisted,
    by decide, Text.oneLine_of_any (by decide)⟩

/-- The music data at 0x8000. The second channel refers to the first pattern of the first one. -/
def nurseryBytes : Bytes :=
  [1, 19, 128, 24, 128, 34, 128, 53, 128, 61, 128, 69, 128, 74, 128, 51, 1, 0, 1, 48, 30, 128,
    27, 128, 27, 128, 0, 192, 0, 0, 0, 207, 0, 1, 251, 6, 128, 21, 23, 25, 26, 28, 30, 21, 23,
    251, 5, 25, 26, 28, 253, 43, 128, 255, 6, 36, 128, 137, 253, 57, 128, 139, 247, 133, 121, 129,
    253, 62, 128, 139, 137, 253, 70, 128, 139, 137, 253, 75, 128]

theorem nursery_plays :
    link nursery {} (some ((0x8000 : Nat) : Int)) none = .ok (nurseryBytes, none) ∧
    (∀ song ∈ nursery.songs, song.Playable (nursery.instruments.map Instrument.id)) ∧
    0x8000 + nurseryBytes.length ≤ 0x10000 ∧
    ∃ speedChannel < 5, ∀ (place : Nat) (channel : Channel),
      lullaby.channels[place]? = some channel → ∃ address,
        Image.pointer? ⟨0x8000, nurseryBytes⟩ (5 + 2 * place) = some address ∧
        Plays .extended ⟨0x8000, nurseryBytes⟩ address
          (Voicing.score ⟨.extended, channel.voice,
            (nursery.prepare none .extended).instrumentIndex?⟩ (place = speedChannel)
            (if place = speedChannel then some 6 else none) none (lullaby.played channel))
          (lullaby.repeated channel).length := by
  have hsongs : ∀ song ∈ nursery.songs,
      song.Playable (nursery.instruments.map Instrument.id) := by
    intro song hm
    obtain rfl := List.mem_singleton.mp hm
    exact lullaby_playable
  have hnames : ∀ song ∈ (nursery.prepare none .extended).songs,
      Text.OneLine song.name.toList := fun song hm => (Project.prepare_playable hsongs song hm).name
  have hlink : link nursery {} (some ((0x8000 : Nat) : Int)) none = .ok (nurseryBytes, none) :=
    (link_eq_ok_iff hnames).mpr (by decide +kernel)
  have hfits : 0x8000 + nurseryBytes.length ≤ 0x10000 := by decide
  obtain ⟨speedChannel, hlt, hplays⟩ := link_plays hlink hsongs hfits 0 lullaby rfl
  refine ⟨hlink, hsongs, hfits, speedChannel, hlt, fun place channel hc => ?_⟩
  obtain ⟨address, hpointer, hplays⟩ := hplays place channel hc
  have hfitted : (fun row : Note × RowEffects => (row.1.fitted .extended, row.2)) = id := rfl
  refine ⟨address, hpointer, ?_⟩
  rw [hfitted, List.map_id] at hplays
  exact hplays

end Chiptune.Export
