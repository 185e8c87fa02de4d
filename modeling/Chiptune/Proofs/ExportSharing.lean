import Chiptune.Proofs.SongPlayback

/-!
# Sharing over a whole export

Songs that are encoded in turn share one pool. Nothing is lost by it: every buffer of the pool is
written out once, under its own label, and a reference stands for the very buffer that its slot
would have had.
-/

namespace Chiptune

open Assembly

/-- A song to encode, and how. -/
structure SongJob where
  song : Song
  encoding : Encoding
  speedChannel : Int
  factor : Int

/-- Encodes songs one after the other, each with the pool that the one before it has left. -/
def encodeInTurn : PatternPool → List SongJob → Except Obstacle (List SongCode)
  | _, [] => pure []
  | pool, job :: rest => do
    let code ← job.song.encode job.encoding job.speedChannel job.factor pool
    return code :: (← encodeInTurn code.pool rest)

/-- The pool after the last song. -/
def finalPool (pool : PatternPool) (codes : List SongCode) : PatternPool :=
  codes.foldl (fun _ code => code.pool) pool

/-- The lines of the songs, in order. -/
def songLines (codes : List SongCode) : List Line :=
  codes.zipIdx.flatMap fun (code, number) => code.lines number

/-- Whether the code writes out the buffer of that number. -/
def SlotCode.defines (number : Nat) : SlotCode → Bool
  | buffer other _ => other == number
  | reference _ _ => false

/-- New buffers take the numbers on from the size of the pool, each of them once. -/
lemma Stored.countP_defines {pool final : PatternPool} {blocks : List (List Command)}
    {codes : List SlotCode} (h : Stored pool blocks codes final) (number : Nat) :
    codes.countP (SlotCode.defines number) =
      if pool.size ≤ number ∧ number < final.size then 1 else 0 := by
  induction h with
  | nil pool =>
    rw [if_neg (by omega)]
    rfl
  | silent _ _ ih => exact ih
  | @buffer pool block blocks codes final _ _ rest ih =>
    have hsize : (pool.add (commandBytes block)).size = pool.size + 1 := by
      simp [PatternPool.add, PatternPool.size]
    have hle := rest.extends_pool.size_le
    rw [hsize] at ih hle
    rw [List.countP_cons, ih]
    by_cases heq : pool.size = number
    · have hd : (SlotCode.buffer pool.size (commandBytes block)).defines number = true := by
        simp [SlotCode.defines, heq]
      rw [if_neg (by omega), if_pos hd, if_pos (by omega)]
    · have hd : ¬ (SlotCode.buffer pool.size (commandBytes block)).defines number = true := by
        simp [SlotCode.defines, heq]
      rw [if_neg hd]
      by_cases hin : pool.size ≤ number ∧ number < final.size
      · rw [if_pos (by omega), if_pos hin]
      · rw [if_neg (by omega), if_neg hin]
  | reference _ _ _ ih =>
    rw [List.countP_cons, ih]
    rfl

/-- Wherever the label of a buffer stands, the bytes of that buffer follow. -/
def BuffersFollow (pool : PatternPool) (lines : List Line) : Prop :=
  ∀ (before after : List Line) (number : Nat),
    lines = before ++ .label (.buffer number) :: after → ∃ bytes rest,
      pool.buffers[number]? = some bytes ∧
      after = .bytes (bytes.map fun b => (b.toNat : Int)) :: rest

section Lines

variable {pool : PatternPool} {number : Nat}

lemma BuffersFollow.append {lines more : List Line} (h : BuffersFollow pool lines)
    (h' : BuffersFollow pool more) : BuffersFollow pool (lines ++ more) := by
  intro before after number heq
  rcases List.append_eq_append_iff.mp heq with ⟨tail, rfl, hmore⟩ | ⟨tail, hlines, htail⟩
  · exact h' tail after number hmore
  · cases tail with
    | nil => exact h' [] after number htail.symm
    | cons line tail =>
      obtain ⟨rfl, rfl⟩ := List.cons.inj htail
      obtain ⟨bytes, rest, hbytes, rfl⟩ := h before tail number hlines
      exact ⟨bytes, rest ++ more, hbytes, rfl⟩

lemma BuffersFollow.flatMap {α : Type} {items : List α} {lines : α → List Line}
    (h : ∀ item ∈ items, BuffersFollow pool (lines item)) :
    BuffersFollow pool (items.flatMap lines) := by
  induction items with
  | nil =>
    intro before after number heq
    simp at heq
  | cons item rest ih =>
    rw [List.flatMap_cons]
    exact (h item (by simp)).append (ih fun other ho => h other (by simp [ho]))

lemma BuffersFollow.of_not_mem {lines : List Line}
    (h : ∀ number, .label (.buffer number) ∉ lines) : BuffersFollow pool lines := by
  intro before after number heq
  exact absurd (by simp [heq]) (h number)

lemma SlotCode.lines_follow {code : SlotCode}
    (h : ∀ number bytes, code = .buffer number bytes → pool.buffers[number]? = some bytes) :
    BuffersFollow pool code.lines := by
  cases code with
  | reference number rows => exact .of_not_mem (by simp [lines])
  | buffer number bytes =>
    intro before after other heq
    rw [lines] at heq
    cases before with
    | nil =>
      obtain ⟨hlabel, rfl⟩ := List.cons.inj heq
      obtain rfl : number = other := by simpa using hlabel
      exact ⟨bytes, [], h number bytes rfl, rfl⟩
    | cons line before =>
      have htail := (List.cons.inj heq).2
      have hmem : Line.label (.buffer other) ∈
          [Line.bytes (bytes.map fun b => (b.toNat : Int))] := by
        rw [htail]
        simp
      simp at hmem

lemma SlotCode.count_lines (code : SlotCode) (number : Nat) :
    code.lines.count (.label (.buffer number)) = if code.defines number then 1 else 0 := by
  cases code with
  | buffer other bytes =>
    by_cases h : other = number
    · simp [lines, defines, h]
    · simp [lines, defines, h]
  | reference other rows => simp [lines, defines]

lemma count_slotLines (codes : List SlotCode) (number : Nat) :
    (codes.flatMap SlotCode.lines).count (.label (.buffer number)) =
      codes.countP (SlotCode.defines number) := by
  induction codes with
  | nil => rfl
  | cons code rest ih =>
    rw [List.flatMap_cons, List.count_append, ih, code.count_lines, List.countP_cons]
    omega

lemma ChannelCode.count_lines (code : ChannelCode) (song channel number : Nat) :
    (code.lines song channel).count (.label (.buffer number)) =
      code.slots.countP (SlotCode.defines number) := by
  have hspeed : (code.speed.toList.map fun speed =>
      Line.bytes [Command.speedCode.toNat, speed]).count (.label (.buffer number)) = 0 := by
    cases code.speed <;> simp
  simp only [lines, slots, List.count_append, List.countP_append, count_slotLines, hspeed]
  simp

lemma count_channelLines (channels : List ChannelCode) (song first number : Nat) :
    ((channels.zipIdx first).map fun (channel, index) => channel.lines song index).flatten.count
      (.label (.buffer number)) =
      (channels.flatMap ChannelCode.slots).countP (SlotCode.defines number) := by
  induction channels generalizing first with
  | nil => rfl
  | cons channel rest ih =>
    rw [List.zipIdx_cons, List.map_cons, List.flatten_cons, List.count_append, ih,
      channel.count_lines, List.flatMap_cons, List.countP_append]

/-- The slots of all songs, in the order in which they are written. -/
def allSlots (codes : List SongCode) : List SlotCode :=
  codes.flatMap fun code => code.channels.flatMap ChannelCode.slots

lemma count_songLines (codes : List SongCode) (number : Nat) :
    (songLines codes).count (.label (.buffer number)) =
      (allSlots codes).countP (SlotCode.defines number) := by
  unfold songLines
  generalize (0 : Nat) = first
  induction codes generalizing first with
  | nil => rfl
  | cons code rest ih =>
    have hcode : (code.lines first).count (.label (.buffer number)) = _ :=
      count_channelLines code.channels first 0 number
    have hall : allSlots (code :: rest) =
      code.channels.flatMap ChannelCode.slots ++ allSlots rest := List.flatMap_cons
    rw [List.zipIdx_cons, List.flatMap_cons, List.count_append, ih, hall, List.countP_append,
      ← hcode]

lemma ChannelCode.lines_follow {code : ChannelCode} (song channel : Nat)
    (h : ∀ number bytes, .buffer number bytes ∈ code.slots →
      pool.buffers[number]? = some bytes) : BuffersFollow pool (code.lines song channel) := by
  have hslots : ∀ slots : List SlotCode, (∀ slot ∈ slots, slot ∈ code.slots) →
      BuffersFollow pool (slots.flatMap SlotCode.lines) := by
    intro slots hs
    refine .flatMap fun slot hm => SlotCode.lines_follow ?_
    rintro number bytes rfl
    exact h number bytes (hs _ hm)
  rw [lines]
  refine .append (.append (.append (.append (.append ?_ ?_) ?_) ?_) ?_) ?_
  · exact .of_not_mem (by simp)
  · exact .of_not_mem (by simp)
  · exact hslots _ fun slot hm => List.mem_append_left _ hm
  · exact .of_not_mem (by simp)
  · exact hslots _ fun slot hm => List.mem_append_right _ hm
  · exact .of_not_mem (by simp)

lemma songLines_follow {codes : List SongCode}
    (h : ∀ number bytes, .buffer number bytes ∈ allSlots codes →
      pool.buffers[number]? = some bytes) : BuffersFollow pool (songLines codes) := by
  refine .flatMap ?_
  rintro ⟨code, song⟩ hcode
  show BuffersFollow pool (code.lines song)
  rw [SongCode.lines, ← List.flatMap_def]
  refine .flatMap ?_
  rintro ⟨channel, index⟩ hchannel
  refine ChannelCode.lines_follow song index fun number bytes hm => h number bytes ?_
  refine List.mem_flatMap.mpr ⟨code, (List.mem_zipIdx hcode).2.2 ▸ List.getElem_mem _, ?_⟩
  exact List.mem_flatMap.mpr
    ⟨channel, (List.mem_zipIdx hchannel).2.2 ▸ List.getElem_mem _, hm⟩

end Lines

/-- The bytes of a slot, with the buffer put in the place of a reference to it. -/
def SlotCode.expand (pool : PatternPool) : SlotCode → Bytes
  | buffer _ bytes => bytes
  | reference number _ => pool.buffers.getD number []

/-- The code of a channel with sharing says all that its stream says without. -/
structure ChannelCode.Transparent (kernel : Kernel) (patternLength : Nat) (pool : PatternPool)
    (code : ChannelCode) (stream : ChannelStream) : Prop where
  carries : code.Carries pool stream
  expand : code.slots.flatMap (SlotCode.expand pool) = stream.slots.flatMap commandBytes
  /-- The count of a reference is the number of row commands that can be read off the buffer. -/
  count : ∀ number rows, .reference number rows ∈ code.slots → ∃ bytes commands,
    pool.buffers[number]? = some bytes ∧ Command.readAll? kernel bytes = some commands ∧
    rows = rowCommands commands ∧
    (patternLength ≤ 255 → (Bytes.low rows).toNat = rowCommands commands)

lemma SlotCode.Represents.expand {pool : PatternPool} {code : SlotCode} {block : List Command}
    (h : code.Represents pool block) : code.expand pool = commandBytes block := by
  cases code with
  | buffer number bytes => exact h.2
  | reference number rows =>
    obtain ⟨hbuffer, -⟩ := h
    simp [SlotCode.expand, Array.getD_eq_getD_getElem?, hbuffer]

lemma expand_coded {pool : PatternPool} {codes : List SlotCode} {blocks : List (List Command)}
    (h : List.Forall₂ (SlotCode.Represents pool) codes (coded blocks)) :
    codes.flatMap (SlotCode.expand pool) = blocks.flatMap commandBytes := by
  induction blocks generalizing codes with
  | nil =>
    obtain rfl := List.forall₂_nil_right_iff.mp h
    rfl
  | cons block blocks ih =>
    by_cases hempty : commandBytes block = []
    · rw [coded, List.filter_cons_of_neg (by simpa using hempty)] at h
      rw [ih h, List.flatMap_cons, hempty, List.nil_append]
    · rw [coded, List.filter_cons_of_pos (by simpa using hempty)] at h
      obtain ⟨code, rest, hcode, hrest, rfl⟩ := List.forall₂_cons_right_iff.mp h
      rw [List.flatMap_cons, List.flatMap_cons, hcode.expand, ih hrest]

/-- What comes out of encoding songs in turn from an empty pool. -/
structure Sharing (jobs : List SongJob) (codes : List SongCode) : Prop where
  /-- No song takes anything out of the pool that it was given. -/
  grows : List.IsChain (fun given returned => returned.Extends given)
    ({} :: codes.map SongCode.pool)
  distinct : (finalPool {} codes).Distinct
  /-- Every buffer of the pool has its label once, and there are no other labels of buffers. -/
  once : ∀ number, (songLines codes).count (.label (.buffer number)) =
    if number < (finalPool {} codes).size then 1 else 0
  follow : BuffersFollow (finalPool {} codes) (songLines codes)
  transparent : List.Forall₂ (fun job code =>
    code.channels.length = job.song.channels.length ∧
    ∀ (number : Nat) (channel : ChannelCode), code.channels[number]? = some channel →
      ∃ stream, job.song.stream job.encoding job.speedChannel job.factor number = .ok stream ∧
        channel.Transparent job.encoding.kernel job.song.patternLength (finalPool {} codes) stream)
    jobs codes

section InTurn

variable {pool : PatternPool} {jobs : List SongJob} {codes : List SongCode}

lemma encodeInTurn_cons {job : SongJob} {rest : List SongJob}
    (h : encodeInTurn pool (job :: rest) = .ok codes) : ∃ code later,
      job.song.encode job.encoding job.speedChannel job.factor pool = .ok code ∧
      encodeInTurn code.pool rest = .ok later ∧ codes = code :: later := by
  obtain ⟨code, hcode, h⟩ := (bind_eq_ok_iff _ _ _).mp h
  obtain ⟨later, hlater, h⟩ := (bind_eq_ok_iff _ _ _).mp h
  exact ⟨code, later, hcode, hlater, (Except.ok.inj h).symm⟩

/-- What all songs together store. -/
lemma encodeInTurn_stored (h : encodeInTurn pool jobs = .ok codes) :
    (∃ blocks, Stored pool blocks (allSlots codes) (finalPool pool codes)) ∧
      List.IsChain (fun given returned => returned.Extends given)
        (pool :: codes.map SongCode.pool) := by
  induction jobs generalizing pool codes with
  | nil =>
    obtain rfl := Except.ok.inj h
    exact ⟨⟨[], .nil pool⟩, .singleton pool⟩
  | cons job rest ih =>
    obtain ⟨code, later, hcode, hlater, rfl⟩ := encodeInTurn_cons h
    obtain ⟨blocks, hblocks⟩ := (encode_stores hcode).stored
    obtain ⟨⟨more, hmore⟩, hchain⟩ := ih hlater
    exact ⟨⟨blocks ++ more, hblocks.append hmore⟩, .cons_cons hblocks.extends_pool hchain⟩

lemma finalPool_extends (h : encodeInTurn pool jobs = .ok codes) :
    (finalPool pool codes).Extends pool := by
  obtain ⟨⟨blocks, hblocks⟩, -⟩ := encodeInTurn_stored h
  exact hblocks.extends_pool

/-- Each code of a channel stands for a slot of its stream. -/
lemma ChannelCode.Carries.exists_block {code : ChannelCode} {stream : ChannelStream}
    (h : code.Carries pool stream) {slot : SlotCode} (hs : slot ∈ code.slots) :
    ∃ block ∈ stream.slots, slot.Represents pool block := by
  rcases List.mem_append.mp hs with hs | hs
  · obtain ⟨block, hb, hr⟩ := exists_right_of_mem h.intro hs
    exact ⟨block, List.mem_append_left _ (List.mem_of_mem_filter hb), hr⟩
  · obtain ⟨block, hb, hr⟩ := exists_right_of_mem h.body hs
    exact ⟨block, List.mem_append_right _ (List.mem_of_mem_filter hb), hr⟩

lemma transparent_of_carries {song : Song} {encoding : Encoding} {speedChannel factor : Int}
    {number : Nat} {channel : Channel} (h : ∀ note ∈ song.notes, note.InRange)
    (hc : song.channels[number]? = some channel) {stream : ChannelStream}
    (hs : song.stream encoding speedChannel factor number = .ok stream) {code : ChannelCode}
    (hcode : code.Carries pool stream) :
    code.Transparent encoding.kernel song.patternLength pool stream where
  carries := hcode
  expand := by
    rw [ChannelCode.slots, ChannelStream.slots, List.flatMap_append, List.flatMap_append,
      expand_coded hcode.intro, expand_coded hcode.body]
  count := by
    intro buffer rows hm
    obtain ⟨-, -, hblocks⟩ := stream_renders h hc hs
    obtain ⟨block, hb, hbuffer, rfl⟩ := hcode.exists_block hm
    obtain ⟨hreadable, hrows⟩ := hblocks block hb
    refine ⟨_, block, hbuffer, Command.readAll?_commandBytes hreadable.writable, rfl, ?_⟩
    intro hshort
    have hlow : ((rowCommands block : Int) % 256).toNat = rowCommands block := by omega
    rw [Bytes.low, hlow]
    exact UInt8.toNat_ofNat_of_lt' (show rowCommands block < 256 by omega)

/-- Every channel of every song carries its stream under the pool after the last song. -/
lemma encodeInTurn_carries (h : encodeInTurn pool jobs = .ok codes) :
    List.Forall₂ (fun job code => code.channels.length = job.song.channels.length ∧
      ∀ (number : Nat) (channel : ChannelCode), code.channels[number]? = some channel →
        channel.speed = (if (number : Int) = job.speedChannel then some job.song.speed else none) ∧
        ∃ stream, job.song.stream job.encoding job.speedChannel job.factor number = .ok stream ∧
          channel.Carries (finalPool pool codes) stream) jobs codes := by
  induction jobs generalizing pool codes with
  | nil =>
    obtain rfl := Except.ok.inj h
    exact .nil
  | cons job rest ih =>
    obtain ⟨code, later, hcode, hlater, rfl⟩ := encodeInTurn_cons h
    refine .cons ⟨(encode_stores hcode).length, ?_⟩ (ih hlater)
    intro number channel hchannel
    obtain ⟨hspeed, stream, hstream, hcarries⟩ :=
      (encode_stores hcode).channel number channel hchannel
    exact ⟨hspeed, stream, hstream, hcarries.mono (finalPool_extends hlater)⟩

lemma encodeInTurn_transparent (hn : ∀ job ∈ jobs, ∀ note ∈ job.song.notes, note.InRange)
    (h : encodeInTurn pool jobs = .ok codes) : List.Forall₂ (fun job code =>
      code.channels.length = job.song.channels.length ∧
      ∀ (number : Nat) (channel : ChannelCode), code.channels[number]? = some channel →
        ∃ stream, job.song.stream job.encoding job.speedChannel job.factor number = .ok stream ∧
          channel.Transparent job.encoding.kernel job.song.patternLength (finalPool pool codes)
            stream) jobs codes := by
  refine ((List.forall₂_and_left jobs codes).mpr ⟨hn, encodeInTurn_carries h⟩).imp ?_
  rintro job code ⟨hnotes, hlength, hchannels⟩
  refine ⟨hlength, fun number channel hchannel => ?_⟩
  obtain ⟨-, stream, hstream, hcarries⟩ := hchannels number channel hchannel
  obtain ⟨hlt, -⟩ := List.getElem?_eq_some_iff.mp hchannel
  have hget := List.getElem?_eq_getElem (hlength ▸ hlt)
  exact ⟨stream, hstream, transparent_of_carries hnotes hget hstream hcarries⟩

lemma count_bufferLabel (h : encodeInTurn {} jobs = .ok codes) (number : Nat) :
    (songLines codes).count (.label (.buffer number)) =
      if number < (finalPool {} codes).size then 1 else 0 := by
  obtain ⟨⟨blocks, hblocks⟩, -⟩ := encodeInTurn_stored h
  have hempty : PatternPool.size {} = 0 := rfl
  rw [count_songLines, hblocks.countP_defines, hempty]
  simp

lemma encodeInTurn_follow (h : encodeInTurn pool jobs = .ok codes) :
    BuffersFollow (finalPool pool codes) (songLines codes) := by
  obtain ⟨⟨blocks, hblocks⟩, -⟩ := encodeInTurn_stored h
  refine songLines_follow fun number bytes hm => ?_
  obtain ⟨block, -, hr⟩ := exists_right_of_mem hblocks.represents hm
  exact hr.1

lemma mem_bufferLabel (h : encodeInTurn {} jobs = .ok codes) {number : Nat} {bytes : Bytes}
    (hb : (finalPool {} codes).buffers[number]? = some bytes) :
    .label (.buffer number) ∈ songLines codes := by
  have hlt : number < (finalPool {} codes).size := (Array.getElem?_eq_some_iff.mp hb).1
  rw [← List.count_pos_iff, count_bufferLabel h, if_pos hlt]
  exact Nat.one_pos

/-- A buffer that a channel refers to is written out somewhere. -/
lemma mem_referredLabel (h : encodeInTurn {} jobs = .ok codes) {song place : Nat}
    {code : SongCode} {channel : ChannelCode} (hcode : codes[song]? = some code)
    (hchannel : code.channels[place]? = some channel) {number rows : Nat}
    (hslot : .reference number rows ∈ channel.slots) :
    .label (.buffer number) ∈ songLines codes := by
  have hall : .reference number rows ∈ allSlots codes :=
    List.mem_flatMap.mpr ⟨code, List.mem_of_getElem? hcode,
      List.mem_flatMap.mpr ⟨channel, List.mem_of_getElem? hchannel, hslot⟩⟩
  obtain ⟨⟨blocks, hstored⟩, -⟩ := encodeInTurn_stored h
  obtain ⟨block, -, hbuffer, -⟩ := exists_right_of_mem hstored.represents hall
  exact mem_bufferLabel h hbuffer

lemma buffer_ne_nil (h : encodeInTurn {} jobs = .ok codes) {number : Nat} {bytes : Bytes}
    (hb : (finalPool {} codes).buffers[number]? = some bytes) : bytes ≠ [] := by
  obtain ⟨⟨blocks, hblocks⟩, -⟩ := encodeInTurn_stored h
  have hmem := mem_bufferLabel h hb
  rw [← List.count_pos_iff, count_songLines, List.countP_pos_iff] at hmem
  obtain ⟨slot, hslot, hdefines⟩ := hmem
  obtain ⟨block, hblock, hr⟩ := exists_right_of_mem hblocks.represents hslot
  cases slot with
  | reference other rows => exact nomatch hdefines
  | buffer other written =>
    obtain rfl : other = number := by simpa [SlotCode.defines] using hdefines
    obtain ⟨hwritten, rfl⟩ := hr
    obtain rfl := Option.some.inj (hwritten.symm.trans hb)
    simpa using (List.mem_filter.mp hblock).2

end InTurn

/-- Sharing buffers over a whole export is transparent. -/
theorem encodeInTurn_sharing {jobs : List SongJob} {codes : List SongCode}
    (hn : ∀ job ∈ jobs, ∀ note ∈ job.song.notes, note.InRange)
    (h : encodeInTurn {} jobs = .ok codes) : Sharing jobs codes where
  grows := (encodeInTurn_stored h).2
  distinct := by
    obtain ⟨⟨blocks, hblocks⟩, -⟩ := encodeInTurn_stored h
    refine hblocks.distinct ?_
    intro first second buffer hf
    simp at hf
  once := count_bufferLabel h
  follow := encodeInTurn_follow h
  transparent := encodeInTurn_transparent hn h

/-- One pattern in three slots, of which only the first has to name its instrument. -/
def risingSong : Song where
  id := 0
  name := "rising"
  patternLength := 6
  length := 3
  patterns := [[30, 32, 34, 35, 37, 39].map fun value => { value, instrument := some 0 }]
  channels := [⟨.square1, [some 0, some 0, some 0]⟩]

/-- The same song twice. -/
def risingJobs : List SongJob :=
  let encoding : Encoding := { kernel := .extended, index := fun id => [0].idxOf? id }
  [⟨risingSong, encoding, 0, 1⟩, ⟨risingSong, encoding, 0, 1⟩]

def risingCodes : List SongCode :=
  let named : Bytes := [0x80, 21, 23, 25, 26, 28, 30]
  let pool : PatternPool := ⟨#[named, named.tail]⟩
  [⟨[⟨some 6, [], [.buffer 0 named, .buffer 1 named.tail, .reference 1 6]⟩], pool⟩,
    ⟨[⟨some 6, [], [.reference 0 6, .reference 1 6, .reference 1 6]⟩], pool⟩]

theorem risingJobs_sharing : (∀ job ∈ risingJobs, ∀ note ∈ job.song.notes, note.InRange) ∧
    encodeInTurn {} risingJobs = .ok risingCodes ∧ Sharing risingJobs risingCodes :=
  have hnotes : ∀ job ∈ risingJobs, ∀ note ∈ job.song.notes, note.InRange := by decide
  have hcodes : encodeInTurn {} risingJobs = .ok risingCodes := by decide +kernel
  ⟨hnotes, hcodes, encodeInTurn_sharing hnotes hcodes⟩

end Chiptune
