import Chiptune.Proofs.DocumentLines
import Chiptune.Proofs.Encodable
import Chiptune.Proofs.HeardRows
import Chiptune.Proofs.SoundDriver
import Chiptune.Proofs.SplitMusic

/-!
# Channels in step

All channels of an encoded song spend the same rows before their loop labels, and the same rows from
there to their loop commands. The rows are counted line by line in what is written out, and a
reference counts for all rows of the buffer that it names.
-/

namespace Chiptune

open Assembly

/-- The rows that the driver spends on a whole buffer. -/
def bufferRows? (kernel : Kernel) (bytes : Bytes) : Option Nat :=
  (Command.readAll? kernel bytes).map fun commands => eventRows (commandEvents kernel commands)

/-- The rows of a line. A reference has two lines: the one with its count has no rows of its own,
and the one with its label has those of the buffer. -/
def lineRows? (kernel : Kernel) (pool : PatternPool) : Line → Option Nat
  | .blank | .label _ => some 0
  | .bytes values _ =>
    if values.head? = some (Command.referenceCode.toNat : Int) then some 0
    else bufferRows? kernel (values.map Bytes.low)
  | .words [.label (.buffer number)] => pool.buffers[number]?.bind (bufferRows? kernel)
  | _ => none

def linesRows? (kernel : Kernel) (pool : PatternPool) : List Line → Option Nat
  | [] => some 0
  | line :: rest => (lineRows? kernel pool line).bind fun rows =>
    (linesRows? kernel pool rest).map (rows + ·)

/-- The lines from the first occurrence of one line up to another one. -/
def stretch (first last : Line) (lines : List Line) : List Line :=
  (lines.dropWhile (· ≠ first)).takeWhile (· ≠ last)

section Lines

variable {kernel : Kernel} {pool : PatternPool}

lemma linesRows?_append {lines more : List Line} {m n : Nat}
    (h : linesRows? kernel pool lines = some m) (h' : linesRows? kernel pool more = some n) :
    linesRows? kernel pool (lines ++ more) = some (m + n) := by
  induction lines generalizing m with
  | nil =>
    obtain rfl := Option.some.inj h
    rw [List.nil_append, h', Nat.zero_add]
  | cons line rest ih =>
    obtain ⟨rows, hrows, h⟩ := Option.bind_eq_some_iff.mp h
    obtain ⟨later, hlater, rfl⟩ := Option.map_eq_some_iff.mp h
    rw [List.cons_append, linesRows?, hrows, Option.bind_some, ih hlater, Option.map_some,
      Nat.add_assoc]

lemma linesRows?_singleton {line : Line} {n : Nat} (h : lineRows? kernel pool line = some n) :
    linesRows? kernel pool [line] = some n := by
  rw [linesRows?, h]
  rfl

lemma bufferRows?_commandBytes {block : List Command} (h : Readable kernel block) :
    bufferRows? kernel (commandBytes block) = some (eventRows (commandEvents kernel block)) := by
  rw [bufferRows?, Command.readAll?_commandBytes h.writable, Option.map_some]

lemma head_commandBytes {block : List Command} (h : Readable kernel block) :
    ∀ b ∈ (commandBytes block).head?, b ≠ Command.loopCode ∧ b ≠ Command.referenceCode := by
  intro b hb
  cases block with
  | nil => exact nomatch hb
  | cons command rest =>
    have hread := Command.read?_bytes (h.writable command (by simp)) (commandBytes rest)
    have hbytes : commandBytes (command :: rest) = command.bytes ++ commandBytes rest := rfl
    rw [← hbytes] at hread
    rw [← not_or]
    intro hcode
    obtain ⟨tail, htail⟩ := List.head?_eq_some_iff.mp hb
    rw [htail, read?_none hcode] at hread
    exact nomatch hread

lemma toNat_eq_iff (b code : UInt8) : ((b.toNat : Int) = code.toNat) ↔ b = code := by
  rw [Int.natCast_inj, UInt8.toNat_inj]

/-- The code of a slot has the rows of its commands, whether it is written out or referred to. -/
lemma linesRows?_slot {slot : SlotCode} {block : List Command} (h : slot.Represents pool block)
    (hr : Readable kernel block) :
    linesRows? kernel pool slot.lines = some (eventRows (commandEvents kernel block)) ∧
      .bytes [Command.loopCode.toNat] ∉ slot.lines := by
  cases slot with
  | buffer number bytes =>
    obtain ⟨-, rfl⟩ := h
    have hhead := head_commandBytes hr
    have hline : lineRows? kernel pool
        (.bytes ((commandBytes block).map fun b => (b.toNat : Int))) =
        some (eventRows (commandEvents kernel block)) := by
      rw [lineRows?, if_neg, map_low_toNat, bufferRows?_commandBytes hr]
      rw [List.head?_map, Option.map_eq_some_iff]
      rintro ⟨b, hb, hcode⟩
      exact (hhead b hb).2 ((toNat_eq_iff b _).mp hcode)
    refine ⟨?_, ?_⟩
    · have hlabel : linesRows? kernel pool [.label (.buffer number)] = some 0 := rfl
      rw [← Nat.zero_add (eventRows _)]
      exact linesRows?_append hlabel (linesRows?_singleton hline)
    · intro hm
      have hvalues : [(Command.loopCode.toNat : Int)] =
          (commandBytes block).map fun b => (b.toNat : Int) := by
        simpa [SlotCode.lines] using hm
      obtain ⟨b, hb, hcode⟩ : ∃ b ∈ (commandBytes block).head?,
          (b.toNat : Int) = Command.loopCode.toNat := by
        have hfirst := congrArg List.head? hvalues
        rw [List.head?_map] at hfirst
        exact Option.map_eq_some_iff.mp hfirst.symm
      exact (hhead b hb).1 ((toNat_eq_iff b _).mp hcode)
  | reference number rows =>
    obtain ⟨hbuffer, rfl⟩ := h
    refine ⟨?_, ?_⟩
    · have hcount : linesRows? kernel pool
          [.bytes [Command.referenceCode.toNat, rowCommands block]] = some 0 := rfl
      have hlabel : lineRows? kernel pool (.words [.label (.buffer number)]) =
          some (eventRows (commandEvents kernel block)) := by
        rw [lineRows?, hbuffer, Option.bind_some, bufferRows?_commandBytes hr]
      rw [← Nat.zero_add (eventRows _)]
      exact linesRows?_append hcount (linesRows?_singleton hlabel)
    · simp [SlotCode.lines]

lemma linesRows?_slots {codes : List SlotCode} {blocks : List (List Command)}
    (h : List.Forall₂ (SlotCode.Represents pool) codes blocks)
    (hr : ∀ block ∈ blocks, Readable kernel block) :
    linesRows? kernel pool (codes.flatMap SlotCode.lines) =
        some (eventRows (blocks.flatMap (commandEvents kernel))) ∧
      .bytes [Command.loopCode.toNat] ∉ codes.flatMap SlotCode.lines := by
  induction h with
  | nil => exact ⟨rfl, List.not_mem_nil⟩
  | @cons slot block codes blocks hslot _ ih =>
    obtain ⟨hfirst, hloop⟩ := linesRows?_slot hslot (hr block (by simp))
    obtain ⟨hrest, hloops⟩ := ih fun other ho => hr other (by simp [ho])
    rw [List.flatMap_cons, List.flatMap_cons, eventRows_append]
    refine ⟨linesRows?_append hfirst hrest, ?_⟩
    intro hm
    rcases List.mem_append.mp hm with hm | hm
    · exact hloop hm
    · exact hloops hm

lemma linesRows?_speed (speed : Option Int) : linesRows? kernel pool
    (speed.toList.map fun frames => Line.bytes [Command.speedCode.toNat, frames]) = some 0 := by
  cases speed with
  | none => rfl
  | some frames =>
    apply linesRows?_singleton
    have hbytes : [(Command.speedCode.toNat : Int), frames].map Bytes.low =
        commandBytes [.speed (Bytes.low frames)] := rfl
    have hread : Command.readAll? kernel (commandBytes [.speed (Bytes.low frames)]) =
        some [.speed (Bytes.low frames)] := by
      apply Command.readAll?_commandBytes
      intro command hc
      obtain rfl := List.mem_singleton.mp hc
      exact trivial
    have hother : ¬ [(Command.speedCode.toNat : Int), frames].head? =
        some (Command.referenceCode.toNat : Int) := by
      simp [Command.speedCode, Command.referenceCode]
    rw [lineRows?, if_neg hother, hbytes, bufferRows?, hread]
    rfl

end Lines

section Stretches

variable {first last : Line} {before middle after : List Line}

lemma stretch_eq (hb : first ∉ before) (hm : last ∉ first :: middle) :
    stretch first last (before ++ first :: (middle ++ last :: after)) = first :: middle := by
  have hdrop : (before ++ first :: (middle ++ last :: after)).dropWhile (· ≠ first) =
      first :: (middle ++ last :: after) := by
    rw [List.dropWhile_append_of_pos]
    · exact List.dropWhile_cons_of_neg (by simp)
    · intro line hl
      rw [decide_eq_true_eq]
      rintro rfl
      exact hb hl
  have htake : ∀ line ∈ first :: middle, decide (line ≠ last) = true := by
    intro line hl
    rw [decide_eq_true_eq]
    rintro rfl
    exact hm hl
  unfold stretch
  rw [hdrop, ← List.cons_append, List.takeWhile_append_of_pos htake,
    List.takeWhile_cons_of_neg (by simp), List.append_nil]

variable {code : SongCode} {channel : ChannelCode} {number : Nat}

/-- The channels before a channel do not define its labels. -/
lemma songLines_split (h : code.channels[number]? = some channel) (song : Nat) :
    ∃ before after, code.lines song = before ++ (channel.lines song number ++ after) ∧
      .label (.channel song number) ∉ before ∧ .label (.channelLoop song number) ∉ before := by
  have hlines : code.lines song =
      code.channels.zipIdx.flatMap fun entry => entry.1.lines song entry.2 := by
    rw [SongCode.lines, ← List.flatMap_def]
  obtain ⟨after, hsplit⟩ := Export.flatMap_zipIdx_split
    (fun entry : ChannelCode × Nat => entry.1.lines song entry.2) h
  refine ⟨_, after, hlines.trans hsplit, ?_⟩
  have hnone : ∀ l : Label, l = .channel song number ∨ l = .channelLoop song number →
      .label l ∉ (code.channels.take number).zipIdx.flatMap fun entry =>
        entry.1.lines song entry.2 := by
    intro l hl hm
    obtain ⟨entry, he, hm⟩ := List.mem_flatMap.mp hm
    have hlt := List.snd_lt_of_mem_zipIdx he
    have hcount := List.count_pos_iff.mpr hm
    rw [Export.count_channelLines_label (by rintro n rfl; simp at hl), List.count_pos_iff] at hcount
    rw [List.length_take] at hlt
    rcases hl with rfl | rfl
    · have hnumber : number = entry.2 := by simpa using hcount
      omega
    · have hnumber : number = entry.2 := by simpa using hcount
      omega
  exact ⟨hnone _ (.inl rfl), hnone _ (.inr rfl)⟩

/-- What stands between the labels of a channel and its loop command. -/
lemma stretch_channel (h : code.channels[number]? = some channel) (song : Nat)
    (hbody : .bytes [Command.loopCode.toNat] ∉ channel.body.flatMap SlotCode.lines) :
    stretch (.label (.channel song number)) (.label (.channelLoop song number))
        (code.lines song) = .label (.channel song number) ::
          ((channel.speed.toList.map fun speed => .bytes [Command.speedCode.toNat, speed]) ++
            channel.intro.flatMap SlotCode.lines) ∧
      stretch (.label (.channelLoop song number)) (.bytes [Command.loopCode.toNat])
        (code.lines song) =
          .label (.channelLoop song number) :: channel.body.flatMap SlotCode.lines := by
  obtain ⟨before, after, hlines, hstart, hloop⟩ := songLines_split h song
  let speed : List Line :=
    channel.speed.toList.map fun speed => .bytes [Command.speedCode.toNat, speed]
  have hintro : .label (.channelLoop song number) ∉
      speed ++ channel.intro.flatMap SlotCode.lines := by
    intro hm
    rcases List.mem_append.mp hm with hm | hm
    · obtain ⟨frames, -, hm⟩ := List.mem_map.mp hm
      exact nomatch hm
    · exact Export.not_mem_slotLines (by simp) _ hm
  constructor
  · have hall : code.lines song = (before ++ [Line.blank]) ++ Line.label (.channel song number) ::
        ((speed ++ channel.intro.flatMap SlotCode.lines) ++ Line.label (.channelLoop song number) ::
          (channel.body.flatMap SlotCode.lines ++ ([Line.bytes [Command.loopCode.toNat],
            .words [.label (.channelLoop song number)]] ++ after))) := by
      simp [hlines, ChannelCode.lines, speed]
    rw [hall]
    exact stretch_eq (by simpa using hstart) (by simpa using hintro)
  · have hall : code.lines song = (before ++ ([Line.blank, .label (.channel song number)] ++
        (speed ++ channel.intro.flatMap SlotCode.lines))) ++ Line.label (.channelLoop song number) ::
          (channel.body.flatMap SlotCode.lines ++ .bytes [Command.loopCode.toNat] ::
            (.words [.label (.channelLoop song number)] :: after)) := by
      simp [hlines, ChannelCode.lines, speed]
    rw [hall]
    refine stretch_eq ?_ (by simpa using hbody)
    -- The loop label stands neither in an earlier channel nor in the intro.
    intro hm
    rcases List.mem_append.mp hm with hm | hm
    · exact hloop hm
    · rcases List.mem_append.mp hm with hm | hm
      · simp at hm
      · exact hintro hm

end Stretches

lemma encodeRows_short {voicing : Voicing} {rows : List Row} {active : Option InstrumentId}
    {result : List Command × Option InstrumentId} :
    encodeRows voicing true active rows ≠ .ok result := by
  -- Strong induction, since a run of empty rows is taken off at once. A pattern that is too short
  -- fails when its last row is gone.
  induction hlen : rows.length using Nat.strong_induction_on generalizing rows active result with
  | _ length ih =>
    intro hok
    cases rows with
    | nil =>
      rw [encodeRows] at hok
      cases hok
    | cons row rest =>
      rw [List.length_cons] at hlen
      rcases encodeRows_cons_ok hok with
        ⟨-, change, named, rides, code, tail, -, -, -, htail, -⟩ | ⟨-, tail, htail, -⟩
      · exact ih _ (by rw [List.length_drop]; omega) rfl htail
      · exact ih _ (by rw [List.length_drop]; omega) rfl htail

section Visits

variable {song : Song} {encoding : Encoding} {effects : List SlotEffects} {channel : Channel}
  {takesSpeed : Bool}

/-- A slot that is encoded has all rows that were asked for. -/
lemma encodeSlot_length {voicing : Voicing} {slotEffects : SlotEffects} {slot : Option Nat}
    {count : Nat} {active : Option InstrumentId} {result : List Command × Option InstrumentId}
    (h : song.encodeSlot voicing slotEffects takesSpeed active slot count = .ok result) :
    (song.rows voicing.kernel slotEffects takesSpeed slot count).length = count := by
  apply Nat.le_antisymm (Song.rows_length_le takesSpeed slot _ _)
  by_contra hshort
  unfold Song.encodeSlot at h
  dsimp only at h
  rw [decide_eq_true (Nat.lt_of_not_le hshort)] at h
  exact encodeRows_short h

lemma passage_length {visits : List Visit} {active after : Option InstrumentId}
    {blocks : List (List Command)}
    (h : song.visitCommands encoding effects channel takesSpeed active visits =
      .ok (blocks, after)) :
    (song.passage encoding.kernel effects takesSpeed channel visits).length =
      total Visit.rows visits := by
  induction visits generalizing active blocks with
  | nil => rfl
  | cons visit rest ih =>
    rw [Song.visitCommands] at h
    cases hslot : channel.slots[visit.slot]? with
    | none => simp [hslot] at h
    | some slot =>
      simp only [hslot] at h
      obtain ⟨⟨commands, named⟩, hcommands, h⟩ := (bind_eq_ok_iff _ _ _).mp h
      obtain ⟨⟨later, last⟩, hlater, h⟩ := (bind_eq_ok_iff _ _ _).mp h
      obtain ⟨-, rfl⟩ := Prod.mk.injEq .. ▸ Except.ok.inj h
      have hget : channel.slots.getD visit.slot none = slot := by simp [List.getD, hslot]
      have hrows := encodeSlot_length hcommands
      rw [Song.passage_cons, hget, List.length_append, hrows, ih hlater, total]

end Visits

section Songs

variable {song : Song} {encoding : Encoding} {pool : PatternPool} {speedChannel factor : Int}
  {code : SongCode}

/-- Every channel spends some rows between its label and its loop label, and some rows between the
loop label and the loop command. -/
def SongCode.InStep (code : SongCode) (kernel : Kernel) (song intro body : Nat) : Prop :=
  ∀ number < code.channels.length,
    linesRows? kernel code.pool (stretch (.label (.channel song number))
      (.label (.channelLoop song number)) (code.lines song)) = some intro ∧
    linesRows? kernel code.pool (stretch (.label (.channelLoop song number))
      (.bytes [Command.loopCode.toNat]) (code.lines song)) = some body

lemma encode_channelRows (h : ∀ note ∈ song.notes, note.InRange)
    (hok : song.encode encoding speedChannel factor pool = .ok code) (index : Nat) :
    code.InStep encoding.kernel index (total Visit.rows (song.parts factor).1)
      (total Visit.rows (song.parts factor).2) := by
  intro number hnumber
  have hstores := encode_stores hok
  have hcode := List.getElem?_eq_getElem hnumber
  have hc := List.getElem?_eq_getElem (hstores.length ▸ hnumber)
  obtain ⟨-, stream, hstream, hintro, hbody⟩ := hstores.channel number _ hcode
  -- The slot codes stand for the blocks of the stream, and these play the rows of the visits.
  obtain ⟨hie, hbe, hblocks⟩ := stream_renders h hc hstream
  obtain ⟨active, after, hiv, hbv⟩ := Song.stream_eq_ok hc hstream
  have hreadable := fun block hb => (hblocks block hb).1
  obtain ⟨hir, -⟩ := linesRows?_slots hintro fun block hb =>
    hreadable block (List.mem_append_left _ (List.mem_of_mem_filter hb))
  obtain ⟨hbr, hloop⟩ := linesRows?_slots hbody fun block hb =>
    hreadable block (List.mem_append_right _ (List.mem_of_mem_filter hb))
  rw [coded_events, hie, eventRows_events] at hir
  rw [coded_events, hbe, eventRows_events] at hbr
  obtain ⟨hfirst, hagain⟩ := stretch_channel hcode index hloop
  have hlabel : ∀ l, linesRows? encoding.kernel code.pool [.label l] = some 0 := fun _ => rfl
  constructor
  · have hspeed := linesRows?_append (linesRows?_speed code.channels[number].speed) hir
    have hall := linesRows?_append (hlabel (.channel index number)) hspeed
    rw [Nat.zero_add, Nat.zero_add] at hall
    rw [hfirst, ← passage_length hiv]
    exact hall
  · have hall := linesRows?_append (hlabel (.channelLoop index number)) hbr
    rw [Nat.zero_add] at hall
    rw [hagain, ← passage_length hbv]
    exact hall

/-- All channels of a song stay in step. The rows before the loop labels and those from there on are
the ones of the visited slots. -/
theorem encode_inStep (h : ∀ note ∈ song.notes, note.InRange) :
    (song.Formed → song.Voiced encoding.index → factor ≠ 0 →
      (∀ full, song.encode encoding speedChannel factor pool ≠ .error (.poolFull full)) →
      ∃ code, song.encode encoding speedChannel factor pool = .ok code) ∧
    ∀ code, song.encode encoding speedChannel factor pool = .ok code →
      code.channels.length = song.channels.length ∧
      ∀ index, code.InStep encoding.kernel index (total Visit.rows (song.parts factor).1)
        (total Visit.rows (song.parts factor).2) := by
  constructor
  · intro hf hv hfactor hfree
    exact (encode_unfailing hf h hv speedChannel hfactor pool).ok_or_full.resolve_right
      fun ⟨full, hfull⟩ => hfree full hfull
  · exact fun code hok => ⟨(encode_stores hok).length, fun index => encode_channelRows h hok index⟩

end Songs

/-- A song of pieces with a skip in the fourth one, a speed and a jump back to the second slot. -/
theorem windingPieces_inStep : (∀ note ∈ windingPieces.notes, note.InRange) ∧
    windingPieces.Formed ∧ windingPieces.Voiced soleEncoding.index ∧
    ∃ code, windingPieces.encode soleEncoding 1 2 {} = .ok code ∧ code.channels.length = 2 ∧
      code.InStep .extended 0 4 5 := by
  have hnotes : ∀ note ∈ windingPieces.notes, note.InRange := by decide
  have hformed : windingPieces.Formed := ⟨by decide, by decide⟩
  have hencoded : (windingPieces.encode soleEncoding 1 2 {}).isOk = true := by decide +kernel
  have hroom : ∀ full, windingPieces.encode soleEncoding 1 2 {} ≠ .error (.poolFull full) := by
    intro full he
    rw [he] at hencoded
    cases hencoded
  obtain ⟨hok, hrows⟩ := @encode_inStep windingPieces soleEncoding {} 1 2 hnotes
  obtain ⟨code, hcode⟩ := hok hformed (voiced_sole windingPieces) (by decide) hroom
  obtain ⟨hlength, hstep⟩ := hrows code hcode
  have hparts : total Visit.rows (windingPieces.parts 2).1 = 4 ∧
      total Visit.rows (windingPieces.parts 2).2 = 5 := by decide +kernel
  exact ⟨hnotes, hformed, voiced_sole windingPieces, code, hcode, hlength,
    hparts.1 ▸ hparts.2 ▸ hstep 0⟩

end Chiptune
