import Chiptune.Proofs.HeardRows
import Chiptune.Proofs.SplitMusic

/-!
# The score of a channel

`Song.played` lists the rows that a channel plays, slot by slot: those before the first skip or
jump of a slot, up to the slot that jumps. The score turns them into what should be heard in each of
them, and what the encoder asks of the driver is heard just so.
-/

namespace Chiptune

/-- Whether the song leaves the slot before this row. -/
def RowEffects.leaves (row : RowEffects) : Bool := row.skip.isSome || row.jump.isSome

namespace Song

variable (song : Song)

/-- The rows of a slot that are played. -/
def audible (slot : Nat) : List Nat :=
  (List.range song.patternLength).takeWhile fun row => !((song.slotEffects slot).row row).leaves

/-- Whether the song ends in a slot. -/
def jumps (slot : Nat) : Bool := (song.slotEffects slot).any fun row => row.jump.isSome

/-- The slots that are played, up to the first one with a jump. -/
def playedSlots : List Nat :=
  let slots := List.range song.length
  slots.take (slots.findIdx song.jumps + 1)

/-- The note of a channel in a row of a slot. -/
def noteAt (channel : Channel) (slot row : Nat) : Note :=
  (song.slotNotes (channel.slots.getD slot none)).getD row .empty

/-- The slots that are played again and again: those from the loop slot on, or all of them. -/
def repeatedSlots : List Nat :=
  let later := song.playedSlots.dropWhile fun (slot : Nat) => slot < song.loopSlot song.effects 1
  if later.isEmpty then song.playedSlots else later

/-- The rows of a slot that a channel plays, each with the effects of its song row. -/
def slotRows (channel : Channel) (slot : Nat) : List (Note × RowEffects) :=
  (song.audible slot).map fun row =>
    (song.noteAt channel slot row, (song.slotEffects slot).row row)

/-- The rows that a channel plays. -/
def played (channel : Channel) : List (Note × RowEffects) :=
  song.playedSlots.flatMap (song.slotRows channel)

/-- The rows that a channel plays again and again. -/
def repeated (channel : Channel) : List (Note × RowEffects) :=
  song.repeatedSlots.flatMap (song.slotRows channel)

end Song

/-- What should be heard in one row. -/
structure Sounding where
  speed : Option Int
  volume : Option Int
  instrument : Option Nat
  code : Option Int
  deriving DecidableEq, Repr

namespace Voicing

variable (voicing : Voicing) (takesSpeed : Bool)

/-- What should be heard in some rows: the speed of the channel that sets it, the volume of a kernel
that has one, the last instrument that a pitch had, and the code of a note. -/
def score : (speed : Option Int) → (active : Option InstrumentId) → List (Note × RowEffects) →
    List Sounding
  | _, _, [] => []
  | speed, active, (note, effects) :: rest =>
    let active := (if note.isMusical then note.instrument else none) <|> active
    { speed := (if takesSpeed then effects.speed else none) <|> speed
      volume := if voicing.kernel.supportsVolume then note.volume else none
      instrument := active.bind voicing.index
      code := if note.isValid then some (voicing.kernel.noteCode voicing.voice note.value 0)
        else none } :: score none active rest

end Voicing

/-- A row as the driver plays it, in numbers. -/
def Beat.sounding (beat : Beat) : Sounding where
  speed := beat.speed.map fun frames => (frames.toNat : Int)
  volume := beat.volume.map fun level => (level.toNat : Int)
  instrument := beat.instrument
  code := beat.code.map fun code => (code.toNat : Int)

section Played

lemma takeWhile_range {p : Nat → Bool} {count size : Nat} (hle : count ≤ size)
    (hbefore : ∀ i < count, p i = true) (hstop : count < size → p count = false) :
    (List.range size).takeWhile p = List.range count := by
  obtain ⟨more, rfl⟩ := Nat.exists_eq_add_of_le hle
  rw [List.range_add, List.takeWhile_append_of_pos fun i hi => hbefore i (List.mem_range.mp hi)]
  cases more with
  | zero => simp
  | succ more =>
    rw [List.range_succ_eq_map, List.map_cons, List.takeWhile_cons_of_neg, List.append_nil]
    simp [hstop (by omega)]

section Positions

variable {slot : SlotEffects} {effect : Effect}

lemma param_of_position_none (h : slot.position effect = none) (row : Nat) :
    (slot.row row).param effect = none := by
  rw [SlotEffects.row, List.getD_eq_getElem?_getD]
  cases hrow : slot[row]? with
  | none => cases effect <;> rfl
  | some effects =>
    have hnone := List.findIdx?_eq_none_iff.mp h effects (List.mem_of_getElem? hrow)
    simpa using hnone

lemma param_of_position_some {position : Nat} (h : slot.position effect = some position) :
    ((slot.row position).param effect).isSome = true ∧
      ∀ row < position, (slot.row row).param effect = none := by
  obtain ⟨hlt, hsome, hbefore⟩ := List.findIdx?_eq_some_iff_getElem.mp h
  refine ⟨by simpa [SlotEffects.row, hlt] using hsome, fun row hrow => ?_⟩
  have hin : row < slot.length := by omega
  simpa [SlotEffects.row, hin] using hbefore row hrow

/-- The rows before the first skip or jump of a slot that does not carry both. -/
lemma leaves_iff (h : slot.Unmixed) (whole : Nat) (hle : slot.length ≤ whole) :
    playedRows whole slot ≤ whole ∧
      (∀ row < playedRows whole slot, (slot.row row).leaves = false) ∧
      (playedRows whole slot < whole → (slot.row (playedRows whole slot)).leaves = true) := by
  have hplain : ∀ row, (slot.row row).param .skip = none → (slot.row row).param .jump = none →
      (slot.row row).leaves = false := by
    intro row hskip hjump
    simp only [RowEffects.param] at hskip hjump
    simp [RowEffects.leaves, hskip, hjump]
  unfold playedRows
  cases hskip : slot.position .skip with
  | some position =>
    have hjump := h.resolve_left (by simp [hskip])
    obtain ⟨hsome, hbefore⟩ := param_of_position_some hskip
    have hlt := SlotEffects.position_lt hskip
    have hplayed : ((some position <|> slot.position .jump).getD whole) = position := rfl
    rw [hplayed]
    refine ⟨by omega, fun row hrow => hplain row (hbefore row hrow) ?_, fun _ => ?_⟩
    · exact param_of_position_none hjump row
    · simp only [RowEffects.param] at hsome
      simp [RowEffects.leaves, hsome]
  | none =>
    have hnone := param_of_position_none hskip
    have hplayed : ((none <|> slot.position .jump).getD whole) =
        (slot.position .jump).getD whole := rfl
    rw [hplayed]
    cases hjump : slot.position .jump with
    | none =>
      refine ⟨le_refl _, fun row _ => hplain row (hnone row) ?_, fun hlt => ?_⟩
      · exact param_of_position_none hjump row
      · exact absurd hlt (lt_irrefl _)
    | some position =>
      obtain ⟨hsome, hbefore⟩ := param_of_position_some hjump
      have hlt := SlotEffects.position_lt hjump
      rw [Option.getD_some]
      refine ⟨by omega, fun row hrow => hplain row (hnone row) (hbefore row hrow), fun _ => ?_⟩
      simp only [RowEffects.param] at hsome
      simp [RowEffects.leaves, hsome]

end Positions

variable {song : Song}

lemma audible_eq {slot : Nat} (h : (song.slotEffects slot).Unmixed) :
    song.audible slot = List.range (playedRows song.patternLength (song.slotEffects slot)) := by
  obtain ⟨hle, hbefore, hstop⟩ := leaves_iff h song.patternLength (song.slotEffects_length slot)
  refine takeWhile_range hle (fun row hrow => ?_) fun hlt => ?_
  · rw [hbefore row hrow]
    rfl
  · rw [hstop hlt]
    rfl

lemma jumps_eq (song : Song) (slot : Nat) :
    song.jumps slot = ((song.slotEffects slot).position .jump).isSome := by
  rw [SlotEffects.position, List.findIdx?_isSome]
  rfl

/-- The visit to a slot of a song that is not split. -/
def Song.visit (song : Song) (slot : Nat) : Visit :=
  ⟨slot, playedRows song.patternLength (song.slotEffects slot)⟩

lemma visitsFrom_range (count : Nat) {start : Nat}
    (h : ∀ slot ∈ List.range' start count, (song.slotEffects slot).Unmixed) (skipping : Bool) :
    let slots := List.range' start count
    Song.visitsFrom song.patternLength 1 skipping start (slots.map song.slotEffects) =
      (slots.take (slots.findIdx song.jumps + 1)).map fun slot =>
        ⟨slot, playedRows song.patternLength (song.slotEffects slot)⟩ := by
  dsimp only
  induction count generalizing start skipping with
  | zero => rfl
  | succ count ih =>
    rw [List.range'_succ] at h ⊢
    have hunmixed := h start (by simp)
    have hrest := ih fun slot hs => h slot (List.mem_cons_of_mem _ hs)
    have hplayed : playedRows song.patternLength (song.slotEffects start) =
        ((song.slotEffects start).position .skip <|>
          (song.slotEffects start).position .jump).getD song.patternLength := rfl
    have hjumps := jumps_eq song start
    rw [List.map_cons, Song.visitsFrom, if_neg (fun hs => hs.2 (one_dvd _)), List.findIdx_cons]
    cases hskip : (song.slotEffects start).position .skip with
    | some row =>
      rw [hunmixed.jump_eq_none hskip] at hjumps
      rw [hskip] at hplayed
      simp only [hrest, hjumps, Option.isSome_none, cond_false, List.take_succ_cons,
        List.map_cons, hplayed]
      rfl
    | none =>
      rw [hskip] at hplayed
      cases hjump : (song.slotEffects start).position .jump with
      | some row =>
        rw [hjump] at hjumps hplayed
        simp only [hjumps, Option.isSome_some, cond_true, List.take_succ_cons, List.take_zero,
          List.map_cons, List.map_nil, hplayed]
        rfl
      | none =>
        rw [hjump] at hjumps hplayed
        simp only [hrest, hjumps, Option.isSome_none, cond_false, List.take_succ_cons,
          List.map_cons, hplayed]
        rfl

lemma visits_eq (h : ∀ slot ∈ song.effects, slot.Unmixed) :
    song.visits song.effects 1 = song.playedSlots.map song.visit := by
  have hunmixed : ∀ slot ∈ List.range' 0 song.length, (song.slotEffects slot).Unmixed := by
    intro slot hs
    rw [← List.range_eq_range'] at hs
    exact h _ (List.mem_map_of_mem hs)
  have hvisits := visitsFrom_range song.length hunmixed false
  rw [← List.range_eq_range'] at hvisits
  exact hvisits

/-- What a channel asks of the driver in a row that is played. -/
def playedRow (kernel : Kernel) (takesSpeed : Bool) (entry : Note × RowEffects) : Row :=
  .ofNote kernel entry.1 (if takesSpeed then entry.2.speed else none)

lemma ofNotes_eq (kernel : Kernel) (notes : List Note) (effects : SlotEffects) :
    Row.ofNotes kernel notes effects = (List.range notes.length).map fun row =>
      Row.ofNote kernel (notes.getD row .empty) (effects.row row).speed := by
  induction notes generalizing effects with
  | nil => rfl
  | cons note notes ih =>
    rw [List.length_cons, List.range_succ_eq_map, List.map_cons, List.map_map]
    cases effects with
    | nil =>
      rw [Row.ofNotes, ih]
      rfl
    | cons first effects =>
      rw [Row.ofNotes, ih]
      rfl

lemma rows_eq (kernel : Kernel) (effects : SlotEffects) (takesSpeed : Bool) {slot : Option Nat}
    {count : Nat} (h : count ≤ (song.slotNotes slot).length) :
    song.rows kernel effects takesSpeed slot count = (List.range count).map fun row =>
      playedRow kernel takesSpeed ((song.slotNotes slot).getD row .empty, effects.row row) := by
  rw [Song.rows, ofNotes_eq, List.length_take, min_eq_left h]
  refine List.map_congr_left fun row hrow => ?_
  have hlt := List.mem_range.mp hrow
  have hnote : ((song.slotNotes slot).take count).getD row .empty =
      (song.slotNotes slot).getD row .empty := by
    rw [List.getD_eq_getElem?_getD, List.getElem?_take_of_lt hlt, ← List.getD_eq_getElem?_getD]
  rw [hnote]
  cases takesSpeed with
  | false => rfl
  | true => rfl

lemma mem_of_getD_eq_some {slots : List (Option Nat)} {slot position : Nat}
    (h : slots.getD slot none = some position) : some position ∈ slots := by
  rw [List.getD_eq_getElem?_getD] at h
  cases hget : slots[slot]? with
  | none =>
    rw [hget] at h
    exact nomatch h
  | some found =>
    rw [hget] at h
    obtain rfl : found = some position := h
    exact List.mem_of_getElem? hget

lemma slotNotes_length (hf : song.Formed) {channel : Channel} (hc : channel ∈ song.channels)
    (slot : Nat) :
    song.patternLength ≤ (song.slotNotes (channel.slots.getD slot none)).length := by
  cases hslot : channel.slots.getD slot none with
  | none => simp [Song.slotNotes]
  | some position =>
    exact hf.rows position (mem_used.mpr ⟨channel, hc, mem_of_getD_eq_some hslot⟩)

/-- In the visits to some slots a channel asks for the rows of these slots. -/
lemma passage_slots (hf : song.Formed) (hu : ∀ slot ∈ song.effects, slot.Unmixed)
    {channel : Channel} (hc : channel ∈ song.channels) (kernel : Kernel) (takesSpeed : Bool)
    {slots : List Nat} (hs : ∀ slot ∈ slots, slot < song.length) :
    song.passage kernel song.effects takesSpeed channel (slots.map song.visit) =
      (slots.flatMap (song.slotRows channel)).map (playedRow kernel takesSpeed) := by
  rw [Song.passage, List.flatMap_map, List.map_flatMap]
  refine List.flatMap_congr fun slot hm => ?_
  have hlt := hs slot hm
  have heffects : song.effects.getD slot [] = song.slotEffects slot := by
    simp [Song.effects, hlt]
  have hunmixed := hu (song.slotEffects slot) (List.mem_map_of_mem (List.mem_range.mpr hlt))
  rw [Song.visit, heffects, Song.slotRows, audible_eq hunmixed, List.map_map]
  refine rows_eq kernel _ takesSpeed ?_
  exact (leaves_iff hunmixed _ (song.slotEffects_length slot)).1.trans (slotNotes_length hf hc slot)

lemma playedSlots_lt {slot : Nat} (h : slot ∈ song.playedSlots) : slot < song.length :=
  List.mem_range.mp (List.mem_of_mem_take h)

lemma repeatedSlots_lt {slot : Nat} (h : slot ∈ song.repeatedSlots) : slot < song.length := by
  unfold Song.repeatedSlots at h
  dsimp only at h
  split at h
  · exact playedSlots_lt h
  · exact playedSlots_lt (List.dropWhile_subset _ h)

/-- A channel of a song that is not split asks for the rows that it plays. -/
theorem rows_played (hf : song.Formed) (hu : ∀ slot ∈ song.effects, slot.Unmixed)
    {channel : Channel} (hc : channel ∈ song.channels) (kernel : Kernel) (takesSpeed : Bool) :
    song.introRows kernel 1 channel takesSpeed ++ song.bodyRows kernel 1 channel takesSpeed =
      (song.played channel).map (playedRow kernel takesSpeed) := by
  have hparts : song.introRows kernel 1 channel takesSpeed ++
      song.bodyRows kernel 1 channel takesSpeed =
      song.passage kernel song.effects takesSpeed channel (song.visits song.effects 1) := by
    rw [← Song.splitVisits_append (song.loopSlot song.effects 1) (song.visits song.effects 1)]
    exact List.flatMap_append.symm
  rw [hparts, visits_eq hu]
  exact passage_slots hf hu hc kernel takesSpeed fun slot hs => playedSlots_lt hs

/-- From the loop point on it asks for the rows that it plays again and again. -/
theorem rows_repeated (hf : song.Formed) (hu : ∀ slot ∈ song.effects, slot.Unmixed)
    {channel : Channel} (hc : channel ∈ song.channels) (kernel : Kernel) (takesSpeed : Bool) :
    song.bodyRows kernel 1 channel takesSpeed =
      (song.repeated channel).map (playedRow kernel takesSpeed) := by
  have hbody : (song.parts 1).2 = song.repeatedSlots.map song.visit := by
    let early : Visit → Bool := fun visit => visit.slot < song.loopSlot song.effects 1
    have hdrop : (song.playedSlots.map song.visit).dropWhile early =
        (song.playedSlots.dropWhile fun (slot : Nat) =>
          slot < song.loopSlot song.effects 1).map song.visit := List.dropWhile_map
    have hall := List.takeWhile_append_dropWhile (p := early) (l := song.playedSlots.map song.visit)
    rw [Song.parts, visits_eq hu, Song.splitVisits, List.span_eq_takeWhile_dropWhile, hdrop,
      Song.repeatedSlots]
    rw [hdrop] at hall
    generalize song.playedSlots.dropWhile _ = later at hall ⊢
    cases later with
    | nil =>
      rw [List.map_nil, List.append_nil] at hall
      exact hall
    | cons slot rest => rfl
  rw [Song.bodyRows, hbody]
  exact passage_slots hf hu hc kernel takesSpeed fun slot hs => repeatedSlots_lt hs

end Played

/-- The numbers of a row fit into the commands of the driver. -/
structure Voicing.Fits (voicing : Voicing) (entry : Note × RowEffects) : Prop where
  range : entry.1.InRange
  volume : ∀ level, entry.1.volume = some level → 0 ≤ level ∧ level ≤ 15
  speed : ∀ frames, entry.2.speed = some frames → 0 ≤ frames ∧ frames ≤ 255
  instrument : entry.1.isMusical = true → ∀ id, entry.1.instrument = some id →
    ∃ place, voicing.index id = some place ∧ place < Limits.instruments

section Scores

variable {voicing : Voicing} {takesSpeed : Bool} {entry : Note × RowEffects}

lemma toNat_low {n : Int} (h : 0 ≤ n ∧ n ≤ 255) : ((Bytes.low n).toNat : Int) = n := by
  rw [Bytes.low, UInt8.toNat_ofNat_of_lt' (show _ < 256 by omega)]
  omega

/-- The code of a note is the number that the kernel has for it. -/
lemma toNat_code (voicing : Voicing) {note : Note} (h : note.InRange)
    (hv : note.isValid = true) : ((voicing.code note.value).toNat : Int) =
      voicing.kernel.noteCode voicing.voice note.value 0 := by
  have hvalue : 0 ≤ note.value ∧ note.value ≤ 96 ∨ note.value = 247 := by
    rcases h with h | h | h
    · exact .inl h
    · exact .inr h
    · simp [Note.isValid, h] at hv
  have hbounds : 0 ≤ voicing.kernel.noteCode voicing.voice note.value 0 ∧
      voicing.kernel.noteCode voicing.voice note.value 0 < 256 := by
    cases hk : voicing.kernel with
    | legacy =>
      obtain ⟨pitch, hp, hc, -⟩ := legacyCode_eq voicing.voice note.value
      rw [Kernel.noteCode, hc]
      omega
    | extended =>
      have := extendedCode_bounds voicing.voice hvalue
      rw [Kernel.noteCode]
      omega
  rw [Voicing.code, UInt8.toNat_ofNat_of_lt' (show _ < 256 by omega)]
  omega

lemma heard_speed (h : voicing.Fits entry) (speed : Option UInt8) :
    ((playedRow voicing.kernel takesSpeed entry).speed <|> speed).map
        (fun frames => (frames.toNat : Int)) =
      ((if takesSpeed then entry.2.speed else none) <|>
        speed.map fun frames => (frames.toNat : Int)) := by
  have hrow : (playedRow voicing.kernel takesSpeed entry).speed =
      ((if takesSpeed then entry.2.speed else none).filter (0 ≤ ·)).map Bytes.low := rfl
  cases takesSpeed with
  | false => rfl
  | true =>
    cases hframes : entry.2.speed with
    | none =>
      rw [hrow, hframes]
      rfl
    | some frames =>
      have hbounds := h.speed frames hframes
      rw [hrow, hframes]
      simp [hbounds.1, toNat_low hbounds]

lemma heard_volume (takesSpeed : Bool) (h : voicing.Fits entry) :
    (playedRow voicing.kernel takesSpeed entry).volume.map (fun level => (level.toNat : Int)) =
      if voicing.kernel.supportsVolume then entry.1.volume else none := by
  have hrow : (playedRow voicing.kernel takesSpeed entry).volume =
      if voicing.kernel.supportsVolume then
        entry.1.volume.map fun level => UInt8.ofNat (level % 16).toNat else none := rfl
  rw [hrow]
  cases voicing.kernel.supportsVolume with
  | false => rfl
  | true =>
    cases hlevel : entry.1.volume with
    | none => rfl
    | some level =>
      have hbounds := h.volume level hlevel
      have hbyte : ((UInt8.ofNat (level % 16).toNat).toNat : Int) = level := by
        rw [UInt8.toNat_ofNat_of_lt' (show _ < 256 by omega)]
        omega
      rw [if_pos rfl, if_pos rfl, Option.map_some, Option.map_some, hbyte]

lemma heard_code (takesSpeed : Bool) (h : voicing.Fits entry) :
    (if (playedRow voicing.kernel takesSpeed entry).isNote then
        some (voicing.code (playedRow voicing.kernel takesSpeed entry).value) else none).map
        (fun code => (code.toNat : Int)) =
      if entry.1.isValid then
        some (voicing.kernel.noteCode voicing.voice entry.1.value 0) else none := by
  have hrow : (playedRow voicing.kernel takesSpeed entry).isNote = entry.1.isValid := rfl
  have hvalue : (playedRow voicing.kernel takesSpeed entry).value = entry.1.value := rfl
  rw [hrow, hvalue]
  by_cases hv : entry.1.isValid = true
  · rw [if_pos hv, if_pos hv, Option.map_some, toNat_code voicing h.range hv]
  · rw [if_neg hv, if_neg hv, Option.map_none]

lemma sounding_beat (h : voicing.Fits entry) (speed : Option UInt8) {heard : Option Nat}
    {active : Option InstrumentId} :
    let row := playedRow voicing.kernel takesSpeed entry
    Beat.sounding { voicing.beat heard active row with speed := row.speed <|> speed } =
      { speed := (if takesSpeed then entry.2.speed else none) <|>
          speed.map fun frames => (frames.toNat : Int)
        volume := if voicing.kernel.supportsVolume then entry.1.volume else none
        instrument := voicing.hearing heard active row
        code := if entry.1.isValid then
          some (voicing.kernel.noteCode voicing.voice entry.1.value 0) else none } := by
  rw [← heard_speed h speed, ← heard_volume takesSpeed h, ← heard_code takesSpeed h]
  rfl

/-- What is heard of the rows that a channel plays is its score. -/
theorem hear_score {entries : List (Note × RowEffects)} (h : ∀ entry ∈ entries, voicing.Fits entry)
    {active : Option InstrumentId}
    (hactive : ∀ id, active = some id → voicing.index id = some (voicing.number id))
    (speed : Option UInt8) :
    (hear { speed, instrument := active.map voicing.number } (voicing.events active
      (entries.map (playedRow voicing.kernel takesSpeed)))).map Beat.sounding =
    voicing.score takesSpeed (speed.map fun frames => (frames.toNat : Int)) active entries := by
  induction entries generalizing active speed with
  | nil => rfl
  | cons entry rest ih =>
    obtain ⟨note, effects⟩ := entry
    have hentry := h (note, effects) (by simp)
    let wanted := if note.isMusical then note.instrument else none
    have hrow : (playedRow voicing.kernel takesSpeed (note, effects)).instrument = wanted := rfl
    have hnext : ∀ id, (wanted <|> active) = some id →
        voicing.index id = some (voicing.number id) := by
      intro id hid
      cases hw : wanted with
      | none =>
        rw [hw] at hid
        exact hactive id hid
      | some other =>
        rw [hw] at hid
        obtain rfl : other = id := Option.some.inj hid
        have hmusical : note.isMusical = true := by
          by_contra hm
          simp [wanted, hm] at hw
        obtain ⟨place, hplace, hlt⟩ := hentry.instrument hmusical other
          (by simpa [wanted, hmusical] using hw)
        rw [Voicing.number, hplace, Option.getD_some,
          Nat.mod_eq_of_lt (show place < 64 from hlt)]
    have hinstrument : (wanted <|> active).map voicing.number =
        (wanted <|> active).bind voicing.index := by
      cases hw : (wanted <|> active) with
      | none => rfl
      | some id =>
        rw [Option.map_some, Option.bind_some, hnext id hw]
    have hrest := ih (fun other ho => h other (by simp [ho])) hnext none
    rw [List.map_cons, Voicing.events, hear_rowEvents, List.map_cons, sounding_beat hentry,
      hearing_synchronised rfl, hrow, hrest, Voicing.score, hinstrument]
    rfl

end Scores

end Chiptune
