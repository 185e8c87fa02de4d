import Chiptune.Proofs.EffectNotes

/-!
# Decoding the buffer of a pattern

The buffer of a channel slot is read back in one way only. Played by a driver with the instrument
that the encoder was given, it yields the rows of the slot one by one, and it leaves the driver with
the instrument that the encoder returns. The rows that the driver steps through are those that no
earlier command holds.
-/

namespace Chiptune

namespace Voicing

variable (voicing : Voicing)

/-- Whether the next row shares the byte of the note before it. -/
def joins : List Row → Bool
  | next :: after :: _ => voicing.kernel = .legacy && (!next.isFilled && after.isFilled)
  | _ => false

/-- The empty rows that an earlier command holds. -/
def merged : List Row → Nat
  | [] => 0
  | row :: rest =>
    let more := if row.isNote then (if voicing.joins rest then 1 else 0) else voicing.run rest
    more + merged (rest.drop more)
  termination_by rows => rows.length
  decreasing_by simp only [List.length_drop, List.length_cons]; omega

end Voicing

section Counts

variable {voicing : Voicing} {short : Bool} {active after : Option InstrumentId} {rows : List Row}
  {commands : List Command}

lemma rides_eq_joins {rest : List Row} {rides : Bool} (h : voicing.rides short rest = .ok rides) :
    rides = voicing.joins rest := by
  unfold Voicing.rides at h
  unfold Voicing.joins
  cases hk : voicing.kernel with
  | extended =>
    rw [hk] at h
    obtain rfl := Except.ok.inj h
    rcases rest with _ | ⟨next, _ | ⟨after, later⟩⟩ <;> rfl
  | legacy =>
    rw [hk] at h
    rcases rest with _ | ⟨next, _ | ⟨after, later⟩⟩
    · cases short with
      | true => exact nomatch h
      | false => exact (Except.ok.inj h).symm
    · cases short with
      | true => exact nomatch h
      | false => exact (Except.ok.inj h).symm
    · exact (Except.ok.inj h).symm

lemma rowCommands_append (commands more : List Command) :
    rowCommands (commands ++ more) = rowCommands commands + rowCommands more :=
  List.countP_append

lemma rowCommands_head {head : List Command} (h : ∀ command ∈ head, command.isRow = false)
    {command : Command} (hrow : command.isRow = true) (tail : List Command) :
    rowCommands (head ++ command :: tail) = rowCommands tail + 1 := by
  have hzero : rowCommands head = 0 :=
    List.countP_eq_zero.mpr fun command hc => by simp [h command hc]
  rw [rowCommands_append, hzero, rowCommands_cons, if_pos hrow, Nat.zero_add]

/-- Each row is held by an earlier command or has a command of its own. -/
theorem rowCommands_merged (h : ∀ row ∈ rows, row.Plain voicing.kernel)
    (hok : encodeRows voicing short active rows = .ok (commands, after)) :
    rowCommands commands + voicing.merged rows = rows.length := by
  induction hlen : rows.length using Nat.strong_induction_on generalizing rows active commands with
  | _ length ih =>
    cases rows with
    | nil =>
      rw [encodeRows] at hok
      cases short with
      | true => cases hok
      | false =>
        obtain ⟨rfl, rfl⟩ := Prod.mk.injEq .. ▸ Except.ok.inj hok
        rw [Voicing.merged, ← hlen]
        rfl
    | cons row rest =>
      have hlead := (lead_spec (h row (by simp))).2
      rw [List.length_cons] at hlen
      have htail : ∀ {more : Nat} {named : Option InstrumentId} {tail : List Command},
          more ≤ rest.length →
          encodeRows voicing short named (rest.drop more) = .ok (tail, after) →
          rowCommands tail + (more + voicing.merged (rest.drop more)) + 1 = length := by
        intro more named tail hmore hencode
        have := ih _ (by rw [List.length_drop]; omega)
          (fun r hr => h r (List.mem_cons_of_mem _ (List.mem_of_mem_drop hr))) hencode rfl
        rw [List.length_drop] at this
        omega
      rw [Voicing.merged]
      rcases encodeRows_cons_ok hok with
        ⟨hn, change, named, rides, code, tail, hchange, hrides, hcode, hencode, rfl⟩ |
        ⟨hn, tail, hencode, rfl⟩
      · have hmore : (if rides then 1 else 0) ≤ rest.length := by
          cases rides with
          | false => exact Nat.zero_le _
          | true =>
            obtain ⟨-, next, later, rfl, -⟩ := rides_spec hrides
            exact Nat.succ_le_succ (Nat.zero_le _)
        have hhead : ∀ command ∈ row.lead ++ change, command.isRow = false := fun command hc =>
          (lead_change_spec (h row (by simp)) hchange command hc).2
        rw [if_pos hn, ← rides_eq_joins hrides, rowCommands_head hhead (isRow_of_note? hcode)]
        have := htail hmore hencode
        omega
      · rw [if_neg (by simp [hn]), rowCommands_head (fun command hc => (hlead command hc).2) rfl]
        have := htail (voicing.run_le rest).2 hencode
        omega

end Counts

section Instruments

variable {voicing : Voicing} {active : Option InstrumentId} {row : Row} {rows : List Row}

/-- The driver keeps the number of the active instrument. -/
lemma hearing_tabled
    (h : ∀ id, row.instrument = some id → voicing.index id = some (voicing.number id)) :
    voicing.hearing (active.bind voicing.index) active row =
      (row.instrument <|> active).bind voicing.index := by
  unfold Voicing.hearing
  cases hid : row.instrument with
  | none => rfl
  | some id =>
    have hindex := h id hid
    by_cases ha : active = some id
    · simp [Voicing.naming, ha, heardAfter]
    · simp [Voicing.naming, ha, heardAfter, hindex]

lemma heardAfter_tabled
    (h : ∀ row ∈ rows, ∀ id, row.instrument = some id →
      voicing.index id = some (voicing.number id)) :
    heardAfter (active.bind voicing.index) (voicing.events active rows) =
      (activeAfter active rows).bind voicing.index := by
  induction rows generalizing active with
  | nil => rfl
  | cons row rest ih =>
    rw [Voicing.events, heardAfter_append, heardAfter_rowEvents, hearing_tabled (h row (by simp)),
      ih fun other ho => h other (by simp [ho])]
    rfl

/-- Each row is heard after some instrument of the encoder, which the driver has then too. -/
lemma beats_getElem?
    (h : ∀ row ∈ rows, ∀ id, row.instrument = some id → voicing.index id = some (voicing.number id))
    {place : Nat} (hrow : rows[place]? = some row) : ∃ before,
      (voicing.beats (active.bind voicing.index) active rows)[place]? =
        some (voicing.beat (before.bind voicing.index) before row) := by
  induction rows generalizing active place with
  | nil => exact nomatch hrow
  | cons first rest ih =>
    cases place with
    | zero =>
      obtain rfl := Option.some.inj hrow
      exact ⟨active, rfl⟩
    | succ place =>
      rw [Voicing.beats, hearing_tabled (h first (by simp))]
      exact ih (fun other ho => h other (by simp [ho])) hrow

end Instruments

/-- What the driver should do in a row of a channel slot. -/
structure Song.Requests (song : Song) (voicing : Voicing) (takesSpeed : Bool) (channel : Channel)
    (slot row : Nat) (sounding : Sounding) : Prop where
  code : sounding.code = if (song.noteAt channel slot row).isValid then
    some (voicing.kernel.noteCode voicing.voice (song.noteAt channel slot row).value 0) else none
  volume : sounding.volume = if voicing.kernel.supportsVolume then
    (song.noteAt channel slot row).volume else none
  speed : sounding.speed = if takesSpeed then song.effectAt .speed slot row else none
  instrument : (song.noteAt channel slot row).isMusical = true →
    ∀ id, (song.noteAt channel slot row).instrument = some id → ∃ place,
      sounding.instrument = some place ∧ ∀ other, voicing.index other = some place ↔ other = id

/-- The rows that are heard of some commands, from an instrument on. -/
def heardRows (voicing : Voicing) (active : Option InstrumentId) (commands : List Command) :
    List Beat :=
  hear { instrument := active.bind voicing.index } (commandEvents voicing.kernel commands)

/-- The code of the first rows of a slot is read back, and does what the rows ask for. -/
structure Song.Decodes (song : Song) (voicing : Voicing) (takesSpeed : Bool) (channel : Channel)
    (slot : Nat) (active : Option InstrumentId) (count : Nat) (commands : List Command)
    (after : Option InstrumentId) : Prop where
  read : Command.readAll? voicing.kernel (commandBytes commands) = some commands
  /-- No other commands have the same bytes. -/
  unique : ∀ others : List Command, (∀ command ∈ others, command.Writable voicing.kernel) →
    commandBytes others = commandBytes commands → others = commands
  whole : (heardRows voicing active commands).length = count
  rows : ∀ row < count, ∃ beat, (heardRows voicing active commands)[row]? = some beat ∧
    song.Requests voicing takesSpeed channel slot row beat.sounding
  instrument : heardAfter (active.bind voicing.index) (commandEvents voicing.kernel commands) =
    after.bind voicing.index
  /-- The rows to step through depend on the buffer alone. -/
  steps : ∃ steps,
    (Command.readAll? voicing.kernel (commandBytes commands)).map rowCommands = some steps ∧
    steps + voicing.merged (song.rows voicing.kernel (song.effects.getD slot []) takesSpeed
      (channel.slots.getD slot none) count) = count

section Slots

variable {song : Song} {voicing : Voicing} {takesSpeed : Bool} {channel : Channel} {slot : Nat}
  {content : Option Nat}

lemma fits_row (hrange : ∀ note ∈ song.notes, note.InRange)
    (hvolume : ∀ note ∈ song.notes, ∀ level, note.volume = some level → 0 ≤ level ∧ level ≤ 15)
    (hspeed : ∀ note ∈ song.notes, note.effect = .speed → 0 ≤ note.param ∧ note.param ≤ 255)
    (hvoiced : song.Voiced voicing.index) (hc : channel ∈ song.channels) (slot row : Nat) :
    voicing.Fits (song.noteAt channel slot row, (song.effects.getD slot []).row row) := by
  have hframes : ∀ frames, ((song.effects.getD slot []).row row).speed = some frames →
      0 ≤ frames ∧ frames ≤ 255 := by
    intro frames hf
    have hat : song.effectAt .speed slot row = some frames :=
      (param_effects (by decide) song slot row).symm.trans hf
    unfold Song.effectAt at hat
    split at hat
    · obtain ⟨other, ho, hnote⟩ := List.exists_of_findSome?_eq_some hat
      split at hnote
      · next heffect =>
        obtain rfl := Option.some.inj hnote
        rcases mem_noteAt ho slot row with hn | hn
        · exact hspeed _ hn heffect
        · rw [hn] at heffect
          exact nomatch heffect
      · exact nomatch hnote
    · exact nomatch hat
  rcases mem_noteAt hc slot row with hn | hn
  · exact ⟨hrange _ hn, hvolume _ hn, hframes, hvoiced _ hn⟩
  · exact ⟨by rw [hn]; exact .inr (.inr rfl), by simp [hn, Note.empty], hframes, by
      simp [hn, Note.empty]⟩

lemma index_eq_number {id : InstrumentId}
    (h : ∃ place, voicing.index id = some place ∧ place < Limits.instruments) :
    voicing.index id = some (voicing.number id) := by
  obtain ⟨place, hplace, hlt⟩ := h
  rw [hplace, Voicing.number, hplace, Option.getD_some,
    Nat.mod_eq_of_lt (show place < 64 from hlt)]

/-- A row holds the note of the slot and the effects of all channels there. -/
lemma rows_getElem? (hslot : channel.slots[slot]? = some content) {count : Nat}
    (hcount : count ≤ (song.slotNotes content).length) (takesSpeed : Bool) {row : Nat}
    (hrow : row < count) :
    (song.rows voicing.kernel (song.effects.getD slot []) takesSpeed content count)[row]? =
      some (playedRow voicing.kernel takesSpeed
        (song.noteAt channel slot row, (song.effects.getD slot []).row row)) := by
  rw [rows_eq _ _ _ hcount, List.getElem?_map, List.getElem?_range hrow, Song.noteAt,
    getD_of_getElem? hslot]
  rfl

/-- What a row that fits the driver sounds like is what it asks for. -/
lemma requests_beat (hindex : ∀ a b place, voicing.index a = some place →
      voicing.index b = some place → a = b) (row : Nat) (before : Option InstrumentId)
    (hfits : voicing.Fits (song.noteAt channel slot row, (song.effects.getD slot []).row row)) :
    song.Requests voicing takesSpeed channel slot row
      (voicing.beat (before.bind voicing.index) before (playedRow voicing.kernel takesSpeed
        (song.noteAt channel slot row, (song.effects.getD slot []).row row))).sounding := by
  let asked := playedRow voicing.kernel takesSpeed
    (song.noteAt channel slot row, (song.effects.getD slot []).row row)
  let beat := voicing.beat (before.bind voicing.index) before asked
  have hbeat : { beat with speed := asked.speed <|> none } = beat := by
    have hspeed : (asked.speed <|> none) = asked.speed := by cases asked.speed <;> rfl
    rw [hspeed]
    rfl
  have hsounding : Beat.sounding { beat with speed := asked.speed <|> none } = _ :=
    sounding_beat hfits none
  have heffect := param_effects (show Effect.speed ≠ .none by decide) song slot row
  rw [hbeat] at hsounding
  refine ⟨congrArg Sounding.code hsounding, congrArg Sounding.volume hsounding, ?_, ?_⟩
  · rw [← heffect]
    refine (congrArg Sounding.speed hsounding).trans ?_
    cases takesSpeed with
    | false => rfl
    | true =>
      have hfirst : ∀ frames : Option Int, (frames <|> none) = frames := fun frames => by
        cases frames <;> rfl
      exact hfirst _
  · intro hmusical id hid
    obtain ⟨place, hplace, hlt⟩ := hfits.instrument hmusical id hid
    have hwanted : asked.instrument = some id := by
      rw [← hid]
      exact if_pos hmusical
    have hnumber := index_eq_number ⟨place, hplace, hlt⟩
    have htabled : ∀ other, asked.instrument = some other →
        voicing.index other = some (voicing.number other) := by
      intro other ho
      obtain rfl := Option.some.inj (hwanted.symm.trans ho)
      exact hnumber
    refine ⟨place, ?_, fun other => ⟨fun ho => hindex other id place ho hplace, fun ho => ?_⟩⟩
    · refine (congrArg Sounding.instrument hsounding).trans ?_
      rw [hearing_tabled htabled, hwanted, ← hplace]
      rfl
    · rw [ho, hplace]

/-- The first rows of a slot have code, which is read back in one way only and yields the rows. -/
theorem encodeSlot_decodes (hrange : ∀ note ∈ song.notes, note.InRange)
    (hvolume : ∀ note ∈ song.notes, ∀ level, note.volume = some level → 0 ≤ level ∧ level ≤ 15)
    (hspeed : ∀ note ∈ song.notes, note.effect = .speed → 0 ≤ note.param ∧ note.param ≤ 255)
    (hvoiced : song.Voiced voicing.index)
    (hindex : ∀ a b place, voicing.index a = some place → voicing.index b = some place → a = b)
    (hc : channel ∈ song.channels) (hslot : channel.slots[slot]? = some content)
    {count : Nat} (hcount : count ≤ (song.slotNotes content).length)
    (takesSpeed : Bool) (active : Option InstrumentId) :
    ∃ commands after, song.encodeSlot voicing (song.effects.getD slot []) takesSpeed active content
        count = .ok (commands, after) ∧
      song.Decodes voicing takesSpeed channel slot active count commands after := by
  have hmem := List.mem_of_getElem? hslot
  have hplaces : ∀ row ∈ song.rows voicing.kernel (song.effects.getD slot []) takesSpeed content
      count, ∀ id, row.instrument = some id →
        ∃ place, voicing.index id = some place ∧ place < Limits.instruments :=
    rows_voiced hvoiced hc hmem _ count
  obtain ⟨rows, hrows⟩ : ∃ rows, song.rows voicing.kernel (song.effects.getD slot []) takesSpeed
    content count = rows := ⟨_, rfl⟩
  have hplain : ∀ row ∈ rows, row.Plain voicing.kernel :=
    hrows ▸ Song.rows_plain takesSpeed hrange hc hmem _ count
  have hlength : rows.length = count := by
    rw [← hrows, Song.rows, Row.ofNotes_length, List.length_take, min_eq_left hcount]
  rw [hrows] at hplaces
  have htabled := fun row hr id hid => index_eq_number (hplaces row hr id hid)
  obtain ⟨⟨commands, after⟩, hok⟩ := encodeRows_ok voicing hplain hplaces active
  have hrenders := encodeRows_renders hplain hok
  have hread := Command.readAll?_commandBytes hrenders.writable
  have hheard : heardRows voicing active commands =
      voicing.beats (active.bind voicing.index) active rows := by
    rw [heardRows, hrenders.events, hear_events]
  refine ⟨commands, after, ?_, hread, ?_, ?_, ?_, ?_, rowCommands commands, ?_, ?_⟩
  · have hshort : ¬ rows.length < count := by omega
    simp only [Song.encodeSlot]
    rw [hrows, decide_eq_false hshort]
    exact hok
  · intro others hothers hbytes
    have hagain := Command.readAll?_commandBytes hothers
    rw [hbytes, hread] at hagain
    exact (Option.some.inj hagain).symm
  · rw [hheard, beats_length, hlength]
  · intro row hrow
    rw [hheard]
    obtain ⟨before, hbeat⟩ := beats_getElem? htabled
      (hrows ▸ rows_getElem? hslot hcount takesSpeed hrow)
    exact ⟨_, hbeat, requests_beat hindex row before
      (fits_row hrange hvolume hspeed hvoiced hc slot row)⟩
  · rw [hrenders.events, hrenders.after]
    exact heardAfter_tabled htabled
  · rw [hread]
    rfl
  · rw [getD_of_getElem? hslot, hrows, rowCommands_merged hplain hok, hlength]

/-- An empty row that rides along with the note before it, and a last one that does not. -/
def strummedSong : Song where
  id := 0
  name := "strummed"
  patternLength := 4
  patterns := [[{ value := 30, volume := some 9, instrument := some 5 }, {},
    { value := 32, instrument := some 5, effect := .speed, param := 4 }, {}]]
  channels := [⟨.square1, [some 0]⟩]

def strumming : Voicing where
  kernel := .legacy
  voice := .square1
  index := fun id => if id = 5 then some 2 else none

theorem strummedSong_decodes :
    (∀ note ∈ strummedSong.notes, note.InRange) ∧ strummedSong.Voiced strumming.index ∧
      ∃ commands after,
        strummedSong.encodeSlot strumming (strummedSong.effects.getD 0 []) true none (some 0) 4 =
          .ok (commands, after) ∧
        strummedSong.Decodes strumming true ⟨.square1, [some 0]⟩ 0 none 4 commands after := by
  have hvoiced : strummedSong.Voiced strumming.index := by
    intro note hn hmusical id hid
    have hall : ∀ note ∈ strummedSong.notes, note.instrument.all (· = 5) = true := by decide
    have hfive := hall note hn
    rw [hid] at hfive
    obtain rfl : id = 5 := by simpa using hfive
    exact ⟨2, rfl, by decide⟩
  have hindex : ∀ a b place, strumming.index a = some place → strumming.index b = some place →
      a = b := by
    intro a b place ha hb
    simp only [strumming, Option.ite_none_right_eq_some] at ha hb
    exact ha.1.trans hb.1.symm
  refine ⟨by decide, hvoiced, encodeSlot_decodes (by decide) ?_ (by decide) hvoiced hindex
    (by decide) rfl (by decide) true none⟩
  have hall : ∀ note ∈ strummedSong.notes,
      note.volume.all (fun level => 0 ≤ level ∧ level ≤ 15) = true := by decide
  intro note hn level hlevel
  have hlevels := hall note hn
  rw [hlevel] at hlevels
  simpa using hlevels

end Slots

end Chiptune
