import Chiptune.Proofs.ArrangedVoices
import Chiptune.Proofs.HeardRows
import Chiptune.Proofs.SampleRegions

/-!
# The pitches of an arrangement as they are heard

The code of a slot lets a driver hear each row with a code of its note. These codes tell stops from
notes and keep the order of the pitches, but for the legacy kernel, whose codes have six bits: there
a tone above the last of them starts over from the stop.
-/

namespace Chiptune

/-- The code with which a row of this value is heard, none for an empty one. -/
def heardCode (kernel : Kernel) (voice : Voice) (value : Int) : Option UInt8 :=
  if value = Note.emptyValue then none
  else some (UInt8.ofNat (kernel.noteCode voice value 0).toNat)

/-- The codes that a driver hears in the rows of a buffer. -/
def heardCodes? (kernel : Kernel) (bytes : Bytes) : Option (List (Option UInt8)) :=
  (Command.readAll? kernel bytes).map fun commands =>
    (hear { instrument := none } (commandEvents kernel commands)).map Beat.code

/-- The first rows of a slot are heard as these notes, whatever else is done in them. -/
def Song.HeardAs (song : Song) (voice : Voice) (slot : Option Nat) (notes : List Note) : Prop :=
  ∀ (voicing : Voicing) (effects : SlotEffects) (takesSpeed : Bool)
    (active : Option InstrumentId) (count : Nat),
    voicing.voice = voice → count ≤ song.patternLength →
      (song.Voiced voicing.index → ∃ result,
        song.encodeSlot voicing effects takesSpeed active slot count = .ok result) ∧
      ∀ commands after,
        song.encodeSlot voicing effects takesSpeed active slot count = .ok (commands, after) →
        heardCodes? voicing.kernel (commandBytes commands) =
          some ((notes.take count).map fun note => heardCode voicing.kernel voice note.value)

section Slots

variable {song pieces : Song} {channel : Channel}

lemma beats_code (voicing : Voicing) (heard : Option Nat) (active : Option InstrumentId)
    (rows : List Row) : (voicing.beats heard active rows).map Beat.code =
      rows.map fun row => heardCode voicing.kernel voicing.voice row.value := by
  induction rows generalizing heard active with
  | nil => rfl
  | cons row rest ih =>
    rw [Voicing.beats, List.map_cons, ih, List.map_cons]
    refine congrArg (· :: _) ?_
    unfold Voicing.beat heardCode Row.isNote
    by_cases hempty : row.value = Note.emptyValue
    · simp [hempty]
    · simp [hempty, Voicing.code]

lemma ofNotes_value (kernel : Kernel) (notes : List Note) (effects : SlotEffects) :
    (Row.ofNotes kernel notes effects).map Row.value = notes.map Note.value := by
  induction notes generalizing effects with
  | nil => rfl
  | cons note notes ih =>
    cases effects with
    | nil => exact congrArg (note.value :: ·) (ih [])
    | cons first effects => exact congrArg (note.value :: ·) (ih effects)

/-- The rows of a slot are heard as its notes. -/
lemma heardAs_slotNotes (hf : song.Formed) (hn : ∀ note ∈ song.notes, note.InRange)
    (hc : channel ∈ song.channels) {slot : Option Nat} (hs : slot ∈ channel.slots) :
    song.HeardAs channel.voice slot (song.slotNotes slot) := by
  rintro voicing effects takesSpeed active count hvoice hcount
  have hplain : ∀ row ∈ song.rows voicing.kernel effects takesSpeed slot count,
      row.Plain voicing.kernel := Song.rows_plain takesSpeed hn hc hs effects count
  refine ⟨fun hv => encodeSlot_ok hf hn hv hc hs effects hcount active, ?_⟩
  intro commands after hok
  have hrenders := encodeRows_renders hplain hok
  rw [heardCodes?, Command.readAll?_commandBytes hrenders.writable, Option.map_some,
    hrenders.events, hear_events, beats_code, hvoice]
  have hvalues := ofNotes_value voicing.kernel ((song.slotNotes slot).take count)
    (if takesSpeed then effects else [])
  have hcodes := congrArg (List.map (heardCode voicing.kernel channel.voice)) hvalues
  rw [List.map_map, List.map_map] at hcodes
  exact congrArg some hcodes

/-- The rows of a piece are heard as the notes of the song that it is a piece of. -/
lemma heardAs_cut {size factor number : Nat} (hf : song.Formed)
    (hn : ∀ note ∈ song.notes, note.InRange) (hcut : Cut song pieces size factor)
    (hchannel : song.channels[number]? = some channel) :
    ∃ slots, pieces.channels[number]? = some { channel with slots } ∧
      slots.length = song.length * factor ∧ ∀ i < song.length, ∀ k < factor,
        pieces.HeardAs channel.voice (slots.getD (i * factor + k) none)
          ((song.slotNotes (channel.slots.getD i none)).drop (k * size)) := by
  obtain ⟨slots, hpieces, hslots⟩ := hcut.channel number channel hchannel
  have hcount := hf.slots channel (List.mem_of_getElem? hchannel)
  have hlength : slots.length = song.length * factor := by rw [hslots.length, hcount]
  refine ⟨slots, hpieces, hlength, fun i hi k hk => ?_⟩
  have hin : i * factor + k < slots.length := by
    rw [hlength, ← hcut.length]
    exact hcut.piece_lt hi hk
  have hmem : slots.getD (i * factor + k) none ∈ slots := by
    rw [List.getD_eq_getElem _ _ hin]
    exact List.getElem_mem hin
  have hheard := heardAs_slotNotes (formed_cut hcut hf) (fun note hp => hn note (notes_cut hcut hp))
    (List.mem_of_getElem? hpieces) hmem
  intro voicing effects takesSpeed active count hvoice hle
  have hnotes : (pieces.slotNotes (slots.getD (i * factor + k) none)).take count =
      ((song.slotNotes (channel.slots.getD i none)).drop (k * size)).take count := by
    have hpiece := congrArg (List.take count) (slotNotes_cut hcut hslots (hcount ▸ hi) hk)
    rwa [List.take_take, List.take_take, Nat.min_eq_left (hcut.patternLength ▸ hle)] at hpiece
  rw [← hnotes]
  exact hheard voicing effects takesSpeed active count hvoice hle

end Slots

/-! ### Codes of what is played -/

/-- The highest note value that the legacy kernel has a code for. -/
def highestLegacy : Int := 75

/-- The values of the notes that an arrangement writes for a voice. -/
def Playable : Voice → Int → Prop
  | .noise, value => 3 ≤ value ∧ value ≤ 14
  | .dpcm, value => 13 ≤ value ∧ value ≤ 75
  | _, value => Note.lowest ≤ value ∧ value ≤ Note.highest

/-- A tone for which the legacy kernel has no code of its own. -/
def Wraps (kernel : Kernel) (voice : Voice) (value : Int) : Prop :=
  kernel = .legacy ∧ voice ∈ Voice.tones ∧ highestLegacy < value

/-- The rows are heard with codes that tell stops from notes and keep the order of the tones. A tone
that wraps is heard 64 codes below its own. -/
structure KeepsPitches (kernel : Kernel) (voice : Voice) (rows : List Note) : Prop where
  stop : ∀ row ∈ rows, (row.isMusical = true → ¬ Wraps kernel voice row.value) →
    (heardCode kernel voice row.value = some 0 ↔ row.isStop = true)
  order : voice ∈ Voice.tones → ∀ low ∈ rows, ∀ high ∈ rows, low.isMusical = true →
    high.isMusical = true → low.value ≤ high.value → ¬ Wraps kernel voice high.value →
    ∃ code higher, heardCode kernel voice low.value = some code ∧
      heardCode kernel voice high.value = some higher ∧ code ≤ higher
  wraps : ∀ row ∈ rows, row.isMusical = true → Wraps kernel voice row.value →
    heardCode kernel voice row.value = some (UInt8.ofNat (2 * (row.value - 76).toNat))

section Codes

variable {kernel : Kernel} {voice : Voice} {value : Int}

lemma Playable.musical (h : Playable voice value) : Note.lowest ≤ value ∧ value ≤ Note.highest := by
  simp only [Note.lowest, Note.highest]
  cases voice <;> simp only [Playable, Note.lowest, Note.highest] at h <;> omega

/-- The number in the code of a note. -/
lemma noteCode_playable (h : Playable voice value) :
    kernel.noteCode voice value 0 = match kernel, voice with
      | .legacy, .noise => 2 * value
      | .legacy, .dpcm => 2 * (value - 12)
      | .legacy, _ => 2 * (max 1 (value - 12) % 64)
      | .extended, .noise => value
      | .extended, .dpcm => value - 12
      | .extended, _ => max 1 (min 87 (value - 9)) := by
  have hmusical := h.musical
  simp only [Note.lowest, Note.highest] at hmusical
  have hstop : value ≠ Note.stopValue := by
    simp only [Note.stopValue]
    omega
  have hrelease : value ≠ Note.releaseValue := by
    simp only [Note.releaseValue]
    omega
  cases kernel with
  | legacy =>
    rw [Kernel.noteCode, Kernel.legacyCode, withFlags_zero]
    cases voice <;>
      simp only [Playable, hstop, false_or, if_true, reduceCtorEq, if_false] at h ⊢ <;>
      omega
  | extended =>
    unfold Kernel.noteCode Kernel.extendedCode
    rw [if_neg (not_or.mpr ⟨hrelease, hstop⟩)]
    cases voice with
    | dpcm =>
      simp only [Playable, Kernel.clamp] at h ⊢
      omega
    | _ => rfl

lemma mem_tones : voice ∈ Voice.tones ↔ voice ≠ .noise ∧ voice ≠ .dpcm := by
  cases voice <;> decide

lemma noteCode_bounds (h : Playable voice value) (hw : ¬ Wraps kernel voice value) :
    0 < kernel.noteCode voice value 0 ∧ kernel.noteCode voice value 0 < 256 := by
  rw [noteCode_playable h]
  cases kernel <;> cases voice <;>
    simp only [Playable, Wraps, mem_tones, highestLegacy, Note.lowest, Note.highest, reduceCtorEq,
      ne_eq, not_false_eq_true, not_true_eq_false, true_and, and_true, false_and,
      and_false] at h hw ⊢ <;>
    omega

/-- Higher tones have higher codes up to the last one. -/
lemma noteCode_mono {higher : Int} (hv : voice ∈ Voice.tones) (h : Playable voice value)
    (h' : Playable voice higher) (hle : value ≤ higher) (hw : ¬ Wraps kernel voice higher) :
    kernel.noteCode voice value 0 ≤ kernel.noteCode voice higher 0 := by
  rw [noteCode_playable h, noteCode_playable h']
  cases kernel <;> cases voice <;>
    simp only [Playable, Wraps, mem_tones, highestLegacy, Note.lowest, Note.highest, reduceCtorEq,
      ne_eq, not_false_eq_true, not_true_eq_false, true_and, and_true, false_and,
      and_false] at h h' hv hw ⊢ <;>
    omega

lemma heardCode_playable (kernel : Kernel) (h : Playable voice value) :
    heardCode kernel voice value = some (UInt8.ofNat (kernel.noteCode voice value 0).toNat) := by
  have hmusical := h.musical
  simp only [Note.lowest, Note.highest] at hmusical
  refine if_neg ?_
  simp only [Note.emptyValue]
  omega

/-- A code that does not wrap is the number of the byte. -/
lemma heardCode_eq (h : Playable voice value) (hw : ¬ Wraps kernel voice value) :
    ∃ code, heardCode kernel voice value = some code ∧ 0 < code.toNat ∧
      (code.toNat : Int) = kernel.noteCode voice value 0 := by
  obtain ⟨hpos, hlt⟩ := noteCode_bounds h hw
  refine ⟨_, heardCode_playable kernel h, ?_⟩
  rw [UInt8.toNat_ofNat_of_lt' (show _ < 256 by omega)]
  omega

/-- Only a stop is heard as one, if the row is empty, a stop or a note that does not wrap. -/
lemma heardCode_zero_iff {row : Note} (h : row.value = Note.emptyValue ∨
    row.value = Note.stopValue ∨ Playable voice row.value ∧ ¬ Wraps kernel voice row.value) :
    heardCode kernel voice row.value = some 0 ↔ row.isStop = true := by
  rw [Note.isStop, beq_iff_eq]
  rcases h with hempty | hstop | ⟨hplays, hw⟩
  · rw [hempty]
    exact iff_of_false (by simp [heardCode]) (by decide)
  · rw [hstop]
    refine iff_of_true ?_ rfl
    cases kernel <;> cases voice <;> decide
  · have hmusical := hplays.musical
    simp only [Note.lowest, Note.highest] at hmusical
    obtain ⟨code, hcode, hpos, -⟩ := heardCode_eq hplays hw
    rw [hcode, Option.some_inj]
    refine iff_of_false (fun hzero => ?_) ?_
    · rw [hzero] at hpos
      exact absurd hpos (Nat.lt_irrefl 0)
    · rw [Note.stopValue]
      omega

lemma heardCode_wraps (h : Playable voice value) (hw : Wraps kernel voice value) :
    heardCode kernel voice value = some (UInt8.ofNat (2 * (value - 76).toNat)) := by
  obtain ⟨rfl, hv, hhigh⟩ := hw
  have hcode : Kernel.legacy.noteCode voice value 0 = 2 * (value - 76) := by
    rw [noteCode_playable h]
    cases voice <;>
      simp only [Playable, mem_tones, highestLegacy, Note.lowest, Note.highest, reduceCtorEq, ne_eq,
        not_true_eq_false, not_false_eq_true, and_false, and_true] at h hv hhigh ⊢ <;>
      omega
  rw [heardCode_playable .legacy h, hcode]
  congr 2
  rw [highestLegacy] at hhigh
  omega

/-- Empty rows, stops and playable notes are what it takes. -/
lemma keepsPitches_of_playable (kernel : Kernel) {rows : List Note} (h : ∀ row ∈ rows,
    row.value = Note.emptyValue ∨ row.value = Note.stopValue ∨ Playable voice row.value) :
    KeepsPitches kernel voice rows := by
  have hmusical : ∀ {row : Note},
      row.isMusical = true ↔ Note.lowest ≤ row.value ∧ row.value ≤ Note.highest := by
    simp [Note.isMusical]
  have hplayable : ∀ row ∈ rows, row.isMusical = true → Playable voice row.value := by
    intro row hr hm
    have hm := hmusical.mp hm
    simp only [Note.lowest, Note.highest] at hm
    rcases h row hr with hempty | hstop | hplays
    · rw [Note.emptyValue] at hempty
      omega
    · rw [Note.stopValue] at hstop
      omega
    · exact hplays
  refine ⟨fun row hr hw => ?_, fun hv low hl high hh hlm hhm hle hw => ?_, fun row hr hm hw => ?_⟩
  · refine heardCode_zero_iff ((h row hr).imp_right fun h => h.imp_right fun hplays => ?_)
    exact ⟨hplays, hw (hmusical.mpr hplays.musical)⟩
  · have hlow := hplayable low hl hlm
    have hhigh := hplayable high hh hhm
    have hw' : ¬ Wraps kernel voice low.value := fun hlow =>
      hw ⟨hlow.1, hv, hlow.2.2.trans_le hle⟩
    obtain ⟨code, hcode, -, hnumber⟩ := heardCode_eq hlow hw'
    obtain ⟨higher, hhigher, -, hnumber'⟩ := heardCode_eq hhigh hw
    have hmono := noteCode_mono hv hlow hhigh hle hw
    refine ⟨code, higher, hcode, hhigher, ?_⟩
    rw [UInt8.le_iff_toNat_le]
    omega
  · exact heardCode_wraps (hplayable row hr hm) hw

end Codes

namespace Arrangement

open Midi (NoteSpan)

section Rows

variable {options : Options} {drumChannel : Int} {score : Score} {notes : List NoteSpan}

lemma drumPeriod_bounds {key : Nat} {period : Int} (h : drumPeriods.lookup key = some period) :
    3 ≤ period ∧ period ≤ 14 := by
  have hall : ∀ period ∈ drumPeriods.map Prod.snd, 3 ≤ period ∧ period ≤ 14 := by decide
  exact hall period (List.mem_map_of_mem (mem_of_lookup h))

/-- Samples can only be mapped to notes with a slot. -/
lemma mapSamples_slot {tree : FileTree} {project mapped : Project}
    {samples : List (Int × SampleSpec)} (h : mapSamples tree project samples = .ok mapped)
    {entry : Int × SampleSpec} (he : entry ∈ samples) :
    ∃ slot, Project.mappingSlot? (noteValue entry.1) = some slot := by
  induction samples generalizing project with
  | nil => exact absurd he List.not_mem_nil
  | cons first rest ih =>
    obtain ⟨key, spec⟩ := first
    rw [mapSamples] at h
    split at h
    · simp only [pure_bind] at h
      split at h
      · next step hstep =>
        rcases List.mem_cons.mp he with rfl | he
        · cases hslot : Project.mappingSlot? (noteValue key) with
          | some slot => exact ⟨slot, rfl⟩
          | none =>
            rw [Project.mapSample, hslot] at hstep
            cases hstep
        · exact ih h he
      · cases h
      · cases h
    · cases h
    · cases h

lemma mem_sampled {part : Part} (hp : part ∈ parts options drumChannel score notes)
    (hv : part.voice = .dpcm) {note : NoteSpan} (hn : note ∈ part.notes) :
    note ∈ notes.filter (isDrum drumChannel) := by
  rcases List.mem_append.mp hp with hp | hp
  · obtain ⟨entry, he, rfl⟩ := List.mem_map.mp hp
    have htone : Voice.dpcm ∈ Voice.tones := hv ▸ (List.of_mem_zip he).1
    exact absurd htone (by decide)
  · rcases List.mem_cons.mp (List.mem_filter.mp hp).1 with rfl | hp
    · cases hv
    · obtain rfl := List.mem_singleton.mp hp
      exact (List.mem_filter.mp hn).1

end Rows

variable {tree : FileTree} {midi : Midi.Score} {sourceName : String} {options : Options}
  {map : InstrumentMap} {project : Project} {warnings : List Warning} {plan : Plan}

lemma Plan.Leads.playable (h : plan.Leads midi options map project) {part : Part}
    (hp : part ∈ parts options plan.drumChannel plan.score plan.notes) {note : NoteSpan}
    (hn : note ∈ part.notes) {value : Int} (hw : Writing plan.score note part.voice value) :
    Playable part.voice value := by
  have hdrum := fun hv : part.voice = .dpcm => mem_sampled hp hv hn
  generalize part.voice = voice at hw hdrum ⊢
  cases hw with
  | tone htone =>
    have hmusical := noteValue_musical note.key
    cases voice with
    | noise => exact absurd htone (by decide)
    | dpcm => exact absurd htone (by decide)
    | _ => exact hmusical
  | noise hperiod => exact drumPeriod_bounds hperiod
  | sample hsample =>
    obtain ⟨blank, mapped, hmapped⟩ := h.samples (List.ne_nil_of_mem (hdrum rfl))
    obtain ⟨entry, he, hkey⟩ := List.any_eq_true.mp hsample
    obtain ⟨slot, hslot⟩ := mapSamples_slot hmapped (List.mem_mergeSort.mpr he)
    rw [beq_iff_eq.mp hkey] at hslot
    have hbounds := mappingSlot?_eq_some_iff.mp hslot
    simp only [Project.mappingSlots] at hbounds
    exact ⟨by omega, by omega⟩

lemma jumpPattern_empty {length : Nat} {target : Int} {row : Note}
    (h : row ∈ jumpPattern length target) : row.value = Note.emptyValue := by
  cases length with
  | zero => exact absurd h List.not_mem_nil
  | succ length =>
    rcases List.mem_cons.mp h with rfl | hr
    · rfl
    · exact List.eq_of_mem_replicate hr ▸ rfl

/-- Each slot is one of the song before its loop or has nothing but empty rows. -/
lemma Plan.Leads.slot_cases (h : plan.Leads midi options map project) {channel : Channel}
    (hc : channel ∈ (looped options (plan.song options)).channels) {slot : Option Nat}
    (hs : slot ∈ channel.slots) : slot ∈ channel.slots.take (plan.length options) ∨
      ∀ row ∈ (looped options (plan.song options)).slotNotes slot,
        row.value = Note.emptyValue := by
  rcases looped_cases options (plan.song options) with heq | ⟨target, heq, -⟩
  · rw [heq] at hc
    rw [List.take_of_length_le (h.slots_length hc).le]
    exact .inl hs
  · rw [heq] at hc ⊢
    obtain ⟨source, hsource, -, last, hslots, hlast⟩ := mem_withJump hc
    rw [hslots] at hs ⊢
    rw [List.take_left' (h.slots_length hsource)]
    rcases List.mem_append.mp hs with hs | hs
    · exact .inl hs
    · obtain rfl := List.mem_singleton.mp hs
      refine .inr fun row hr => ?_
      rcases hlast with rfl | rfl
      · rw [List.eq_of_mem_replicate hr]
        rfl
      · rw [Song.slotNotes, withJump_pattern] at hr
        exact jumpPattern_empty hr

/-- What the rows of an arrangement are. -/
lemma Plan.Leads.row_cases (h : plan.Leads midi options map project) {channel : Channel}
    (hc : channel ∈ (looped options (plan.song options)).channels) {row : Note}
    (hr : row ∈ channel.slots.flatMap (looped options (plan.song options)).slotNotes) :
    row.value = Note.emptyValue ∨ row.value = Note.stopValue ∨
      Playable channel.voice row.value := by
  obtain ⟨slot, hs, hr⟩ := List.mem_flatMap.mp hr
  rcases h.slot_cases hc hs with hs | hempty
  · obtain ⟨-, hsize⟩ := plan.song_sameFrame options
    have hpattern : (looped options (plan.song options)).patternLength =
        options.patternLength.toNat := (looped_patternLength options _).trans hsize
    obtain ⟨-, ⟨-, hnone⟩ | ⟨part, hp, rows, hcolumn, hspells⟩⟩ := h.channel_cases hc
    · rw [hnone] at hs
      obtain rfl := List.eq_of_mem_replicate hs
      rw [List.eq_of_mem_replicate hr]
      exact .inl rfl
    · rw [← hpattern] at hcolumn hspells
      obtain ⟨before, after, hfilled⟩ := hcolumn.filled
      have hchunk := Plan.slotNotes_column hp hcolumn hspells ▸ List.mem_map_of_mem hs
      have hrow := ((chunks_spec (column_holds hfilled).1).2 _ hchunk).2 row hr
      rcases Plan.column_row hp hcolumn hrow with rfl | rfl | ⟨note, hn, hwriting, -⟩
      · exact .inl rfl
      · exact .inr (.inl rfl)
      · have hvoice : channel.voice = part.voice := hcolumn.voice
        rw [hvoice] at hwriting ⊢
        exact .inr (.inr (h.playable hp hn hwriting))
  · exact .inl (hempty row hr)

/-- Whatever is arranged, a driver hears each row of the song as it is: a stop as a stop, a note as
a note, and higher tones not below lower ones. Only for the legacy kernel tones wrap. -/
theorem ofScore_pitches (h : ofScore tree midi sourceName options map = .ok (project, warnings)) :
    ∃ song, project.songs = [song] ∧ (∀ kernel, song.fitted kernel = song) ∧
      (∀ kernel, ∀ channel ∈ song.channels,
        KeepsPitches kernel channel.voice (channel.slots.flatMap song.slotNotes)) ∧
      ∀ factor pieces, song.split factor = some pieces → ∀ (number : Nat) (channel : Channel),
        song.channels[number]? = some channel → ∃ slots,
          pieces.channels[number]? = some { channel with slots } ∧
          slots.length = song.length * factor.toNat ∧
          ∀ i < song.length, ∀ k < factor.toNat,
            pieces.HeardAs channel.voice (slots.getD (i * factor.toNat + k) none)
              ((song.slotNotes (channel.slots.getD i none)).drop (k * pieces.patternLength)) := by
  obtain ⟨plan, hplan, hholds⟩ := ofScore_plan h
  obtain ⟨hformed, hnotes, -⟩ := hholds.arranged.encodable
  refine ⟨_, hholds.songs, hholds.arranged.fitted_eq, fun kernel channel hc => ?_, ?_⟩
  · exact keepsPitches_of_playable kernel fun row hr => hplan.row_cases hc hr
  · intro factor pieces hsplit number channel hchannel
    obtain ⟨size, -, hcut⟩ := split_cut hsplit
    rw [hcut.patternLength]
    exact heardAs_cut hformed hnotes hcut hchannel

theorem peal_pitches : peal = .ok (pealProject, []) ∧
    (∀ kernel, ∀ channel ∈ pealSong.channels,
      KeepsPitches kernel channel.voice (channel.slots.flatMap pealSong.slotNotes)) ∧
    pealSong.HeardAs .square1 (some 0) (pealSong.slotNotes (some 0)) := by
  obtain ⟨song, hsongs, -, hkeeps, hheard⟩ := ofScore_pitches peal_eq
  obtain rfl : pealSong = song := List.singleton_inj.mp hsongs
  obtain ⟨slots, hslots, -, hplays⟩ :=
    hheard 1 pealSong (by decide) 0 ⟨.square1, [some 0, some 0, some 0]⟩ rfl
  obtain rfl : [some 0, some 0, some 0] = slots :=
    congrArg Channel.slots (Option.some.inj hslots)
  exact ⟨peal_eq, hkeeps, hplays 0 (by decide) 0 (by decide)⟩

/-- One note of key 87, which is the value after the last one with a legacy code. -/
def shrill : Outcome (Project × List Warning) :=
  ofScore ⟨"/", [], []⟩ { type := 1, ticksPerBeat := 4, tracks := [[⟨0, .noteOn 0 87 100⟩]] }
    "shrill" { patternLength := 6 } {}

def shrillSong : Song where
  id := 0
  name := "shrill"
  tempo := 120
  patternLength := 6
  patterns := [{ value := 76, instrument := some 0 } :: stopNote :: List.replicate 4 .empty]
  channels := [⟨.square1, [some 0]⟩, ⟨.square2, [none]⟩, ⟨.triangle, [none]⟩, ⟨.noise, [none]⟩,
    ⟨.dpcm, [none]⟩]

/-- The legacy kernel takes the note of the first row for a stop. -/
theorem shrill_stopped : ∃ project warnings, shrill = .ok (project, warnings) ∧
    project.songs = [shrillSong] ∧ shrillSong.fitted .legacy = shrillSong ∧
    ((shrillSong.slotNotes (some 0)).map Note.isStop).head? = some false ∧
    ∃ commands after, shrillSong.encodeSlot ⟨.legacy, .square1, soleEncoding.index⟩ [] false none
        (some 0) 6 = .ok (commands, after) ∧
      heardCodes? .legacy (commandBytes commands) =
        some [some 0, some 0, none, none, none, none] := by
  have hok : shrill.isOk = true := by decide +kernel
  obtain ⟨⟨project, warnings⟩, hmade⟩ := ok_of_isOk hok
  have hone : shrill.map (·.1.songs) = .ok [shrillSong] := by decide +kernel
  rw [hmade] at hone
  have hformed : shrillSong.Formed := ⟨by decide, by decide⟩
  have hheard := heardAs_slotNotes hformed (by decide)
    (List.mem_cons_self : _ ∈ shrillSong.channels) List.mem_cons_self
  obtain ⟨hcode, hcodes⟩ := hheard ⟨.legacy, .square1, soleEncoding.index⟩ [] false none 6 rfl
    (by decide)
  obtain ⟨⟨commands, after⟩, hcommands⟩ := hcode (voiced_sole shrillSong)
  exact ⟨project, warnings, hmade, Except.ok.inj hone, by decide, by decide, commands, after,
    hcommands, hcodes commands after hcommands⟩

end Arrangement

end Chiptune
