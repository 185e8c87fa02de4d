import Chiptune.Proofs.ArrangedVoices
import Chiptune.Proofs.LoopLabels

/-!
# The loop of an arrangement

No row of an arranged song has an effect but the first one of the slot of its loop, which jumps. So
the slots before that one are visited one after the other and in whole, and the channels start over
where the jump leads.
-/

namespace Chiptune

/-- Visits to `count` slots from number `slot` on that play all rows. -/
def wholeVisits (size slot count : Nat) : List Visit :=
  (List.range' slot count).map fun number => ⟨number, size⟩

section WholeVisits

variable {size slot count : Nat}

lemma wholeVisits_append (size slot count more : Nat) :
    wholeVisits size slot (count + more) =
      wholeVisits size slot count ++ wholeVisits size (slot + count) more := by
  rw [wholeVisits, wholeVisits, wholeVisits, ← List.map_append, List.range'_append_1]

lemma total_wholeVisits (size slot count : Nat) :
    total Visit.rows (wholeVisits size slot count) = count * size := by
  induction count generalizing slot with
  | zero => rw [Nat.zero_mul]; rfl
  | succ count ih =>
    have hcons : wholeVisits size slot (count + 1) =
        ⟨slot, size⟩ :: wholeVisits size (slot + 1) count := rfl
    rw [hcons, total, ih, Nat.succ_mul, Nat.add_comm]

lemma pieceVisits_whole (size slot count : Nat) :
    pieceVisits size slot (count * size) count = wholeVisits size slot count := by
  induction count generalizing slot with
  | zero => rfl
  | succ count ih =>
    rw [pieceVisits, Nat.succ_mul, if_pos (Nat.le_add_left _ _), Nat.add_sub_cancel, ih]
    rfl

lemma flatMap_wholeVisits (size factor slot count : Nat) :
    (wholeVisits (factor * size) slot count).flatMap (Visit.pieces size factor) =
      wholeVisits size (slot * factor) (count * factor) := by
  induction count generalizing slot with
  | zero => rw [Nat.zero_mul]; rfl
  | succ count ih =>
    have hcons : wholeVisits (factor * size) slot (count + 1) =
        ⟨slot, factor * size⟩ :: wholeVisits (factor * size) (slot + 1) count := rfl
    rw [hcons, List.flatMap_cons, ih, Visit.pieces, pieceVisits_whole, Nat.succ_mul slot,
      Nat.succ_mul count, Nat.add_comm (count * factor), wholeVisits_append]

/-- Slots without a skip or a jump are visited one after the other. -/
lemma visitsFrom_straight {effects : Nat → SlotEffects} {factor : Int} (rest : List SlotEffects)
    (h : ∀ number, slot ≤ number → number < slot + count →
      (effects number).position .skip = none ∧ (effects number).position .jump = none) :
    Song.visitsFrom size factor false slot ((List.range' slot count).map effects ++ rest) =
      wholeVisits size slot count ++ Song.visitsFrom size factor false (slot + count) rest := by
  induction count generalizing slot with
  | zero => rfl
  | succ count ih =>
    obtain ⟨hskip, hjump⟩ := h slot (le_refl _) (by omega)
    rw [List.range'_succ, List.map_cons, List.cons_append, Song.visitsFrom, if_neg (by simp),
      hskip, hjump]
    dsimp only
    rw [ih fun number hle hlt => h number (by omega) (by omega), Nat.add_assoc, Nat.add_comm 1]
    rfl

end WholeVisits

/-- No row of the slot has an effect. -/
def SlotEffects.Idle (slot : SlotEffects) : Prop := ∀ row ∈ slot, row = {}

namespace SlotEffects

lemma idle_withLater {first later : SlotEffects} (h : first.Idle) (h' : later.Idle) :
    (first.withLater later).Idle := by
  induction first generalizing later with
  | nil => exact h'
  | cons row first ih =>
    cases later with
    | nil => exact h
    | cons other later =>
      have hrow := h row List.mem_cons_self
      have hother := h' other List.mem_cons_self
      refine List.forall_mem_cons.mpr ⟨by rw [hrow, hother]; rfl, ih ?_ ?_⟩
      · exact fun next hn => h next (List.mem_cons_of_mem _ hn)
      · exact fun next hn => h' next (List.mem_cons_of_mem _ hn)

lemma idle_foldr {slots : List SlotEffects} (h : ∀ slot ∈ slots, slot.Idle) :
    (slots.foldr withLater []).Idle := by
  induction slots with
  | nil => exact fun _ hr => absurd hr List.not_mem_nil
  | cons slot rest ih =>
    exact idle_withLater (h slot List.mem_cons_self)
      (ih fun other ho => h other (List.mem_cons_of_mem _ ho))

lemma Idle.position {slot : SlotEffects} (h : slot.Idle) (effect : Effect) :
    slot.position effect = none := by
  rw [SlotEffects.position, List.findIdx?_eq_none_iff]
  intro row hr
  rw [h row hr]
  cases effect <;> rfl

lemma Idle.findSome? {slot : SlotEffects} (h : slot.Idle) (effect : Effect) :
    slot.findSome? (fun row => (row.param effect).filter (0 ≤ ·)) = none := by
  rw [List.findSome?_eq_none_iff]
  intro row hr
  rw [h row hr]
  cases effect <;> rfl

end SlotEffects

/-- In its first `count` slots the song has no effect. -/
def Song.IdleUntil (song : Song) (count : Nat) : Prop :=
  ∀ slot < count, (song.slotEffects slot).Idle

/-- The first row of the slot jumps, and the other ones have no effect. -/
def SlotEffects.Jumps (slot : SlotEffects) (target : Int) : Prop :=
  ∃ rest : SlotEffects, slot = { jump := some target } :: rest ∧ rest.Idle

lemma SlotEffects.Jumps.position {slot : SlotEffects} {target : Int} (h : slot.Jumps target) :
    slot.position .skip = none ∧ slot.position .jump = some 0 := by
  obtain ⟨rest, rfl, hrest⟩ := h
  have hskip := hrest.position .skip
  rw [SlotEffects.position] at hskip ⊢
  rw [SlotEffects.position, List.findIdx?_cons, List.findIdx?_cons, hskip]
  exact ⟨rfl, rfl⟩

section Loops

variable {song : Song} {count first : Nat}

lemma effects_range' (song : Song) :
    song.effects = (List.range' 0 song.length).map song.slotEffects := by
  rw [Song.effects, List.range_eq_range']

lemma idle_effects (h : song.IdleUntil count) : ∀ slot ∈ (List.range' 0 count).map song.slotEffects,
    slot.Idle := by
  intro slot hs
  obtain ⟨number, hn, rfl⟩ := List.mem_map.mp hs
  have := (List.mem_range'_1.mp hn).2
  exact h number (by omega)

lemma firstParam_append {idle rest : List SlotEffects} (h : ∀ slot ∈ idle, slot.Idle)
    (effect : Effect) : Song.firstParam (idle ++ rest) effect = Song.firstParam rest effect := by
  have hnone : Song.firstParam idle effect = none := by
    rw [Song.firstParam, List.findSome?_eq_none_iff]
    intro row hr
    obtain ⟨slot, hs, hr⟩ := List.mem_flatten.mp hr
    exact List.findSome?_eq_none_iff.mp ((h slot hs).findSome? effect) row hr
  rw [Song.firstParam] at hnone
  rw [Song.firstParam, List.flatten_append, List.findSome?_append, hnone, Option.none_or]
  rfl

/-- The first slots are visited in whole. -/
lemma visitsFrom_idle (h : song.IdleUntil count) (rest : List SlotEffects) :
    Song.visitsFrom song.patternLength 1 false 0
        ((List.range' 0 count).map song.slotEffects ++ rest) =
      wholeVisits song.patternLength 0 count ++
        Song.visitsFrom song.patternLength 1 false (0 + count) rest :=
  visitsFrom_straight rest fun number _ hlt =>
    ⟨(h number (by omega)).position _, (h number (by omega)).position _⟩

lemma parts_of_idle (h : song.IdleUntil song.length) :
    song.parts 1 = ([], wholeVisits song.patternLength 0 song.length) := by
  have hidle := idle_effects h
  have hvisits : song.visits song.effects 1 = wholeVisits song.patternLength 0 song.length := by
    have hstraight := visitsFrom_idle h []
    rw [List.append_nil, ← effects_range'] at hstraight
    exact hstraight.trans (List.append_nil _)
  have hloop : song.loopSlot song.effects 1 ≤ 0 := by
    rw [Song.loopSlot, effects_range', ← List.append_nil (List.map _ _), firstParam_append hidle]
    split
    · exact le_refl 0
    · exact le_refl 0
  rw [Song.parts, hvisits]
  exact splitVisits_whole (.inl hloop)

lemma splitVisits_wholeVisits {size : Nat} {visit : Visit} {rest : List Visit}
    (h : visit.slot = first) :
    Song.splitVisits first (wholeVisits size 0 first ++ visit :: rest) =
      (wholeVisits size 0 first, visit :: rest) := by
  have hbefore : ∀ earlier ∈ wholeVisits size 0 first,
      decide ((earlier.slot : Int) < first) = true := by
    intro earlier he
    obtain ⟨number, hn, rfl⟩ := List.mem_map.mp he
    have hlt := (List.mem_range'_1.mp hn).2
    rw [Nat.zero_add] at hlt
    exact decide_eq_true (Int.ofNat_lt.mpr hlt)
  unfold Song.splitVisits
  rw [List.span_eq_takeWhile_dropWhile, List.takeWhile_append_of_pos hbefore,
    List.dropWhile_append_of_pos hbefore, List.takeWhile_cons_of_neg (by simp [h]),
    List.dropWhile_cons_of_neg (by simp [h]), List.append_nil]

/-- A song that jumps back from its last slot is repeated from the slot that it jumps to. -/
lemma parts_of_jump (hlength : song.length = count + 1) (h : song.IdleUntil count)
    (hjump : (song.slotEffects count).Jumps first) (hlt : first < count) :
    song.parts 1 = (wholeVisits song.patternLength 0 first,
      wholeVisits song.patternLength first (count - first) ++ [⟨count, 0⟩]) := by
  have heffects : song.effects =
      (List.range' 0 count).map song.slotEffects ++ [song.slotEffects count] := by
    rw [effects_range', hlength, List.range'_1_concat, List.map_append, Nat.zero_add]
    rfl
  have hvisits : song.visits song.effects 1 =
      wholeVisits song.patternLength 0 count ++ [⟨count, 0⟩] := by
    have hstraight := visitsFrom_idle h [song.slotEffects count]
    rw [← heffects] at hstraight
    refine hstraight.trans (congrArg _ ?_)
    rw [Song.visitsFrom, if_neg (by simp), hjump.position.1, hjump.position.2, Nat.zero_add]
  have hloop : song.loopSlot song.effects 1 = first := by
    have hfirst : Song.firstParam song.effects .jump = some (first : Int) := by
      obtain ⟨rest, hslot, -⟩ := hjump
      have hpos : (some (first : Int)).filter (0 ≤ ·) = some (first : Int) := by
        rw [Option.filter_some, if_pos (by simp)]
      rw [heffects, firstParam_append (idle_effects h), Song.firstParam, List.flatten_singleton,
        hslot, List.findSome?_cons, RowEffects.param, hpos]
    rw [Song.loopSlot, hfirst, Option.getD_some, mul_one, if_neg (by omega)]
  obtain ⟨more, rfl⟩ := Nat.exists_eq_add_of_lt hlt
  have hmore : first + more + 1 - first = more + 1 := by omega
  rw [Song.parts, hvisits, hloop, hmore, Nat.add_assoc, wholeVisits_append, Nat.zero_add,
    List.append_assoc]
  exact splitVisits_wholeVisits rfl

end Loops

section Pieces

variable {song pieces : Song} {size factor count first : Nat}

lemma SlotEffects.Idle.unmixed {slot : SlotEffects} (h : slot.Idle) : slot.Unmixed :=
  .inl (h.position .skip)

lemma parts_pieces_of_idle (hcut : Cut song pieces size factor)
    (h : song.IdleUntil song.length) :
    pieces.parts factor = ([], wholeVisits size 0 (song.length * factor)) := by
  have hidle := idle_effects h
  rw [← effects_range'] at hidle
  rw [parts_cut hcut fun slot hs => (hidle slot hs).unmixed, parts_of_idle h, hcut.whole,
    flatMap_wholeVisits, Nat.zero_mul]
  rfl

lemma parts_pieces_of_jump (hcut : Cut song pieces size factor) (hsize : 0 < size)
    (hlength : song.length = count + 1) (h : song.IdleUntil count)
    (hjump : (song.slotEffects count).Jumps first) (hlt : first < count) :
    pieces.parts factor = (wholeVisits size 0 (first * factor),
      wholeVisits size (first * factor) ((count - first) * factor) ++ [⟨count * factor, 0⟩]) := by
  have hunmixed : ∀ slot ∈ song.effects, slot.Unmixed := by
    intro slot hs
    rw [effects_range', hlength, List.range'_1_concat, List.map_append] at hs
    rcases List.mem_append.mp hs with hs | hs
    · exact (idle_effects h slot hs).unmixed
    · obtain rfl := List.mem_singleton.mp hs
      rw [Nat.zero_add]
      exact .inl hjump.position.1
  have hlast : Visit.pieces size factor ⟨count, 0⟩ = [⟨count * factor, 0⟩] := by
    obtain ⟨more, rfl⟩ := Nat.exists_eq_succ_of_ne_zero hcut.positive.ne'
    rw [Visit.pieces, pieceVisits, if_neg (Nat.not_le.mpr hsize)]
  rw [parts_cut hcut hunmixed, parts_of_jump hlength h hjump hlt, hcut.whole, List.flatMap_append,
    flatMap_wholeVisits, flatMap_wholeVisits, Nat.zero_mul, List.flatMap_singleton, hlast]

end Pieces

lemma split_length {song pieces : Song} {factor : Int} (h : song.split factor = some pieces)
    (hlength : song.length ≤ Limits.slots) : pieces.length ≤ Limits.slots := by
  unfold Song.split at h
  split at h
  · cases h
  · split at h
    · exact Option.some.inj h ▸ hlength
    · dsimp only at h
      split at h
      · cases h
      · next hle =>
        obtain rfl := Option.some.inj h
        exact not_lt.mp hle

/-! ### Channels that start over -/

/-- All channels of a code start over from slot `first` of `count` slots: the loop labels stand
there and the channels have that many rows before them and from them on, with `last` as a last
visit. As long as its counts fit, the driver plays just these rows. -/
structure SongCode.StartsOver (code : SongCode) (song pieces : Song) (encoding : Encoding)
    (speedChannel : Int) (factor first count : Nat) (last : List Visit) : Prop where
  labels : code.LabelsBetween pieces encoding speedChannel
    (wholeVisits pieces.patternLength 0 (first * factor))
    (wholeVisits pieces.patternLength (first * factor) ((count - first) * factor) ++ last)
  rows : ∀ index, code.InStep encoding.kernel index (first * song.patternLength)
    ((count - first) * song.patternLength)
  plays : pieces.patternLength ≤ 255 → ∀ channel ∈ code.channels, ∃ intro body,
    playAll? encoding.kernel code.pool channel.intro = some intro ∧
    playAll? encoding.kernel code.pool channel.body = some body ∧
    eventRows intro = first * song.patternLength ∧
    eventRows body = (count - first) * song.patternLength

section StartsOver

variable {song pieces : Song} {encoding : Encoding} {speedChannel factor : Int}
  {pool : PatternPool} {code : SongCode}

lemma encode_playedRows (h : ∀ note ∈ song.notes, note.InRange)
    (hok : song.encode encoding speedChannel factor pool = .ok code)
    (hshort : song.patternLength ≤ 255) : ∀ channel ∈ code.channels, ∃ intro body,
      playAll? encoding.kernel code.pool channel.intro = some intro ∧
      playAll? encoding.kernel code.pool channel.body = some body ∧
      eventRows intro = total Visit.rows (song.parts factor).1 ∧
      eventRows body = total Visit.rows (song.parts factor).2 := by
  intro channel hc
  obtain ⟨number, hlt, rfl⟩ := List.getElem_of_mem hc
  have hstores := encode_stores hok
  have hcode := List.getElem?_eq_getElem hlt
  have hentry := List.getElem?_eq_getElem (hstores.length ▸ hlt)
  obtain ⟨-, stream, hstream, -⟩ := hstores.channel number _ hcode
  obtain ⟨active, after, hintro, hbody⟩ := Song.stream_eq_ok hentry hstream
  obtain ⟨found, hfound, -, hplays, hfits⟩ := encode_plays h hok hentry
  obtain rfl := Option.some.inj (hcode.symm.trans hfound)
  obtain ⟨hfirst, hagain⟩ := hplays.iff_fits.mpr (hfits hshort)
  refine ⟨_, _, hfirst, hagain, ?_, ?_⟩
  · rw [eventRows_events]
    exact passage_length hintro
  · rw [eventRows_events]
    exact passage_length hbody

/-- What the parts of a song are decides how its channels start over. -/
lemma startsOver_of_parts {size first count : Nat} {last : List Visit}
    (h : ∀ note ∈ pieces.notes, note.InRange)
    (hok : pieces.encode encoding speedChannel factor pool = .ok code)
    (hcut : Cut song pieces size factor.toNat)
    (hparts : pieces.parts factor = (wholeVisits size 0 (first * factor.toNat),
      wholeVisits size (first * factor.toNat) ((count - first) * factor.toNat) ++ last))
    (hlast : total Visit.rows last = 0) :
    code.StartsOver song pieces encoding speedChannel factor.toNat first count last := by
  have hintro : total Visit.rows (pieces.parts factor).1 = first * song.patternLength := by
    rw [hparts, total_wholeVisits, hcut.whole, Nat.mul_assoc]
  have hbody : total Visit.rows (pieces.parts factor).2 = (count - first) * song.patternLength := by
    rw [hparts, total_append, total_wholeVisits, hlast, hcut.whole, Nat.mul_assoc, Nat.add_zero]
  refine ⟨?_, fun index => ?_, fun hshort => ?_⟩
  · have hlabels := encode_labelsBetween hok
    rwa [hparts, ← hcut.patternLength] at hlabels
  · have hrows := encode_channelRows h hok index
    rwa [hintro, hbody] at hrows
  · have hplays := encode_playedRows h hok hshort
    rwa [hintro, hbody] at hplays

end StartsOver

lemma idle_channelEffects {song : Song} {channel : Channel} {slot : Nat}
    (h : ∀ position, channel.slots[slot]? = some (some position) →
      ∀ note ∈ song.pattern position, note.effect = .none) :
    (song.channelEffects slot channel).Idle := by
  unfold Song.channelEffects
  split
  · next position hslot =>
    intro row hr
    obtain ⟨note, hn, rfl⟩ := List.mem_map.mp hr
    rw [RowEffects.ofNote, h position hslot note (List.mem_of_mem_take hn)]
  · exact fun _ hr => absurd hr List.not_mem_nil

lemma foldr_withLater_nil {slots : List SlotEffects} (h : ∀ slot ∈ slots, slot = []) :
    slots.foldr SlotEffects.withLater [] = [] := by
  induction slots with
  | nil => rfl
  | cons slot rest ih =>
    rw [List.foldr_cons, ih fun other ho => h other (List.mem_cons_of_mem _ ho),
      h slot List.mem_cons_self]
    rfl

namespace Arrangement

open Midi (NoteSpan)

section Effects

variable {song : Song} {target : Int} {count : Nat}

lemma jumpPattern_effects {length : Nat} (h : 0 < length) :
    SlotEffects.Jumps (((jumpPattern length target).take length).map RowEffects.ofNote) target := by
  obtain ⟨more, rfl⟩ := Nat.exists_eq_succ_of_ne_zero h.ne'
  have hpattern : jumpPattern (more + 1) target =
      { effect := .jump, param := target } :: List.replicate more .empty := rfl
  rw [hpattern, List.take_of_length_le (by simp), List.map_cons, List.map_replicate]
  refine ⟨List.replicate more {}, rfl, fun row hr => List.eq_of_mem_replicate hr⟩

/-- The further slot of a song that jumps back does just that. -/
lemma withJump_jumps (hvoices : song.channels ≠ [])
    (hslots : ∀ channel ∈ song.channels, channel.slots.length = count)
    (hpattern : 0 < song.patternLength) :
    ((withJump song target).slotEffects count).Jumps target := by
  obtain ⟨first, others, hchannels⟩ := List.exists_cons_of_ne_nil hvoices
  have hlast : ∀ channel ∈ song.channels, ∀ last,
      (channel.slots ++ [last])[count]? = some last := by
    intro channel hc last
    rw [← hslots channel hc, List.getElem?_concat_length]
  have hjumped : (withJump song target).channels =
      { first with slots := first.slots ++ [some song.patterns.length] } ::
        (others.zipIdx 1).map fun entry => { entry.1 with slots :=
          entry.1.slots ++ [if entry.2 = 0 then some song.patterns.length else none] } := by
    rw [withJump, hchannels]
    rfl
  -- Only the first channel has a pattern in the slot.
  have hnothing : ∀ slot ∈ ((others.zipIdx 1).map fun entry => { entry.1 with slots :=
        entry.1.slots ++ [if entry.2 = 0 then some song.patterns.length else none] }).map
        ((withJump song target).channelEffects count), slot = [] := by
    intro slot hs
    obtain ⟨channel, hc, rfl⟩ := List.mem_map.mp hs
    obtain ⟨⟨source, number⟩, hsource, rfl⟩ := List.mem_map.mp hc
    have hmem : source ∈ song.channels :=
      hchannels ▸ List.mem_cons_of_mem _ (List.fst_mem_of_mem_zipIdx hsource)
    have hnumber : number ≠ 0 := by
      have := (List.mem_zipIdx hsource).1
      omega
    rw [Song.channelEffects]
    dsimp only
    rw [if_neg hnumber, hlast source hmem]
  rw [Song.slotEffects, hjumped, List.map_cons, List.foldr_cons, foldr_withLater_nil hnothing,
    SlotEffects.withLater_nil, Song.channelEffects]
  dsimp only
  rw [hlast first (hchannels ▸ List.mem_cons_self)]
  dsimp only
  rw [withJump_pattern]
  exact jumpPattern_effects hpattern

end Effects

variable {tree : FileTree} {midi : Midi.Score} {sourceName : String} {options : Options}
  {map : InstrumentMap} {project : Project} {warnings : List Warning} {plan : Plan}

lemma Plan.Leads.idleUntil (h : plan.Leads midi options map project) :
    (looped options (plan.song options)).IdleUntil (plan.length options) := by
  intro slot hslot
  refine SlotEffects.idle_foldr fun effects he => ?_
  obtain ⟨channel, hc, rfl⟩ := List.mem_map.mp he
  refine idle_channelEffects fun position hposition note hn => ?_
  obtain ⟨hlength, ⟨-, hnone⟩ | ⟨part, hp, rows, hcolumn, hspells⟩⟩ := h.channel_cases hc
  · have hempty : (channel.slots.take (plan.length options))[slot]? = some none := by
      rw [hnone, List.getElem?_replicate_of_lt hslot]
    rw [List.getElem?_take_of_lt hslot, hposition] at hempty
    cases hempty
  · rw [← List.getElem?_take_of_lt hslot] at hposition
    obtain ⟨before, after, hfilled⟩ := hcolumn.filled
    have hchunk := List.mem_of_getElem? (hspells.pattern_eq hposition).1
    have hrow := ((chunks_spec (column_holds hfilled).1).2 _ hchunk).2 note hn
    rcases Plan.column_row hp hcolumn hrow with rfl | rfl | ⟨source, -, -, heffect⟩
    · rfl
    · rfl
    · exact heffect

/-- The loop that is asked for, by the rows of the song. -/
lemma looped_eq {start : Int} (hstart : options.loopStart = some start) (hpos : 0 ≤ start)
    {song : Song} (hpattern : 0 < song.patternLength) :
    looped options song =
      if (song.patternLength : Int) ≤ start ∧ start < song.length * song.patternLength then
        withJump song (start / song.patternLength) else song := by
  have hsize : (0 : Int) < song.patternLength := Int.natCast_pos.mpr hpattern
  rw [looped, Options.loopRow, hstart]
  by_cases hzero : start = 0
  · rw [hzero, Option.filter_some, if_neg (by decide), if_neg (by omega)]
  · have hmiddle : start / song.patternLength = 0 ↔ ¬ (song.patternLength : Int) ≤ start := by
      rw [← one_mul (song.patternLength : Int), ← Int.le_ediv_iff_mul_le hsize]
      have := Int.ediv_nonneg hpos hsize.le
      rw [one_mul]
      omega
    rw [Option.filter_some, if_pos (by simpa using hzero)]
    dsimp only
    rw [withLoop]
    by_cases hinside : (song.patternLength : Int) ≤ start ∧
        start < song.length * song.patternLength
    · have hmoved : ¬ (start ≥ song.length * song.patternLength ∨ start / song.patternLength = 0) :=
        not_or.mpr ⟨not_le.mpr hinside.2, fun hfirst => hmiddle.mp hfirst hinside.1⟩
      rw [if_pos hinside, if_neg hmoved]
    · rw [if_neg hinside, if_pos (by rw [hmiddle, ge_iff_le, ← not_lt]; tauto)]

/-- Where the loop is asked for behind the first slot, a further slot jumps back to its slot. -/
lemma Plan.Leads.jumps (h : plan.Leads midi options map project) {start : Int}
    (hstart : options.loopStart = some start) (hpos : 0 ≤ start) :
    let song := looped options (plan.song options)
    0 < song.patternLength → (song.patternLength : Int) ≤ start →
      start < plan.length options * song.patternLength →
      ∃ first : Nat, start / song.patternLength = first ∧ first < plan.length options ∧
        song.length = plan.length options + 1 ∧
        (song.slotEffects (plan.length options)).Jumps first := by
  dsimp only
  rw [looped_patternLength]
  intro hpattern hbehind hinside
  obtain ⟨hlength, -⟩ := plan.song_sameFrame options
  rw [looped_eq hstart hpos hpattern, hlength, if_pos ⟨hbehind, hinside⟩]
  have hsize : (0 : Int) < (plan.song options).patternLength := Int.natCast_pos.mpr hpattern
  obtain ⟨first, hfirst⟩ := Int.eq_ofNat_of_zero_le (Int.ediv_nonneg hpos hsize.le)
  have hlt := (Int.ediv_lt_iff_lt_mul hsize).mpr hinside
  rw [hfirst] at hlt
  refine ⟨first, hfirst, Int.ofNat_lt.mp hlt, ?_, ?_⟩
  · exact congrArg (· + 1) hlength
  · rw [hfirst]
    have hvoices : (plan.song options).channels.map Channel.voice = Voice.all :=
      (Song.voices_fillAll _ plan.columns).trans rfl
    refine withJump_jumps (fun hnone => ?_) (fun channel => h.slots_length) hpattern
    rw [hnone] at hvoices
    cases hvoices

/-- The pieces of the song are visited in whole, first to last and then from the slot of its
loop. -/
lemma Plan.Leads.parts_pieces (h : plan.Leads midi options map project) {start : Int}
    (hstart : options.loopStart = some start) (hpos : 0 ≤ start) :
    let song := looped options (plan.song options)
    let count := plan.length options
    let inside := (song.patternLength : Int) ≤ start ∧ start < count * song.patternLength
    let first := if inside then (start / song.patternLength).toNat else 0
    0 < song.patternLength → first < count ∧ song.length = (if inside then count + 1 else count) ∧
      ∀ pieces size factor, Cut song pieces size factor →
        pieces.parts factor = (wholeVisits size 0 (first * factor),
          wholeVisits size (first * factor) ((count - first) * factor) ++
            if inside then [⟨count * factor, 0⟩] else []) := by
  intro song count inside first hpattern
  have hidle : song.IdleUntil count := h.idleUntil
  by_cases hinside : inside
  · obtain ⟨slot, hslot, hlt, hlength, hjumps⟩ := h.jumps hstart hpos hpattern hinside.1 hinside.2
    have hfirst : first = slot := (if_pos hinside).trans (congrArg Int.toNat hslot)
    rw [hfirst, if_pos hinside]
    refine ⟨hlt, hlength, fun pieces size factor hcut => ?_⟩
    rw [if_pos hinside]
    have hsize : 0 < size := Nat.pos_of_mul_pos_left (hcut.whole ▸ hpattern)
    exact parts_pieces_of_jump hcut hsize hlength hidle hjumps hlt
  · have hfirst : first = 0 := if_neg hinside
    obtain ⟨hcount, hsame⟩ := plan.song_sameFrame options
    have hlength : song.length = count := by
      have hunmoved : song = plan.song options := by
        refine (looped_eq hstart hpos (looped_patternLength options _ ▸ hpattern)).trans ?_
        rw [hcount, ← looped_patternLength options, if_neg hinside]
      rw [hunmoved, hcount]
    rw [hfirst, if_neg hinside]
    refine ⟨?_, hlength, fun pieces size factor hcut => ?_⟩
    · have hslots : 1 ≤ Limits.slots - options.loopSlots := by
        have := options.loopSlots_le
        simp only [Limits.slots]
        omega
      exact (songLength_bounds options.patternLength plan.rows hslots).1
    · rw [parts_pieces_of_idle hcut (hlength ▸ hidle), hlength, if_neg hinside, Nat.zero_mul,
        Nat.sub_zero, List.append_nil]
      rfl

/-- The channels of an arrangement start over where the options say: from the slot of the row that
is asked for, or from the start if that is in the first slot or behind the song. -/
theorem ofScore_loop (h : ofScore tree midi sourceName options map = .ok (project, warnings))
    {start : Int} (hstart : options.loopStart = some start) (hpos : 0 ≤ start) :
    ∃ song grid notes rows, project.songs = [song] ∧ song.length ≤ Limits.slots ∧
      (song.patternLength : Int) = options.patternLength ∧
      (∀ kernel, song.fitted kernel = song) ∧
      Grid.make midi.ticksPerBeat options.rowsPerBeat = .ok grid ∧
      alignScore grid midi.timeline (Midi.notes midi.timeline) = .ok (notes, rows) ∧
      let count := (songLength options.patternLength rows (Limits.slots - options.loopSlots)).1
      let inside := (song.patternLength : Int) ≤ start ∧ start < count * song.patternLength
      let first := if inside then (start / song.patternLength).toNat else 0
      first < count ∧ song.length = (if inside then count + 1 else count) ∧
      ∀ factor pieces, song.split factor = some pieces →
        pieces.length ≤ Limits.slots ∧ ∀ encoding speedChannel pool,
          (pieces.Voiced encoding.index →
            (∀ full, pieces.encode encoding speedChannel factor pool ≠ .error (.poolFull full)) →
            ∃ code, pieces.encode encoding speedChannel factor pool = .ok code) ∧
          ∀ code, pieces.encode encoding speedChannel factor pool = .ok code →
            code.channels.length = Voice.all.length ∧
            code.StartsOver song pieces encoding speedChannel factor.toNat first count
              (if inside then [⟨count * factor.toNat, 0⟩] else []) := by
  obtain ⟨plan, hplan, hholds⟩ := ofScore_plan h
  have hpattern : 0 < (looped options (plan.song options)).patternLength := by
    have := hholds.patternLength
    have := (check_positive hplan.check).2.1
    omega
  obtain ⟨hformed, hnotes, -⟩ := hholds.arranged.encodable
  refine ⟨_, plan.grid, plan.notes, plan.rows, hholds.songs, hholds.length_le, hholds.patternLength,
    hholds.arranged.fitted_eq, hplan.grid, hplan.aligned, ?_⟩
  change let count := plan.length options
    let inside := (_ : Int) ≤ start ∧ start < count * _
    let first := if inside then (start / _).toNat else 0
    first < count ∧ _
  obtain ⟨hlt, hlength, hparts⟩ := hplan.parts_pieces hstart hpos hpattern
  refine ⟨hlt, hlength, fun factor pieces hsplit => ?_⟩
  obtain ⟨size, hfactor, hcut⟩ := split_cut hsplit
  have hrange : ∀ note ∈ pieces.notes, note.InRange := fun note hn =>
    hnotes note (notes_cut hcut hn)
  have hchannels : pieces.channels.length = Voice.all.length := by
    rw [hcut.channels, ← hholds.arranged.voices, List.length_map]
  have hvisits := hparts pieces size factor.toNat hcut
  rw [hfactor] at hvisits
  refine ⟨split_length hsplit hholds.length_le, fun encoding speedChannel pool => ⟨?_, ?_⟩⟩
  · intro hvoiced hroom
    exact (encode_inStep hrange).1 (formed_cut hcut hformed) hvoiced
      (by have := hcut.positive; omega) hroom
  · intro code hok
    refine ⟨(encode_stores hok).length.trans hchannels, ?_⟩
    refine startsOver_of_parts hrange hok hcut hvisits ?_
    split
    · rfl
    · rfl

/-- A note after three beats. -/
def tollScore : Midi.Score where
  type := 1
  ticksPerBeat := 4
  tracks := [[⟨12, .noteOn 0 60 100⟩]]

/-- The toll, arranged in slots of six rows with a loop that is asked for in the second one. -/
def toll : Outcome (Project × List Warning) :=
  ofScore ⟨"/", [], []⟩ tollScore "toll" { patternLength := 6, loopStart := some 7 } {}

theorem toll_loop : ∃ project warnings song, toll = .ok (project, warnings) ∧
    project.songs = [song] ∧ song.length = 4 ∧
    ∀ factor pieces, song.split factor = some pieces → ∀ encoding speedChannel pool code,
      pieces.encode encoding speedChannel factor pool = .ok code →
      code.StartsOver song pieces encoding speedChannel factor.toNat 1 3
        [⟨3 * factor.toNat, 0⟩] := by
  have hok : toll.isOk = true := by decide +kernel
  obtain ⟨⟨project, warnings⟩, hmade⟩ := ok_of_isOk hok
  obtain ⟨song, grid, notes, rows, hsongs, -, hpattern, -, hgrid, haligned, -, hlength, hcodes⟩ :=
    ofScore_loop hmade rfl (by decide)
  have hunit : Grid.make 4 4 = .ok ⟨⟨4503599627370496, -52⟩⟩ := by decide +kernel
  obtain rfl := Except.ok.inj (hunit.symm.trans hgrid)
  have hrows : alignScore ⟨⟨4503599627370496, -52⟩⟩ tollScore.timeline
      (Midi.notes tollScore.timeline) = .ok ([⟨12, 1, 0, 60, 100⟩], 13) := by decide +kernel
  obtain ⟨-, rfl⟩ := Prod.mk.injEq .. ▸ Except.ok.inj (hrows.symm.trans haligned)
  have hsize : (song.patternLength : Int) = 6 := hpattern
  rw [hsize] at hlength hcodes
  refine ⟨project, warnings, song, hmade, hsongs, hlength, ?_⟩
  intro factor pieces hsplit encoding speedChannel pool code hcode
  exact (((hcodes factor pieces hsplit).2 encoding speedChannel pool).2 code hcode).2

end Arrangement

end Chiptune
