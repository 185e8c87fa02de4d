import Chiptune.Proofs.Encodable
import Chiptune.Proofs.SplitVisits

/-!
# The music of a split song

A song and its pieces ask for the same rows in every channel, before the loop point and from there
on. So their code makes the driver do the same, unless a reference of one of them cannot count the
rows of its buffer.
-/

namespace Chiptune

section Notes

lemma ofNotes_append (kernel : Kernel) (notes more : List Note) (effects : SlotEffects) :
    Row.ofNotes kernel (notes ++ more) effects = Row.ofNotes kernel notes effects ++
      Row.ofNotes kernel more (effects.drop notes.length) := by
  induction notes generalizing effects with
  | nil => rfl
  | cons note notes ih =>
    cases effects with
    | nil =>
      have htail := ih []
      rw [List.drop_nil] at htail
      rw [List.cons_append, Row.ofNotes, htail, Row.ofNotes, List.cons_append, List.drop_nil]
    | cons first effects =>
      rw [List.cons_append, Row.ofNotes, ih, Row.ofNotes, List.cons_append, List.length_cons,
        List.drop_succ_cons]

/-- Effects after the last note do not count. -/
lemma ofNotes_take (kernel : Kernel) {notes : List Note} {size : Nat} (h : notes.length ≤ size)
    (effects : SlotEffects) :
    Row.ofNotes kernel notes (effects.take size) = Row.ofNotes kernel notes effects := by
  induction notes generalizing effects size with
  | nil => rfl
  | cons note notes ih =>
    rw [List.length_cons] at h
    obtain ⟨size, rfl⟩ := Nat.exists_eq_succ_of_ne_zero (show size ≠ 0 by omega)
    cases effects with
    | nil => simp
    | cons first effects =>
      rw [List.take_succ_cons, Row.ofNotes, Row.ofNotes, ih (by omega)]

/-- Without its first piece a list has the other pieces, one place further on. -/
lemma pieces_drop {α : Type} (pieceAt : Nat → List α) {size slot count : Nat} {whole : List α}
    (h : ∀ k < count + 1, pieceAt (slot + k) = (whole.drop (k * size)).take size) :
    ∀ k < count, pieceAt (slot + 1 + k) = ((whole.drop size).drop (k * size)).take size := by
  intro k hk
  have hat := h (k + 1) (by omega)
  rw [show slot + (k + 1) = slot + 1 + k by omega,
    show (k + 1) * size = size + k * size by rw [Nat.add_mul, Nat.one_mul, Nat.add_comm]] at hat
  rw [hat, List.drop_drop]

/-- The rows of the pieces of a slot are the rows of the slot. -/
lemma rows_pieceVisits (kernel : Kernel) {size slot count : Nat} {notes : List Note}
    {effects : SlotEffects} (notesAt : Nat → List Note) (effectsAt : Nat → SlotEffects)
    (hn : ∀ k < count, (notesAt (slot + k)).take size = (notes.drop (k * size)).take size)
    (he : ∀ k < count, effectsAt (slot + k) = (effects.drop (k * size)).take size) (rows : Nat) :
    (pieceVisits size slot rows count).flatMap (fun visit =>
      Row.ofNotes kernel ((notesAt visit.slot).take visit.rows) (effectsAt visit.slot)) =
    Row.ofNotes kernel ((notes.take (count * size)).take rows) effects := by
  induction count generalizing slot notes effects rows with
  | zero => simp [pieceVisits, Row.ofNotes]
  | succ count ih =>
    have hfirst : (notesAt slot).take size = notes.take size := by
      simpa using hn 0 (by omega)
    have hfirstEffects : effectsAt slot = effects.take size := by
      simpa using he 0 (by omega)
    have hwhole : (count + 1) * size = size + count * size := by
      rw [Nat.add_mul, Nat.one_mul, Nat.add_comm]
    rw [pieceVisits]
    by_cases hle : size ≤ rows
    · have hrows : (notes.take ((count + 1) * size)).take rows = notes.take size ++
          ((notes.drop size).take (count * size)).take (rows - size) := by
        rw [List.take_take, hwhole, List.take_take, ← List.take_add]
        congr 1
        omega
      have hnext := pieces_drop (fun slot => (notesAt slot).take size) hn
      rw [if_pos hle, List.flatMap_cons, ih hnext (pieces_drop effectsAt he), hrows,
        ofNotes_append, hfirst, hfirstEffects, ofNotes_take kernel (by simp)]
      by_cases hlong : size ≤ notes.length
      · rw [List.length_take, Nat.min_eq_left hlong]
      · rw [List.drop_eq_nil_of_le (show notes.length ≤ size by omega)]
        simp [Row.ofNotes]
    · have hrows : (notes.take ((count + 1) * size)).take rows = notes.take rows := by
        rw [List.take_take, Nat.min_eq_left (by omega)]
      have hcut : (notesAt slot).take rows = notes.take rows := by
        calc (notesAt slot).take rows = ((notesAt slot).take size).take rows := by
              rw [List.take_take, Nat.min_eq_left (by omega)]
          _ = notes.take rows := by
              rw [hfirst, List.take_take, Nat.min_eq_left (by omega)]
      rw [if_neg hle, hrows, List.flatMap_cons, List.flatMap_nil, List.append_nil]
      dsimp only
      rw [hcut, hfirstEffects]
      refine ofNotes_take kernel ?_ effects
      rw [List.length_take]
      omega

end Notes

section Passages

variable {song pieces : Song} {size factor : Nat} {channel : Channel} {slots : List (Option Nat)}

/-- The notes of the pieces of a slot. -/
lemma slotNotes_cut (h : Cut song pieces size factor)
    (hc : ChannelCut song pieces size factor channel.slots slots) {i k : Nat}
    (hi : i < channel.slots.length) (hk : k < factor) :
    (pieces.slotNotes (slots.getD (i * factor + k) none)).take size =
      ((song.slotNotes (channel.slots.getD i none)).drop (k * size)).take size := by
  rw [List.getD_eq_getElem?_getD, List.getD_eq_getElem?_getD]
  cases hslot : channel.slots[i]? with
  | none => exact absurd (List.getElem?_eq_none_iff.mp hslot) (by omega)
  | some slot =>
    cases slot with
    | none =>
      have hfit := h.rows_le hk
      rw [hc.empty i k hslot hk]
      simp only [Option.getD_some, Song.slotNotes, h.patternLength, List.drop_replicate,
        List.take_replicate]
      congr 1
      omega
    | some position =>
      obtain ⟨other, hother, hpattern, -⟩ := hc.pattern i k position hslot hk
      rw [hother]
      exact hpattern

lemma effects_getD_cut (h : Cut song pieces size factor) {i k : Nat} (hi : i < song.length)
    (hk : k < factor) : pieces.effects.getD (i * factor + k) [] =
      ((song.effects.getD i []).drop (k * size)).take size := by
  rw [List.getD_eq_getElem?_getD, List.getD_eq_getElem?_getD, Song.effects, Song.effects,
    List.getElem?_map, List.getElem?_map, List.getElem?_range (h.piece_lt hi hk),
    List.getElem?_range hi]
  exact slotEffects_cut h i hk

/-- A channel asks for the rows of a visit to a slot in the pieces of that slot. -/
lemma passage_pieces (h : Cut song pieces size factor)
    (hc : ChannelCut song pieces size factor channel.slots slots) (kernel : Kernel)
    (takesSpeed : Bool) {visit : Visit} (hslot : visit.slot < song.length)
    (hin : visit.slot < channel.slots.length) (hrows : visit.rows ≤ song.patternLength) :
    pieces.passage kernel pieces.effects takesSpeed { channel with slots }
        (visit.pieces size factor) =
      song.rows kernel (song.effects.getD visit.slot []) takesSpeed
        (channel.slots.getD visit.slot none) visit.rows := by
  have hn := fun k hk => slotNotes_cut h hc hin (show k < factor from hk)
  have he : ∀ k < factor, (if takesSpeed then
      pieces.effects.getD (visit.slot * factor + k) [] else []) =
      ((if takesSpeed then song.effects.getD visit.slot [] else []).drop (k * size)).take size := by
    intro k hk
    cases takesSpeed with
    | false => simp
    | true => exact effects_getD_cut h hslot hk
  have hall := rows_pieceVisits kernel
    (fun number => pieces.slotNotes (slots.getD number none))
    (fun number => if takesSpeed then pieces.effects.getD number [] else []) hn he visit.rows
  rw [List.take_take, Nat.min_eq_left (h.whole ▸ hrows)] at hall
  exact hall

/-- A channel asks for the same rows in the pieces of the visited slots. -/
theorem passage_cut (h : Cut song pieces size factor)
    (hc : ChannelCut song pieces size factor channel.slots slots)
    (hslots : channel.slots.length = song.length) (kernel : Kernel) (takesSpeed : Bool)
    {visits : List Visit}
    (hv : ∀ visit ∈ visits, visit.slot < song.length ∧ visit.rows ≤ song.patternLength) :
    pieces.passage kernel pieces.effects takesSpeed { channel with slots }
      (visits.flatMap (Visit.pieces size factor)) =
    song.passage kernel song.effects takesSpeed channel visits := by
  induction visits with
  | nil => rfl
  | cons visit rest ih =>
    obtain ⟨hslot, hrows⟩ := hv visit (by simp)
    rw [List.flatMap_cons, Song.passage_cons, ← ih fun other ho => hv other (by simp [ho]),
      ← passage_pieces h hc kernel takesSpeed hslot (hslots ▸ hslot) hrows]
    exact List.flatMap_append

/-- A channel asks for the same rows before the loop point and from there on. -/
lemma rows_cut (h : Cut song pieces size factor) (hu : ∀ slot ∈ song.effects, slot.Unmixed)
    (hc : ChannelCut song pieces size factor channel.slots slots)
    (hslots : channel.slots.length = song.length) (kernel : Kernel) (takesSpeed : Bool) :
    pieces.introRows kernel factor { channel with slots } takesSpeed =
        song.introRows kernel 1 channel takesSpeed ∧
      pieces.bodyRows kernel factor { channel with slots } takesSpeed =
        song.bodyRows kernel 1 channel takesSpeed := by
  have hvisits : ∀ visit ∈ (song.parts 1).1 ++ (song.parts 1).2,
      visit.slot < song.length ∧ visit.rows ≤ song.patternLength := by
    intro visit hm
    rw [Song.parts, Song.splitVisits_append] at hm
    exact Song.mem_visits hm
  rw [Song.introRows, Song.bodyRows, parts_cut h hu]
  exact ⟨passage_cut h hc hslots kernel takesSpeed
      fun visit hm => hvisits visit (List.mem_append_left _ hm),
    passage_cut h hc hslots kernel takesSpeed
      fun visit hm => hvisits visit (List.mem_append_right _ hm)⟩

end Passages

section Songs

variable {song pieces : Song} {size factor : Nat} {channel : Channel} {slots : List (Option Nat)}

/-- A slot of a cut channel plays a piece of a pattern of the channel. -/
lemma mem_channelCut (h : Cut song pieces size factor)
    (hc : ChannelCut song pieces size factor channel.slots slots) {other : Nat}
    (ho : some other ∈ slots) : ∃ k position, k < factor ∧ some position ∈ channel.slots ∧
      (pieces.pattern other).take size = ((song.pattern position).drop (k * size)).take size ∧
      ∀ note ∈ pieces.pattern other, note ∈ song.pattern position := by
  obtain ⟨number, hlt, hget⟩ := List.mem_iff_getElem.mp ho
  have hk := Nat.mod_lt number h.positive
  have hnumber : number / factor * factor + number % factor = number := by
    rw [Nat.mul_comm]
    exact Nat.div_add_mod number factor
  have hat : slots[number / factor * factor + number % factor]? = some (some other) := by
    rw [hnumber, List.getElem?_eq_getElem hlt, hget]
  have hi : number / factor < channel.slots.length := by
    rw [Nat.div_lt_iff_lt_mul h.positive, ← hc.length]
    exact hlt
  cases hslot : channel.slots[number / factor] with
  | none =>
    have hnone := hc.empty _ _ (List.getElem?_eq_some_iff.mpr ⟨hi, hslot⟩) hk
    exact nomatch hnone.symm.trans hat
  | some position =>
    obtain ⟨found, hfound, hpattern, hsub⟩ :=
      hc.pattern _ _ position (List.getElem?_eq_some_iff.mpr ⟨hi, hslot⟩) hk
    obtain rfl : found = other := by simpa using hfound.symm.trans hat
    exact ⟨_, position, hk, hslot ▸ List.getElem_mem hi, hpattern, hsub⟩

lemma mem_channels_cut (h : Cut song pieces size factor) {cut : Channel}
    (hm : cut ∈ pieces.channels) : ∃ channel ∈ song.channels, ∃ slots,
      cut = { channel with slots } ∧ ChannelCut song pieces size factor channel.slots slots := by
  obtain ⟨number, hlt, rfl⟩ := List.mem_iff_getElem.mp hm
  rw [h.channels] at hlt
  obtain ⟨slots, hget, hcut⟩ := h.channel number _ (List.getElem?_eq_getElem hlt)
  exact ⟨_, List.getElem_mem hlt, slots, (List.getElem?_eq_some_iff.mp hget).2, hcut⟩

lemma mem_used {position : Nat} :
    position ∈ song.used ↔ ∃ channel ∈ song.channels, some position ∈ channel.slots := by
  simp [Song.used, Channel.used]

lemma notes_cut (h : Cut song pieces size factor) {note : Note} (hn : note ∈ pieces.notes) :
    note ∈ song.notes := by
  obtain ⟨other, hother, hn⟩ := List.mem_flatMap.mp hn
  obtain ⟨cut, hm, hslot⟩ := mem_used.mp hother
  obtain ⟨channel, hc, slots, rfl, hcut⟩ := mem_channels_cut h hm
  obtain ⟨-, position, -, hp, -, hsub⟩ := mem_channelCut h hcut hslot
  exact Song.mem_notes hc hp (hsub note hn)

lemma formed_cut (h : Cut song pieces size factor) (hf : song.Formed) : pieces.Formed where
  slots := by
    intro cut hm
    obtain ⟨channel, hc, slots, rfl, hcut⟩ := mem_channels_cut h hm
    rw [hcut.length, hf.slots channel hc, h.length]
  rows := by
    intro other hother
    obtain ⟨cut, hm, hslot⟩ := mem_used.mp hother
    obtain ⟨channel, hc, slots, rfl, hcut⟩ := mem_channels_cut h hm
    obtain ⟨k, position, hk, hp, hpattern, -⟩ := mem_channelCut h hcut hslot
    have hlong := hf.rows position (mem_used.mpr ⟨channel, hc, hp⟩)
    have hfit := h.rows_le hk
    have hlength := congrArg List.length hpattern
    rw [List.length_take, List.length_take, List.length_drop] at hlength
    rw [h.patternLength]
    omega

end Songs

/-- Two channel codes set the same speed and make the driver do the same before the loop point and
from there on. -/
structure SameMusic (kernel : Kernel) (pool other : PatternPool) (code cut : ChannelCode) :
    Prop where
  speed : code.speed = cut.speed
  intro : playAll? kernel pool code.intro = playAll? kernel other cut.intro
  body : playAll? kernel pool code.body = playAll? kernel other cut.body

/-- Of two codes for the same events one plays them just if both do or it is alone in that. -/
lemma sameMusic_iff {kernel : Kernel} {pool other : PatternPool} {code cut : ChannelCode}
    {intro body : List Event} (hspeed : code.speed = cut.speed)
    (h : code.Plays kernel pool intro body) (hcut : cut.Plays kernel other intro body)
    (hfits : code.Fits ∨ cut.Fits) :
    SameMusic kernel pool other code cut ↔ code.Fits ∧ cut.Fits := by
  constructor
  · rintro ⟨-, hintro, hbody⟩
    rcases hfits with hf | hf
    · obtain ⟨hi, hb⟩ := h.iff_fits.mpr hf
      exact ⟨hf, hcut.iff_fits.mp ⟨hintro.symm.trans hi, hbody.symm.trans hb⟩⟩
    · obtain ⟨hi, hb⟩ := hcut.iff_fits.mpr hf
      exact ⟨h.iff_fits.mp ⟨hintro.trans hi, hbody.trans hb⟩, hf⟩
  · rintro ⟨hf, hf'⟩
    obtain ⟨hi, hb⟩ := h.iff_fits.mpr hf
    obtain ⟨hi', hb'⟩ := hcut.iff_fits.mpr hf'
    exact ⟨hspeed, hi.trans hi'.symm, hb.trans hb'.symm⟩

/-- A song and its pieces have the same music, channel by channel, if all their counts fit, as they
do in patterns shorter than 256 rows, and other music if those of just one of them do. -/
theorem split_sameMusic {song pieces : Song} {encoding : Encoding} {speedChannel factor : Int}
    {pool : PatternPool} (hf : song.Formed) (hn : ∀ note ∈ song.notes, note.InRange)
    (hv : song.Voiced encoding.index) (hu : ∀ slot ∈ song.effects, slot.Unmixed)
    (hs : song.split factor = some pieces)
    (hwhole : ∀ full, song.encode encoding speedChannel 1 pool ≠ .error (.poolFull full))
    (hpieces : ∀ full, pieces.encode encoding speedChannel factor pool ≠ .error (.poolFull full)) :
    ∃ whole cut, song.encode encoding speedChannel 1 pool = .ok whole ∧
      pieces.encode encoding speedChannel factor pool = .ok cut ∧
      whole.channels.length = song.channels.length ∧
      cut.channels.length = song.channels.length ∧
      ∀ (number : Nat) (code other : ChannelCode), whole.channels[number]? = some code →
        cut.channels[number]? = some other →
        (song.patternLength ≤ 255 → code.Fits ∧ other.Fits) ∧
        (code.Fits ∨ other.Fits →
          (SameMusic encoding.kernel whole.pool cut.pool code other ↔ code.Fits ∧ other.Fits)) := by
  obtain ⟨size, hfactor, hcut⟩ := split_cut hs
  have hpos : (0 : Int) < factor.toNat := by exact_mod_cast hcut.positive
  have hnPieces : ∀ note ∈ pieces.notes, note.InRange := fun note hm => hn note (notes_cut hcut hm)
  have hvPieces : pieces.Voiced encoding.index := fun note hm => hv note (notes_cut hcut hm)
  obtain ⟨whole, hw⟩ := (encode_unfailing hf hn hv speedChannel one_ne_zero pool).ok_or_full
    |>.resolve_right fun ⟨full, hfull⟩ => hwhole full hfull
  obtain ⟨cut, hc⟩ := (encode_unfailing (formed_cut hcut hf) hnPieces hvPieces speedChannel
    (show factor ≠ 0 by omega) pool).ok_or_full
    |>.resolve_right fun ⟨full, hfull⟩ => hpieces full hfull
  have hwlength := (encode_stores hw).length
  have hclength := (encode_stores hc).length.trans hcut.channels
  refine ⟨whole, cut, hw, hc, hwlength, hclength, ?_⟩
  intro number code other hcode hother
  have hlt : number < song.channels.length := by
    rw [← hwlength]
    exact (List.getElem?_eq_some_iff.mp hcode).1
  have hchannel := List.getElem?_eq_getElem hlt
  obtain ⟨slots, hget, hslots⟩ := hcut.channel number _ hchannel
  obtain ⟨found, hfound, hspeed, hplays, hshort⟩ := encode_plays hn hw hchannel
  obtain rfl := Option.some.inj (hcode.symm.trans hfound)
  obtain ⟨found', hfound', hspeed', hplays', hshort'⟩ := encode_plays hnPieces hc hget
  obtain rfl := Option.some.inj (hother.symm.trans hfound')
  obtain ⟨hintro, hbody⟩ := rows_cut hcut hu hslots (hf.slots _ (List.getElem_mem hlt))
    encoding.kernel (number = speedChannel)
  rw [hfactor] at hintro hbody
  rw [hintro, hbody] at hplays'
  have hspeeds : code.speed = other.speed := by rw [hspeed, hspeed', hcut.speed]
  refine ⟨?_, sameMusic_iff hspeeds hplays hplays'⟩
  intro hle
  refine ⟨hshort hle, hshort' ?_⟩
  rw [hcut.patternLength]
  exact le_trans (Nat.le_mul_of_pos_left size hcut.positive) (hcut.whole ▸ hle)

def soleEncoding : Encoding where
  kernel := .extended
  index := fun _ => some 0

lemma voiced_sole (song : Song) : song.Voiced soleEncoding.index :=
  fun _ _ _ _ _ => ⟨0, rfl, by decide⟩

/-- A skip in the second slot and a jump back to it in the third one. -/
def windingSong : Song where
  id := 0
  name := "winding"
  patternLength := 4
  length := 3
  patterns := [
    [{ value := 30, instrument := some 0 }, {}, { value := 32, instrument := some 0 }, {}],
    [{ value := 35, instrument := some 0 }, { value := 36 }, { effect := .skip }, { value := 38 }],
    [{ effect := .speed, param := 5 }, { value := 40 }, {}, { effect := .jump, param := 1 }]]
  channels := [⟨.square1, [some 0, some 1, some 2]⟩, ⟨.square2, [some 0, none, some 0]⟩]

def windingPieces : Song where
  id := 0
  name := "winding"
  patternLength := 2
  length := 6
  patterns := [
    [{ value := 30, instrument := some 0 }, {}], [{ value := 32, instrument := some 0 }, {}],
    [{ value := 35, instrument := some 0 }, { value := 36 }],
    [{ effect := .skip }, { value := 38 }],
    [{ effect := .speed, param := 5 }, { value := 40 }], [{}, { effect := .jump, param := 1 }],
    [{ value := 30, instrument := some 0 }, {}], [{ value := 32, instrument := some 0 }, {}]]
  channels := [⟨.square1, [some 0, some 1, some 2, some 3, some 4, some 5]⟩,
    ⟨.square2, [some 6, some 7, none, none, some 6, some 7]⟩]

lemma windingSong_formed : windingSong.Formed where
  slots := by decide
  rows := by decide

theorem windingSong_sameMusic : windingSong.split 2 = some windingPieces ∧
    ∃ whole cut, windingSong.encode soleEncoding 1 1 {} = .ok whole ∧
      windingPieces.encode soleEncoding 1 2 {} = .ok cut ∧
      ∀ (number : Nat) (code other : ChannelCode), whole.channels[number]? = some code →
        cut.channels[number]? = some other →
        SameMusic .extended whole.pool cut.pool code other := by
  have hsplit : windingSong.split 2 = some windingPieces := by decide
  have hwhole : (windingSong.encode soleEncoding 1 1 {}).isOk = true := by decide +kernel
  have hpieces : (windingPieces.encode soleEncoding 1 2 {}).isOk = true := by decide +kernel
  have hroom : ∀ full, windingSong.encode soleEncoding 1 1 {} ≠ .error (.poolFull full) := by
    intro full he
    rw [he] at hwhole
    exact nomatch hwhole
  have hroomPieces : ∀ full,
      windingPieces.encode soleEncoding 1 2 {} ≠ .error (.poolFull full) := by
    intro full he
    rw [he] at hpieces
    exact nomatch hpieces
  obtain ⟨whole, cut, hw, hc, -, -, hsame⟩ := split_sameMusic windingSong_formed (by decide)
    (voiced_sole windingSong) (by decide) hsplit hroom hroomPieces
  refine ⟨hsplit, whole, cut, hw, hc, fun number code other hcode hother => ?_⟩
  obtain ⟨hfits, hiff⟩ := hsame number code other hcode hother
  have hboth := hfits (by decide)
  exact (hiff (.inl hboth.1)).mpr hboth

/-- One pattern of 256 rows in two slots. -/
def longSong : Song where
  id := 0
  name := "long"
  patternLength := 256
  length := 2
  patterns := [List.replicate 256 { value := 30 }]
  channels := [⟨.square1, [some 0, some 0]⟩]

def longPieces : Song where
  id := 0
  name := "long"
  patternLength := 128
  length := 4
  patterns := [List.replicate 128 { value := 30 }, List.replicate 128 { value := 30 }]
  channels := [⟨.square1, [some 0, some 1, some 0, some 1]⟩]

/-- The count of 256 row commands is written as a zero, while the pieces can count theirs. -/
theorem longSong_otherMusic : longSong.Formed ∧ (∀ note ∈ longSong.notes, note.InRange) ∧
    longSong.Voiced soleEncoding.index ∧ (∀ slot ∈ longSong.effects, slot.Unmixed) ∧
    longSong.split 2 = some longPieces ∧
    let long := List.replicate 256 (21 : UInt8)
    let half := List.replicate 128 (21 : UInt8)
    let code : ChannelCode := ⟨some 6, [], [.buffer 0 long, .reference 0 256]⟩
    let other : ChannelCode :=
      ⟨some 6, [], [.buffer 0 half, .reference 0 128, .reference 0 128, .reference 0 128]⟩
    longSong.encode soleEncoding 0 1 {} = .ok ⟨[code], ⟨#[long]⟩⟩ ∧
    longPieces.encode soleEncoding 0 2 {} = .ok ⟨[other], ⟨#[half]⟩⟩ ∧
    ¬ SameMusic .extended ⟨#[long]⟩ ⟨#[half]⟩ code other := by
  refine ⟨⟨by decide, by decide +kernel⟩, by decide +kernel, voiced_sole longSong,
    by decide +kernel, by decide +kernel, by decide +kernel, by decide +kernel, ?_⟩
  rintro ⟨-, -, hbody⟩
  exact absurd (congrArg (Option.map List.length) hbody) (by decide +kernel)

end Chiptune
