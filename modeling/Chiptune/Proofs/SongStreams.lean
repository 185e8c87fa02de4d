import Chiptune.Proofs.SharedBuffers

/-!
# The streams of a song without sharing

`Song.streams` encodes the visited slots of every channel and keeps no pool. The encoder of songs
stores exactly these commands, slot by slot.
-/

namespace Chiptune

/-- The commands of a channel before the loop point and from there on, slot by slot. -/
structure ChannelStream where
  intro : List (List Command)
  body : List (List Command)
  deriving Repr

namespace ChannelStream

def slots (stream : ChannelStream) : List (List Command) := stream.intro ++ stream.body

end ChannelStream

namespace Song

variable (song : Song) (encoding : Encoding) (effects : List SlotEffects)

/-- The commands of the visited slots, and the instrument that is active after them. -/
def visitCommands (channel : Channel) (takesSpeed : Bool) :
    Option InstrumentId → List Visit → Outcome (List (List Command) × Option InstrumentId)
  | active, [] => pure ([], active)
  | active, visit :: rest => do
    let some slot := channel.slots[visit.slot]? | throw .outOfRange
    let (commands, active) ← song.encodeSlot ⟨encoding.kernel, channel.voice, encoding.index⟩
      (effects.getD visit.slot []) takesSpeed active slot visit.rows
    let (blocks, active) ← visitCommands channel takesSpeed active rest
    return (commands :: blocks, active)

def channelStream (visits : List Visit × List Visit) (channel : Channel) (takesSpeed : Bool) :
    Outcome ChannelStream := do
  let (intro, active) ← song.visitCommands encoding effects channel takesSpeed none visits.1
  let (body, _) ← song.visitCommands encoding effects channel takesSpeed active visits.2
  return ⟨intro, body⟩

/-- The visits of a song that was split by `factor`, before the loop point and from there on. -/
def parts (factor : Int) : List Visit × List Visit :=
  splitVisits (song.loopSlot song.effects factor) (song.visits song.effects factor)

/-- The stream of channel `number` of a song that was split by `factor`. -/
def stream (speedChannel factor : Int) (number : Nat) : Outcome ChannelStream := do
  let some channel := song.channels[number]? | throw .outOfRange
  song.channelStream encoding song.effects (song.parts factor) channel (number = speedChannel)

end Song

section Stores

variable {song : Song} {encoding : Encoding} {effects : List SlotEffects} {channel : Channel}
  {takesSpeed : Bool}

lemma storeSlot_stored {capacity : Int} {pool final : PatternPool} {block : List Command}
    {code : Option SlotCode} (h : Song.storeSlot capacity pool block = .ok (code, final)) :
    Stored pool [block] code.toList final := by
  unfold Song.storeSlot at h
  by_cases hempty : (commandBytes block).isEmpty = true
  · simp only [if_pos hempty, pure, Except.pure, Except.ok.injEq, Prod.mk.injEq] at h
    obtain ⟨rfl, rfl⟩ := h
    exact .silent (List.isEmpty_iff.mp hempty) (.nil pool)
  · have hcode : commandBytes block ≠ [] := by simpa using hempty
    simp only [if_neg hempty] at h
    split at h
    · next number hknown =>
      simp only [pure, Except.pure, Except.ok.injEq, Prod.mk.injEq] at h
      obtain ⟨rfl, rfl⟩ := h
      split at hknown
      · cases hknown
      · exact .reference (by omega) hknown (.nil pool)
    · next hnew =>
      split at h
      · cases h
      · simp only [pure, Except.pure, Except.ok.injEq, Prod.mk.injEq] at h
        obtain ⟨rfl, rfl⟩ := h
        refine .buffer hcode ?_ (.nil _)
        intro hlong
        rwa [if_neg (by omega)] at hnew

theorem encodeVisits_stored {visits : List Visit} {progress final : Progress}
    {codes : List SlotCode}
    (h : song.encodeVisits encoding effects channel takesSpeed progress visits =
      .ok (codes, final)) :
    ∃ blocks, song.visitCommands encoding effects channel takesSpeed progress.active visits =
        .ok (blocks, final.active) ∧
      Stored progress.pool blocks codes final.pool := by
  induction visits generalizing progress codes with
  | nil =>
    obtain ⟨rfl, rfl⟩ := Prod.mk.injEq .. ▸ Except.ok.inj h
    exact ⟨[], rfl, .nil _⟩
  | cons visit rest ih =>
    rw [Song.encodeVisits] at h
    cases hslot : channel.slots[visit.slot]? with
    | none => simp [hslot] at h
    | some slot =>
      simp only [hslot] at h
      obtain ⟨⟨commands, active⟩, hcommands, h⟩ := (bind_eq_ok_iff _ _ _).mp h
      obtain ⟨⟨code, pool⟩, hstore, h⟩ := (bind_eq_ok_iff _ _ _).mp h
      obtain ⟨⟨later, last⟩, hrest, h⟩ := (bind_eq_ok_iff _ _ _).mp h
      obtain ⟨rfl, rfl⟩ := Prod.mk.injEq .. ▸ Except.ok.inj h
      obtain ⟨blocks, hblocks, hstored⟩ := ih hrest
      refine ⟨commands :: blocks, ?_, (storeSlot_stored hstore).append hstored⟩
      rw [Song.visitCommands, hslot]
      simp only [(lift_eq_ok_iff _ _).mp hcommands, ok_bind, hblocks]
      rfl

/-- The codes of a channel stand for the slots of its stream that have code. -/
structure ChannelCode.Carries (pool : PatternPool) (code : ChannelCode) (stream : ChannelStream) :
    Prop where
  intro : List.Forall₂ (SlotCode.Represents pool) code.intro (coded stream.intro)
  body : List.Forall₂ (SlotCode.Represents pool) code.body (coded stream.body)

lemma represents_mono {pool larger : PatternPool} {codes : List SlotCode}
    {blocks : List (List Command)} (h : List.Forall₂ (SlotCode.Represents pool) codes blocks)
    (hl : larger.Extends pool) : List.Forall₂ (SlotCode.Represents larger) codes blocks :=
  h.imp fun _ _ hr => hr.mono hl

lemma ChannelCode.Carries.mono {pool larger : PatternPool} {code : ChannelCode}
    {stream : ChannelStream} (h : code.Carries pool stream) (hl : larger.Extends pool) :
    code.Carries larger stream :=
  ⟨represents_mono h.intro hl, represents_mono h.body hl⟩

lemma encodeChannel_stored {visits : List Visit × List Visit} {pool final : PatternPool}
    {code : ChannelCode}
    (h : song.encodeChannel encoding effects visits channel takesSpeed pool = .ok (code, final)) :
    ∃ stream, song.channelStream encoding effects visits channel takesSpeed = .ok stream ∧
      code.speed = (if takesSpeed then some song.speed else none) ∧
      Stored pool stream.slots code.slots final ∧ code.Carries final stream := by
  obtain ⟨⟨intro, middle⟩, hintro, h⟩ := (bind_eq_ok_iff _ _ _).mp h
  obtain ⟨⟨body, last⟩, hbody, h⟩ := (bind_eq_ok_iff _ _ _).mp h
  obtain ⟨rfl, rfl⟩ := Prod.mk.injEq .. ▸ Except.ok.inj h
  obtain ⟨introBlocks, hib, his⟩ := encodeVisits_stored hintro
  obtain ⟨bodyBlocks, hbb, hbs⟩ := encodeVisits_stored hbody
  refine ⟨⟨introBlocks, bodyBlocks⟩, ?_, rfl, his.append hbs,
    represents_mono his.represents hbs.extends_pool, hbs.represents⟩
  rw [Song.channelStream]
  simp only [hib, ok_bind, hbb]
  rfl

lemma encodeChannels_stored {visits : List Visit × List Visit} {speedChannel : Int}
    {channels : List Channel} {number : Nat} {pool final : PatternPool} {codes : List ChannelCode}
    (h : song.encodeChannels encoding effects visits speedChannel number pool channels =
      .ok (codes, final)) :
    (∃ blocks, Stored pool blocks (codes.flatMap ChannelCode.slots) final) ∧
      List.Forall₂ (fun entry code => ∃ stream,
        song.channelStream encoding effects visits entry.1 ((entry.2 : Int) = speedChannel) =
          .ok stream ∧
        code.speed = (if (entry.2 : Int) = speedChannel then some song.speed else none) ∧
        code.Carries final stream) (channels.zipIdx number) codes := by
  induction channels generalizing number pool codes with
  | nil =>
    obtain ⟨rfl, rfl⟩ := Prod.mk.injEq .. ▸ Except.ok.inj h
    exact ⟨⟨[], .nil _⟩, .nil⟩
  | cons channel rest ih =>
    obtain ⟨⟨code, middle⟩, hcode, h⟩ := (bind_eq_ok_iff _ _ _).mp h
    obtain ⟨⟨later, last⟩, hrest, h⟩ := (bind_eq_ok_iff _ _ _).mp h
    obtain ⟨rfl, rfl⟩ := Prod.mk.injEq .. ▸ Except.ok.inj h
    obtain ⟨stream, hstream, hspeed, hstored, hcarries⟩ := encodeChannel_stored hcode
    obtain ⟨⟨blocks, hblocks⟩, hlater⟩ := ih hrest
    refine ⟨⟨stream.slots ++ blocks, hstored.append hblocks⟩, ?_⟩
    rw [List.zipIdx_cons]
    exact .cons ⟨stream, hstream, by simpa using hspeed, hcarries.mono hblocks.extends_pool⟩ hlater

end Stores

/-- What the encoder of songs returns: every channel carries its stream under the final pool. -/
structure SongCode.Stores (song : Song) (encoding : Encoding) (speedChannel factor : Int)
    (pool : PatternPool) (code : SongCode) : Prop where
  stored : ∃ blocks, Stored pool blocks (code.channels.flatMap ChannelCode.slots) code.pool
  length : code.channels.length = song.channels.length
  channel : ∀ (number : Nat) (channel : ChannelCode), code.channels[number]? = some channel →
    channel.speed = (if (number : Int) = speedChannel then some song.speed else none) ∧
    ∃ stream, song.stream encoding speedChannel factor number = .ok stream ∧
      channel.Carries code.pool stream

theorem encode_stores {song : Song} {encoding : Encoding} {speedChannel factor : Int}
    {pool : PatternPool} {code : SongCode}
    (h : song.encode encoding speedChannel factor pool = .ok code) :
    code.Stores song encoding speedChannel factor pool := by
  obtain ⟨⟨channels, final⟩, hchannels, h⟩ := (bind_eq_ok_iff _ _ _).mp h
  dsimp only at h
  have hall : (if Song.piecesUndefined song.effects factor (song.visits song.effects factor) then
      song.channels.take 1 else song.channels) = song.channels := by
    split at h
    · exact nomatch h
    · next hc =>
      simp only [Bool.and_eq_true, not_and, Bool.not_eq_true', Bool.not_eq_false,
        List.isEmpty_iff] at hc
      split
      · next hp => simp [hc hp]
      · rfl
  have hcode : code = ⟨channels, final⟩ := by
    split at h
    · exact nomatch h
    · exact (Except.ok.inj h).symm
  rw [hall] at hchannels
  obtain ⟨hstored, hcarries⟩ := encodeChannels_stored hchannels
  subst hcode
  refine ⟨hstored, by simpa using hcarries.length_eq.symm, ?_⟩
  intro number channel hchannel
  obtain ⟨hlt, hget⟩ := List.getElem?_eq_some_iff.mp hchannel
  have hentry := hcarries.get (i := number) (by rw [hcarries.length_eq]; exact hlt) hlt
  simp only [List.get_eq_getElem, List.getElem_zipIdx, hget, Nat.zero_add] at hentry
  obtain ⟨stream, hstream, hspeed, hc⟩ := hentry
  refine ⟨hspeed, stream, ?_, hc⟩
  have hsong : number < song.channels.length := by
    rwa [← hcarries.length_eq, List.length_zipIdx] at hlt
  rw [Song.stream, List.getElem?_eq_getElem hsong]
  exact hstream

end Chiptune
