import Chiptune.Proofs.PlayOrder
import Chiptune.Proofs.SlotPlayback

/-!
# Playing a song

A channel of an encoded song plays the rows of its passage, before the loop point and from there
on, if and only if all references can count the rows of their buffers. Patterns that are shorter
than 256 rows always allow that.
-/

namespace Chiptune

namespace Song

variable (song : Song) (kernel : Kernel) (factor : Int) (channel : Channel) (takesSpeed : Bool)

/-- What a channel asks of the driver before the loop point. -/
def introRows : List Row :=
  song.passage kernel song.effects takesSpeed channel (song.parts factor).1

/-- What a channel asks of the driver from the loop point on. -/
def bodyRows : List Row :=
  song.passage kernel song.effects takesSpeed channel (song.parts factor).2

end Song

namespace ChannelCode

/-- All references of a channel can count the rows of their buffers. -/
def Fits (code : ChannelCode) : Prop := ∀ slot ∈ code.slots, slot.Fits

/-- The code makes the driver do `intro` once and `body` from the loop point on, as far as its
counts fit. -/
structure Plays (kernel : Kernel) (pool : PatternPool) (code : ChannelCode)
    (intro body : List Event) : Prop where
  intro : Performs kernel pool code.intro intro
  body : Performs kernel pool code.body body

variable {kernel : Kernel} {pool : PatternPool} {code : ChannelCode} {intro body : List Event}

lemma fits_iff (code : ChannelCode) : code.Fits ↔
    (∀ slot ∈ code.intro, slot.Fits) ∧ ∀ slot ∈ code.body, slot.Fits := by
  unfold Fits slots
  constructor
  · intro h
    exact ⟨fun slot hs => h slot (by simp [hs]), fun slot hs => h slot (by simp [hs])⟩
  · rintro ⟨hintro, hbody⟩ slot hs
    rcases List.mem_append.mp hs with hs | hs
    · exact hintro slot hs
    · exact hbody slot hs

lemma Plays.iff_fits (h : code.Plays kernel pool intro body) :
    (playAll? kernel pool code.intro = some intro ∧ playAll? kernel pool code.body = some body) ↔
      code.Fits := by
  rw [h.intro.eq_iff, h.body.eq_iff, fits_iff]

end ChannelCode

section Played

variable {song : Song} {encoding : Encoding} {pool : PatternPool} {speedChannel factor : Int}
  {channel : Channel} {number : Nat}

lemma Song.stream_eq_ok (hc : song.channels[number]? = some channel) {stream : ChannelStream}
    (h : song.stream encoding speedChannel factor number = .ok stream) : ∃ active after,
      song.visitCommands encoding song.effects channel (number = speedChannel) none
        (song.parts factor).1 = .ok (stream.intro, active) ∧
      song.visitCommands encoding song.effects channel (number = speedChannel) active
        (song.parts factor).2 = .ok (stream.body, after) := by
  rw [Song.stream, hc] at h
  obtain ⟨⟨intro, active⟩, hintro, h⟩ := (bind_eq_ok_iff _ _ _).mp h
  obtain ⟨⟨body, after⟩, hbody, h⟩ := (bind_eq_ok_iff _ _ _).mp h
  obtain rfl := Except.ok.inj h
  exact ⟨active, after, hintro, hbody⟩

lemma short_blocks {kernel : Kernel} {blocks : List (List Command)} {visits : List Visit}
    (h : List.Forall₂ (fun block visit => Readable kernel block ∧
      rowCommands block ≤ visit.rows) blocks visits)
    (hv : ∀ visit ∈ visits, visit ∈ song.visits song.effects factor) :
    ∀ block ∈ blocks, Readable kernel block ∧ rowCommands block ≤ song.patternLength := by
  intro block hb
  obtain ⟨visit, hm, hr, hrows⟩ := exists_right_of_mem h hb
  exact ⟨hr, hrows.trans (Song.mem_visits (hv visit hm)).2⟩

/-- The stream of a channel makes the driver do what its rows say, and every slot of it can be read
back and has no more row commands than a pattern has rows. -/
theorem stream_renders (h : ∀ note ∈ song.notes, note.InRange)
    (hc : song.channels[number]? = some channel) {stream : ChannelStream}
    (hs : song.stream encoding speedChannel factor number = .ok stream) :
    let voicing : Voicing := ⟨encoding.kernel, channel.voice, encoding.index⟩
    let takesSpeed := decide ((number : Int) = speedChannel)
    let intro := song.introRows encoding.kernel factor channel takesSpeed
    let body := song.bodyRows encoding.kernel factor channel takesSpeed
    stream.intro.flatMap (commandEvents encoding.kernel) = voicing.events none intro ∧
      stream.body.flatMap (commandEvents encoding.kernel) =
        voicing.events (activeAfter none intro) body ∧
      ∀ block ∈ stream.slots, Readable encoding.kernel block ∧
        rowCommands block ≤ song.patternLength := by
  dsimp only
  obtain ⟨active, after, hintro, hbody⟩ := Song.stream_eq_ok hc hs
  have hmem := List.mem_of_getElem? hc
  obtain ⟨hie, rfl, hir⟩ := visitCommands_renders h hmem hintro
  obtain ⟨hbe, -, hbr⟩ := visitCommands_renders h hmem hbody
  have hvisits : ∀ visit ∈ (song.parts factor).1 ++ (song.parts factor).2,
      visit ∈ song.visits song.effects factor := by
    intro visit hv
    rwa [Song.parts, Song.splitVisits_append] at hv
  refine ⟨hie, hbe, fun block hb => ?_⟩
  rcases List.mem_append.mp hb with hb | hb
  · exact short_blocks hir (fun visit hv => hvisits visit (List.mem_append_left _ hv)) block hb
  · exact short_blocks hbr (fun visit hv => hvisits visit (List.mem_append_right _ hv)) block hb

/-- References to buffers with few row commands can count them. -/
lemma fits_of_short {codes : List SlotCode} {blocks : List (List Command)}
    (h : List.Forall₂ (SlotCode.Represents pool) codes (coded blocks))
    (hb : ∀ block ∈ blocks, rowCommands block ≤ 255) : ∀ slot ∈ codes, slot.Fits := by
  intro slot hs
  obtain ⟨block, hm, hr⟩ := exists_right_of_mem h hs
  cases slot with
  | buffer buffer bytes => exact trivial
  | reference buffer rows =>
    obtain ⟨-, rfl⟩ := hr
    exact Nat.lt_succ_of_le (hb block (List.mem_of_mem_filter hm))

/-- A channel of an encoded song plays its rows if and only if all counts fit. -/
theorem encode_plays (h : ∀ note ∈ song.notes, note.InRange) {code : SongCode}
    (hok : song.encode encoding speedChannel factor pool = .ok code)
    (hc : song.channels[number]? = some channel) :
    let voicing : Voicing := ⟨encoding.kernel, channel.voice, encoding.index⟩
    let takesSpeed := decide ((number : Int) = speedChannel)
    let intro := song.introRows encoding.kernel factor channel takesSpeed
    let body := song.bodyRows encoding.kernel factor channel takesSpeed
    ∃ channelCode, code.channels[number]? = some channelCode ∧
      channelCode.speed = (if takesSpeed then some song.speed else none) ∧
      channelCode.Plays encoding.kernel code.pool (voicing.events none intro)
        (voicing.events (activeAfter none intro) body) ∧
      (song.patternLength ≤ 255 → channelCode.Fits) := by
  dsimp only
  have hstores := encode_stores hok
  obtain ⟨hlt, -⟩ := List.getElem?_eq_some_iff.mp hc
  have hcode := List.getElem?_eq_getElem (hstores.length ▸ hlt)
  obtain ⟨hspeed, stream, hstream, hintro, hbody⟩ := hstores.channel number _ hcode
  obtain ⟨hie, hbe, hblocks⟩ := stream_renders h hc hstream
  have hreadable := fun block hb => (hblocks block hb).1
  refine ⟨_, hcode, by simpa using hspeed, ⟨?_, ?_⟩, ?_⟩
  · rw [← hie]
    exact playAll?_performs hintro fun block hb => hreadable block (List.mem_append_left _ hb)
  · rw [← hbe]
    exact playAll?_performs hbody fun block hb => hreadable block (List.mem_append_right _ hb)
  · intro hshort
    have hcount := fun block hb => (hblocks block hb).2.trans hshort
    rw [ChannelCode.fits_iff]
    exact ⟨fits_of_short hintro fun block hb => hcount block (List.mem_append_left _ hb),
      fits_of_short hbody fun block hb => hcount block (List.mem_append_right _ hb)⟩

end Played

end Chiptune
