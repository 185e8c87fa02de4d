import Chiptune.Proofs.SongStreams

/-!
# The rows of a song in play order

`Song.passage` lists what a channel asks of the driver row by row while it visits some slots. The
commands of the visited slots make the driver do just that.
-/

namespace Chiptune

/-- A stop, a pitch, a release or an empty row. -/
def Note.InRange (note : Note) : Prop :=
  0 ≤ note.value ∧ note.value ≤ 96 ∨ note.value = releaseValue ∨ note.value = emptyValue

instance (note : Note) : Decidable note.InRange :=
  inferInstanceAs (Decidable (_ ∨ _))

namespace Row

lemma ofNote_plain {kernel : Kernel} {note : Note} (h : note.InRange) (speed : Option Int) :
    (ofNote kernel note speed).Plain kernel where
  value := h
  volume := by
    intro level hl
    cases kernel with
    | legacy => simp [ofNote, Kernel.supportsVolume] at hl
    | extended =>
      simp only [ofNote, Kernel.supportsVolume, decide_true, if_true, Option.map_eq_some_iff] at hl
      obtain ⟨volume, -, rfl⟩ := hl
      refine ⟨rfl, ?_⟩
      rw [UInt8.toNat_ofNat_of_lt' (show _ < 256 by omega)]
      omega
  instrument := by
    intro hn
    have hv : note.value = 255 := by simpa [isNote, ofNote, Note.emptyValue] using hn
    simp [ofNote, Note.isMusical, Note.lowest, Note.highest, hv]

lemma ofNotes_mem {kernel : Kernel} {notes : List Note} {effects : SlotEffects} {row : Row}
    (h : row ∈ ofNotes kernel notes effects) :
    ∃ note ∈ notes, ∃ speed, row = ofNote kernel note speed := by
  induction notes generalizing effects with
  | nil => simp [ofNotes] at h
  | cons note notes ih =>
    cases effects with
    | nil =>
      rcases List.mem_cons.mp h with rfl | h
      · exact ⟨note, by simp, none, rfl⟩
      · obtain ⟨other, ho, hr⟩ := ih h
        exact ⟨other, by simp [ho], hr⟩
    | cons first effects =>
      rcases List.mem_cons.mp h with rfl | h
      · exact ⟨note, by simp, first.speed, rfl⟩
      · obtain ⟨other, ho, hr⟩ := ih h
        exact ⟨other, by simp [ho], hr⟩

@[simp] lemma ofNotes_length (kernel : Kernel) (notes : List Note) (effects : SlotEffects) :
    (ofNotes kernel notes effects).length = notes.length := by
  induction notes generalizing effects with
  | nil => rfl
  | cons note notes ih => cases effects <;> simp [ofNotes, ih]

end Row

namespace Song

variable (song : Song) (kernel : Kernel) (effects : List SlotEffects) (takesSpeed : Bool)
  (channel : Channel)

/-- The rows of a channel during some visits. -/
def passage (visits : List Visit) : List Row :=
  visits.flatMap fun visit => song.rows kernel (effects.getD visit.slot []) takesSpeed
    (channel.slots.getD visit.slot none) visit.rows

lemma passage_cons (visit : Visit) (rest : List Visit) :
    song.passage kernel effects takesSpeed channel (visit :: rest) =
      song.rows kernel (effects.getD visit.slot []) takesSpeed
        (channel.slots.getD visit.slot none) visit.rows ++
      song.passage kernel effects takesSpeed channel rest :=
  List.flatMap_cons

variable {song kernel channel}

lemma mem_notes {position : Nat} {note : Note} (hc : channel ∈ song.channels)
    (hp : some position ∈ channel.slots) (hn : note ∈ song.pattern position) :
    note ∈ song.notes := by
  refine List.mem_flatMap.mpr ⟨position, ?_, hn⟩
  refine List.mem_eraseDups.mpr (List.mem_flatMap.mpr ⟨channel, hc, ?_⟩)
  exact List.mem_eraseDups.mpr (List.mem_filterMap.mpr ⟨some position, hp, rfl⟩)

lemma rows_plain (h : ∀ note ∈ song.notes, note.InRange) (hc : channel ∈ song.channels)
    {slot : Option Nat} (hs : slot ∈ channel.slots) (slotEffects : SlotEffects) (count : Nat) :
    ∀ row ∈ song.rows kernel slotEffects takesSpeed slot count, row.Plain kernel := by
  intro row hr
  obtain ⟨note, hn, speed, rfl⟩ := Row.ofNotes_mem hr
  refine Row.ofNote_plain ?_ speed
  have hn := List.mem_of_mem_take hn
  cases slot with
  | none =>
    obtain rfl := List.eq_of_mem_replicate hn
    exact .inr (.inr rfl)
  | some position => exact h note (mem_notes hc hs hn)

lemma rows_length_le (slot : Option Nat) (slotEffects : SlotEffects) (count : Nat) :
    (song.rows kernel slotEffects takesSpeed slot count).length ≤ count := by
  simp [rows]

/-- Every row of a passage comes from a note of the song or from a slot without a pattern. -/
lemma mem_passage (hc : channel ∈ song.channels) {visits : List Visit} {row : Row}
    (h : row ∈ song.passage kernel effects takesSpeed channel visits) :
    ∃ note speed, (note ∈ song.notes ∨ note = .empty) ∧ row = .ofNote kernel note speed := by
  obtain ⟨visit, -, hr⟩ := List.mem_flatMap.mp h
  obtain ⟨note, hn, speed, rfl⟩ := Row.ofNotes_mem hr
  refine ⟨note, speed, ?_, rfl⟩
  have hn := List.mem_of_mem_take hn
  cases hslot : channel.slots[visit.slot]? with
  | none =>
    rw [List.getD_eq_getElem?_getD, hslot] at hn
    exact .inr (List.eq_of_mem_replicate hn)
  | some slot =>
    rw [List.getD_eq_getElem?_getD, hslot] at hn
    cases slot with
    | none => exact .inr (List.eq_of_mem_replicate hn)
    | some position => exact .inl (mem_notes hc (List.mem_of_getElem? hslot) hn)

end Song

/-- The code of a slot can be read back and ends with a row. -/
structure Readable (kernel : Kernel) (block : List Command) : Prop where
  writable : ∀ command ∈ block, command.Writable kernel
  closed : Closed block

/-- The commands of the visited slots make the driver do what the rows of the passage say. -/
theorem visitCommands_renders {song : Song} {encoding : Encoding} {effects : List SlotEffects}
    {channel : Channel} {takesSpeed : Bool} (h : ∀ note ∈ song.notes, note.InRange)
    (hc : channel ∈ song.channels) {visits : List Visit} {active after : Option InstrumentId}
    {blocks : List (List Command)}
    (hok : song.visitCommands encoding effects channel takesSpeed active visits =
      .ok (blocks, after)) :
    let rows := song.passage encoding.kernel effects takesSpeed channel visits
    let voicing : Voicing := ⟨encoding.kernel, channel.voice, encoding.index⟩
    blocks.flatMap (commandEvents encoding.kernel) = voicing.events active rows ∧
      after = activeAfter active rows ∧
      List.Forall₂ (fun block visit => Readable encoding.kernel block ∧
        rowCommands block ≤ visit.rows) blocks visits := by
  dsimp only
  induction visits generalizing active blocks with
  | nil =>
    obtain ⟨rfl, rfl⟩ := Prod.mk.injEq .. ▸ Except.ok.inj hok
    exact ⟨rfl, rfl, .nil⟩
  | cons visit rest ih =>
    rw [Song.visitCommands] at hok
    cases hslot : channel.slots[visit.slot]? with
    | none => simp [hslot] at hok
    | some slot =>
      simp only [hslot] at hok
      obtain ⟨⟨commands, named⟩, hcommands, hok⟩ := (bind_eq_ok_iff _ _ _).mp hok
      obtain ⟨⟨later, last⟩, hlater, hok⟩ := (bind_eq_ok_iff _ _ _).mp hok
      obtain ⟨rfl, rfl⟩ := Prod.mk.injEq .. ▸ Except.ok.inj hok
      obtain ⟨hevents, hafter, hblocks⟩ := ih hlater
      have hget : channel.slots.getD visit.slot none = slot := by simp [List.getD, hslot]
      have hplain : ∀ row ∈ song.rows encoding.kernel (effects.getD visit.slot []) takesSpeed slot
          visit.rows, row.Plain encoding.kernel :=
        Song.rows_plain takesSpeed h hc (List.mem_of_getElem? hslot) _ _
      have hrenders := encodeRows_renders hplain hcommands
      obtain rfl := hrenders.after
      refine ⟨?_, ?_, .cons ⟨⟨hrenders.writable, hrenders.closed⟩, ?_⟩ hblocks⟩
      · rw [List.flatMap_cons, hevents, Song.passage_cons, hget, Voicing.events_append]
        exact congrArg (· ++ _) hrenders.events
      · rw [hafter, Song.passage_cons, hget, activeAfter_append]
      · exact hrenders.count.trans (Song.rows_length_le takesSpeed slot _ _)

end Chiptune
