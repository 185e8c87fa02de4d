import Chiptune.Proofs.SongPlayback

/-!
# Songs that can be encoded

Nothing but a full pool stops the encoder on a song whose patterns are long enough and whose
instruments are in the table.
-/

namespace Chiptune

/-- Every channel has all slots of the song and every pattern that is played has all its rows. -/
structure Song.Formed (song : Song) : Prop where
  slots : ∀ channel ∈ song.channels, channel.slots.length = song.length
  rows : ∀ position ∈ song.used, song.patternLength ≤ (song.pattern position).length

/-- The instruments of the notes are in the table. -/
def Song.Voiced (song : Song) (index : InstrumentId → Option Nat) : Prop :=
  ∀ note ∈ song.notes, note.isMusical = true → ∀ id, note.instrument = some id →
    ∃ place, index id = some place ∧ place < Limits.instruments

/-- Nothing but a full pool stops the computation. -/
def Unfailing {α : Type} (x : Except Obstacle α) : Prop := ∀ error, x ≠ .error (.failure error)

section Unfailing

variable {α β : Type}

lemma unfailing_ok (a : α) : Unfailing (.ok a) := fun _ h => nomatch h

lemma Unfailing.bind {x : Except Obstacle α} {f : α → Except Obstacle β} (hx : Unfailing x)
    (hf : ∀ a, x = .ok a → Unfailing (f a)) : Unfailing (x >>= f) := by
  cases x with
  | error obstacle =>
    intro error he
    have hobstacle : obstacle = .failure error := Except.error.inj he
    exact hx error (congrArg Except.error hobstacle)
  | ok a => exact hf a rfl

lemma unfailing_lift {x : Outcome α} {a : α} (h : x = .ok a) :
    Unfailing (liftM x : Except Obstacle α) := by
  subst h
  exact unfailing_ok a

lemma Unfailing.ok_or_full {x : Except Obstacle α} (h : Unfailing x) :
    (∃ a, x = .ok a) ∨ ∃ pool, x = .error (.poolFull pool) := by
  cases x with
  | ok a => exact .inl ⟨a, rfl⟩
  | error obstacle =>
    cases obstacle with
    | failure error => exact absurd rfl (h error)
    | poolFull pool => exact .inr ⟨pool, rfl⟩

end Unfailing

lemma change_ok {voicing : Voicing} (active : Option InstrumentId)
    {wanted : Option InstrumentId} (h : ∀ id, wanted = some id → ∃ place,
      voicing.index id = some place ∧ place < Limits.instruments) :
    ∃ result, voicing.change active wanted = .ok result := by
  cases wanted with
  | none => exact ⟨_, rfl⟩
  | some id =>
    by_cases ha : active = some id
    · exact ⟨_, by rw [Voicing.change, if_pos ha]; rfl⟩
    · obtain ⟨place, hp, hlt⟩ := h id rfl
      have hi : Command.instrument? place = .ok (.instrument (place % 64)) := by
        rw [Command.instrument?, if_pos (by simp only [Limits.instruments] at hlt; omega)]
        rfl
      refine ⟨([.instrument (place % 64)], some id), ?_⟩
      simp only [Voicing.change, if_neg ha, hp, hi]
      rfl

lemma rides_ok (voicing : Voicing) (rest : List Row) :
    ∃ rides, voicing.rides false rest = .ok rides := by
  unfold Voicing.rides
  split <;> exact ⟨_, rfl⟩

/-- Rows that can be read back and whose instruments are in the table have a code. -/
theorem encodeRows_ok (voicing : Voicing) {rows : List Row}
    (h : ∀ row ∈ rows, row.Plain voicing.kernel)
    (hi : ∀ row ∈ rows, ∀ id, row.instrument = some id → ∃ place,
      voicing.index id = some place ∧ place < Limits.instruments) (active : Option InstrumentId) :
    ∃ result, encodeRows voicing false active rows = .ok result := by
  induction hlen : rows.length using Nat.strong_induction_on generalizing rows active with
  | _ length ih =>
    cases rows with
    | nil => exact ⟨([], active), by rw [encodeRows]; rfl⟩
    | cons row rest =>
      rw [List.length_cons] at hlen
      have htail : ∀ (n : Nat) (active : Option InstrumentId),
          ∃ result, encodeRows voicing false active (rest.drop n) = .ok result := by
        intro n active
        refine ih _ (by rw [List.length_drop]; omega) ?_ ?_ active rfl
        · exact fun r hr => h r (List.mem_cons_of_mem _ (List.mem_of_mem_drop hr))
        · exact fun r hr => hi r (List.mem_cons_of_mem _ (List.mem_of_mem_drop hr))
      rw [encodeRows]
      by_cases hn : row.isNote = true
      · obtain ⟨⟨change, named⟩, hchange⟩ := change_ok active (hi row (by simp))
        obtain ⟨rides, hrides⟩ := rides_ok voicing rest
        have hcode : ∃ code, Command.note? (voicing.kernel.noteCode voicing.voice row.value
            (if rides = true then 1 else 0)) = .ok code := by
          cases rides with
          | false =>
            obtain ⟨code, hcode, -⟩ := note?_alone voicing (h row (by simp)) hn
            exact ⟨code, hcode⟩
          | true =>
            obtain ⟨code, hcode, -⟩ := note?_riding voicing (rides_spec hrides).1 row.value
            exact ⟨code, hcode⟩
        obtain ⟨code, hcode⟩ := hcode
        obtain ⟨⟨tail, after⟩, htail⟩ := htail (if rides = true then 1 else 0) named
        refine ⟨(row.lead ++ change ++ code :: tail, after), ?_⟩
        simp only [hn, hchange, ok_bind, hrides, hcode, htail, if_true]
        rfl
      · obtain ⟨⟨tail, after⟩, htail⟩ := htail (voicing.run rest) active
        refine ⟨(row.lead ++ .emptyRows (voicing.run rest) :: tail, after), ?_⟩
        simp only [if_neg hn, htail, ok_bind]
        rfl

section Songs

variable {song : Song} {encoding : Encoding} {channel : Channel} {takesSpeed : Bool}

lemma rows_voiced {kernel : Kernel} {index : InstrumentId → Option Nat} (h : song.Voiced index)
    (hc : channel ∈ song.channels) {slot : Option Nat} (hs : slot ∈ channel.slots)
    (slotEffects : SlotEffects) (count : Nat) :
    ∀ row ∈ song.rows kernel slotEffects takesSpeed slot count, ∀ id, row.instrument = some id →
      ∃ place, index id = some place ∧ place < Limits.instruments := by
  intro row hr id hid
  obtain ⟨note, hn, speed, rfl⟩ := Row.ofNotes_mem hr
  have hn := List.mem_of_mem_take hn
  have hmusical : note.isMusical = true := by
    by_contra hm
    simp [Row.ofNote, hm] at hid
  rw [Row.ofNote, if_pos hmusical] at hid
  cases slot with
  | none =>
    obtain rfl := List.eq_of_mem_replicate hn
    exact absurd hid (by simp [Note.empty])
  | some position => exact h note (Song.mem_notes hc hs hn) hmusical id hid

/-- A slot of a well-formed song is never too short. -/
lemma rows_length (kernel : Kernel) (takesSpeed : Bool) (h : song.Formed)
    (hc : channel ∈ song.channels) {slot : Option Nat} (hs : slot ∈ channel.slots)
    (slotEffects : SlotEffects) {count : Nat} (hcount : count ≤ song.patternLength) :
    (song.rows kernel slotEffects takesSpeed slot count).length = count := by
  rw [Song.rows, Row.ofNotes_length, List.length_take]
  cases slot with
  | none => simp [Song.slotNotes, hcount]
  | some position =>
    have hused : position ∈ song.used := by
      refine List.mem_eraseDups.mpr (List.mem_flatMap.mpr ⟨channel, hc, ?_⟩)
      exact List.mem_eraseDups.mpr (List.mem_filterMap.mpr ⟨some position, hs, rfl⟩)
    exact Nat.min_eq_left (hcount.trans (h.rows position hused))

/-- A slot of a well-formed song has a code if its instruments are in the table. -/
lemma encodeSlot_ok {voicing : Voicing} (hf : song.Formed) (hn : ∀ note ∈ song.notes, note.InRange)
    (hv : song.Voiced voicing.index) (hc : channel ∈ song.channels) {slot : Option Nat}
    (hs : slot ∈ channel.slots) (slotEffects : SlotEffects) {count : Nat}
    (hcount : count ≤ song.patternLength) (active : Option InstrumentId) :
    ∃ result, song.encodeSlot voicing slotEffects takesSpeed active slot count = .ok result := by
  have hlen := rows_length voicing.kernel takesSpeed hf hc hs slotEffects hcount
  have hshort : ¬ (song.rows voicing.kernel slotEffects takesSpeed slot count).length < count := by
    omega
  simp only [Song.encodeSlot, hshort, decide_false]
  exact encodeRows_ok voicing (Song.rows_plain takesSpeed hn hc hs slotEffects count)
    (rows_voiced hv hc hs _ _) active

lemma storeSlot_unfailing (capacity : Int) (pool : PatternPool) (commands : List Command) :
    Unfailing (Song.storeSlot capacity pool commands) := by
  intro error he
  unfold Song.storeSlot at he
  dsimp only at he
  split at he
  · cases he
  · split at he
    · cases he
    · split at he <;> cases he

lemma encodeVisits_unfailing (hf : song.Formed) (hn : ∀ note ∈ song.notes, note.InRange)
    (hv : song.Voiced encoding.index) (hc : channel ∈ song.channels) (effects : List SlotEffects)
    {visits : List Visit}
    (h : ∀ visit ∈ visits, visit.slot < song.length ∧ visit.rows ≤ song.patternLength)
    (progress : Progress) :
    Unfailing (song.encodeVisits encoding effects channel takesSpeed progress visits) := by
  induction visits generalizing progress with
  | nil => exact unfailing_ok _
  | cons visit rest ih =>
    obtain ⟨hslot, hrows⟩ := h visit (by simp)
    have hlt : visit.slot < channel.slots.length := by rwa [hf.slots channel hc]
    have hget := List.getElem?_eq_getElem hlt
    have hmem := List.getElem_mem hlt
    obtain ⟨result, hresult⟩ : ∃ result, song.encodeSlot ⟨encoding.kernel, channel.voice,
        encoding.index⟩ (effects.getD visit.slot []) takesSpeed progress.active
        channel.slots[visit.slot] visit.rows = .ok result :=
      encodeSlot_ok hf hn hv hc hmem _ hrows _
    rw [Song.encodeVisits, hget]
    refine (unfailing_lift hresult).bind ?_
    rintro ⟨commands, active⟩ -
    refine (storeSlot_unfailing _ _ _).bind ?_
    rintro ⟨code, pool⟩ -
    refine (ih (fun other ho => h other (by simp [ho])) _).bind ?_
    rintro ⟨codes, final⟩ -
    exact unfailing_ok _

lemma encodeChannels_unfailing (hf : song.Formed) (hn : ∀ note ∈ song.notes, note.InRange)
    (hv : song.Voiced encoding.index) (effects : List SlotEffects)
    {visits : List Visit × List Visit}
    (h : ∀ visit ∈ visits.1 ++ visits.2, visit.slot < song.length ∧
      visit.rows ≤ song.patternLength) (speedChannel : Int) {channels : List Channel}
    (hc : ∀ channel ∈ channels, channel ∈ song.channels) (number : Nat) (pool : PatternPool) :
    Unfailing (song.encodeChannels encoding effects visits speedChannel number pool channels) := by
  induction channels generalizing number pool with
  | nil => exact unfailing_ok _
  | cons channel rest ih =>
    have hchannel := hc channel (by simp)
    have hintro := fun visit hm => h visit (List.mem_append_left _ hm)
    have hbody := fun visit hm => h visit (List.mem_append_right _ hm)
    rw [Song.encodeChannels]
    refine Unfailing.bind ?_ ?_
    · refine (encodeVisits_unfailing hf hn hv hchannel effects hintro _).bind ?_
      rintro ⟨intro, progress⟩ -
      refine (encodeVisits_unfailing hf hn hv hchannel effects hbody _).bind ?_
      rintro ⟨body, final⟩ -
      exact unfailing_ok _
    · rintro ⟨code, next⟩ -
      refine (ih (fun other ho => hc other (by simp [ho])) _ _).bind ?_
      rintro ⟨codes, final⟩ -
      exact unfailing_ok _

/-- A well-formed song is encoded unless the pool is full. -/
theorem encode_unfailing (hf : song.Formed) (hn : ∀ note ∈ song.notes, note.InRange)
    (hv : song.Voiced encoding.index) (speedChannel : Int) {factor : Int} (hfactor : factor ≠ 0)
    (pool : PatternPool) : Unfailing (song.encode encoding speedChannel factor pool) := by
  have hpieces : Song.piecesUndefined song.effects factor (song.visits song.effects factor) =
      false := by
    simp [Song.piecesUndefined, hfactor]
  rw [Song.encode]
  simp only [hpieces, Bool.false_eq_true, if_false, Bool.false_and]
  refine (encodeChannels_unfailing hf hn hv _ ?_ _ (fun _ hc => hc) _ _).bind ?_
  · intro visit hm
    rw [Song.splitVisits_append] at hm
    exact Song.mem_visits hm
  · rintro ⟨channels, final⟩ -
    exact unfailing_ok _

end Songs

end Chiptune
