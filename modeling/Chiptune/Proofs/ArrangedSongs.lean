import Chiptune.Arrangement.Build
import Chiptune.Proofs.Refusals

/-!
# Arranged songs

An arrangement numbers its instruments in the order in which it makes them, and only adds to them.
So a note that is well formed when it is written stays so, and the song is well formed all the time:
`Gives` states that of one step, and the lemmas below follow the steps of `Arrangement.ofScore`.
-/

namespace Chiptune

/-- A stop, a pitch or an empty row, with an instrument of the list if it has one. -/
structure Note.Arranged (listed : List InstrumentId) (note : Note) : Prop where
  value : note.value = stopValue ∨ note.isMusical = true ∨ note.value = emptyValue
  instrument : ∀ id, note.instrument = some id → id ∈ listed

/-- Every voice has all slots of the song, every slot has a pattern or none, and every pattern has
all its rows. -/
structure Song.Arranged (listed : List InstrumentId) (song : Song) : Prop where
  voices : song.channels.map Channel.voice = Voice.all
  slots : ∀ channel ∈ song.channels, channel.slots.length = song.length
  places : ∀ channel ∈ song.channels, ∀ position, some position ∈ channel.slots →
    position < song.patterns.length
  rows : ∀ pattern ∈ song.patterns, pattern.length = song.patternLength
  notes : ∀ pattern ∈ song.patterns, ∀ note ∈ pattern, note.Arranged listed

/-- The songs differ in their patterns and in the slots of their channels only. -/
structure Song.SameFrame (song other : Song) : Prop where
  id : other.id = song.id
  tempo : other.tempo = song.tempo
  speed : other.speed = song.speed
  patternLength : other.patternLength = song.patternLength
  length : other.length = song.length

lemma Song.SameFrame.refl (song : Song) : song.SameFrame song := ⟨rfl, rfl, rfl, rfl, rfl⟩

lemma Song.SameFrame.trans {song other last : Song} (h : song.SameFrame other)
    (h' : other.SameFrame last) : song.SameFrame last :=
  ⟨h'.id.trans h.id, h'.tempo.trans h.tempo, h'.speed.trans h.speed,
    h'.patternLength.trans h.patternLength, h'.length.trans h.length⟩

lemma Note.Arranged.mono {note : Note} {m n : Nat} (h : note.Arranged (List.range m))
    (hle : m ≤ n) : note.Arranged (List.range n) :=
  ⟨h.value, fun id hid => List.range_subset.mpr hle (h.instrument id hid)⟩

lemma Song.Arranged.mono {song : Song} {m n : Nat} (h : song.Arranged (List.range m))
    (hle : m ≤ n) : song.Arranged (List.range n) :=
  ⟨h.voices, h.slots, h.places, h.rows,
    fun pattern hp note hn => (h.notes pattern hp note hn).mono hle⟩

lemma arranged_empty (listed : List InstrumentId) : Note.empty.Arranged listed :=
  ⟨.inr (.inr rfl), fun _ h => nomatch h⟩

/-- A song stays well formed when well-formed patterns are added to it and its slots are filled with
places of patterns. -/
lemma Song.Arranged.extend {song changed : Song} {listed : List InstrumentId}
    (h : song.Arranged listed) {added : List Pattern}
    (hpatterns : changed.patterns = song.patterns ++ added)
    (hlength : changed.patternLength = song.patternLength)
    (hadded : ∀ pattern ∈ added,
      pattern.length = song.patternLength ∧ ∀ note ∈ pattern, note.Arranged listed)
    (hvoices : changed.channels.map Channel.voice = song.channels.map Channel.voice)
    (hslots : ∀ channel ∈ changed.channels, channel.slots.length = changed.length ∧
      ∀ position, some position ∈ channel.slots →
        position < song.patterns.length + added.length) : changed.Arranged listed where
  voices := hvoices.trans h.voices
  slots := fun channel hc => (hslots channel hc).1
  places := by
    intro channel hc position hp
    rw [hpatterns, List.length_append]
    exact (hslots channel hc).2 position hp
  rows := by
    intro pattern hp
    rw [hlength]
    rcases List.mem_append.mp (hpatterns ▸ hp) with hp | hp
    · exact h.rows pattern hp
    · exact (hadded pattern hp).1
  notes := by
    intro pattern hp
    rcases List.mem_append.mp (hpatterns ▸ hp) with hp | hp
    · exact h.notes pattern hp
    · exact (hadded pattern hp).2

namespace Arrangement

open Midi (NoteSpan)

/-- The instruments are numbered in the order in which they were made. -/
def Ensemble.Numbered (ensemble : Ensemble) : Prop :=
  ensemble.instruments.map (·.2.id) = List.range ensemble.instruments.length

/-- From `count` instruments on, a session that succeeds keeps the instruments numbered, has not
fewer of them at its end, and gives a result that fits their number then. -/
def Gives {α : Type} (session : Session α) (count : Nat) (post : Nat → α → Prop) : Prop :=
  ∀ before after a, before.Numbered → count ≤ before.instruments.length →
    session.run before = .ok (a, after) →
      after.Numbered ∧ before.instruments.length ≤ after.instruments.length ∧
        post after.instruments.length a

lemma run_bind {α β : Type} {session : Session α} {f : α → Session β} {before after : Ensemble}
    {b : β} (h : (session >>= f).run before = .ok (b, after)) :
    ∃ a middle, session.run before = .ok (a, middle) ∧ (f a).run middle = .ok (b, after) := by
  obtain ⟨⟨a, middle⟩, hfirst, hrest⟩ := (bind_eq_ok_iff _ _ _).mp h
  exact ⟨a, middle, hfirst, hrest⟩

lemma run_pure {α : Type} {a b : α} {before after : Ensemble}
    (h : (pure a : Session α).run before = .ok (b, after)) : a = b ∧ before = after :=
  Prod.mk.injEq .. ▸ Except.ok.inj h

lemma run_lift {α : Type} {x : Outcome α} {a : α} {before after : Ensemble}
    (h : (liftM x : Session α).run before = .ok (a, after)) : x = .ok a ∧ before = after := by
  obtain ⟨b, hx, h⟩ := (bind_eq_ok_iff _ _ _).mp h
  obtain ⟨rfl, rfl⟩ := Prod.mk.injEq .. ▸ Except.ok.inj h
  exact ⟨hx, rfl⟩

lemma run_warn {warning : Warning} {before after : Ensemble} {u : Unit}
    (h : (warn warning).run before = .ok (u, after)) : after.instruments = before.instruments := by
  obtain ⟨-, rfl⟩ := Prod.mk.injEq .. ▸ Except.ok.inj h
  rfl

section Gives

variable {α β : Type} {session : Session α} {count : Nat} {post : Nat → α → Prop}

lemma gives_pure {a : α} (h : ∀ n, count ≤ n → post n a) :
    Gives (pure a : Session α) count post := by
  intro before after b hb hc hrun
  obtain ⟨rfl, rfl⟩ := run_pure hrun
  exact ⟨hb, le_refl _, h _ hc⟩

lemma Gives.bind {f : α → Session β} {final : Nat → β → Prop} (h : Gives session count post)
    (hf : ∀ n a, count ≤ n → post n a → Gives (f a) n final) :
    Gives (session >>= f) count final := by
  intro before after b hb hc hrun
  obtain ⟨a, middle, hfirst, hrest⟩ := run_bind hrun
  obtain ⟨hmiddle, hle, hpost⟩ := h before middle a hb hc hfirst
  obtain ⟨hafter, hmore, hfinal⟩ :=
    hf _ a (hc.trans hle) hpost middle after b hmiddle (le_refl _) hrest
  exact ⟨hafter, hle.trans hmore, hfinal⟩

lemma Gives.mono {weaker : Nat → α → Prop} (h : Gives session count post)
    (hw : ∀ n a, count ≤ n → post n a → weaker n a) : Gives session count weaker := by
  intro before after a hb hc hrun
  obtain ⟨hafter, hle, hpost⟩ := h before after a hb hc hrun
  exact ⟨hafter, hle, hw _ a (hc.trans hle) hpost⟩

lemma gives_lift {x : Outcome α} (h : ∀ a, x = .ok a → ∀ n, count ≤ n → post n a) :
    Gives (liftM x : Session α) count post := by
  intro before after a hb hc hrun
  obtain ⟨hx, rfl⟩ := run_lift hrun
  exact ⟨hb, le_refl _, h a hx _ hc⟩

lemma gives_throw (error : Error) : Gives (throw error : Session α) count post :=
  fun _ _ _ _ _ hrun => nomatch hrun

lemma gives_warn (warning : Warning) : Gives (warn warning) count fun _ _ => True := by
  intro before after u hb hc hrun
  have hsame := run_warn hrun
  exact ⟨by rw [Ensemble.Numbered, hsame]; exact hb, by rw [hsame], trivial⟩

lemma gives_warnIf {condition : Prop} [Decidable condition] {warning : Warning}
    (h : ∀ n, count ≤ n → Gives session n post) :
    Gives (if condition then warn warning >>= fun _ => session else session) count post := by
  split
  · exact (gives_warn warning).bind fun n _ hn _ => h n hn
  · exact h count (le_refl _)

/-- A step that is taken only where there is something to do. -/
lemma gives_skipIf {skip : Bool} {a : α} {rest : α → Session β} {final : Nat → β → Prop}
    (ha : ∀ n, count ≤ n → post n a) (h : Gives session count post)
    (hrest : ∀ n b, count ≤ n → post n b → Gives (rest b) n final) :
    Gives (if skip = true then pure a >>= rest else session >>= rest) count final := by
  split
  · exact (gives_pure ha).bind hrest
  · exact h.bind hrest

end Gives

section Instruments

variable {score : Score} {count : Nat}

lemma applySequence_id (instrument : Instrument) (kind : Nat) (content : Envelope) :
    (Fti.applySequence instrument kind content).id = instrument.id := by
  unfold Fti.applySequence
  repeat' split
  all_goals rfl

/-- Whatever instrument is read has the number `id`. -/
def ReadsAs (id : InstrumentId) (read : Fti.Reader Instrument) : Prop :=
  ∀ bytes result, read bytes = some result → result.1.id = id

lemma readsAs_bind {α : Type} {id : InstrumentId} {first : Fti.Reader α}
    {read : α → Fti.Reader Instrument} (h : ∀ a, ReadsAs id (read a)) :
    ReadsAs id (first >>= read) := by
  intro bytes result hread
  obtain ⟨⟨a, rest⟩, -, hread⟩ := Option.bind_eq_some_iff.mp hread
  exact h a rest result hread

lemma readSequences_readsAs (kind number : Nat) (instrument : Instrument) :
    ReadsAs instrument.id (Fti.readSequences kind number instrument) := by
  induction number generalizing kind instrument with
  | zero =>
    intro bytes result h
    obtain rfl := Option.some.inj h
    rfl
  | succ number ih =>
    refine readsAs_bind fun enabled => ?_
    split
    · refine readsAs_bind fun content => ?_
      rw [← applySequence_id instrument kind content]
      exact ih _ _
    · exact ih _ _

lemma load?_id {id : InstrumentId} {file : Bytes} {instrument : Instrument}
    (h : Fti.load? id file = some instrument) : instrument.id = id := by
  have hread : ReadsAs id (Fti.readInstrument id) :=
    readsAs_bind fun _ => readsAs_bind fun _ => readsAs_bind fun _ => readsAs_bind fun _ =>
      readSequences_readsAs 0 _ _
  have hfile : ReadsAs id (Fti.readFile id) :=
    readsAs_bind fun _ => readsAs_bind fun _ => readsAs_bind fun _ => readsAs_bind fun _ =>
      readsAs_bind fun _ => readsAs_bind fun _ => hread
  obtain ⟨loaded, hloaded, rfl⟩ := Option.map_eq_some_iff.mp h
  exact hfile file loaded hloaded

/-- A new instrument gets its number, and is not yet among the others. -/
lemma makeInstrument_run {tree : FileTree} {id : InstrumentId} {name : String}
    {spec : InstrumentSpec} {before after : Ensemble} {instrument : Instrument}
    (h : (makeInstrument tree id name spec).run before = .ok (instrument, after)) :
    instrument.id = id ∧ after.instruments = before.instruments := by
  unfold makeInstrument at h
  split at h
  · obtain ⟨rfl, rfl⟩ := run_pure h
    exact ⟨rfl, rfl⟩
  · obtain ⟨bytes, middle, hread, h⟩ := run_bind h
    obtain ⟨-, rfl⟩ := run_lift hread
    split at h
    · next loaded hload =>
      obtain ⟨rfl, rfl⟩ := run_pure h
      have hid := load?_id hload
      exact ⟨hid, rfl⟩
    · obtain ⟨u, last, hwarn, h⟩ := run_bind h
      obtain ⟨rfl, rfl⟩ := run_pure h
      exact ⟨rfl, run_warn hwarn⟩

lemma mem_of_lookup {α β : Type} [BEq α] [LawfulBEq α] {key : α} {value : β}
    {entries : List (α × β)} (h : entries.lookup key = some value) : (key, value) ∈ entries := by
  obtain ⟨before, after, rfl, -⟩ := List.lookup_eq_some_iff.mp h
  exact List.mem_append_right before List.mem_cons_self

/-- A channel gets the instrument that its program has already, or a new one with the next number,
which is then the last. -/
lemma instrumentFor_run {score : Score} {channel : Nat} {row : Int} {before after : Ensemble}
    {id : InstrumentId} (h : (instrumentFor score channel row).run before = .ok (id, after)) :
    let program := score.mapped? (score.program channel row)
    ∃ instrument, id = instrument.id ∧
      (before.instruments.lookup program = some instrument ∧ after = before ∨
        before.instruments.lookup program = none ∧ instrument.id = before.instruments.length ∧
          (∃ middle, (makeInstrument score.tree before.instruments.length (programName program)
            (score.spec program)).run before = .ok (instrument, middle)) ∧
          after.instruments = before.instruments ++ [(program, instrument)]) := by
  obtain ⟨ensemble, middle, hget, h⟩ := run_bind h
  obtain ⟨rfl, rfl⟩ : before = ensemble ∧ before = middle :=
    Prod.mk.injEq .. ▸ Except.ok.inj hget
  dsimp only at h
  split at h
  · next instrument hknown =>
    obtain ⟨rfl, rfl⟩ := run_pure h
    exact ⟨instrument, rfl, .inl ⟨hknown, rfl⟩⟩
  · next hnone =>
    obtain ⟨instrument, middle, hmake, h⟩ := run_bind h
    obtain ⟨u, last, hmodify, h⟩ := run_bind h
    obtain ⟨rfl, rfl⟩ := run_pure h
    obtain ⟨-, rfl⟩ := Prod.mk.injEq .. ▸ Except.ok.inj hmodify
    obtain ⟨hid, hsame⟩ := makeInstrument_run hmake
    refine ⟨instrument, rfl, .inr ⟨hnone, hid, ⟨middle, hmake⟩, ?_⟩⟩
    dsimp only
    rw [hsame]

lemma gives_instrumentFor (score : Score) (channel : Nat) (row : Int) :
    Gives (instrumentFor score channel row) count fun n id => id < n := by
  intro before after id hb hc hrun
  obtain ⟨instrument, rfl, ⟨hknown, rfl⟩ | ⟨-, hid, -, hadded⟩⟩ := instrumentFor_run hrun
  · have hmem : instrument.id ∈ after.instruments.map (·.2.id) :=
      List.mem_map.mpr ⟨_, mem_of_lookup hknown, rfl⟩
    rw [hb] at hmem
    exact ⟨hb, le_refl _, List.mem_range.mp hmem⟩
  · -- The new instrument has the next number, and stands at the end.
    refine ⟨?_, ?_, ?_⟩
    · simp only [Ensemble.Numbered, hadded, List.map_append, List.map_cons, List.map_nil,
        List.length_append, List.length_cons, List.length_nil, List.range_succ, hid]
      rw [hb]
    · simp [hadded]
    · simp [hadded, hid]

end Instruments

/-! ### Notes and columns -/

section Columns

variable {score : Score} {count : Nat}

/-- What is written of a note is well formed. -/
def Writes (makeNote : NoteSpan → Session Note) : Prop :=
  ∀ count note, Gives (makeNote note) count fun n written => written.Arranged (List.range n)

lemma gives_pitchedNote (score : Score) {value : Int}
    (h : value = Note.stopValue ∨ Note.lowest ≤ value ∧ value ≤ Note.highest) (note : NoteSpan) :
    Gives (pitchedNote score value note) count
      fun n written => written.Arranged (List.range n) := by
  have hvolume : Gives (liftM (noteVolume score note) : Session (Option Int)) count
      fun _ _ => True := gives_lift fun _ _ _ _ => trivial
  refine hvolume.bind fun n volume _ _ => ?_
  refine (gives_instrumentFor score note.channel note.start).bind fun n id _ hid => ?_
  refine gives_pure fun m hm => ⟨?_, fun other ho => ?_⟩
  · rcases h with hstop | hpitch
    · exact .inl hstop
    · exact .inr (.inl (by simpa [Note.isMusical] using hpitch))
  · obtain rfl := Option.some.inj ho
    exact List.mem_range.mpr (lt_of_lt_of_le hid hm)

lemma noteValue_musical (key : Int) :
    Note.lowest ≤ noteValue key ∧ noteValue key ≤ Note.highest := by
  simp only [noteValue, Kernel.clamp, Note.lowest, Note.highest]
  omega

lemma drumPeriod_musical {key : Nat} {period : Int} (h : drumPeriods.lookup key = some period) :
    Note.lowest ≤ period ∧ period ≤ Note.highest := by
  have hall : ∀ period ∈ drumPeriods.map Prod.snd,
      Note.lowest ≤ period ∧ period ≤ Note.highest := by decide
  exact hall period (List.mem_map_of_mem (mem_of_lookup h))

lemma toneNote_writes (score : Score) : Writes (toneNote score) := fun _ note =>
  gives_pitchedNote score (.inr (noteValue_musical note.key)) note

lemma noiseNote_writes (score : Score) : Writes (noiseNote score) := by
  intro count note
  refine gives_pitchedNote score ?_ note
  cases hperiod : drumPeriods.lookup note.key with
  | none => exact .inl rfl
  | some period => exact .inr (drumPeriod_musical hperiod)

lemma sampleNote_writes : Writes sampleNote := fun _ note =>
  gives_pure fun _ _ =>
    ⟨.inr (.inl (by simpa [Note.isMusical] using noteValue_musical note.key)), fun _ h => nomatch h⟩

lemma arranged_setIfInBounds {listed : List InstrumentId} {rows : Array Note} {written : Note}
    (h : ∀ note ∈ rows, note.Arranged listed) (hw : written.Arranged listed) (place : Nat) :
    ∀ note ∈ rows.setIfInBounds place written, note.Arranged listed := by
  intro note hn
  rcases Array.mem_or_eq_of_mem_setIfInBounds hn with hn | rfl
  · exact h note hn
  · exact hw

lemma gives_fillColumn {makeNote : NoteSpan → Session Note} (h : Writes makeNote)
    {rows : Array Note} (hrows : ∀ note ∈ rows, note.Arranged (List.range count))
    (notes : List NoteSpan) :
    Gives (fillColumn makeNote rows notes) count fun n filled =>
      filled.size = rows.size ∧ ∀ note ∈ filled, note.Arranged (List.range n) := by
  induction notes generalizing rows count with
  | nil => exact gives_pure fun n hn => ⟨rfl, fun note hm => (hrows note hm).mono hn⟩
  | cons note rest ih =>
    have hplace : ∀ {count size : Nat} {row : Int},
        Gives (liftM (rowPlace size row) : Session Nat) count fun _ _ => True :=
      gives_lift fun _ _ _ _ => trivial
    rw [fillColumn]
    split
    · exact ih hrows
    · refine (h count note).bind fun n written hn hwritten => ?_
      refine hplace.bind fun n' place hn' _ => ?_
      have hset := arranged_setIfInBounds (fun other ho => (hrows other ho).mono (hn.trans hn'))
        (hwritten.mono hn') place
      dsimp only
      split
      · -- The note ends before the next one starts, so a stop may follow it.
        refine hplace.bind fun m stop hm _ => ?_
        have hlater := fun other ho => (hset other ho).mono hm
        split
        · simpa using ih hlater
        · have hstop : Note.Arranged (List.range m) { value := Note.stopValue } :=
            ⟨.inl rfl, fun _ h => nomatch h⟩
          simpa using ih (arranged_setIfInBounds hlater hstop stop)
      · simpa using ih hset

/-- A column has all its rows. -/
lemma gives_column {makeNote : NoteSpan → Session Note} (h : Writes makeNote) (length : Nat)
    (notes : List NoteSpan) :
    Gives (column makeNote length notes) count fun n rows =>
      rows.length = length ∧ ∀ note ∈ rows, note.Arranged (List.range n) := by
  have hempty : ∀ note ∈ Array.replicate length Note.empty, note.Arranged (List.range count) := by
    intro note hn
    obtain ⟨-, rfl⟩ := Array.mem_replicate.mp hn
    exact arranged_empty _
  refine (gives_fillColumn h hempty notes).bind fun n rows _ ⟨hsize, hrows⟩ => ?_
  refine gives_pure fun m hm => ⟨by simpa using hsize, fun note hn => ?_⟩
  exact (hrows note (Array.mem_toList_iff.mp hn)).mono hm

end Columns

section Patterns

variable {size count base : Nat} {rows : List Note} {known patterns : List Pattern}

lemma chunks_spec (h : rows.length = count * size) :
    (chunks size count rows).length = count ∧ ∀ pattern ∈ chunks size count rows,
      pattern.length = size ∧ ∀ note ∈ pattern, note ∈ rows := by
  induction count generalizing rows with
  | zero => exact ⟨rfl, fun _ h => absurd h List.not_mem_nil⟩
  | succ count ih =>
    rw [Nat.add_mul, Nat.one_mul] at h
    have hrest : (rows.drop size).length = count * size := by
      rw [List.length_drop]
      omega
    obtain ⟨hlength, hall⟩ := ih hrest
    rw [chunks]
    refine ⟨by rw [List.length_cons, hlength], fun pattern hp => ?_⟩
    rcases List.mem_cons.mp hp with rfl | hp
    · exact ⟨by rw [List.length_take]; omega, fun note hn => List.mem_of_mem_take hn⟩
    · obtain ⟨hsize, hnotes⟩ := hall pattern hp
      exact ⟨hsize, fun note hn => List.mem_of_mem_drop (hnotes note hn)⟩

/-- There is a slot for each pattern, with the place of a pattern or none, and what is known then
was known before or is one of the patterns. -/
lemma sharePatterns_spec (base : Nat) (known patterns : List Pattern) :
    let shared := sharePatterns base known patterns
    shared.1.length = patterns.length ∧ known.length ≤ shared.2.length ∧
      (∀ position, some position ∈ shared.1 → position < base + shared.2.length) ∧
      ∀ pattern ∈ shared.2, pattern ∈ known ∨ pattern ∈ patterns := by
  induction patterns generalizing known with
  | nil => exact ⟨rfl, le_refl _, fun _ h => absurd h List.not_mem_nil, fun _ h => .inl h⟩
  | cons pattern rest ih =>
    dsimp only
    rw [sharePatterns]
    split
    · obtain ⟨hlength, hle, hplaces, hmem⟩ := ih known
      refine ⟨by simp [hlength], hle, fun position hp => hplaces position (by simpa using hp), ?_⟩
      exact fun other ho => (hmem other ho).imp_right (List.mem_cons_of_mem _)
    · -- Whether the pattern is known or new, its place is below the length of what is known then.
      have hgrown : ∃ grown, (if known.idxOf pattern < known.length then known
          else known ++ [pattern]) = grown ∧ known.length ≤ grown.length ∧
          known.idxOf pattern < grown.length ∧
          ∀ other ∈ grown, other ∈ known ∨ other = pattern := by
        by_cases hlt : known.idxOf pattern < known.length
        · exact ⟨known, if_pos hlt, le_refl _, hlt, fun other ho => .inl ho⟩
        · refine ⟨known ++ [pattern], if_neg hlt, by simp, ?_, fun other ho => by simpa using ho⟩
          have := List.idxOf_le_length (l := known) (a := pattern)
          rw [List.length_append, List.length_singleton]
          omega
      obtain ⟨grown, hknown, hle, hplace, hnew⟩ := hgrown
      obtain ⟨hlength, hmore, hplaces, hmem⟩ := ih grown
      dsimp only
      rw [hknown]
      refine ⟨by simp [hlength], hle.trans hmore, fun position hp => ?_, fun other ho => ?_⟩
      · rcases List.mem_cons.mp hp with heq | hp
        · obtain rfl := Option.some.inj heq
          omega
        · exact hplaces position hp
      · rcases hmem other ho with ho | ho
        · rcases hnew other ho with ho | rfl
          · exact .inl ho
          · exact .inr List.mem_cons_self
        · exact .inr (List.mem_cons_of_mem _ ho)

end Patterns

/-- A song stays well formed when a channel gets a column of well-formed notes. -/
lemma fillChannel_arranged {song : Song} {listed : List InstrumentId} (h : song.Arranged listed)
    (voice : Voice) {rows : List Note} (hlength : rows.length = song.length * song.patternLength)
    (hrows : ∀ note ∈ rows, note.Arranged listed) :
    (song.fillChannel voice rows).Arranged listed ∧
      song.SameFrame (song.fillChannel voice rows) := by
  obtain ⟨hcount, hchunks⟩ := chunks_spec hlength
  obtain ⟨hslots, -, hplaces, hmem⟩ := sharePatterns_spec song.patterns.length []
    (chunks song.patternLength song.length rows)
  refine ⟨h.extend rfl rfl (fun pattern hp => ?_) ?_ ?_, rfl, rfl, rfl, rfl, rfl⟩
  · obtain ⟨hsize, hnotes⟩ := hchunks pattern ((hmem pattern hp).resolve_left List.not_mem_nil)
    exact ⟨hsize, fun note hn => hrows note (hnotes note hn)⟩
  · rw [Song.fillChannel, List.map_map]
    refine List.map_congr_left fun channel _ => ?_
    by_cases hv : channel.voice = voice
    · simp [hv]
    · simp [hv]
  · intro channel hc
    obtain ⟨source, hs, rfl⟩ := List.mem_map.mp hc
    by_cases hv : source.voice = voice
    · rw [if_pos hv]
      exact ⟨hslots.trans hcount, hplaces⟩
    · rw [if_neg hv]
      exact ⟨h.slots source hs, fun position hp =>
        (h.places source hs position hp).trans_le (Nat.le_add_right _ _)⟩

section Songs

variable {score : Score} {count : Nat} {song : Song}

/-- A well-formed song in the frame of another one. -/
def Fills (song : Song) (count : Nat) (filled : Song) : Prop :=
  filled.Arranged (List.range count) ∧ song.SameFrame filled

lemma gives_fillVoice (h : song.Arranged (List.range count)) (voice : Voice)
    {makeNote : NoteSpan → Session Note} (hw : Writes makeNote) (notes : List NoteSpan) :
    Gives (fillVoice song voice makeNote notes) count (Fills song) := by
  refine (gives_column hw _ _).bind fun n rows hn ⟨hlength, hrows⟩ => ?_
  refine gives_pure fun m hm => ?_
  exact fillChannel_arranged (h.mono (hn.trans hm)) voice hlength
    fun note ho => (hrows note ho).mono hm

lemma gives_fillTones (h : song.Arranged (List.range count)) (notes : List NoteSpan)
    (parts : List (Voice × Nat)) :
    Gives (fillTones score notes song parts) count (Fills song) := by
  induction parts generalizing song count with
  | nil => exact gives_pure fun n hn => ⟨h.mono hn, .refl song⟩
  | cons part rest ih =>
    refine (gives_fillVoice h part.1 (toneNote_writes score) _).bind
      fun n filled _ ⟨hfilled, hsame⟩ => ?_
    exact (ih hfilled).mono fun m last _ ⟨hlast, hrest⟩ => ⟨hlast, hsame.trans hrest⟩

/-- The samples are numbered in their order, and those that notes are mapped to are among them. -/
structure Sampled (project : Project) : Prop where
  numbered : project.samples.map Sample.id = List.range project.samples.length
  mapped : ∀ mapping : SampleMapping, some mapping ∈ project.mapping →
    ∀ sample, mapping.sample = some sample → sample ∈ project.samples
  songs : project.songs = []

lemma sampled_blank (name : String) : Sampled { name } where
  numbered := rfl
  mapped := by
    intro mapping hm
    exact nomatch List.eq_of_mem_replicate hm
  songs := rfl

/-- A sample with the next number is taken into the project. -/
lemma mapSample_sampled {project mapped : Project} (h : Sampled project) {note : Int}
    {sample : Sample} (hid : sample.id = project.samples.length) {pitch : Int} {loop : Bool}
    (hm : project.mapSample note sample pitch loop = .ok mapped) : Sampled mapped := by
  -- All numbers in use are below that of the sample, so it is not taken for one of the others.
  have hnew : project.samples.any (·.id == sample.id) = false := by
    rw [List.any_eq_false]
    intro other ho heq
    have hlisted := List.mem_map_of_mem (f := Sample.id) ho
    rw [h.numbered, List.mem_range, beq_iff_eq.mp heq, hid] at hlisted
    exact lt_irrefl _ hlisted
  unfold Project.mapSample at hm
  split at hm
  · obtain rfl := Except.ok.inj hm
    simp only [hnew, Bool.false_eq_true, if_false]
    refine ⟨?_, fun mapping hmap other ho => ?_, h.songs⟩
    · rw [List.map_append, h.numbered, List.length_append, List.map_singleton, hid,
        List.length_singleton, List.range_succ]
    · rcases List.mem_or_eq_of_mem_set hmap with hold | heq
      · exact List.mem_append_left _ (h.mapped mapping hold other ho)
      · obtain rfl := Option.some.inj heq
        obtain rfl := Option.some.inj ho
        exact List.mem_append_right _ (List.mem_singleton_self _)
  · exact nomatch hm

lemma mapSamples_sampled {tree : FileTree} {project mapped : Project} (h : Sampled project)
    {samples : List (Int × SampleSpec)} (hm : mapSamples tree project samples = .ok mapped) :
    Sampled mapped := by
  induction samples generalizing project with
  | nil => exact Except.ok.inj hm ▸ h
  | cons entry rest ih =>
    obtain ⟨key, spec⟩ := entry
    rw [mapSamples] at hm
    split at hm
    · next data _ =>
      simp only [pure_bind] at hm
      split at hm
      · next step hstep => exact ih (mapSample_sampled h (by rfl) hstep) hm
      · exact nomatch hm
      · exact nomatch hm
    · exact nomatch hm
    · exact nomatch hm

/-- The samples and the song that come of a session. -/
def Arranges (song : Song) (count : Nat) (result : Project × Song) : Prop :=
  Sampled result.1 ∧ Fills song count result.2

lemma fills_refl (h : song.Arranged (List.range count)) :
    ∀ n, count ≤ n → Fills song n song := fun _ hn => ⟨h.mono hn, .refl song⟩

lemma gives_fillDrums {project : Project} (hp : Sampled project)
    (h : song.Arranged (List.range count)) (drums : List NoteSpan) :
    Gives (fillDrums score project song drums) count (Arranges song) := by
  have hmapped : Gives (liftM (mapSamples score.tree project
      (score.map.samples.mergeSort fun a b => a.1 ≤ b.1)) : Session Project) count
      fun _ mapped => Sampled mapped :=
    gives_lift fun mapped hm _ _ => mapSamples_sampled hp hm
  refine hmapped.bind fun n mapped hn hsampled => ?_
  refine gives_warnIf fun n' hn' => ?_
  have hstart : song.Arranged (List.range n') := h.mono (hn.trans hn')
  refine gives_skipIf (fills_refl hstart) (gives_fillVoice hstart .noise (noiseNote_writes score) _)
    fun n filled _ ⟨hfilled, hsame⟩ => ?_
  refine gives_skipIf (fills_refl hfilled) (gives_fillVoice hfilled .dpcm sampleNote_writes _)
    fun n last _ ⟨hlast, hrest⟩ => ?_
  exact gives_pure fun m hm => ⟨hsampled, hlast.mono hm, hsame.trans hrest⟩

/-- The song without its loop is well formed. -/
lemma gives_fillSong {project : Project} {options : Options} (hp : Sampled project)
    (h : song.Arranged (List.range count)) (notes : List NoteSpan) :
    Gives (fillSong options score notes project song) count (Arranges song) := by
  refine gives_warnIf fun n hn => ?_
  split
  · next drumChannel _ =>
    refine gives_warnIf fun n' hn' => ?_
    refine (gives_fillTones (h.mono (hn.trans hn')) notes _).bind
      fun n filled _ ⟨hfilled, hsame⟩ => ?_
    dsimp only
    split
    · exact gives_pure fun m hm => ⟨hp, hfilled.mono hm, hsame⟩
    · exact (gives_fillDrums hp hfilled _).mono
        fun m result _ ⟨hsampled, hlast, hrest⟩ => ⟨hsampled, hlast, hsame.trans hrest⟩
  · exact gives_throw _

lemma jumpPattern_spec (length : Nat) (target : Int) (listed : List InstrumentId) :
    (jumpPattern length target).length = length ∧
      ∀ note ∈ jumpPattern length target, note.Arranged listed := by
  cases length with
  | zero => exact ⟨rfl, fun _ h => absurd h List.not_mem_nil⟩
  | succ length =>
    refine ⟨congrArg (· + 1) List.length_replicate, fun note hn => ?_⟩
    rcases List.mem_cons.mp hn with rfl | hn
    · exact ⟨.inr (.inr rfl), fun _ h => nomatch h⟩
    · exact List.eq_of_mem_replicate hn ▸ arranged_empty listed

lemma withJump_arranged {listed : List InstrumentId} (h : song.Arranged listed) (target : Int) :
    (withJump song target).Arranged listed := by
  refine h.extend rfl rfl (fun pattern hp => ?_) ?_ ?_
  · obtain rfl := List.mem_singleton.mp hp
    exact jumpPattern_spec song.patternLength target listed
  · conv_rhs => rw [← List.zipIdx_map_fst 0 song.channels, List.map_map]
    rw [withJump, List.map_map]
    rfl
  · intro channel hc
    obtain ⟨⟨source, number⟩, hs, rfl⟩ := List.mem_map.mp hc
    have hsource := List.fst_mem_of_mem_zipIdx hs
    refine ⟨?_, fun position hp => ?_⟩
    · rw [List.length_append, h.slots source hsource]
      rfl
    · rcases List.mem_append.mp hp with hp | hp
      · exact (h.places source hsource position hp).trans (Nat.lt_succ_self _)
      · have heq := List.mem_singleton.mp hp
        split at heq
        · obtain rfl := Option.some.inj heq
          exact Nat.lt_succ_self _
        · cases heq

/-- A well-formed song in the frame of another one, but for at most `most` further slots. -/
def Loops (song : Song) (most count : Nat) (looped : Song) : Prop :=
  looped.Arranged (List.range count) ∧
    ∃ more ≤ most, Song.SameFrame { song with length := song.length + more } looped

lemma loops_refl (h : song.Arranged (List.range count)) (most : Nat) :
    ∀ n, count ≤ n → Loops song most n song :=
  fun _ hn => ⟨h.mono hn, 0, Nat.zero_le most, .refl song⟩

lemma gives_addLoop (start : Int) (h : song.Arranged (List.range count)) :
    Gives (addLoop song start) count (Loops song 1) := by
  have hlooped : ∀ n, count ≤ n → Gives (pure (if start / song.patternLength = 0 then song
      else withJump song (start / song.patternLength)) : Session Song) n (Loops song 1) := by
    intro n hn
    refine gives_pure fun m hm => ?_
    split
    · exact loops_refl h 1 m (hn.trans hm)
    · exact ⟨withJump_arranged (h.mono (hn.trans hm)) _, 1, le_refl 1, rfl, rfl, rfl, rfl, rfl⟩
  unfold addLoop
  split
  · exact (gives_warn _).bind fun n _ hn _ => gives_pure fun m hm => loops_refl h 1 m (hn.trans hm)
  · dsimp only
    split
    · split
      · have hstop : Gives (throw .notANumeral : Session PUnit) count fun _ _ => False :=
          gives_throw _
        exact hstop.bind fun _ _ _ hnever => hnever.elim
      · exact (gives_warn _).bind fun n _ hn _ => hlooped n hn
    · exact hlooped count (le_refl _)

end Songs

end Arrangement

end Chiptune
