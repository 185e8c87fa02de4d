import Chiptune.Proofs.SongPlayback

/-!
# What is heard in a row

The driver keeps the instrument of a channel until an instrument command changes it. `hear` turns
what the driver does into rows with the instrument that is active in each. A driver whose instrument
is the one that the encoder takes for active hears every row as the song has it.
-/

namespace Chiptune

/-- One row of a channel as it is heard, with the instrument of the last command for one. -/
structure Beat where
  speed : Option UInt8 := none
  volume : Option UInt8 := none
  instrument : Option Nat
  code : Option UInt8 := none
  deriving DecidableEq, Repr

def Beat.gather (beat : Beat) : Event → Beat
  | .speed frames => { beat with speed := some frames }
  | .volume level => { beat with volume := some level }
  | .instrument index => { beat with instrument := some index }
  | .note code => { beat with code := some code }
  | .rest => { beat with code := none }

/-- The rows heard from the row on that `beat` has begun. -/
def hear : Beat → List Event → List Beat
  | _, [] => []
  | beat, event :: rest =>
    if event.isRow then
      beat.gather event :: hear { instrument := (beat.gather event).instrument } rest
    else hear (beat.gather event) rest

/-- The instrument of the driver after some events. -/
def heardAfter (heard : Option Nat) (events : List Event) : Option Nat :=
  events.foldl (fun heard event => match event with
    | .instrument index => some index
    | _ => heard) heard

lemma heardAfter_append (heard : Option Nat) (events more : List Event) :
    heardAfter heard (events ++ more) = heardAfter (heardAfter heard events) more :=
  List.foldl_append

lemma heardAfter_eq (heard : Option Nat) (events : List Event) :
    heardAfter heard events = (heardAfter none events <|> heard) := by
  induction events using List.reverseRecOn with
  | nil => rfl
  | append_singleton events event ih =>
    rw [heardAfter_append, heardAfter_append, ih]
    cases event <;> rfl

lemma hear_length (beat : Beat) (events : List Event) :
    (hear beat events).length = eventRows events := by
  induction events generalizing beat with
  | nil => rfl
  | cons event rest ih =>
    rw [hear, eventRows, List.countP_cons]
    by_cases hrow : event.isRow = true
    · rw [if_pos hrow, if_pos hrow, List.length_cons, ih]
      rfl
    · rw [if_neg hrow, if_neg hrow, ih]
      rfl

/-- Whether the row starts a pitch. -/
def Row.isMusical (row : Row) : Bool :=
  Note.lowest ≤ row.value && row.value ≤ Note.highest

namespace Voicing

variable (voicing : Voicing)

/-- The instrument of the driver in a row, given the one that the encoder takes for active. -/
def hearing (heard : Option Nat) (active : Option InstrumentId) (row : Row) : Option Nat :=
  heardAfter heard (voicing.naming active row.instrument)

def beat (heard : Option Nat) (active : Option InstrumentId) (row : Row) : Beat where
  speed := row.speed
  volume := row.volume
  instrument := voicing.hearing heard active row
  code := if row.isNote then some (voicing.code row.value) else none

def beats : (heard : Option Nat) → (active : Option InstrumentId) → List Row → List Beat
  | _, _, [] => []
  | heard, active, row :: rest =>
    voicing.beat heard active row ::
      beats (voicing.hearing heard active row) (row.instrument <|> active) rest

/-- The row is heard as it is, with its own instrument if it starts a pitch. -/
structure Heard (row : Row) (beat : Beat) : Prop where
  speed : beat.speed = row.speed
  volume : beat.volume = row.volume
  code : beat.code = if row.isNote then some (voicing.code row.value) else none
  instrument : row.isMusical = true → ∃ id place, row.instrument = some id ∧
    voicing.index id = some place ∧ beat.instrument = some place

/-- Rows that start a pitch, and no others, have an instrument, and it is in the table. -/
structure Tuned (row : Row) : Prop where
  musical : row.isMusical = true → ∃ id place, row.instrument = some id ∧
    voicing.index id = some place ∧ place < Limits.instruments
  only : row.isMusical = false → row.instrument = none

end Voicing

section Heard

variable {voicing : Voicing} {heard : Option Nat} {active : Option InstrumentId} {row : Row}
  {rows : List Row}

lemma hear_lead {lead : List Event} (h : ∀ event ∈ lead, event.isRow = false) (beat : Beat)
    (rest : List Event) : hear beat (lead ++ rest) = hear (lead.foldl Beat.gather beat) rest := by
  induction lead generalizing beat with
  | nil => rfl
  | cons event lead ih =>
    rw [List.cons_append, hear, if_neg (by simp [h event]), List.foldl_cons]
    exact ih (fun other ho => h other (by simp [ho])) _

lemma naming_cases (voicing : Voicing) (active wanted : Option InstrumentId) :
    voicing.naming active wanted = [] ∨
      ∃ index, voicing.naming active wanted = [.instrument index] := by
  cases wanted with
  | none => exact .inl rfl
  | some id =>
    by_cases ha : active = some id
    · exact .inl (by simp [Voicing.naming, ha])
    · exact .inr ⟨voicing.number id, by simp [Voicing.naming, ha]⟩

/-- A row is heard with a speed that was set before it, unless it sets one itself. -/
lemma hear_rowEvents (speed : Option UInt8) (heard : Option Nat) (active : Option InstrumentId)
    (row : Row) (rest : List Event) :
    hear { speed, instrument := heard } (voicing.rowEvents active row ++ rest) =
      { voicing.beat heard active row with speed := row.speed <|> speed } ::
        hear { instrument := voicing.hearing heard active row } rest := by
  have hlead : ∀ event ∈ row.speed.toList.map Event.speed ++ row.volume.toList.map Event.volume ++
      voicing.naming active row.instrument, event.isRow = false := by
    intro event he
    rcases List.mem_append.mp he with he | he
    · rcases List.mem_append.mp he with he | he
      · obtain ⟨frames, -, rfl⟩ := List.mem_map.mp he
        rfl
      · obtain ⟨level, -, rfl⟩ := List.mem_map.mp he
        rfl
    · rcases naming_cases voicing active row.instrument with hn | ⟨index, hn⟩
      · simp [hn] at he
      · obtain rfl : event = .instrument index := by simpa [hn] using he
        rfl
  have hrow : (if row.isNote then Event.note (voicing.code row.value) else .rest).isRow = true := by
    cases row.isNote <;> rfl
  have hbeat : (((row.speed.toList.map Event.speed ++ row.volume.toList.map Event.volume ++
      voicing.naming active row.instrument).foldl Beat.gather
      { speed, instrument := heard }).gather
      (if row.isNote then .note (voicing.code row.value) else .rest)) =
      { voicing.beat heard active row with speed := row.speed <|> speed } := by
    unfold Voicing.beat Voicing.hearing
    cases row.speed <;> cases row.volume <;> cases row.isNote <;>
      rcases naming_cases voicing active row.instrument with hn | ⟨index, hn⟩ <;> rw [hn] <;> rfl
  rw [Voicing.rowEvents, List.append_assoc, hear_lead hlead, List.singleton_append, hear,
    if_pos hrow, hbeat]
  rfl

theorem hear_events (voicing : Voicing) (heard : Option Nat) (active : Option InstrumentId)
    (rows : List Row) : hear { instrument := heard } (voicing.events active rows) =
      voicing.beats heard active rows := by
  induction rows generalizing heard active with
  | nil => rfl
  | cons row rest ih =>
    have hspeed : (row.speed <|> none) = row.speed := by cases row.speed <;> rfl
    rw [Voicing.events, hear_rowEvents, ih, Voicing.beats, hspeed]
    rfl

lemma beats_length (voicing : Voicing) (heard : Option Nat) (active : Option InstrumentId)
    (rows : List Row) : (voicing.beats heard active rows).length = rows.length := by
  induction rows generalizing heard active with
  | nil => rfl
  | cons row rest ih => rw [Voicing.beats, List.length_cons, ih, List.length_cons]

lemma eventRows_events (voicing : Voicing) (active : Option InstrumentId) (rows : List Row) :
    eventRows (voicing.events active rows) = rows.length := by
  rw [← beats_length voicing none active rows, ← hear_events, hear_length]

lemma heardAfter_rowEvents (heard : Option Nat) (active : Option InstrumentId) (row : Row) :
    heardAfter heard (voicing.rowEvents active row) = voicing.hearing heard active row := by
  unfold Voicing.rowEvents
  rw [heardAfter_append, heardAfter_append, heardAfter_append]
  cases row.speed <;> cases row.volume <;> cases row.isNote <;> rfl

lemma Voicing.Tuned.isMusical_of_instrument (h : voicing.Tuned row) {id : InstrumentId}
    (hid : row.instrument = some id) : row.isMusical = true := by
  by_contra hm
  simp [h.only (by simpa using hm)] at hid

lemma Voicing.Tuned.number (h : voicing.Tuned row) {id : InstrumentId}
    (hid : row.instrument = some id) : voicing.index id = some (voicing.number id) := by
  obtain ⟨other, place, hother, hp, hlt⟩ := h.musical (h.isMusical_of_instrument hid)
  obtain rfl : id = other := Option.some.inj (hid.symm.trans hother)
  simp only [Limits.instruments] at hlt
  rw [hp, Voicing.number, hp, Option.getD_some, Nat.mod_eq_of_lt hlt]

/-- While the driver has the instrument that the encoder takes for active, it keeps to it. -/
lemma hearing_synchronised (hheard : heard = active.map voicing.number) (row : Row) :
    voicing.hearing heard active row = (row.instrument <|> active).map voicing.number := by
  unfold Voicing.hearing
  cases hid : row.instrument with
  | none => exact hheard
  | some id =>
    by_cases ha : active = some id
    · simp [Voicing.naming, ha, hheard, heardAfter]
    · simp [Voicing.naming, ha, heardAfter]

lemma heardAfter_events (hheard : heard = active.map voicing.number) (rows : List Row) :
    heardAfter heard (voicing.events active rows) =
      (activeAfter active rows).map voicing.number := by
  induction rows generalizing heard active with
  | nil => exact hheard
  | cons row rest ih =>
    rw [Voicing.events, heardAfter_append, heardAfter_rowEvents, ih (hearing_synchronised hheard _)]
    rfl

/-- A row is heard as it is if and only if its own instrument is the active one. -/
lemma heard_beat_iff (h : voicing.Tuned row) (heard : Option Nat) (active : Option InstrumentId) :
    voicing.Heard row (voicing.beat heard active row) ↔
      ∀ id, row.instrument = some id →
        voicing.hearing heard active row = some (voicing.number id) := by
  constructor
  · rintro ⟨-, -, -, hinstrument⟩ id hid
    obtain ⟨other, place, hother, hp, hb⟩ := hinstrument (h.isMusical_of_instrument hid)
    obtain rfl : id = other := Option.some.inj (hid.symm.trans hother)
    have hn := h.number hid
    rw [hp] at hn
    exact hb.trans hn
  · intro hall
    refine ⟨rfl, rfl, rfl, fun hm => ?_⟩
    obtain ⟨id, place, hid, -, -⟩ := h.musical hm
    exact ⟨id, voicing.number id, hid, h.number hid, hall id hid⟩

/-- A driver that has the instrument that the encoder takes for active hears all rows. -/
theorem beats_synchronised (h : ∀ row ∈ rows, voicing.Tuned row)
    (hheard : heard = active.map voicing.number) :
    List.Forall₂ voicing.Heard rows (voicing.beats heard active rows) := by
  induction rows generalizing heard active with
  | nil => exact .nil
  | cons row rest ih =>
    have hnext := hearing_synchronised hheard row
    refine .cons ?_ (ih (fun other ho => h other (by simp [ho])) hnext)
    rw [heard_beat_iff (h row (by simp))]
    intro id hid
    rw [hnext, hid]
    rfl

/-- A driver with any other instrument hears all rows just if that does not matter: the first
instrument of the rows is named or is the one that the driver has. -/
theorem beats_iff (h : ∀ row ∈ rows, voicing.Tuned row) (heard : Option Nat)
    (active : Option InstrumentId) :
    List.Forall₂ voicing.Heard rows (voicing.beats heard active rows) ↔
      ∀ id, rows.findSome? Row.instrument = some id → active = some id →
        heard = some (voicing.number id) := by
  induction rows with
  | nil => exact iff_of_true .nil (by simp)
  | cons row rest ih =>
    have hrow := h row (by simp)
    have hrest : ∀ other ∈ rest, voicing.Tuned other := fun other ho => h other (by simp [ho])
    rw [Voicing.beats, List.forall₂_cons, heard_beat_iff hrow]
    cases hid : row.instrument with
    | none =>
      have hh : voicing.hearing heard active row = heard := by
        rw [Voicing.hearing, hid]
        rfl
      have ha : ((none : Option InstrumentId) <|> active) = active := rfl
      rw [List.findSome?_cons, hid, hh, ha, ih hrest]
      simp
    | some id =>
      have ha : (some id <|> active) = some id := rfl
      rw [List.findSome?_cons, hid, ha]
      by_cases hactive : active = some id
      · -- no command is written, so the driver goes on with what it has
        have hh : voicing.hearing heard active row = heard := by
          simp [Voicing.hearing, hid, Voicing.naming, hactive, heardAfter]
        rw [hh]
        constructor
        · rintro ⟨hfirst, -⟩ other hother -
          exact hfirst other hother
        · intro hall
          have hheard := hall id rfl hactive
          refine ⟨fun other hother => ?_, beats_synchronised hrest (by rw [hheard]; rfl)⟩
          obtain rfl := Option.some.inj hother
          exact hheard
      · have hh : voicing.hearing heard active row = some (voicing.number id) := by
          simp [Voicing.hearing, hid, Voicing.naming, hactive, heardAfter]
        rw [hh]
        refine iff_of_true ⟨fun other hother => ?_, beats_synchronised hrest rfl⟩ ?_
        · obtain rfl := Option.some.inj hother
          rfl
        · rintro other hother hother'
          exact absurd (hother'.trans hother.symm) hactive

end Heard

end Chiptune
