import Chiptune.Export.Tables
import Chiptune.Proofs.Outcome

/-!
# Tables of envelope streams

The table of streams depends on nothing but the streams that the instruments ask for, one after the
other. It holds each of them once, behind the default one and in the order of first use.
-/

namespace Chiptune

namespace InstrumentTables

/-- The stream that is stored for an envelope, which is the default one where it has no code. -/
inductive StoredAs : Option Envelope → (allowRelease : Bool) → Bytes → Prop
  | code {env allowRelease bytes} (h : env.stream allowRelease = .ok (some bytes)) :
      StoredAs (some env) allowRelease bytes
  | empty {env allowRelease} (h : env.stream allowRelease = .ok none) :
      StoredAs (some env) allowRelease defaultStream
  | absent {allowRelease} : StoredAs none allowRelease defaultStream

/-- A place of the table leads to the stream that is stored for an envelope. -/
def LeadsTo (streams : List Bytes) (envelope : Option Envelope) (allowRelease : Bool)
    (place : Nat) : Prop :=
  ∃ bytes, streams[place]? = some bytes ∧ StoredAs envelope allowRelease bytes

/-- The places of an instrument lead to its streams. Only the volume may be released. -/
structure Serves (kernel : Kernel) (streams : List Bytes) (instrument : Instrument)
    (places : EnvelopePlaces) : Prop where
  volume : LeadsTo streams instrument.volume kernel.supportsReleases places.volume
  arpeggio : LeadsTo streams instrument.arpeggio false places.arpeggio
  pitch : LeadsTo streams instrument.pitch false places.pitch

end InstrumentTables

def EnvelopePlaces.toList (places : EnvelopePlaces) : List Nat :=
  [places.volume, places.arpeggio, places.pitch]

namespace InstrumentTables

/-- The places that the instruments use, one after the other. -/
def uses (tables : InstrumentTables) : List Nat := tables.places.flatMap EnvelopePlaces.toList

/-- The project with all of its instruments listed several times. -/
def repeated (project : Project) (copies : Nat) : Project :=
  { project with instruments := (List.replicate copies project.instruments).flatten }

/-- The table is exact and as small as it can be, and stays so when the instruments are listed
again. -/
structure Exact (project : Project) (kernel : Kernel) (tables : InstrumentTables) : Prop where
  distinct : tables.streams.Nodup
  first : tables.streams.head? = some defaultStream
  serves : List.Forall₂ (Serves kernel tables.streams) project.instruments tables.places
  used : ∀ number, 0 < number → number < tables.streams.length → number ∈ tables.uses
  /-- Where a number is used, all smaller ones but that of the default stream have been used. -/
  firstUse : ∀ position number, tables.uses[position]? = some number →
    ∀ smaller, 0 < smaller → smaller < number → smaller ∈ tables.uses.take position
  again : ∀ copies, 0 < copies → copies * project.instruments.length ≤ Limits.instruments →
    build (repeated project copies) kernel =
      .ok ⟨tables.streams, (List.replicate copies tables.places).flatten⟩

/-- The table when some streams have been stored. -/
def addAll (streams wanted : List Bytes) : List Bytes :=
  wanted.foldl (fun streams stream => (placeOf streams stream).2) streams

section Listed

variable {streams wanted more : List Bytes} {stream : Bytes}

lemma placeOf_mem (h : stream ∈ streams) : (placeOf streams stream).2 = streams :=
  if_pos (List.idxOf_lt_length_of_mem h)

lemma placeOf_not_mem (h : stream ∉ streams) :
    (placeOf streams stream).2 = streams ++ [stream] :=
  if_neg (by rw [List.idxOf_eq_length h]; exact lt_irrefl _)

lemma prefix_placeOf (streams : List Bytes) (stream : Bytes) :
    streams <+: (placeOf streams stream).2 := by
  by_cases h : stream ∈ streams
  · rw [placeOf_mem h]
  · rw [placeOf_not_mem h]
    exact List.prefix_append _ _

lemma mem_placeOf {other : Bytes} :
    other ∈ (placeOf streams stream).2 ↔ other ∈ streams ∨ other = stream := by
  by_cases h : stream ∈ streams
  · rw [placeOf_mem h]
    exact ⟨.inl, fun ho => ho.elim id fun heq => heq ▸ h⟩
  · rw [placeOf_not_mem h, List.mem_append, List.mem_singleton]

lemma nodup_placeOf (h : streams.Nodup) (stream : Bytes) : (placeOf streams stream).2.Nodup := by
  by_cases hmem : stream ∈ streams
  · rwa [placeOf_mem hmem]
  · rw [placeOf_not_mem hmem]
    exact List.nodup_append.mpr ⟨h, List.nodup_singleton _,
      fun a ha b hb hab => hmem (List.mem_singleton.mp hb ▸ hab ▸ ha)⟩

lemma addAll_append (streams wanted more : List Bytes) :
    addAll streams (wanted ++ more) = addAll (addAll streams wanted) more := List.foldl_append

lemma prefix_addAll (streams wanted : List Bytes) : streams <+: addAll streams wanted := by
  induction wanted generalizing streams with
  | nil => exact List.prefix_rfl
  | cons stream rest ih => exact (prefix_placeOf streams stream).trans (ih _)

lemma mem_addAll : stream ∈ addAll streams wanted ↔ stream ∈ streams ∨ stream ∈ wanted := by
  induction wanted generalizing streams with
  | nil => simp [addAll]
  | cons first rest ih =>
    have hstep : stream ∈ addAll (placeOf streams first).2 rest ↔ _ := ih
    rw [mem_placeOf, or_assoc, ← List.mem_cons] at hstep
    exact hstep

lemma nodup_addAll (h : streams.Nodup) (wanted : List Bytes) : (addAll streams wanted).Nodup := by
  induction wanted generalizing streams with
  | nil => exact h
  | cons stream rest ih => exact ih (nodup_placeOf h stream)

lemma addAll_of_subset (h : wanted ⊆ streams) : addAll streams wanted = streams := by
  induction wanted with
  | nil => rfl
  | cons stream rest ih =>
    obtain ⟨hstream, hrest⟩ := List.cons_subset.mp h
    exact (congrArg (addAll · rest) (placeOf_mem hstream)).trans (ih hrest)

lemma addAll_replicate {copies : Nat} (h : 0 < copies) (streams wanted : List Bytes) :
    addAll streams (List.replicate copies wanted).flatten = addAll streams wanted := by
  obtain ⟨more, rfl⟩ := Nat.exists_eq_succ_of_ne_zero h.ne'
  rw [List.replicate_succ, List.flatten_cons, addAll_append]
  refine addAll_of_subset fun stream hs => mem_addAll.mpr (.inr ?_)
  obtain ⟨copy, hcopy, hs⟩ := List.mem_flatten.mp hs
  exact List.eq_of_mem_replicate hcopy ▸ hs

lemma idxOf_grown (hgrown : streams <+: more) (h : stream ∈ streams) :
    more.idxOf stream = streams.idxOf stream := by
  obtain ⟨rest, rfl⟩ := hgrown
  exact List.idxOf_append_of_mem h

lemma placeOf_fst (hgrown : (placeOf streams stream).2 <+: more) :
    (placeOf streams stream).1 = more.idxOf stream := by
  rw [idxOf_grown hgrown (mem_placeOf.mpr (.inr rfl))]
  by_cases h : stream ∈ streams
  · rw [placeOf_mem h]
    rfl
  · rw [placeOf_not_mem h, List.idxOf_append_of_notMem h, List.idxOf_cons_self, Nat.add_zero]
    exact List.idxOf_eq_length h

/-- Of the streams that are not stored yet each gets its number when it is first asked for. -/
lemma addAll_firstUse {position number smaller : Nat}
    (h : (wanted.map (addAll streams wanted).idxOf)[position]? = some number)
    (hle : streams.length ≤ smaller) (hlt : smaller < number) :
    smaller ∈ (wanted.map (addAll streams wanted).idxOf).take position := by
  induction wanted generalizing streams position with
  | nil => cases h
  | cons stream rest ih =>
    have hkept : (placeOf streams stream).2 <+: addAll streams (stream :: rest) :=
      prefix_addAll _ rest
    have hplace := placeOf_fst hkept
    have hsmall : (placeOf streams stream).1 ≤ streams.length := List.idxOf_le_length
    rw [List.map_cons, ← hplace] at h ⊢
    cases position with
    | zero =>
      obtain rfl := Option.some.inj h
      omega
    | succ position =>
      rw [List.take_succ_cons, List.mem_cons]
      by_cases hknown : (placeOf streams stream).2.length ≤ smaller
      · exact .inr (ih h hknown)
      · -- Only the stream just stored has that number.
        left
        by_cases hmem : stream ∈ streams
        · rw [placeOf_mem hmem] at hknown
          exact absurd hle hknown
        · have hlength : (placeOf streams stream).2.length = streams.length + 1 := by
            rw [placeOf_not_mem hmem, List.length_append, List.length_singleton]
          have hnumber : (placeOf streams stream).1 = streams.length := List.idxOf_eq_length hmem
          omega

end Listed

structure OwnStreams where
  volume : Bytes
  arpeggio : Bytes
  pitch : Bytes

def OwnStreams.toList (own : OwnStreams) : List Bytes := [own.volume, own.arpeggio, own.pitch]

/-- The places of an instrument in a table that holds its streams. -/
def OwnStreams.places (streams : List Bytes) (own : OwnStreams) : EnvelopePlaces :=
  ⟨streams.idxOf own.volume, streams.idxOf own.arpeggio, streams.idxOf own.pitch⟩

def storedFor (envelope : Option Envelope) (allowRelease : Bool) : Outcome Bytes := do
  let stream ← match envelope with
    | some envelope => envelope.stream allowRelease
    | none => pure none
  return stream.getD defaultStream

def ownStreams (kernel : Kernel) (instrument : Instrument) : Outcome OwnStreams := do
  return ⟨← storedFor instrument.volume kernel.supportsReleases,
    ← storedFor instrument.arpeggio false, ← storedFor instrument.pitch false⟩

/-- The tables that hold the streams of some instruments. -/
def holding (streams : List Bytes) (owned : List OwnStreams) : InstrumentTables :=
  let streams := addAll streams (owned.flatMap OwnStreams.toList)
  { streams, places := owned.map (OwnStreams.places streams) }

section Instruments

variable {kernel : Kernel} {streams : List Bytes} {instruments : List Instrument}

lemma storedFor_eq_ok_iff {envelope : Option Envelope} {allowRelease : Bool} {bytes : Bytes} :
    storedFor envelope allowRelease = .ok bytes ↔ StoredAs envelope allowRelease bytes := by
  cases envelope with
  | none =>
    refine ⟨fun h => Except.ok.inj h ▸ .absent, fun h => ?_⟩
    cases h
    rfl
  | some env =>
    have hopen : storedFor (some env) allowRelease =
      env.stream allowRelease >>= fun stream => .ok (stream.getD defaultStream) := rfl
    rw [hopen, bind_eq_ok_iff]
    constructor
    · rintro ⟨stream, hstream, h⟩
      obtain rfl := Except.ok.inj h
      cases stream with
      | none => exact .empty hstream
      | some bytes => exact .code hstream
    · intro h
      cases h with
      | code hstream => exact ⟨_, hstream, rfl⟩
      | empty hstream => exact ⟨_, hstream, rfl⟩

lemma placeEnvelope_eq (streams : List Bytes) (envelope : Option Envelope) (allowRelease : Bool) :
    placeEnvelope streams envelope allowRelease =
      storedFor envelope allowRelease >>= fun bytes => .ok (placeOf streams bytes) := by
  cases envelope with
  | none => rfl
  | some env =>
    unfold placeEnvelope storedFor
    dsimp only
    cases env.stream allowRelease with
    | error error => rfl
    | ok stream => rfl

lemma places_grown {own : OwnStreams} {grown : List Bytes}
    (hgrown : addAll streams own.toList <+: grown) :
    own.places (addAll streams own.toList) = own.places grown := by
  have hkept : ∀ bytes ∈ own.toList,
      (addAll streams own.toList).idxOf bytes = grown.idxOf bytes := fun bytes hb =>
    (idxOf_grown hgrown (mem_addAll.mpr (.inr hb))).symm
  rw [OwnStreams.places, OwnStreams.places, hkept own.volume (by simp [OwnStreams.toList]),
    hkept own.arpeggio (by simp [OwnStreams.toList]), hkept own.pitch (by simp [OwnStreams.toList])]

/-- What an instrument puts into a table depends on its streams only. -/
lemma placeInstrument_eq (streams : List Bytes) (instrument : Instrument) :
    placeInstrument kernel streams instrument = ownStreams kernel instrument >>= fun own =>
      .ok (own.places (addAll streams own.toList), addAll streams own.toList) := by
  unfold placeInstrument ownStreams
  rw [placeEnvelope_eq]
  cases storedFor instrument.volume kernel.supportsReleases with
  | error error => rfl
  | ok volume =>
    simp only [ok_bind, placeEnvelope_eq]
    cases storedFor instrument.arpeggio false with
    | error error => rfl
    | ok arpeggio =>
      rw [ok_bind]
      cases storedFor instrument.pitch false with
      | error error => rfl
      | ok pitch =>
        have hfirst : (placeOf streams volume).1 = _ :=
          placeOf_fst (prefix_addAll _ [arpeggio, pitch])
        have hsecond : (placeOf (placeOf streams volume).2 arpeggio).1 = _ :=
          placeOf_fst (prefix_addAll _ [pitch])
        have hthird : (placeOf (placeOf (placeOf streams volume).2 arpeggio).2 pitch).1 = _ :=
          placeOf_fst List.prefix_rfl
        simp only [ok_bind, hfirst, hsecond, hthird]
        rfl

lemma holding_cons (streams : List Bytes) (own : OwnStreams) (owned : List OwnStreams) :
    holding streams (own :: owned) =
      { holding (addAll streams own.toList) owned with
        places := own.places (addAll streams own.toList) ::
          (holding (addAll streams own.toList) owned).places } := by
  have hplaces := @places_grown streams own _
    (prefix_addAll (addAll streams own.toList) (owned.flatMap OwnStreams.toList))
  rw [hplaces]
  simp only [holding, List.flatMap_cons, addAll_append, List.map_cons]

/-- The instruments are placed one after the other by their streams. -/
lemma placeAll_eq (streams : List Bytes) (instruments : List Instrument) :
    placeAll kernel streams instruments =
      instruments.mapM (ownStreams kernel) >>= fun owned => .ok (holding streams owned) := by
  induction instruments generalizing streams with
  | nil => rfl
  | cons instrument rest ih =>
    rw [placeAll, placeInstrument_eq, List.mapM_cons]
    cases ownStreams kernel instrument with
    | error error => rfl
    | ok own =>
      simp only [ok_bind, ih]
      cases rest.mapM (ownStreams kernel) with
      | error error => rfl
      | ok owned => exact congrArg Except.ok (holding_cons streams own owned).symm

lemma ownStreams_eq_ok {instrument : Instrument} {own : OwnStreams}
    (h : ownStreams kernel instrument = .ok own) :
    StoredAs instrument.volume kernel.supportsReleases own.volume ∧
      StoredAs instrument.arpeggio false own.arpeggio ∧
      StoredAs instrument.pitch false own.pitch := by
  obtain ⟨volume, hvolume, h⟩ := (bind_eq_ok_iff _ _ _).mp h
  obtain ⟨arpeggio, harpeggio, h⟩ := (bind_eq_ok_iff _ _ _).mp h
  obtain ⟨pitch, hpitch, h⟩ := (bind_eq_ok_iff _ _ _).mp h
  obtain rfl := Except.ok.inj h
  exact ⟨storedFor_eq_ok_iff.mp hvolume, storedFor_eq_ok_iff.mp harpeggio,
    storedFor_eq_ok_iff.mp hpitch⟩

lemma serves_places {instrument : Instrument} {own : OwnStreams}
    (h : ownStreams kernel instrument = .ok own) (hall : ∀ bytes ∈ own.toList, bytes ∈ streams) :
    Serves kernel streams instrument (own.places streams) := by
  obtain ⟨hvolume, harpeggio, hpitch⟩ := ownStreams_eq_ok h
  simp only [OwnStreams.toList, List.forall_mem_cons] at hall
  exact ⟨⟨_, List.getElem?_idxOf hall.1, hvolume⟩, ⟨_, List.getElem?_idxOf hall.2.1, harpeggio⟩,
    ⟨_, List.getElem?_idxOf hall.2.2.1, hpitch⟩⟩

lemma uses_holding (streams : List Bytes) (owned : List OwnStreams) :
    (holding streams owned).uses = (owned.flatMap OwnStreams.toList).map
      (addAll streams (owned.flatMap OwnStreams.toList)).idxOf := by
  rw [uses, holding, List.flatMap_map, List.map_flatMap]
  rfl

/-- Instruments that are listed several times ask for the same streams as often. -/
lemma mapM_replicate {owned : List OwnStreams}
    (h : instruments.mapM (ownStreams kernel) = .ok owned) (copies : Nat) :
    (List.replicate copies instruments).flatten.mapM (ownStreams kernel) =
      .ok (List.replicate copies owned).flatten := by
  rw [mapM_eq_ok_iff] at h ⊢
  induction copies with
  | zero => exact .nil
  | succ copies ih =>
    rw [List.replicate_succ, List.replicate_succ, List.flatten_cons, List.flatten_cons]
    exact List.rel_append h ih

lemma holding_replicate {copies : Nat} (h : 0 < copies) (streams : List Bytes)
    (owned : List OwnStreams) : holding streams (List.replicate copies owned).flatten =
      ⟨(holding streams owned).streams,
        (List.replicate copies (holding streams owned).places).flatten⟩ := by
  have hwanted : (List.replicate copies owned).flatten.flatMap OwnStreams.toList =
      (List.replicate copies (owned.flatMap OwnStreams.toList)).flatten := by
    rw [List.flatMap_def, List.flatMap_def, List.map_flatten, List.map_replicate,
      List.flatten_flatten, List.map_replicate]
  simp only [holding, hwanted, addAll_replicate h, List.map_flatten, List.map_replicate]

variable {project : Project} {tables : InstrumentTables}

lemma build_eq_ok_iff : build project kernel = .ok tables ↔
    project.instruments.length ≤ Limits.instruments ∧ ∃ owned,
      project.instruments.mapM (ownStreams kernel) = .ok owned ∧
        tables = holding [defaultStream] owned := by
  unfold build
  by_cases hmany : project.instruments.length > Limits.instruments
  · rw [if_pos hmany]
    exact iff_of_false (fun h => nomatch h) fun h => absurd h.1 (not_le.mpr hmany)
  · rw [if_neg hmany]
    dsimp only
    rw [placeAll_eq, bind_eq_ok_iff]
    refine ⟨fun ⟨owned, howned, h⟩ => ⟨not_lt.mp hmany, owned, howned, (Except.ok.inj h).symm⟩, ?_⟩
    rintro ⟨-, owned, howned, rfl⟩
    exact ⟨owned, howned, rfl⟩

end Instruments

/-- The table of streams holds what the instruments need, and nothing twice. -/
theorem build_exact {project : Project} {kernel : Kernel} {tables : InstrumentTables}
    (h : build project kernel = .ok tables) : Exact project kernel tables := by
  obtain ⟨-, owned, howned, rfl⟩ := build_eq_ok_iff.mp h
  have hstart : [defaultStream] <+: (holding [defaultStream] owned).streams := prefix_addAll _ _
  have hnodup : (holding [defaultStream] owned).streams.Nodup :=
    nodup_addAll (List.nodup_singleton _) _
  refine ⟨hnodup, ?_, ?_, ?_, ?_, ?_⟩
  · obtain ⟨more, hmore⟩ := hstart
    rw [← hmore]
    rfl
  · have hheld : ∀ own ∈ owned, ∀ bytes ∈ own.toList,
        bytes ∈ (holding [defaultStream] owned).streams :=
      fun own ho bytes hb => mem_addAll.mpr (.inr (List.mem_flatMap.mpr ⟨own, ho, hb⟩))
    refine List.forall₂_map_right_iff.mpr (List.Forall₂.imp ?_
      (List.forall₂_and_left _ _ |>.mpr ⟨hheld, ((mapM_eq_ok_iff _ _ _).mp howned).flip⟩).flip)
    exact fun instrument own hown => serves_places hown.2 hown.1
  · intro number hpos hlt
    rw [uses_holding, List.mem_map]
    refine ⟨(holding [defaultStream] owned).streams[number], ?_,
      hnodup.idxOf_getElem number hlt⟩
    refine (mem_addAll.mp (List.getElem_mem hlt)).resolve_left fun hdefault => ?_
    -- The default stream has the number zero.
    have hnumber := hnodup.idxOf_getElem number hlt
    rw [List.mem_singleton.mp hdefault, idxOf_grown hstart List.mem_cons_self,
      List.idxOf_cons_self] at hnumber
    omega
  · intro position number hnumber smaller hpos hlt
    rw [uses_holding] at hnumber ⊢
    exact addAll_firstUse hnumber hpos hlt
  · intro copies hpos hfit
    refine build_eq_ok_iff.mpr ⟨?_, _, mapM_replicate howned copies,
      (holding_replicate hpos _ owned).symm⟩
    simpa [repeated] using hfit

/-- A neutral arpeggio is the default stream, and the second instrument has one stream for volume
and arpeggio. -/
def plainBand : Project :=
  { instruments := [
      { id := 0, name := "lead", volume := some { values := [15, 15, 9], loop := 1 },
        arpeggio := some { values := [0] } },
      { id := 1, name := "bass", volume := some { values := [3] },
        arpeggio := some { values := [3] } }] }

theorem plainBand_exact :
    build plainBand .legacy =
      .ok ⟨[[192, 0, 0], [207, 207, 201, 0, 1], [195, 0, 0]], [⟨1, 0, 0⟩, ⟨2, 2, 0⟩]⟩ ∧
    Exact plainBand .legacy
      ⟨[[192, 0, 0], [207, 207, 201, 0, 1], [195, 0, 0]], [⟨1, 0, 0⟩, ⟨2, 2, 0⟩]⟩ := by
  have hbuild : build plainBand .legacy =
      .ok ⟨[[192, 0, 0], [207, 207, 201, 0, 1], [195, 0, 0]], [⟨1, 0, 0⟩, ⟨2, 2, 0⟩]⟩ := by
    decide +kernel
  exact ⟨hbuild, build_exact hbuild⟩

end InstrumentTables

end Chiptune
