import Chiptune.Arrangement.Build
import Chiptune.Proofs.HeardNotes
import Chiptune.Proofs.Outcome

/-!
# Quantised notes

In a score that runs forward no note lies before its start, and the grid leaves it so: rounding
never makes a number negative that was not. Scores that come from files run forward.
-/

namespace Chiptune

open Midi (NoteSpan Moment)

/-- No message lies before the one that it follows. -/
def Midi.Score.Forward (score : Midi.Score) : Prop :=
  ∀ track ∈ score.tracks, ∀ message ∈ track, 0 ≤ message.delta

namespace Midi

/-- What the reader gives, if it gives anything, satisfies `post`. -/
def Returns {α : Type} (reader : Reader α) (post : α → Prop) : Prop :=
  ∀ position result, reader.run position = .ok result → post result.1

section Returns

variable {α β : Type} {reader : Reader α} {post : α → Prop}

lemma returns_any (reader : Reader α) : Returns reader fun _ => True := fun _ _ _ => trivial

lemma returns_pure {a : α} (h : post a) : Returns (pure a : Reader α) post := by
  intro position result hrun
  obtain rfl := Except.ok.inj hrun
  exact h

lemma returns_throw (error : MidiFileError) : Returns (throw error : Reader α) post :=
  fun _ _ hrun => nomatch hrun

lemma Returns.bind {f : α → Reader β} {final : β → Prop} (h : Returns reader post)
    (hf : ∀ a, post a → Returns (f a) final) : Returns (reader >>= f) final := by
  intro position result hrun
  obtain ⟨⟨a, middle⟩, hfirst, hrest⟩ := (bind_eq_ok_iff _ _ _).mp hrun
  exact hf a (h position _ hfirst) middle result hrest

lemma returns_check {condition : Prop} [Decidable condition] {error : MidiFileError}
    (h : Returns reader post) :
    Returns (if condition then throw error >>= fun _ : PUnit => reader else reader) post := by
  split
  · exact (returns_any (throw error)).bind fun _ _ => h
  · exact h

end Returns

lemma metaMessage_delta (delta : Nat) : Returns (metaMessage delta) (0 ≤ ·.delta) := by
  refine (returns_any byte).bind fun kind _ => ?_
  refine (returns_any number).bind fun count _ => ?_
  refine (returns_any (block count)).bind fun data _ => ?_
  refine returns_check ?_
  split
  · exact returns_pure (Int.natCast_nonneg delta)
  · refine returns_pure ?_
    dsimp only
    split
    · exact Int.natCast_nonneg delta
    · exact le_refl 0

lemma exclusiveMessage_delta (delta : Nat) : Returns (exclusiveMessage delta) (0 ≤ ·.delta) := by
  refine (returns_any number).bind fun count _ => ?_
  refine (returns_any (block count)).bind fun data _ => ?_
  exact returns_check (returns_pure (Int.natCast_nonneg delta))

lemma plainMessage_delta (delta : Nat) (status : UInt8) (first : Option UInt8) :
    Returns (plainMessage delta status first) (0 ≤ ·.delta) := by
  unfold plainMessage
  split
  · refine (returns_any _).bind fun data _ => ?_
    exact returns_check (returns_check (returns_pure (Int.natCast_nonneg delta)))
  · exact returns_throw _

lemma message_delta (running : Option UInt8) : Returns (message running) (0 ≤ ·.1.delta) := by
  refine (returns_any number).bind fun delta _ => ?_
  refine (returns_any byte).bind fun b _ => ?_
  have hrest : ∀ status first running, Returns (do
      if status = 0xFF then return (← metaMessage delta, running)
      if isSystemExclusive status then return (← exclusiveMessage delta, running)
      return (← plainMessage delta status first, running) : Reader (Message × Option UInt8))
      (0 ≤ ·.1.delta) := by
    intro status first running
    split
    · exact (metaMessage_delta delta).bind fun _ h => returns_pure h
    · split
      · exact (exclusiveMessage_delta delta).bind fun _ h => returns_pure h
      · exact (plainMessage_delta delta status first).bind fun _ h => returns_pure h
  dsimp only
  split
  · split
    · exact (returns_any (throw _)).bind fun _ _ => hrest _ _ _
    · exact (returns_any _).bind fun _ _ => hrest _ _ _
  · exact (returns_any _).bind fun _ _ => hrest _ _ _

lemma messages_delta (size fuel : Nat) (running : Option UInt8) :
    Returns (messages size fuel running) (∀ message ∈ ·, 0 ≤ message.delta) := by
  induction fuel generalizing running with
  | zero =>
    refine (returns_any get).bind fun position _ => ?_
    split
    · exact returns_pure fun _ h => absurd h List.not_mem_nil
    · exact returns_throw _
  | succ fuel ih =>
    refine (returns_any get).bind fun position _ => ?_
    split
    · exact returns_pure fun _ h => absurd h List.not_mem_nil
    · refine (message_delta running).bind fun first hfirst => ?_
      refine (ih first.2).bind fun rest hrest => ?_
      exact returns_pure (List.forall_mem_cons.mpr ⟨hfirst, hrest⟩)

lemma tracks_forward (count : Nat) :
    Returns (tracks count) (∀ track ∈ ·, ∀ message ∈ track, 0 ≤ message.delta) := by
  induction count with
  | zero => exact returns_pure fun _ h => absurd h List.not_mem_nil
  | succ count ih =>
    have htrack : Returns track (∀ message ∈ ·, 0 ≤ message.delta) := by
      refine (returns_any chunkHeader).bind fun header _ => ?_
      refine returns_check ((returns_any _).bind fun _ _ => ?_)
      exact (returns_any get).bind fun position _ => messages_delta _ _ _
    refine htrack.bind fun first hfirst => ih.bind fun rest hrest => ?_
    exact returns_pure (List.forall_mem_cons.mpr ⟨hfirst, hrest⟩)

/-- A file cannot hold a message before the one that it follows. -/
theorem ofBytes_forward {file : Bytes} {midi : Midi.Score}
    (h : Score.ofBytes file = .ok midi) : midi.Forward := by
  have hscore : Returns score Score.Forward := by
    refine (returns_any chunkHeader).bind fun header _ => ?_
    refine returns_check ((returns_any get).bind fun position _ => ?_)
    refine returns_check ((returns_any _).bind fun _ _ => ?_)
    exact (tracks_forward _).bind fun tracks htracks => returns_pure htracks
  obtain ⟨result, hrun, h⟩ := (bind_eq_ok_iff _ _ _).mp h
  obtain rfl := Except.ok.inj h
  exact hscore _ _ hrun

lemma momentsFrom_tick {track : Track} (h : ∀ message ∈ track, 0 ≤ message.delta) {now : Int}
    (hnow : 0 ≤ now) : ∀ moment ∈ momentsFrom now track, 0 ≤ moment.tick := by
  induction track generalizing now with
  | nil => exact fun _ hm => absurd hm List.not_mem_nil
  | cons message rest ih =>
    have hnext : 0 ≤ now + message.delta := add_nonneg hnow (h message List.mem_cons_self)
    refine List.forall_mem_cons.mpr ⟨hnext, ?_⟩
    exact ih (fun other ho => h other (List.mem_cons_of_mem _ ho)) hnext

lemma timeline_tick {score : Score} (h : score.Forward) :
    ∀ moment ∈ score.timeline, 0 ≤ moment.tick := by
  intro moment hm
  obtain ⟨track, ht, hm⟩ := List.mem_flatMap.mp (List.mem_mergeSort.mp hm)
  exact momentsFrom_tick (h track ht) (le_refl 0) moment hm

/-- No note has started before the start of the score. -/
structure Sounding.Started (sounding : Sounding) : Prop where
  active : ∀ note ∈ sounding.active, 0 ≤ note.start
  ended : ∀ note ∈ sounding.ended, 0 ≤ note.start

lemma Sounding.Started.stop {sounding : Sounding} (h : sounding.Started) (channel key : Nat)
    (tick : Int) : (sounding.stop channel key tick).Started := by
  unfold Sounding.stop
  split
  · exact h
  · next note hfound =>
    refine ⟨fun other ho => h.active other (List.mem_filter.mp ho).1, ?_⟩
    exact List.forall_mem_cons.mpr ⟨h.active note (List.mem_of_find?_eq_some hfound), h.ended⟩

lemma Sounding.Started.step {sounding : Sounding} (h : sounding.Started) {moment : Moment}
    (htick : 0 ≤ moment.tick) : (sounding.step moment).Started := by
  unfold Sounding.step
  split
  · next channel key velocity _ =>
    have hstopped := h.stop channel key moment.tick
    dsimp only
    split
    · exact hstopped
    · refine ⟨fun note hn => ?_, hstopped.ended⟩
      rcases List.mem_append.mp hn with hn | hn
      · exact hstopped.active note hn
      · exact List.mem_singleton.mp hn ▸ htick
  · next channel key _ => exact h.stop channel key moment.tick
  · exact h

lemma notes_start {score : Score} (h : score.Forward) :
    ∀ note ∈ notes score.timeline, 0 ≤ note.start := by
  have hstarted : (score.timeline.foldl Sounding.step {}).Started := by
    have hnone : Sounding.Started {} :=
      ⟨fun _ hn => absurd hn List.not_mem_nil, fun _ hn => absurd hn List.not_mem_nil⟩
    exact List.foldlRecOn score.timeline Sounding.step hnone
      fun sounding hs moment hm => hs.step (timeline_tick h moment hm)
  intro note hn
  rcases List.mem_append.mp (List.mem_mergeSort.mp hn) with hn | hn
  · exact hstarted.ended note (List.mem_reverse.mp hn)
  · obtain ⟨other, ho, rfl⟩ := List.mem_map.mp hn
    exact hstarted.active other ho

end Midi

lemma roundHalfEven_nonneg {num : Int} (h : 0 ≤ num) (den : Nat) : 0 ≤ roundHalfEven num den := by
  have hfloor : 0 ≤ num / den := Int.ediv_nonneg h (Int.natCast_nonneg den)
  unfold roundHalfEven
  dsimp only
  split
  · exact hfloor
  · split
    · omega
    · omega

namespace Binary64

lemma overPower_nonneg {num : Int} (h : 0 ≤ num) (den : Nat) (exponent : Int) :
    0 ≤ (overPower num den exponent).1 := by
  unfold overPower
  split
  · exact h
  · exact mul_nonneg h (Int.natCast_nonneg _)

lemma nearest?_nonneg {num : Int} {den : Nat} {x : Binary64} (h : nearest? num den = some x)
    (hnum : 0 ≤ num) : 0 ≤ x.mantissa := by
  unfold nearest? at h
  split at h
  · obtain rfl := Option.some.inj h
    exact le_refl 0
  · dsimp only at h
    split at h
    · cases h
    · obtain rfl := Option.some.inj h
      exact roundHalfEven_nonneg (overPower_nonneg hnum _ _) _

lemma ratio_nonneg {x : Binary64} (h : 0 ≤ x.mantissa) : 0 ≤ x.ratio.1 := overPower_nonneg h 1 _

lemma div?_nonneg {x y z : Binary64} (h : x.div? y = some z) (hx : 0 ≤ x.mantissa)
    (hy : 0 ≤ y.mantissa) : 0 ≤ z.mantissa := by
  refine nearest?_nonneg h ?_
  have hsign : 0 ≤ y.ratio.1.sign := Int.sign_nonneg_iff.mpr (ratio_nonneg hy)
  exact mul_nonneg (mul_nonneg (ratio_nonneg hx) (Int.natCast_nonneg _)) hsign

lemma round_nonneg {x : Binary64} (h : 0 ≤ x.mantissa) : 0 ≤ x.round :=
  roundHalfEven_nonneg (ratio_nonneg h) _

end Binary64

lemma finite_eq_ok {x : Option Binary64} {y : Binary64} (h : Number.finite x = .ok y) :
    x = some y := by
  cases x with
  | none => cases h
  | some x => exact congrArg some (Except.ok.inj h)

namespace Arrangement

lemma Grid.make_nonneg {ticksPerBeat rowsPerBeat : Int} {grid : Grid}
    (h : Grid.make ticksPerBeat rowsPerBeat = .ok grid) (hticks : 0 ≤ ticksPerBeat)
    (hrows : 0 < rowsPerBeat) : 0 ≤ grid.ticksPerRow.mantissa := by
  obtain ⟨ticksPerRow, hquotient, h⟩ := (bind_eq_ok_iff _ _ _).mp h
  obtain rfl := Except.ok.inj h
  rw [Number.quotient, if_neg hrows.ne'] at hquotient
  have hnearest := finite_eq_ok hquotient
  rw [Int.sign_eq_one_of_pos hrows, mul_one] at hnearest
  exact Binary64.nearest?_nonneg hnearest hticks

section Grid

variable {grid : Grid} (hgrid : 0 ≤ grid.ticksPerRow.mantissa)

include hgrid

lemma Grid.row_nonneg {tick row : Int} (h : grid.row tick = .ok row) (htick : 0 ≤ tick) :
    0 ≤ row := by
  unfold Grid.row at h
  split at h
  · cases h
  obtain ⟨x, hx, h⟩ := (bind_eq_ok_iff _ _ _).mp h
  obtain ⟨y, hy, h⟩ := (bind_eq_ok_iff _ _ _).mp h
  obtain rfl := Except.ok.inj h
  have hpos := Binary64.nearest?_nonneg (finite_eq_ok hx) htick
  exact Binary64.round_nonneg (Binary64.div?_nonneg (finite_eq_ok hy) hpos hgrid)

lemma Grid.align_start {note aligned : NoteSpan} (h : grid.align note = .ok aligned)
    (hstart : 0 ≤ note.start) : 0 ≤ aligned.start := by
  obtain ⟨start, hrow, h⟩ := (bind_eq_ok_iff _ _ _).mp h
  obtain ⟨stop, -, h⟩ := (bind_eq_ok_iff _ _ _).mp h
  obtain rfl := Except.ok.inj h
  exact grid.row_nonneg hgrid hrow hstart

end Grid

lemma Grid.align_stop {grid : Grid} {note aligned : NoteSpan} (h : grid.align note = .ok aligned) :
    aligned.start < aligned.stop := by
  obtain ⟨start, -, h⟩ := (bind_eq_ok_iff _ _ _).mp h
  obtain ⟨stop, -, h⟩ := (bind_eq_ok_iff _ _ _).mp h
  obtain rfl := Except.ok.inj h
  dsimp only [NoteSpan.stop]
  split
  · omega
  · omega

lemma alignScore_sorted {grid : Grid} {timeline : List Moment} {notes aligned : List NoteSpan}
    {rows : Int} (h : alignScore grid timeline notes = .ok (aligned, rows)) :
    ∃ quantised, notes.mapM grid.align = .ok quantised ∧
      aligned = quantised.mergeSort NoteSpan.before := by
  obtain ⟨sorted, hsorted, h⟩ := (bind_eq_ok_iff _ _ _).mp h
  obtain ⟨last, -, h⟩ := (bind_eq_ok_iff _ _ _).mp h
  obtain ⟨rfl, rfl⟩ := Prod.mk.injEq .. ▸ Except.ok.inj h
  obtain ⟨quantised, hquantised, hsorted⟩ := (bind_eq_ok_iff _ _ _).mp hsorted
  exact ⟨quantised, hquantised, (Except.ok.inj hsorted).symm⟩

/-- The quantised notes of a score that runs forward start at its start or later. -/
lemma quantised_start {midi : Midi.Score} {rowsPerBeat : Int} {grid : Grid}
    {quantised : List NoteSpan} (hmidi : midi.Forward) (hticks : 0 < midi.ticksPerBeat)
    (hrows : 0 < rowsPerBeat) (hgrid : Grid.make midi.ticksPerBeat rowsPerBeat = .ok grid)
    (h : (Midi.notes midi.timeline).mapM grid.align = .ok quantised) :
    ∀ note ∈ quantised, 0 ≤ note.start ∧ note.start < note.stop := by
  intro note hn
  obtain ⟨source, hs, haligned⟩ := exists_left_of_mem ((mapM_eq_ok_iff _ _ _).mp h) hn
  have hpos := grid.align_start (Grid.make_nonneg hgrid hticks.le hrows) haligned
    (Midi.notes_start hmidi source hs)
  exact ⟨hpos, Grid.align_stop haligned⟩

end Arrangement

end Chiptune
