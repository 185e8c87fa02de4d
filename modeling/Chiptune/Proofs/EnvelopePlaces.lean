import Chiptune.Export.InPlace
import Chiptune.Proofs.Preparation

/-!
# Envelopes at places

What a change of one envelope does to those that share its place or its list of values, and what a
run of such changes over the volumes of all instruments leaves.
-/

namespace Chiptune

namespace Ref

variable {α : Type} (ref other : Ref α) (content : α) (places : Nat → α)

lemma place?_set : (ref.set content).place? = ref.place? := by
  cases ref <;> rfl

lemma set_get : ref.set (ref.get places) = ref := by
  cases ref <;> rfl

lemma store_get : ref.store (ref.get places) places = places := by
  cases ref with
  | own => rfl
  | shared place =>
    funext at_
    by_cases h : at_ = place
    · rw [h]
      exact if_pos rfl
    · exact if_neg h

lemma get_set_store : (ref.set content).get (ref.store content places) = content := by
  cases ref with
  | own => rfl
  | shared => exact if_pos rfl

variable {ref other content}

/-- What its holder has alone nothing else leads to. -/
lemma own_not_meets : ¬ (own content).Meets other := by
  rintro ⟨place, hplace, -⟩
  exact nomatch hplace

variable (content)

lemma get_store_of_meets (h : ref.Meets other) : other.get (ref.store content places) = content := by
  obtain ⟨place, hplace, hother⟩ := h
  cases ref with
  | own => exact nomatch hplace
  | shared =>
    cases other with
    | own => exact nomatch hother
    | shared =>
      obtain rfl := Option.some.inj hplace
      obtain rfl := Option.some.inj hother
      exact if_pos rfl

lemma get_store_of_apart (h : ¬ ref.Meets other) :
    other.get (ref.store content places) = other.get places := by
  cases ref with
  | own => rfl
  | shared place =>
    cases other with
    | own => rfl
    | shared found =>
      apply if_neg
      rintro rfl
      exact h ⟨_, rfl, rfl⟩

lemma store_congr {others : Nat → α} {place : Nat}
    (h : places place = others place) :
    ref.store content places place = ref.store content others place := by
  cases ref with
  | own => exact h
  | shared found =>
    show (if place = found then content else places place) =
      if place = found then content else others place
    rw [h]

lemma get_eq_of_meets (h : ref.Meets other) : other.get places = ref.get places := by
  obtain ⟨place, hplace, hother⟩ := h
  cases ref with
  | own => exact nomatch hplace
  | shared =>
    cases other with
    | own => exact nomatch hother
    | shared =>
      obtain rfl := Option.some.inj hplace
      obtain rfl := Option.some.inj hother
      rfl

end Ref

namespace Envelope

/-- The envelope has no release, or one that the kernel can play. -/
def Settled (kernel : Kernel) (env : Envelope) : Prop :=
  env.release < 0 ∨ kernel.supportsReleases = true ∧ 0 < env.release ∧
    env.release < env.values.length ∧ env.loop < env.release

variable {kernel : Kernel} {env : Envelope}

lemma settled_mended : (env.mended kernel).Settled kernel := by
  unfold mended
  by_cases hk : kernel.supportsReleases = true
  · rw [if_pos hk]
    unfold sanitised
    split
    · exact .inl (show (-1 : Int) < 0 by decide)
    · next h =>
      by_cases hrelease : env.release < 0
      · exact .inl hrelease
      · refine .inr ⟨hk, ?_, ?_, ?_⟩ <;> omega
  · rw [if_neg hk]
    unfold cutAtRelease
    split
    · exact .inl (show (-1 : Int) < 0 by decide)
    · next h => exact .inl (not_le.mp h)

lemma Settled.mended_eq (h : env.Settled kernel) : env.mended kernel = env := by
  unfold mended
  by_cases hk : kernel.supportsReleases = true
  · rw [if_pos hk]
    exact env.sanitised_of_releasable (h.imp_right fun h => h.2)
  · rw [if_neg hk]
    exact env.cutAtRelease_of_neg (h.resolve_right fun h => hk h.1)

lemma Settled.releasable (h : env.Settled kernel) : env.Releasable :=
  h.imp_right fun h => ⟨h.2.1, h.2.2.2⟩

/-- Only a kernel without releases cuts values off. -/
lemma values_mended (hk : kernel.supportsReleases = true) :
    (env.mended kernel).values = env.values := by
  unfold mended
  rw [if_pos hk]
  unfold sanitised
  split <;> rfl

end Envelope

namespace EnvelopeHeap

variable {kernel : Kernel} {heap : EnvelopeHeap} {ref other : EnvelopeRef}

lemma object_mend : (heap.mend kernel ref).2.object (heap.mend kernel ref).1 =
    (heap.object ref).filled ((heap.read ref).mended kernel) :=
  ref.get_set_store _ heap.envelopes

lemma object_mend_of_meets (h : ref.Meets other) : (heap.mend kernel ref).2.object other =
    (heap.object ref).filled ((heap.read ref).mended kernel) :=
  Ref.get_store_of_meets _ heap.envelopes h

lemma object_mend_of_apart (h : ¬ ref.Meets other) :
    (heap.mend kernel ref).2.object other = heap.object other :=
  Ref.get_store_of_apart _ heap.envelopes h

/-- What a reference to the mended object finds. -/
lemma read_of_object_mend (h : (heap.mend kernel ref).2.object other =
    (heap.object ref).filled ((heap.read ref).mended kernel)) :
    (heap.mend kernel ref).2.read other = (heap.read ref).mended kernel := by
  rw [read, h]
  have hvalues : ((heap.object ref).values.set ((heap.read ref).mended kernel).values).get
      ((heap.object ref).values.store ((heap.read ref).mended kernel).values heap.lists) =
      ((heap.read ref).mended kernel).values := Ref.get_set_store _ _ _
  rw [EnvelopeObject.filled]
  exact congrArg (Envelope.mk · _ _) hvalues

lemma read_mend : (heap.mend kernel ref).2.read (heap.mend kernel ref).1 =
    (heap.read ref).mended kernel :=
  read_of_object_mend object_mend

lemma read_mend_of_meets (h : ref.Meets other) :
    (heap.mend kernel ref).2.read other = (heap.read ref).mended kernel :=
  read_of_object_mend (object_mend_of_meets h)

/-- An envelope that shares neither its object nor its list with the mended one stays. -/
lemma read_mend_of_apart (h : ¬ ref.Meets other)
    (hvalues : ¬ (heap.object ref).values.Meets (heap.object other).values) :
    (heap.mend kernel ref).2.read other = heap.read other := by
  rw [read, object_mend_of_apart h]
  exact congrArg (Envelope.mk · _ _) (Ref.get_store_of_apart _ heap.lists hvalues)

lemma place?_values_mend (heap : EnvelopeHeap) (kernel : Kernel) (ref other : EnvelopeRef) :
    ((heap.mend kernel ref).2.object other).values.place? = (heap.object other).values.place? := by
  by_cases h : ref.Meets other
  · have hsame : heap.object other = heap.object ref := Ref.get_eq_of_meets heap.envelopes h
    rw [object_mend_of_meets h, hsame]
    exact Ref.place?_set _ _
  · rw [object_mend_of_apart h]

lemma lists_mend (hk : kernel.supportsReleases = true) :
    (heap.mend kernel ref).2.lists = heap.lists := by
  unfold mend
  dsimp only
  rw [Envelope.values_mended hk]
  exact Ref.store_get _ _

/-- What is settled stays so while other envelopes are mended, even in the same list. -/
lemma settled_mend (h : (heap.read other).Settled kernel) :
    ((heap.mend kernel ref).2.read other).Settled kernel := by
  by_cases hmeets : ref.Meets other
  · rw [read_mend_of_meets hmeets]
    exact Envelope.settled_mended
  · have hobject : (heap.mend kernel ref).2.object other = heap.object other :=
      object_mend_of_apart hmeets
    rcases h with hnone | ⟨hk, hreleased⟩
    · left
      rw [read, hobject]
      exact hnone
    · have hread : (heap.mend kernel ref).2.read other = heap.read other := by
        rw [read, hobject, lists_mend hk, read]
      rw [hread]
      exact .inr ⟨hk, hreleased⟩

lemma mend_of_settled (h : (heap.read ref).Settled kernel) :
    heap.mend kernel ref = (ref, heap) := by
  have hfilled : (heap.object ref).filled (heap.read ref) = heap.object ref := by
    have hset := Ref.set_get (heap.object ref).values heap.lists
    exact congrArg (EnvelopeObject.mk · _ _) hset
  unfold mend
  dsimp only
  rw [h.mended_eq, hfilled, object, Ref.set_get, Ref.store_get]
  exact congrArg (fun lists => (ref, EnvelopeHeap.mk lists heap.envelopes)) (Ref.store_get _ _)

lemma fill_of_empty (h : (heap.read ref).values = []) : heap.fill ref =
    (ref.set .full, { heap with envelopes := ref.store .full heap.envelopes }) :=
  if_pos (List.isEmpty_iff.mpr h)

lemma fill_of_values (h : (heap.read ref).values ≠ []) : heap.fill ref = (ref, heap) :=
  if_neg fun hempty => h (List.isEmpty_iff.mp hempty)

lemma read_of_full (h : heap.object ref = .full) :
    heap.read ref = { values := [Note.loudest] } := by
  rw [read, h]
  rfl

lemma read_fill_of_apart (h : ¬ ref.Meets other) :
    (heap.fill ref).2.read other = heap.read other := by
  by_cases hempty : (heap.read ref).values = []
  · have hobject : (heap.fill ref).2.object other = heap.object other := by
      rw [fill_of_empty hempty]
      exact Ref.get_store_of_apart _ heap.envelopes h
    rw [read, hobject, fill_of_empty hempty, read]
  · rw [fill_of_values hempty]

lemma read_fill_of_meets (h : ref.Meets other) :
    (heap.fill ref).2.read other = Envelope.orFullVolume (heap.read other) := by
  have hsame : heap.object other = heap.object ref := Ref.get_eq_of_meets heap.envelopes h
  have hread : heap.read other = heap.read ref := by rw [read, hsame, read]
  rw [hread]
  by_cases hempty : (heap.read ref).values = []
  · rw [fill_of_empty hempty, Envelope.orFullVolume, if_pos (List.isEmpty_iff.mpr hempty)]
    exact read_of_full (Ref.get_store_of_meets _ heap.envelopes h)
  · rw [fill_of_values hempty, Envelope.orFullVolume_some hempty, hread]

lemma read_fill : (heap.fill ref).2.read (heap.fill ref).1 =
    Envelope.orFullVolume (heap.read ref) := by
  by_cases hempty : (heap.read ref).values = []
  · rw [fill_of_empty hempty, Envelope.orFullVolume, if_pos (List.isEmpty_iff.mpr hempty)]
    exact read_of_full (Ref.get_set_store _ _ heap.envelopes)
  · rw [fill_of_values hempty, Envelope.orFullVolume_some hempty]

end EnvelopeHeap

/-- The envelope has values, and a release only if the kernel can play it. -/
structure Envelope.Fit (kernel : Kernel) (env : Envelope) : Prop where
  settled : env.Settled kernel
  values : env.values ≠ []

namespace EnvelopeHeap

variable {kernel : Kernel} {heap : EnvelopeHeap} {ref other : EnvelopeRef}

lemma fit_orFullVolume {env : Envelope} (h : env.Settled kernel) :
    (Envelope.orFullVolume env).Fit kernel := by
  refine ⟨?_, Envelope.orFullVolume_values _⟩
  by_cases hempty : env.values = []
  · rw [Envelope.orFullVolume, if_pos (List.isEmpty_iff.mpr hempty)]
    exact .inl (show (-1 : Int) < 0 by decide)
  · rwa [Envelope.orFullVolume_some hempty]

lemma settled_fill (h : (heap.read other).Settled kernel) :
    ((heap.fill ref).2.read other).Settled kernel := by
  by_cases hmeets : ref.Meets other
  · rw [read_fill_of_meets hmeets]
    exact (fit_orFullVolume h).settled
  · rwa [read_fill_of_apart hmeets]

lemma fit_fill (h : (heap.read other).Fit kernel) : ((heap.fill ref).2.read other).Fit kernel := by
  by_cases hmeets : ref.Meets other
  · rw [read_fill_of_meets hmeets]
    exact fit_orFullVolume h.settled
  · rwa [read_fill_of_apart hmeets]

end EnvelopeHeap

namespace InstrumentObject

variable {change : EnvelopeHeap → Option EnvelopeRef → Option EnvelopeRef × EnvelopeHeap}
  {heap : EnvelopeHeap} {instruments : List InstrumentObject}

/-- What every change keeps of the places, the changes of a list of instruments keep. -/
lemma changeVolumes_heap {P : EnvelopeHeap → Prop}
    (hstep : ∀ instrument ∈ instruments, ∀ heap, P heap → P (change heap instrument.volume).2)
    (h : P heap) : P (changeVolumes change heap instruments).2 := by
  induction instruments generalizing heap with
  | nil => exact h
  | cons instrument rest ih =>
    exact ih (fun other ho => hstep other (List.mem_cons_of_mem _ ho))
      (hstep instrument List.mem_cons_self heap h)

/-- What a change makes true of a volume, and later changes keep, is true of all volumes. -/
lemma changeVolumes_volumes {P : EnvelopeHeap → Prop}
    {Q : EnvelopeHeap → Option EnvelopeRef → Prop}
    (hstep : ∀ instrument ∈ instruments, ∀ heap, P heap → P (change heap instrument.volume).2)
    (hself : ∀ instrument ∈ instruments, ∀ heap, P heap →
      Q (change heap instrument.volume).2 (change heap instrument.volume).1)
    (hlater : ∀ instrument ∈ instruments, ∀ heap volume, Q heap volume →
      Q (change heap instrument.volume).2 volume)
    (h : P heap) : ∀ changed ∈ (changeVolumes change heap instruments).1,
      Q (changeVolumes change heap instruments).2 changed.volume := by
  induction instruments generalizing heap with
  | nil => exact fun _ hm => absurd hm List.not_mem_nil
  | cons instrument rest ih =>
    have hrest : ∀ other ∈ rest, other ∈ instrument :: rest :=
      fun _ ho => List.mem_cons_of_mem _ ho
    intro changed hm
    rcases List.mem_cons.mp hm with rfl | hm
    · show Q (changeVolumes change (change heap instrument.volume).2 rest).2 _
      exact changeVolumes_heap (P := fun heap => Q heap _)
        (fun other ho heap => hlater other (hrest other ho) heap _)
        (hself instrument List.mem_cons_self heap h)
    · exact ih (fun other ho => hstep other (hrest other ho))
        (fun other ho => hself other (hrest other ho))
        (fun other ho => hlater other (hrest other ho))
        (hstep instrument List.mem_cons_self heap h) changed hm

/-- Nothing of an instrument changes but its volume. -/
lemma changeVolumes_frame {R : Option EnvelopeRef → Option EnvelopeRef → Prop}
    (hchange : ∀ heap volume, R volume (change heap volume).1) :
    List.Forall₂ (fun instrument changed => changed = { instrument with volume := changed.volume } ∧
        R instrument.volume changed.volume)
      instruments (changeVolumes change heap instruments).1 := by
  induction instruments generalizing heap with
  | nil => exact .nil
  | cons instrument rest ih => exact .cons ⟨rfl, hchange heap instrument.volume⟩ ih

lemma changeVolumes_self
    (h : ∀ instrument ∈ instruments, change heap instrument.volume = (instrument.volume, heap)) :
    changeVolumes change heap instruments = (instruments, heap) := by
  induction instruments with
  | nil => rfl
  | cons instrument rest ih =>
    rw [changeVolumes, h instrument List.mem_cons_self]
    dsimp only
    rw [ih fun other ho => h other (List.mem_cons_of_mem _ ho)]

/-- Volumes that are shared with nothing are changed one by one, and no place is touched. -/
lemma changeVolumes_object {next : Option Envelope → Option Envelope}
    (h : ∀ volume : Option Envelope, change heap (volume.map Envelope.object) =
      ((next volume).map Envelope.object, heap)) (instruments : List Instrument) :
    changeVolumes change heap (instruments.map Instrument.object) =
      ((instruments.map fun instrument =>
        { instrument with volume := next instrument.volume }).map Instrument.object, heap) := by
  induction instruments with
  | nil => rfl
  | cons instrument rest ih =>
    have hvolume : change heap instrument.object.volume =
        ((next instrument.volume).map Envelope.object, heap) := h instrument.volume
    rw [List.map_cons, changeVolumes, hvolume]
    dsimp only
    rw [ih]
    rfl

end InstrumentObject

section Unshared

variable (heap : EnvelopeHeap) (kernel : Kernel) (volume : Option Envelope)

lemma mendVolume_object : heap.mendVolume kernel (volume.map Envelope.object) =
    ((volume.map (Envelope.mended kernel)).map Envelope.object, heap) := by
  cases volume <;> rfl

lemma fillVolume_object : heap.fillVolume (volume.map Envelope.object) =
    ((some (Envelope.orFullVolume volume)).map Envelope.object, heap) := by
  cases volume with
  | none => rfl
  | some env =>
    obtain ⟨values, loop, release⟩ := env
    cases values <;> rfl

lemma view_object (instrument : Instrument) : instrument.object.view heap = instrument := by
  have hread : heap.read ∘ Envelope.object = id := rfl
  unfold InstrumentObject.view Instrument.object
  simp only [Option.map_map, hread, Option.map_id, id]

end Unshared

end Chiptune
