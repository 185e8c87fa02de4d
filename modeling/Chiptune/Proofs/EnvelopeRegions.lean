import Chiptune.Proofs.EnvelopePlaces

/-!
# Regions of shared envelopes

Two heaps that agree on a region still do so after an envelope is mended in one of them outside of
the region, or in both of them wherever it lies.
-/

namespace Chiptune

/-- Places of lists and of envelopes. -/
structure Region where
  lists : Nat → Prop
  envelopes : Nat → Prop

namespace Region

/-- The reference leads to no place outside of the region. -/
def Holds (region : Region) : EnvelopeRef → Prop
  | .own object => ∀ place, object.values.place? = some place → region.lists place
  | .shared place => region.envelopes place

/-- The reference leads to no place of the region. -/
def Avoids (region : Region) : EnvelopeRef → Prop
  | .own object => ∀ place, object.values.place? = some place → ¬ region.lists place
  | .shared place => ¬ region.envelopes place

/-- No envelope of the region has its list outside of it, and no other envelope has it inside. -/
structure Closed (region : Region) (heap : EnvelopeHeap) : Prop where
  inside : ∀ place list, region.envelopes place →
    (heap.envelopes place).values.place? = some list → region.lists list
  outside : ∀ place list, ¬ region.envelopes place →
    (heap.envelopes place).values.place? = some list → ¬ region.lists list

/-- The region holds the same in both heaps. -/
structure Alike (region : Region) (heap other : EnvelopeHeap) : Prop where
  lists : ∀ place, region.lists place → heap.lists place = other.lists place
  envelopes : ∀ place, region.envelopes place → heap.envelopes place = other.envelopes place
  closed : region.Closed heap
  closed_other : region.Closed other

variable {region : Region} {heap other : EnvelopeHeap} {kernel : Kernel} {ref : EnvelopeRef}

lemma holds_or_avoids (region : Region) (ref : EnvelopeRef) :
    region.Holds ref ∨ region.Avoids ref := by
  cases ref with
  | shared place => exact em _
  | own object =>
    cases hvalues : object.values.place? with
    | none => exact .inl fun place h => nomatch hvalues.symm.trans h
    | some list =>
      by_cases hin : region.lists list
      · exact .inl fun place h => Option.some.inj (hvalues.symm.trans h) ▸ hin
      · exact .inr fun place h => Option.some.inj (hvalues.symm.trans h) ▸ hin

namespace Closed

variable (h : region.Closed heap)
include h

lemma list_mem (href : region.Holds ref) {list : Nat}
    (hlist : (heap.object ref).values.place? = some list) : region.lists list := by
  cases ref with
  | own object => exact href list hlist
  | shared place => exact h.inside place list href hlist

lemma list_not_mem (href : region.Avoids ref) {list : Nat}
    (hlist : (heap.object ref).values.place? = some list) : ¬ region.lists list := by
  cases ref with
  | own object => exact href list hlist
  | shared place => exact h.outside place list href hlist

lemma mend : region.Closed (heap.mend kernel ref).2 := by
  have hplaces : ∀ place, ((heap.mend kernel ref).2.envelopes place).values.place? =
      (heap.envelopes place).values.place? :=
    fun place => heap.place?_values_mend kernel ref (.shared place)
  refine ⟨fun place list hin hlist => ?_, fun place list hout hlist => ?_⟩
  · exact h.inside place list hin (hplaces place ▸ hlist)
  · exact h.outside place list hout (hplaces place ▸ hlist)

lemma fill : region.Closed (heap.fill ref).2 := by
  have hplaces : ∀ place list, ((heap.fill ref).2.envelopes place).values.place? = some list →
      (heap.envelopes place).values.place? = some list := by
    intro place list hlist
    by_cases hempty : (heap.read ref).values = []
    · rw [EnvelopeHeap.fill_of_empty hempty] at hlist
      by_cases hmeets : ref.Meets (.shared place)
      · have hfull := Ref.get_store_of_meets EnvelopeObject.full heap.envelopes hmeets
        have hnone : (EnvelopeObject.full.values).place? = some list := by
          rw [← hfull]
          exact hlist
        exact nomatch hnone
      · have hsame := Ref.get_store_of_apart EnvelopeObject.full heap.envelopes hmeets
        rw [← hlist]
        exact congrArg (fun object => object.values.place?) hsame.symm
    · rwa [EnvelopeHeap.fill_of_values hempty] at hlist
  exact ⟨fun place list hin hlist => h.inside place list hin (hplaces place list hlist),
    fun place list hout hlist => h.outside place list hout (hplaces place list hlist)⟩

/-- A change outside of the region. -/
lemma alike_mend (href : region.Avoids ref) : region.Alike heap (heap.mend kernel ref).2 := by
  refine ⟨fun place hin => ?_, fun place hin => ?_, h, h.mend⟩
  · have hapart : ¬ (heap.object ref).values.Meets (.shared place) := by
      rintro ⟨list, hlist, hplace⟩
      obtain rfl := Option.some.inj hplace
      exact h.list_not_mem href hlist hin
    exact (Ref.get_store_of_apart _ heap.lists hapart).symm
  · have hapart : ¬ ref.Meets (.shared place) := by
      rintro ⟨found, hfound, hplace⟩
      obtain rfl := Option.some.inj hplace
      cases ref with
      | own => exact nomatch hfound
      | shared =>
        obtain rfl := Option.some.inj hfound
        exact href hin
    exact (Ref.get_store_of_apart _ heap.envelopes hapart).symm

end Closed

lemma holds_mend (href : region.Holds ref) : region.Holds (heap.mend kernel ref).1 := by
  cases ref with
  | shared => exact href
  | own object => exact fun place hplace => href place ((Ref.place?_set _ _).symm.trans hplace)

lemma holds_fill (href : region.Holds ref) : region.Holds (heap.fill ref).1 := by
  by_cases hempty : (heap.read ref).values = []
  · rw [EnvelopeHeap.fill_of_empty hempty]
    cases ref with
    | shared => exact href
    | own => exact fun place hplace => nomatch hplace
  · rwa [EnvelopeHeap.fill_of_values hempty]

namespace Alike

lemma symm (h : region.Alike heap other) : region.Alike other heap :=
  ⟨fun place hin => (h.lists place hin).symm, fun place hin => (h.envelopes place hin).symm,
    h.closed_other, h.closed⟩

lemma trans {last : EnvelopeHeap} (h : region.Alike heap other) (h' : region.Alike other last) :
    region.Alike heap last :=
  ⟨fun place hin => (h.lists place hin).trans (h'.lists place hin),
    fun place hin => (h.envelopes place hin).trans (h'.envelopes place hin),
    h.closed, h'.closed_other⟩

variable (h : region.Alike heap other)
include h

lemma object_eq (href : region.Holds ref) : heap.object ref = other.object ref := by
  cases ref with
  | own => rfl
  | shared place => exact h.envelopes place href

lemma read_eq (href : region.Holds ref) : heap.read ref = other.read ref := by
  have hobject := h.object_eq href
  have hvalues : (heap.object ref).values.get heap.lists =
      (heap.object ref).values.get other.lists := by
    cases hlist : (heap.object ref).values with
    | own => rfl
    | shared list => exact h.lists list (h.closed.list_mem href (congrArg Ref.place? hlist))
  rw [EnvelopeHeap.read, hvalues, hobject, EnvelopeHeap.read]

lemma mend_of_holds (href : region.Holds ref) :
    (heap.mend kernel ref).1 = (other.mend kernel ref).1 ∧
      region.Alike (heap.mend kernel ref).2 (other.mend kernel ref).2 := by
  have hobject := h.object_eq href
  have hread := h.read_eq href
  refine ⟨?_, fun place hin => ?_, fun place hin => ?_, h.closed.mend, h.closed_other.mend⟩
  · unfold EnvelopeHeap.mend
    rw [hobject, hread]
  · unfold EnvelopeHeap.mend
    rw [hobject, hread]
    exact Ref.store_congr _ _ (h.lists place hin)
  · unfold EnvelopeHeap.mend
    rw [hobject, hread]
    exact Ref.store_congr _ _ (h.envelopes place hin)

/-- An envelope that is mended in both heaps lies inside of the region or outside of it. -/
lemma mend : region.Alike (heap.mend kernel ref).2 (other.mend kernel ref).2 := by
  rcases region.holds_or_avoids ref with href | href
  · exact (h.mend_of_holds href).2
  · exact ((h.closed.alike_mend href).symm.trans h).trans (h.closed_other.alike_mend href)

lemma fill (href : region.Holds ref) : (heap.fill ref).1 = (other.fill ref).1 ∧
    region.Alike (heap.fill ref).2 (other.fill ref).2 := by
  have hread := h.read_eq href
  refine ⟨?_, fun place hin => ?_, fun place hin => ?_, h.closed.fill, h.closed_other.fill⟩
  · unfold EnvelopeHeap.fill
    rw [hread]
    split <;> rfl
  · unfold EnvelopeHeap.fill
    rw [hread]
    split <;> exact h.lists place hin
  · unfold EnvelopeHeap.fill
    rw [hread]
    split
    · exact Ref.store_congr _ _ (h.envelopes place hin)
    · exact h.envelopes place hin

end Alike

end Region

end Chiptune
