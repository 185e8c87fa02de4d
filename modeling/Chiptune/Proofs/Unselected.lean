import Chiptune.Proofs.Dialects
import Chiptune.Proofs.EnvelopeRegions
import Chiptune.Proofs.PreparedObjects

/-!
# Songs and instruments that are not selected

An export does not depend on what it leaves out: songs with other identifiers and instruments that
no selected song plays can stand anywhere in the lists of a project. There is one exception. A
release is cut off a volume before the instruments that are not played are left out, so an
instrument that is left out must not share the envelope or its list with one that is played.
-/

namespace Chiptune

/-- The second list is the first one with further elements put in, all of them of a kind. -/
inductive Inserted {α : Type} (extra : α → Prop) : List α → List α → Prop
  | nil : Inserted extra [] []
  | keep (x : α) {xs ys : List α} : Inserted extra xs ys → Inserted extra (x :: xs) (x :: ys)
  | insert {x : α} {xs ys : List α} :
    extra x → Inserted extra xs ys → Inserted extra xs (x :: ys)

/-- What a filter drops of the further elements it drops of the longer list. -/
lemma Inserted.filter_eq {α : Type} {extra : α → Prop} {xs ys : List α} {p : α → Bool}
    (h : Inserted extra xs ys) (hp : ∀ x, extra x → p x = false) : ys.filter p = xs.filter p := by
  induction h with
  | nil => rfl
  | keep x _ ih => rw [List.filter_cons, List.filter_cons, ih]
  | insert hx _ ih =>
    rw [List.filter_cons, hp _ hx]
    exact ih

namespace InstrumentObject

def refs (instrument : InstrumentObject) : List EnvelopeRef :=
  instrument.volume.toList ++ instrument.arpeggio.toList ++ instrument.pitch.toList

variable {instrument : InstrumentObject} {ref : EnvelopeRef}

lemma mem_refs : ref ∈ instrument.refs ↔
    instrument.volume = some ref ∨ instrument.arpeggio = some ref ∨ instrument.pitch = some ref := by
  simp only [refs, List.mem_append, Option.mem_toList, or_assoc]

lemma view_congr {heap other : EnvelopeHeap}
    (h : ∀ ref ∈ instrument.refs, heap.read ref = other.read ref) :
    instrument.view heap = instrument.view other := by
  unfold view
  congr 1
  · exact Option.map_congr fun ref href => h ref (mem_refs.mpr (.inl href))
  · exact Option.map_congr fun ref href => h ref (mem_refs.mpr (.inr (.inl href)))
  · exact Option.map_congr fun ref href => h ref (mem_refs.mpr (.inr (.inr href)))

end InstrumentObject

namespace ProjectObject

/-- An instrument that no selected song plays. If its volume has a release, it shares neither the
envelope nor its list of values with an instrument that one plays. -/
structure Idle (ids : List Int) (project : ProjectObject) (instrument : InstrumentObject) :
    Prop where
  unplayed : ∀ song ∈ project.songs, song.id ∈ ids → ∀ note ∈ song.notes,
    note.instrument ≠ some instrument.id
  apart : ∀ volume, instrument.volume = some volume → 0 ≤ (project.heap.read volume).release →
    ∀ played ∈ project.instruments, project.plays (some ids) played = true →
      ∀ ref ∈ played.refs, ¬ volume.Meets ref ∧
        ¬ (project.heap.object volume).values.Meets (project.heap.object ref).values

/-- The second project holds further songs that are not selected, and further instruments that are
idle. -/
structure Padded (ids : List Int) (project padded : ProjectObject) : Prop where
  name : padded.name = project.name
  songs : Inserted (fun song => song.id ∉ ids) project.songs padded.songs
  instruments : Inserted (project.Idle ids) project.instruments padded.instruments
  samples : padded.samples = project.samples
  mapping : padded.mapping = project.mapping
  heap : padded.heap = project.heap

end ProjectObject

/-- A volume that had no release at the start has none now. -/
def EnvelopeHeap.Quiet (start heap : EnvelopeHeap) : Prop :=
  ∀ ref, (start.object ref).release < 0 → (heap.object ref).release < 0

section Runs

open InstrumentObject

variable {region : Region} {start heap other : EnvelopeHeap} {kernel : Kernel}

lemma EnvelopeHeap.Quiet.mend (h : start.Quiet heap) (ref : EnvelopeRef) :
    start.Quiet (heap.mend kernel ref).2 := by
  intro found hstart
  have hfound := h found hstart
  by_cases hmeets : ref.Meets found
  · have hsame : heap.object found = heap.object ref := Ref.get_eq_of_meets heap.envelopes hmeets
    rw [hsame] at hfound
    have hsettled : (heap.read ref).Settled kernel := .inl hfound
    rw [EnvelopeHeap.object_mend_of_meets hmeets, hsettled.mended_eq]
    exact hfound
  · rwa [EnvelopeHeap.object_mend_of_apart hmeets]

/-- A volume is mended in two heaps. If it belongs to the region, it becomes the same in both. -/
lemma mendVolume_both (volume : Option EnvelopeRef) (h : region.Alike heap other)
    (hquiet : start.Quiet other) :
    region.Alike (heap.mendVolume kernel volume).2 (other.mendVolume kernel volume).2 ∧
      start.Quiet (other.mendVolume kernel volume).2 ∧
      ((∀ ref, volume = some ref → region.Holds ref) →
        (other.mendVolume kernel volume).1 = (heap.mendVolume kernel volume).1 ∧
        ∀ ref, (heap.mendVolume kernel volume).1 = some ref → region.Holds ref) := by
  cases volume with
  | none => exact ⟨h, hquiet, fun _ => ⟨rfl, fun _ hnone => nomatch hnone⟩⟩
  | some volume =>
    refine ⟨h.mend, hquiet.mend volume, fun hheld => ⟨?_, fun ref href => ?_⟩⟩
    · exact congrArg some (h.mend_of_holds (hheld volume rfl)).1.symm
    · obtain rfl := Option.some.inj href
      exact Region.holds_mend (hheld volume rfl)

/-- A volume is mended in the second heap only. -/
lemma mendVolume_further (volume : Option EnvelopeRef) (h : region.Alike heap other)
    (hquiet : start.Quiet other)
    (havoids : ∀ ref, volume = some ref → 0 ≤ (start.object ref).release → region.Avoids ref) :
    region.Alike heap (other.mendVolume kernel volume).2 ∧
      start.Quiet (other.mendVolume kernel volume).2 := by
  cases volume with
  | none => exact ⟨h, hquiet⟩
  | some volume =>
    refine ⟨?_, hquiet.mend volume⟩
    by_cases hrelease : (start.object volume).release < 0
    · have hsettled : (other.read volume).Settled kernel := .inl (hquiet volume hrelease)
      rw [EnvelopeHeap.mendVolume, EnvelopeHeap.mend_of_settled hsettled]
      exact h
    · exact h.trans (h.closed_other.alike_mend (havoids volume rfl (not_lt.mp hrelease)))

/-- Further instruments whose volumes are kept out of a region change nothing there when all
instruments are mended, and nothing about those that are left afterwards. -/
lemma alike_mended (kernel : Kernel) (left : InstrumentObject → Bool)
    {extra : InstrumentObject → Prop} {instruments more : List InstrumentObject}
    (h : Inserted extra instruments more)
    (hleft : ∀ (instrument : InstrumentObject) volume,
      left { instrument with volume } = left instrument)
    (hheld : ∀ instrument ∈ instruments, left instrument = true →
      ∀ ref, instrument.volume = some ref → region.Holds ref)
    (hextra : ∀ instrument, extra instrument → left instrument = false ∧
      ∀ ref, instrument.volume = some ref → 0 ≤ (start.object ref).release → region.Avoids ref)
    (halike : region.Alike heap other) (hquiet : start.Quiet other) :
    (changeVolumes (EnvelopeHeap.mendVolume kernel) other more).1.filter left =
        (changeVolumes (EnvelopeHeap.mendVolume kernel) heap instruments).1.filter left ∧
      region.Alike (changeVolumes (EnvelopeHeap.mendVolume kernel) heap instruments).2
        (changeVolumes (EnvelopeHeap.mendVolume kernel) other more).2 ∧
      ∀ instrument ∈ (changeVolumes (EnvelopeHeap.mendVolume kernel) heap instruments).1,
        left instrument = true → ∀ ref, instrument.volume = some ref → region.Holds ref := by
  induction h generalizing heap other with
  | nil => exact ⟨rfl, halike, fun _ hm => absurd hm List.not_mem_nil⟩
  | @keep instrument xs ys _ ih =>
    obtain ⟨hnext, hstill, hsame⟩ := mendVolume_both instrument.volume halike hquiet
    have hsame := fun hl => hsame (hheld instrument List.mem_cons_self hl)
    obtain ⟨hfilter, hfinal, hrest⟩ :=
      ih (fun found hf => hheld found (List.mem_cons_of_mem _ hf)) hnext hstill
    refine ⟨?_, hfinal, fun found hf hl => ?_⟩
    · have hone := hleft instrument (other.mendVolume kernel instrument.volume).1
      have htwo := hleft instrument (heap.mendVolume kernel instrument.volume).1
      rw [changeVolumes, changeVolumes]
      dsimp only
      rw [List.filter_cons, List.filter_cons, hone, htwo, hfilter]
      by_cases hl : left instrument = true
      · rw [if_pos hl, if_pos hl, (hsame hl).1]
      · rw [if_neg hl, if_neg hl]
    · rcases List.mem_cons.mp hf with rfl | hf
      · rw [hleft] at hl
        exact (hsame hl).2
      · exact hrest found hf hl
  | @insert instrument xs ys hx _ ih =>
    obtain ⟨hdropped, havoids⟩ := hextra instrument hx
    obtain ⟨hnext, hstill⟩ :=
      mendVolume_further instrument.volume halike hquiet havoids
    obtain ⟨hfilter, hfinal, hrest⟩ := ih hheld hnext hstill
    refine ⟨?_, hfinal, hrest⟩
    have hone := hleft instrument (other.mendVolume kernel instrument.volume).1
    rw [changeVolumes]
    dsimp only
    rw [List.filter_cons, hone, hdropped]
    exact hfilter

/-- Volumes of a region on which two heaps agree are filled alike. -/
lemma alike_filled (instruments : List InstrumentObject)
    (hheld : ∀ instrument ∈ instruments, ∀ ref, instrument.volume = some ref → region.Holds ref)
    (halike : region.Alike heap other) :
    (changeVolumes EnvelopeHeap.fillVolume other instruments).1 =
        (changeVolumes EnvelopeHeap.fillVolume heap instruments).1 ∧
      region.Alike (changeVolumes EnvelopeHeap.fillVolume heap instruments).2
        (changeVolumes EnvelopeHeap.fillVolume other instruments).2 ∧
      ∀ instrument ∈ (changeVolumes EnvelopeHeap.fillVolume heap instruments).1,
        ∀ ref, instrument.volume = some ref → region.Holds ref := by
  induction instruments generalizing heap other with
  | nil => exact ⟨rfl, halike, fun _ hm => absurd hm List.not_mem_nil⟩
  | cons instrument rest ih =>
    have hstep : (other.fillVolume instrument.volume).1 = (heap.fillVolume instrument.volume).1 ∧
        region.Alike (heap.fillVolume instrument.volume).2
          (other.fillVolume instrument.volume).2 ∧
        ∀ ref, (heap.fillVolume instrument.volume).1 = some ref → region.Holds ref := by
      have hvolume := hheld instrument List.mem_cons_self
      cases hcases : instrument.volume with
      | none =>
        refine ⟨rfl, halike, fun _ h => ?_⟩
        obtain rfl := Option.some.inj h
        exact fun place hplace => nomatch hplace
      | some volume =>
        obtain ⟨hsame, hnext⟩ := halike.fill (hvolume volume hcases)
        refine ⟨congrArg some hsame.symm, hnext, fun _ h => ?_⟩
        obtain rfl := Option.some.inj h
        exact Region.holds_fill (hvolume volume hcases)
    obtain ⟨hsame, hnext, hholds⟩ := hstep
    obtain ⟨hrest, hfinal, hlater⟩ :=
      ih (fun found hf => hheld found (List.mem_cons_of_mem _ hf)) hnext
    refine ⟨?_, hfinal, fun found hf => ?_⟩
    · rw [changeVolumes, changeVolumes]
      dsimp only
      rw [hsame, hrest]
    · rcases List.mem_cons.mp hf with rfl | hf
      · exact hholds
      · exact hlater found hf

end Runs

namespace ProjectObject

variable (ids : List Int) (project : ProjectObject)

/-- The lists and the envelopes that the played instruments hold, and all envelopes with such a
list. -/
def played : Region where
  lists list := ∃ instrument ∈ project.instruments, project.plays (some ids) instrument = true ∧
    ∃ ref ∈ instrument.refs, (project.heap.object ref).values.place? = some list
  envelopes place :=
    (∃ instrument ∈ project.instruments, project.plays (some ids) instrument = true ∧
      .shared place ∈ instrument.refs) ∨
    ∃ list, (project.heap.envelopes place).values.place? = some list ∧
      ∃ instrument ∈ project.instruments, project.plays (some ids) instrument = true ∧
        ∃ ref ∈ instrument.refs, (project.heap.object ref).values.place? = some list

lemma closed_played : (project.played ids).Closed project.heap where
  inside := by
    rintro place list (⟨instrument, hi, hp, href⟩ | ⟨other, hother, hlist⟩) hplace
    · exact ⟨instrument, hi, hp, _, href, hplace⟩
    · obtain rfl := Option.some.inj (hplace.symm.trans hother)
      exact hlist
  outside place list hout hplace hlist := hout (.inr ⟨list, hplace, hlist⟩)

variable {ids project} {padded : ProjectObject} {instrument : InstrumentObject}
  {ref : EnvelopeRef}

lemma holds_played (hi : instrument ∈ project.instruments)
    (hp : project.plays (some ids) instrument = true) (href : ref ∈ instrument.refs) :
    (project.played ids).Holds ref := by
  cases ref with
  | own => exact fun place hplace => ⟨instrument, hi, hp, _, href, hplace⟩
  | shared => exact .inl ⟨instrument, hi, hp, href⟩

namespace Idle

variable (h : project.Idle ids instrument)
include h

lemma plays_eq : project.plays (some ids) instrument = false := by
  apply Bool.eq_false_iff.mpr
  intro hplays
  obtain ⟨song, hs, hsong⟩ := List.any_eq_true.mp hplays
  obtain ⟨note, hn, hnote⟩ := List.any_eq_true.mp hsong
  obtain ⟨hs, hw⟩ := List.mem_filter.mp hs
  exact h.unplayed song hs (List.contains_iff_mem.mp hw) note hn (beq_iff_eq.mp hnote)

lemma avoids (hvolume : instrument.volume = some ref)
    (hrelease : 0 ≤ (project.heap.object ref).release) : (project.played ids).Avoids ref := by
  have hapart := h.apart ref hvolume hrelease
  have hlists : ∀ list, (project.heap.object ref).values.place? = some list →
      ¬ (project.played ids).lists list := by
    rintro list hlist ⟨played, hi, hp, other, hother, hshared⟩
    exact (hapart played hi hp other hother).2 ⟨list, hlist, hshared⟩
  cases ref with
  | own => exact hlists
  | shared place =>
    rintro (⟨played, hi, hp, hheld⟩ | ⟨list, hlist, hshared⟩)
    · exact (hapart played hi hp _ hheld).1 ⟨place, rfl, rfl⟩
    · exact hlists list hlist hshared

end Idle

namespace Padded

variable (h : project.Padded ids padded)
include h

lemma wantedSongs_eq :
    padded.view.wantedSongs (some ids) = project.view.wantedSongs (some ids) := by
  apply h.songs.filter_eq
  intro song hs
  exact Bool.eq_false_iff.mpr fun hw => hs (List.contains_iff_mem.mp hw)

lemma plays_eq : padded.plays (some ids) = project.plays (some ids) := by
  funext instrument
  rw [plays, h.wantedSongs_eq, plays]

/-- The same instruments are left of both projects, and what they hold is the same. -/
lemma alike_prepare (kernel : Kernel) :
    (padded.prepare (some ids) kernel).instruments =
        (project.prepare (some ids) kernel).instruments ∧
      (project.played ids).Alike (project.prepare (some ids) kernel).heap
        (padded.prepare (some ids) kernel).heap ∧
      ∀ left ∈ (project.prepare (some ids) kernel).instruments, ∀ ref,
        left.volume = some ref → (project.played ids).Holds ref := by
  have hstart : (project.played ids).Alike project.heap padded.heap := by
    rw [h.heap]
    exact ⟨fun _ _ => rfl, fun _ _ => rfl, project.closed_played ids, project.closed_played ids⟩
  have hquiet : project.heap.Quiet padded.heap := by
    rw [h.heap]
    exact fun _ hrelease => hrelease
  obtain ⟨hkept, hmended, hheld⟩ := alike_mended kernel (project.plays (some ids)) h.instruments
    (fun _ _ => rfl)
    (fun instrument hi hp ref href =>
      holds_played hi hp (InstrumentObject.mem_refs.mpr (.inl href)))
    (fun instrument hidle => ⟨hidle.plays_eq, fun ref => hidle.avoids⟩) hstart hquiet
  have hinstruments : (padded.mended (some ids) kernel).instruments.filter
      (project.plays (some ids)) =
      (project.mended (some ids) kernel).instruments.filter (project.plays (some ids)) := hkept
  rw [prepare_eq, prepare_eq, h.plays_eq, hinstruments]
  exact alike_filled
    ((project.mended (some ids) kernel).instruments.filter (project.plays (some ids)))
    (fun instrument hi => hheld instrument (List.mem_of_mem_filter hi)
      (List.mem_filter.mp hi).2) hmended

/-- The further songs and instruments are gone once the project is prepared, and have left nothing
in what the others hold. -/
lemma view_prepare (kernel : Kernel) :
    (padded.prepare (some ids) kernel).view = (project.prepare (some ids) kernel).view := by
  obtain ⟨hleft, hheap, hvolumes⟩ := h.alike_prepare kernel
  have hshown : ∀ left ∈ (project.prepare (some ids) kernel).instruments,
      left.view (padded.prepare (some ids) kernel).heap =
        left.view (project.prepare (some ids) kernel).heap := by
    intro left hl
    obtain ⟨instrument, hi, hframe⟩ :=
      exists_left_of_mem (project.frame_prepare (some ids) kernel) hl
    obtain ⟨hi, hp⟩ := List.mem_filter.mp hi
    apply InstrumentObject.view_congr
    intro ref href
    refine (hheap.read_eq ?_).symm
    rcases InstrumentObject.mem_refs.mp href with hvolume | hothers
    · exact hvolumes left hl ref hvolume
    · rw [hframe] at hothers
      exact holds_played hi hp (InstrumentObject.mem_refs.mpr (.inr hothers))
  have hsongs : (padded.prepare (some ids) kernel).songs =
      (project.prepare (some ids) kernel).songs := by
    rw [prepare_songs, prepare_songs, h.wantedSongs_eq]
  obtain ⟨hname, hsamples, hmapping⟩ := padded.prepare_rest (some ids) kernel
  obtain ⟨hname', hsamples', hmapping'⟩ := project.prepare_rest (some ids) kernel
  unfold view
  rw [hleft, hsongs, List.map_congr_left hshown, hname, hsamples, hmapping, hname', hsamples',
    hmapping', h.name, h.samples, h.mapping]

end Padded

/-- What is not selected has no influence on an export: neither on the text in any dialect, its size,
what is told of the songs and the samples, nor on the error if there is no document. -/
theorem document_unselected (h : project.Padded ids padded) {options : Export.Options}
    (hw : options.wanted = some ids) : padded.document options = project.document options ∧
      ∀ dialect, padded.exportText dialect options = project.exportText dialect options := by
  have hdocument : padded.document options = project.document options := by
    rw [document, document, hw, h.view_prepare]
  refine ⟨hdocument, fun dialect => ?_⟩
  rw [exportText, hdocument, exportText]

/-- The duet with a third song in front of the selected one, and two further instruments. One of them
has a release of its own, the other one has the volume of the bass for its arpeggio. -/
def duetAndSolo : ProjectObject :=
  let solo : Song := { Song.blank 4 "solo" 150 6 2 1 with
    patterns := [[{ value := 40, instrument := some 7 }, { value := 42, instrument := some 8 }]]
    channels := [⟨.triangle, [some 0]⟩] }
  { duet with
    songs := duet.songs.insertIdx 1 solo
    instruments :=
      { id := 7, name := "reed", volume := some (.own ⟨.own [15, 4], -1, 1⟩) } ::
      duet.instruments ++ [{ id := 8, name := "echo", arpeggio := some (.shared 0) }] }

theorem duetAndSolo_exported : duet.Padded [1] duetAndSolo ∧
    duetAndSolo.document { wanted := some [1] } = duet.document { wanted := some [1] } ∧
    duetAndSolo.exportText .nesasm { wanted := some [1] } =
      duet.exportText .nesasm { wanted := some [1] } ∧
    (duetAndSolo.document { wanted := some [1] }).toOption.map Export.Document.songs =
      some [⟨"part", 0, 1, 8⟩] := by
  have hpadded : duet.Padded [1] duetAndSolo := by
    refine ⟨rfl, ?_, ?_, rfl, rfl, rfl⟩
    · apply Inserted.keep
      apply Inserted.insert (by decide)
      exact Inserted.keep _ .nil
    · apply Inserted.insert
      · refine ⟨by decide, fun volume hvolume _ played _ _ ref _ => ?_⟩
        obtain rfl := Option.some.inj hvolume
        exact ⟨Ref.own_not_meets, Ref.own_not_meets⟩
      · apply Inserted.keep
        apply Inserted.keep
        apply Inserted.insert ?_ .nil
        exact ⟨by decide, fun _ hnone => nomatch hnone⟩
  have hwanted : ({ wanted := some [1] } : Export.Options).wanted = some [1] := rfl
  obtain ⟨hdocument, htext⟩ := document_unselected hpadded hwanted
  exact ⟨hpadded, hdocument, htext .nesasm, by decide +kernel⟩

/-- A pad whose volume fades, in a list that is shared with nothing else in the project. -/
def fading : ProjectObject :=
  { songs := [{ Song.blank 0 "part" 150 6 2 1 with
      patterns := [[{ value := 30, instrument := some 0 }, { value := 32, instrument := some 0 }]]
      channels := [⟨.square1, [some 0]⟩] }]
    instruments := [{ id := 0, name := "pad", volume := some (.own ⟨.shared 0, -1, -1⟩) }]
    heap := { lists := fun _ => [15, 12, 10, 8] } }

/-- A lead that is not played, with the values of the pad and a release after two of them. -/
def fadingAndLead : ProjectObject :=
  { fading with
    instruments :=
      { id := 1, name := "lead", volume := some (.own ⟨.shared 0, -1, 2⟩) } :: fading.instruments }

/-- The release of the lead is cut off the values of the pad. -/
theorem fadingAndLead_heard :
    (∀ song ∈ fading.songs, ∀ note ∈ song.notes, note.instrument ≠ some 1) ∧
    fading.instruments ⊆ fadingAndLead.instruments ∧
    (fading.prepare (some [0]) .legacy).view.instruments.map Instrument.volume =
      [some { values := [15, 12, 10, 8] }] ∧
    (fadingAndLead.prepare (some [0]) .legacy).view.instruments.map Instrument.volume =
      [some { values := [15, 12] }] ∧
    (fading.document { kernel := .legacy, wanted := some [0] }).toOption.map
      Export.Document.size = some 44 ∧
    (fadingAndLead.document { kernel := .legacy, wanted := some [0] }).toOption.map
      Export.Document.size = some 42 := by
  exact ⟨by decide, by decide, by decide, by decide, by decide +kernel, by decide +kernel⟩

end ProjectObject

end Chiptune
