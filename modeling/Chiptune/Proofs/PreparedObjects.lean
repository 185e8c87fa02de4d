import Chiptune.Proofs.EnvelopePlaces

/-!
# Projects prepared in place

Whatever the envelopes of a project share, preparing keeps the wanted songs and the instruments that
they play, leaves nothing to prepare and makes the tables safe to build. An arpeggio or a pitch stays
as it is unless a volume shares its envelope or its list of values: a volume is cut and filled where
it lies.
-/

namespace Chiptune

namespace ProjectObject

/-- No volume of the project shares the envelope or its list of values. -/
def Spares (project : ProjectObject) (ref : EnvelopeRef) : Prop :=
  ∀ instrument ∈ project.instruments, ∀ volume, instrument.volume = some volume →
    ¬ volume.Meets ref ∧
      ¬ (project.heap.object volume).values.Meets (project.heap.object ref).values

/-- Nothing of an instrument changes but its volume, which has values afterwards, and what is shared
with a volume. -/
structure KeepsInstrument (project kept : ProjectObject) (instrument left : InstrumentObject) :
    Prop where
  frame : left = { instrument with volume := left.volume }
  volume : ∃ env, (left.view kept.heap).volume = some env ∧ env.values ≠ []
  arpeggio : (∀ ref, instrument.arpeggio = some ref → project.Spares ref) →
    (left.view kept.heap).arpeggio = (instrument.view project.heap).arpeggio
  pitch : (∀ ref, instrument.pitch = some ref → project.Spares ref) →
    (left.view kept.heap).pitch = (instrument.view project.heap).pitch

/-- Whether some wanted song plays the instrument. -/
def plays (project : ProjectObject) (wanted : Option (List Int)) (instrument : InstrumentObject) :
    Bool :=
  (project.view.wantedSongs wanted).any (·.plays instrument.id)

/-- What is kept of a project for a kernel. -/
structure Keeps (wanted : Option (List Int)) (kernel : Kernel) (project kept : ProjectObject) :
    Prop where
  name : kept.name = project.name
  songs : List.Forall₂ (Song.KeptAs kernel) (project.view.wantedSongs wanted) kept.songs
  instruments : List.Forall₂ (project.KeepsInstrument kept)
    (project.instruments.filter (project.plays wanted)) kept.instruments
  listed : kept.view.Listed
  samples : kept.samples = project.samples
  mapping : kept.mapping = project.mapping

variable {project : ProjectObject} {wanted : Option (List Int)} {kernel : Kernel}
  {ref : EnvelopeRef}

/-- All volumes have values, and no release that the kernel cannot play. -/
def AllFit (kernel : Kernel) (project : ProjectObject) : Prop :=
  ∀ instrument ∈ project.instruments, ∃ volume, instrument.volume = some volume ∧
    (project.heap.read volume).Fit kernel

/-- No volume has a release that the kernel cannot play. -/
def AllSettled (kernel : Kernel) (project : ProjectObject) : Prop :=
  ∀ instrument ∈ project.instruments, ∀ volume, instrument.volume = some volume →
    (project.heap.read volume).Settled kernel

lemma allSettled_mended (kernel : Kernel) (project : ProjectObject) :
    (project.changeVolumes (EnvelopeHeap.mendVolume kernel)).AllSettled kernel := by
  apply InstrumentObject.changeVolumes_volumes (P := fun _ => True)
    (Q := fun heap volume => ∀ ref, volume = some ref → (heap.read ref).Settled kernel)
  · exact fun _ _ _ _ => trivial
  · intro instrument _ heap _ ref href
    cases hvolume : instrument.volume with
    | none =>
      rw [hvolume] at href
      exact nomatch href
    | some volume =>
      rw [hvolume] at href
      obtain rfl := Option.some.inj href
      show ((heap.mend kernel volume).2.read (heap.mend kernel volume).1).Settled kernel
      rw [EnvelopeHeap.read_mend]
      exact Envelope.settled_mended
  · intro instrument _ heap volume h ref href
    cases instrument.volume with
    | none => exact h ref href
    | some other => exact EnvelopeHeap.settled_mend (h ref href)
  · trivial

lemma AllSettled.allFit_filled (h : project.AllSettled kernel) :
    (project.changeVolumes EnvelopeHeap.fillVolume).AllFit kernel := by
  apply InstrumentObject.changeVolumes_volumes
    (P := fun heap => ({ project with heap } : ProjectObject).AllSettled kernel)
    (Q := fun heap volume => ∃ ref, volume = some ref ∧ (heap.read ref).Fit kernel)
  · intro instrument _ heap hsettled other ho volume hvolume
    cases instrument.volume with
    | none => exact hsettled other ho volume hvolume
    | some changed => exact EnvelopeHeap.settled_fill (hsettled other ho volume hvolume)
  · intro instrument hi heap hsettled
    cases hvolume : instrument.volume with
    | none =>
      exact ⟨_, rfl, .inl (show (-1 : Int) < 0 by decide), List.cons_ne_nil _ _⟩
    | some volume =>
      refine ⟨_, rfl, ?_⟩
      rw [EnvelopeHeap.fillVolume]
      show ((heap.fill volume).2.read (heap.fill volume).1).Fit kernel
      rw [EnvelopeHeap.read_fill]
      exact EnvelopeHeap.fit_orFullVolume (hsettled instrument hi volume hvolume)
  · rintro instrument _ heap _ ⟨ref, rfl, hfit⟩
    refine ⟨ref, rfl, ?_⟩
    cases instrument.volume with
    | none => exact hfit
    | some changed => exact EnvelopeHeap.fit_fill hfit
  · exact h

/-- There is nothing to change about volumes that fit. -/
lemma AllFit.unchanged (h : project.AllFit kernel) :
    project.changeVolumes (EnvelopeHeap.mendVolume kernel) = project ∧
      project.changeVolumes EnvelopeHeap.fillVolume = project := by
  constructor
  · unfold changeVolumes
    rw [InstrumentObject.changeVolumes_self]
    intro instrument hi
    obtain ⟨volume, hvolume, hfit⟩ := h instrument hi
    rw [hvolume, EnvelopeHeap.mendVolume, EnvelopeHeap.mend_of_settled hfit.settled]
    rfl
  · unfold changeVolumes
    rw [InstrumentObject.changeVolumes_self]
    intro instrument hi
    obtain ⟨volume, hvolume, hfit⟩ := h instrument hi
    rw [hvolume, EnvelopeHeap.fillVolume, EnvelopeHeap.fill_of_values hfit.values]
    rfl

/-- Mending moves no volume to another place. -/
lemma frame_mended (kernel : Kernel) (project : ProjectObject) :
    List.Forall₂ (fun instrument mended : InstrumentObject =>
        mended = { instrument with volume := mended.volume } ∧
          mended.volume.map Ref.place? = instrument.volume.map Ref.place?)
      project.instruments
      (project.changeVolumes (EnvelopeHeap.mendVolume kernel)).instruments := by
  apply InstrumentObject.changeVolumes_frame
    (R := fun volume mended => mended.map Ref.place? = volume.map Ref.place?)
  intro heap volume
  cases volume with
  | none => rfl
  | some ref => exact congrArg some (Ref.place?_set ref _)

lemma Spares.read_mended (h : project.Spares ref) :
    (project.changeVolumes (EnvelopeHeap.mendVolume kernel)).heap.read ref =
      project.heap.read ref := by
  refine (InstrumentObject.changeVolumes_heap (P := fun heap =>
    (∀ other, (heap.object other).values.place? = (project.heap.object other).values.place?) ∧
      heap.read ref = project.heap.read ref) ?_ ⟨fun _ => rfl, rfl⟩).2
  rintro instrument hi heap ⟨hplaces, hread⟩
  cases hvolume : instrument.volume with
  | none => exact ⟨hplaces, hread⟩
  | some volume =>
    obtain ⟨hobject, hvalues⟩ := h instrument hi volume hvolume
    refine ⟨fun other => (heap.place?_values_mend kernel volume other).trans (hplaces other), ?_⟩
    refine (EnvelopeHeap.read_mend_of_apart hobject ?_).trans hread
    rwa [Ref.Meets, hplaces, hplaces]

lemma read_filled (h : ∀ instrument ∈ project.instruments, ∀ volume,
      instrument.volume = some volume → ¬ volume.Meets ref) :
    (project.changeVolumes EnvelopeHeap.fillVolume).heap.read ref = project.heap.read ref := by
  apply InstrumentObject.changeVolumes_heap
    (P := fun heap => heap.read ref = project.heap.read ref)
  · intro instrument hi heap hread
    cases hvolume : instrument.volume with
    | none => exact hread
    | some volume =>
      exact (EnvelopeHeap.read_fill_of_apart (h instrument hi volume hvolume)).trans hread
  · rfl

variable (project wanted kernel)

/-- The project with its wanted songs and all its instruments mended. -/
def mended : ProjectObject :=
  { project with songs := (project.view.wantedSongs wanted).map (Song.fitted kernel) }.changeVolumes
    (EnvelopeHeap.mendVolume kernel)

/-- All that preparing does. -/
lemma prepare_eq : project.prepare wanted kernel = ProjectObject.changeVolumes
    { project.mended wanted kernel with
      instruments := (project.mended wanted kernel).instruments.filter (project.plays wanted) }
    EnvelopeHeap.fillVolume := by
  have hplays : (fun instrument : InstrumentObject =>
      (project.mended wanted kernel).view.instrumentsUsed.contains instrument.id) =
      project.plays wanted := by
    funext instrument
    rw [Project.contains_instrumentsUsed, plays]
    show ((project.view.wantedSongs wanted).map (Song.fitted kernel)).any _ = _
    rw [List.any_map]
    simp only [Function.comp_def, plays_fitted]
  unfold prepare
  rw [Project.select_eq]
  show (project.mended wanted kernel).deleteUnusedInstruments.changeVolumes _ = _
  unfold deleteUnusedInstruments
  dsimp only
  rw [hplays]

lemma prepare_songs : (project.prepare wanted kernel).songs =
    (project.view.wantedSongs wanted).map (Song.fitted kernel) := by
  rw [prepare_eq]
  rfl

lemma prepare_rest : (project.prepare wanted kernel).name = project.name ∧
    (project.prepare wanted kernel).samples = project.samples ∧
    (project.prepare wanted kernel).mapping = project.mapping := by
  rw [prepare_eq]
  exact ⟨rfl, rfl, rfl⟩

lemma allFit_prepare : (project.prepare wanted kernel).AllFit kernel := by
  rw [prepare_eq]
  apply AllSettled.allFit_filled
  intro instrument hi
  exact allSettled_mended kernel _ instrument (List.mem_of_mem_filter hi)

/-- The instruments that are left, each with the one that it comes from. -/
lemma frame_prepare : List.Forall₂
    (fun instrument left : InstrumentObject => left = { instrument with volume := left.volume })
    (project.instruments.filter (project.plays wanted))
    (project.prepare wanted kernel).instruments := by
  have hmended : List.Forall₂
      (fun instrument left : InstrumentObject => left = { instrument with volume := left.volume })
      (project.instruments.filter (project.plays wanted))
      ((project.mended wanted kernel).instruments.filter (project.plays wanted)) := by
    refine List.rel_filter ?_ ((frame_mended kernel _).imp fun _ _ h => h.1)
    intro instrument left hleft
    rw [hleft]
    rfl
  rw [prepare_eq]
  refine forall₂_trans ?_ hmended
    (InstrumentObject.changeVolumes_frame (R := fun _ _ => True) fun _ _ => trivial)
  rintro instrument middle left hmiddle ⟨hleft, -⟩
  rw [hleft, hmiddle]

lemma read_prepare {ref : EnvelopeRef} (h : project.Spares ref) :
    (project.prepare wanted kernel).heap.read ref = project.heap.read ref := by
  rw [prepare_eq, read_filled]
  · have hspared : Spares { project with
        songs := (project.view.wantedSongs wanted).map (Song.fitted kernel) } ref := h
    exact hspared.read_mended
  · intro instrument hi volume hvolume
    obtain ⟨source, hs, -, hplaces⟩ :=
      exists_left_of_mem (frame_mended kernel _) (List.mem_of_mem_filter hi)
    rw [hvolume] at hplaces
    obtain ⟨before, hbefore, hplace⟩ := Option.map_eq_some_iff.mp hplaces.symm
    have hspared := (h source hs before hbefore).1
    rwa [Ref.Meets, hplace] at hspared

/-- A project that was prepared is as it would be prepared again. -/
lemma prepare_prepare :
    (project.prepare wanted kernel).prepare wanted kernel = project.prepare wanted kernel := by
  have hwanted : (project.prepare wanted kernel).view.wantedSongs wanted =
      (project.prepare wanted kernel).songs := by
    apply List.filter_eq_self.mpr
    show ∀ song ∈ (project.prepare wanted kernel).songs, _
    rw [prepare_songs]
    intro song hs
    obtain ⟨source, hsource, rfl⟩ := List.mem_map.mp hs
    rw [isWanted_fitted]
    exact (List.mem_filter.mp hsource).2
  have hsongs : (project.prepare wanted kernel).songs.map (Song.fitted kernel) =
      (project.prepare wanted kernel).songs := by
    rw [prepare_songs, List.map_map]
    exact List.map_congr_left fun song _ => fitted_song kernel song
  have hplays : (project.prepare wanted kernel).plays wanted = project.plays wanted := by
    funext instrument
    rw [plays, hwanted, prepare_songs, plays, List.any_map]
    simp only [Function.comp_def, plays_fitted]
  have hkept : (project.prepare wanted kernel).instruments.filter (project.plays wanted) =
      (project.prepare wanted kernel).instruments := by
    apply List.filter_eq_self.mpr
    intro left hl
    obtain ⟨instrument, hi, hframe⟩ :=
      exists_left_of_mem (project.frame_prepare wanted kernel) hl
    rw [hframe]
    exact (List.mem_filter.mp hi).2
  have hfit := project.allFit_prepare wanted kernel
  have hmended : (project.prepare wanted kernel).mended wanted kernel =
      project.prepare wanted kernel := by
    rw [mended, hwanted, hsongs]
    exact hfit.unchanged.1
  rw [prepare_eq (project.prepare wanted kernel), hmended, hplays, hkept]
  exact hfit.unchanged.2

variable {project}

lemma listed_prepare (h : project.view.Listed) : (project.prepare wanted kernel).view.Listed := by
  intro song hs note hn id hid
  replace hs : song ∈ (project.prepare wanted kernel).songs := hs
  rw [prepare_songs] at hs
  obtain ⟨source, hsource, rfl⟩ := List.mem_map.mp hs
  have hplays : source.plays id = true := by
    rw [← plays_fitted kernel source]
    exact List.any_eq_true.mpr ⟨note, hn, beq_iff_eq.mpr hid⟩
  obtain ⟨played, hp, hplayed⟩ := List.any_eq_true.mp hplays
  obtain ⟨shown, hshown, rfl⟩ := List.mem_map.mp
    (h source (List.mem_of_mem_filter hsource) played hp id (beq_iff_eq.mp hplayed))
  obtain ⟨instrument, hi, rfl⟩ := List.mem_map.mp hshown
  have hkept : instrument ∈ project.instruments.filter (project.plays wanted) :=
    List.mem_filter.mpr ⟨hi, List.any_eq_true.mpr ⟨source, hsource, hplays⟩⟩
  obtain ⟨left, hl, hframe⟩ := exists_right_of_mem (project.frame_prepare wanted kernel) hkept
  refine List.mem_map.mpr ⟨left.view (project.prepare wanted kernel).heap,
    List.mem_map_of_mem hl, ?_⟩
  rw [hframe]
  rfl

lemma keeps_prepare (h : project.view.Listed) :
    project.Keeps wanted kernel (project.prepare wanted kernel) where
  name := (project.prepare_rest wanted kernel).1
  songs := by
    rw [prepare_songs]
    apply List.forall₂_map_right_iff.mpr
    exact List.forall₂_same.mpr fun song _ => song_keptAs kernel song
  instruments := by
    have hframe := project.frame_prepare wanted kernel
    refine List.forall₂_iff_zip.mpr ⟨hframe.length_eq, fun {instrument left} hm => ?_⟩
    have hleft := List.forall₂_zip hframe hm
    obtain ⟨volume, hvolume, hfit⟩ :=
      project.allFit_prepare wanted kernel left (List.of_mem_zip hm).2
    refine ⟨hleft, ⟨_, congrArg (Option.map _) hvolume, hfit.values⟩, fun hspared => ?_,
      fun hspared => ?_⟩
    · rw [hleft]
      exact Option.map_congr fun ref href => project.read_prepare wanted kernel (hspared ref href)
    · rw [hleft]
      exact Option.map_congr fun ref href => project.read_prepare wanted kernel (hspared ref href)
  listed := listed_prepare wanted kernel h
  samples := (project.prepare_rest wanted kernel).2.1
  mapping := (project.prepare_rest wanted kernel).2.2

/-- Preparing keeps what an export needs, leaves nothing to prepare and makes the tables safe to
build. It selects the songs that are left when the others are deleted one by one. -/
theorem prepare_inPlace (h : project.view.Listed) (wanted : Option (List Int)) (kernel : Kernel) :
    project.Keeps wanted kernel (project.prepare wanted kernel) ∧
      (project.prepare wanted kernel).prepare wanted kernel = project.prepare wanted kernel ∧
      Orderly (InstrumentTables.build (project.prepare wanted kernel).view kernel) ∧
      ∀ ids, wanted = some ids → Project.deleteOthers ids 0 project.songs project.view =
        .ok { project.view with songs := project.view.wantedSongs wanted } := by
  refine ⟨keeps_prepare wanted kernel h, project.prepare_prepare wanted kernel, ?_, ?_⟩
  · apply InstrumentTables.build_orderly
    intro shown hs env henv _
    obtain ⟨instrument, hi, rfl⟩ := List.mem_map.mp hs
    obtain ⟨volume, hvolume, hfit⟩ := project.allFit_prepare wanted kernel instrument hi
    have hread : (instrument.view (project.prepare wanted kernel).heap).volume =
        some ((project.prepare wanted kernel).heap.read volume) :=
      congrArg (Option.map _) hvolume
    rw [hread] at henv
    obtain rfl := Option.some.inj henv
    exact hfit.settled.releasable
  · rintro ids rfl
    exact project.view.deleteOthers_eq ids project.songs [] fun _ hs => absurd hs List.not_mem_nil

/-- Two songs, each with an instrument of its own, and one volume for both of them. The second song
releases a note, and the pitch of its instrument is its own. -/
def duet : ProjectObject :=
  let song (id : Int) (instrument : InstrumentId) : Song :=
    { Song.blank id "part" 150 6 2 1 with
      patterns := [[{ value := 30, instrument := some instrument }, { value := 247 }]]
      channels := [⟨.square1, [some 0]⟩] }
  { songs := [song 0 0, song 1 1]
    instruments := [{ id := 0, name := "lead", volume := some (.shared 0) },
      { id := 1, name := "bass", volume := some (.shared 0),
        pitch := some (.own ⟨.own [500], -1, 0⟩) }]
    heap := { envelopes := fun _ => ⟨.own [15, 12, 8], 2, 2⟩ } }

theorem duet_prepared : duet.view.Listed ∧
    duet.Keeps (some [1]) .legacy (duet.prepare (some [1]) .legacy) ∧
    (duet.prepare (some [1]) .legacy).prepare (some [1]) .legacy =
      duet.prepare (some [1]) .legacy ∧
    Orderly (InstrumentTables.build (duet.prepare (some [1]) .legacy).view .legacy) ∧
    (duet.prepare (some [1]) .legacy).songs.map Song.notes =
      [[{ value := 30, instrument := some 1 }, { value := 255 }]] ∧
    (duet.prepare (some [1]) .legacy).view.instruments =
      [{ id := 1, name := "bass", volume := some { values := [15, 12] },
         pitch := some { values := [500], release := 0 } }] := by
  have hlisted : duet.view.Listed := by decide
  obtain ⟨hkept, hagain, htables, -⟩ := prepare_inPlace hlisted (some [1]) .legacy
  exact ⟨hlisted, hkept, hagain, htables, by decide, by decide⟩

/-- An instrument whose arpeggio is its volume, and one whose volume and arpeggio are one envelope
without values. -/
def doubled : ProjectObject :=
  let song : Song :=
    { Song.blank 0 "part" 150 6 2 1 with
      patterns := [[{ value := 30, instrument := some 0 }, { value := 32, instrument := some 1 }]]
      channels := [⟨.square1, [some 0]⟩] }
  { songs := [song]
    instruments := [
      { id := 0, name := "lead", volume := some (.shared 0), arpeggio := some (.shared 0) },
      { id := 1, name := "pad", volume := some (.shared 1), arpeggio := some (.shared 1) }]
    heap := { envelopes := fun place =>
      if place = 0 then ⟨.own [15, 12, 8], -1, 1⟩ else ⟨.own [], -1, -1⟩ } }

/-- Preparing changes arpeggios that are volumes as well. -/
theorem doubled_changed : doubled.view.Listed ∧
    doubled.view.instruments.map Instrument.arpeggio =
      [some { values := [15, 12, 8], release := 1 }, some {}] ∧
    (doubled.prepare none .legacy).view.instruments.map Instrument.arpeggio =
      [some { values := [15] }, some { values := [15] }] ∧
    (doubled.prepare none .extended).view.instruments.map Instrument.arpeggio =
      [some { values := [15, 12, 8], release := 1 }, some { values := [15] }] := by
  refine ⟨by decide, by decide, by decide, by decide⟩

end ProjectObject

namespace Project

variable (project : Project)

lemma view_object : project.object.view = project := by
  have hview : (fun instrument : Instrument => instrument.object.view project.object.heap) = id :=
    funext fun instrument => Chiptune.view_object _ instrument
  have hinstruments : (project.instruments.map Instrument.object).map
      (·.view project.object.heap) = project.instruments := by
    rw [List.map_map]
    exact (congrArg (project.instruments.map ·) hview).trans (List.map_id _)
  unfold ProjectObject.view
  exact congrArg (fun instruments => { project with instruments }) hinstruments

lemma changeVolumes_object
    {change : EnvelopeHeap → Option EnvelopeRef → Option EnvelopeRef × EnvelopeHeap}
    {next : Option Envelope → Option Envelope}
    (h : ∀ heap volume, change heap (volume.map Envelope.object) =
      ((next volume).map Envelope.object, heap)) :
    project.object.changeVolumes change = object { project with
      instruments := project.instruments.map fun instrument =>
        { instrument with volume := next instrument.volume } } := by
  have hchanged := InstrumentObject.changeVolumes_object (h {}) project.instruments
  unfold ProjectObject.changeVolumes
  rw [object]
  dsimp only
  rw [hchanged]
  rfl

lemma prepare_object (wanted : Option (List Int)) (kernel : Kernel) :
    project.object.prepare wanted kernel = (project.prepare wanted kernel).object := by
  have hplays : project.object.plays wanted ∘ Instrument.object = project.plays wanted := by
    funext instrument
    rw [Function.comp, ProjectObject.plays, view_object, plays]
    rfl
  have hmended : project.object.mended wanted kernel = object { project with
      songs := (project.wantedSongs wanted).map (Song.fitted kernel)
      instruments := project.instruments.map fun instrument =>
        { instrument with volume := instrument.volume.map (Envelope.mended kernel) } } := by
    have hsongs := changeVolumes_object
      { project with songs := (project.wantedSongs wanted).map (Song.fitted kernel) }
      fun heap volume => mendVolume_object heap kernel volume
    rw [ProjectObject.mended, view_object]
    exact hsongs
  have hkept : (project.object.mended wanted kernel).instruments.filter
      (project.object.plays wanted) = ((project.instruments.filter (project.plays wanted)).map
        fun instrument =>
          { instrument with volume := instrument.volume.map (Envelope.mended kernel) }).map
        Instrument.object := by
    rw [hmended]
    refine List.filter_map.trans ?_
    rw [hplays, List.filter_map]
    rfl
  have hfilled := changeVolumes_object
    { project with
      songs := (project.wantedSongs wanted).map (Song.fitted kernel)
      instruments := (project.instruments.filter (project.plays wanted)).map fun instrument =>
        { instrument with volume := instrument.volume.map (Envelope.mended kernel) } }
    fillVolume_object
  rw [List.map_map] at hfilled
  rw [ProjectObject.prepare_eq, prepare_eq, hkept, hmended]
  exact hfilled

/-- An export of a project in which nothing is shared depends on its values only. -/
theorem document_object (options : Export.Options) :
    project.object.document options = Export.document project options := by
  rw [ProjectObject.document, prepare_object, view_object, Export.document]

end Project

end Chiptune
