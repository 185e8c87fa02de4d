import Chiptune.Export.Document
import Chiptune.Proofs.DocumentLines

/-!
# Projects without names

What an export computes from songs, instruments and samples does not depend on their names, and so it
is the same with all names taken away.
-/

namespace Chiptune

def Instrument.nameless (instrument : Instrument) : Instrument := { instrument with name := "" }

def Sample.nameless (sample : Sample) : Sample := { sample with name := "" }

def SampleMapping.nameless (mapping : SampleMapping) : SampleMapping :=
  { mapping with sample := mapping.sample.map Sample.nameless }

def Song.nameless (song : Song) : Song := { song with name := "" }

/-- The project without the names of anything in it. -/
def Project.nameless (project : Project) : Project where
  name := ""
  songs := project.songs.map Song.nameless
  instruments := project.instruments.map Instrument.nameless
  samples := project.samples.map Sample.nameless
  mapping := project.mapping.map (Option.map SampleMapping.nameless)

/-! ### Outcomes that agree -/

/-- Both fail, or both succeed with related results. Errors may differ, since some tell a name. -/
inductive Agree {ε α β : Type} (R : α → β → Prop) : Except ε α → Except ε β → Prop
  | ok {a : α} {b : β} (h : R a b) : Agree R (.ok a) (.ok b)
  | error (e e' : ε) : Agree R (.error e) (.error e')

namespace Agree

variable {ε α β γ δ : Type} {R : α → β → Prop} {S : γ → δ → Prop} {x : Except ε α} {y : Except ε β}

lemma refl (x : Except ε α) : Agree Eq x x := by
  cases x with
  | error e => exact .error e e
  | ok a => exact .ok rfl

lemma bind {f : α → Except ε γ} {g : β → Except ε δ} (h : Agree R x y)
    (hf : ∀ a b, R a b → Agree S (f a) (g b)) : Agree S (x >>= f) (y >>= g) := by
  cases h with
  | ok h => exact hf _ _ h
  | error e e' => exact .error e e'

lemma ok_left {a : α} (h : Agree R x y) (hx : x = .ok a) : ∃ b, y = .ok b ∧ R a b := by
  cases h with
  | ok h =>
    obtain rfl := Except.ok.inj hx
    exact ⟨_, rfl, h⟩
  | error e e' => cases hx

lemma ok_right {b : β} (h : Agree R x y) (hy : y = .ok b) : ∃ a, x = .ok a ∧ R a b := by
  cases h with
  | ok h =>
    obtain rfl := Except.ok.inj hy
    exact ⟨_, rfl, h⟩
  | error e e' => cases hy

lemma mapM (change : γ → δ) {f : γ → Except ε α} {g : δ → Except ε β}
    (h : ∀ x, Agree R (f x) (g (change x))) (xs : List γ) :
    Agree (List.Forall₂ R) (xs.mapM f) ((xs.map change).mapM g) := by
  induction xs with
  | nil => exact .ok .nil
  | cons x rest ih =>
    rw [List.map_cons, List.mapM_cons, List.mapM_cons]
    exact (h x).bind fun a b hab => ih.bind fun as bs hrest => .ok (.cons hab hrest)

lemma forM (change : γ → δ) {f : γ → Except ε Unit} {g : δ → Except ε Unit}
    (h : ∀ x, Agree Eq (f x) (g (change x))) (xs : List γ) :
    Agree Eq (xs.forM f) ((xs.map change).forM g) := by
  induction xs with
  | nil => exact .ok rfl
  | cons x rest ih => exact (h x).bind fun _ _ _ => ih

end Agree

namespace Song

variable {song : Song} {encoding : Encoding}

@[simp] lemma effects_nameless (song : Song) : song.nameless.effects = song.effects := rfl

@[simp] lemma encodeSlot_nameless (song : Song) (voicing : Voicing) (effects : SlotEffects)
    (takesSpeed : Bool) (active : Option InstrumentId) (slot : Option Nat) (count : Nat) :
    song.nameless.encodeSlot voicing effects takesSpeed active slot count =
      song.encodeSlot voicing effects takesSpeed active slot count := by
  cases slot <;> rfl

@[simp] lemma encodeVisits_nameless (effects : List SlotEffects) (channel : Channel)
    (takesSpeed : Bool) (progress : Progress) (visits : List Visit) :
    song.nameless.encodeVisits encoding effects channel takesSpeed progress visits =
      song.encodeVisits encoding effects channel takesSpeed progress visits := by
  induction visits generalizing progress with
  | nil => rfl
  | cons visit rest ih =>
    unfold encodeVisits
    simp only [encodeSlot_nameless, ih]

@[simp] lemma encodeChannels_nameless (effects : List SlotEffects)
    (visits : List Visit × List Visit) (speedChannel : Int) (number : Nat) (pool : PatternPool)
    (channels : List Channel) :
    song.nameless.encodeChannels encoding effects visits speedChannel number pool channels =
      song.encodeChannels encoding effects visits speedChannel number pool channels := by
  induction channels generalizing number pool with
  | nil => rfl
  | cons channel rest ih =>
    unfold encodeChannels
    simp only [encodeChannel, encodeVisits_nameless, ih]
    rfl

@[simp] lemma encode_nameless (speedChannel factor : Int) (pool : PatternPool) :
    song.nameless.encode encoding speedChannel factor pool =
      song.encode encoding speedChannel factor pool := by
  unfold encode
  simp only [effects_nameless, encodeChannels_nameless]
  rfl

lemma splitChannels_nameless (size factor : Nat) (done : List Pattern) (channels : List Channel) :
    song.nameless.splitChannels size factor done channels =
      song.splitChannels size factor done channels := by
  induction channels generalizing done with
  | nil => rfl
  | cons channel rest ih =>
    unfold splitChannels
    rw [ih]
    rfl

lemma split_nameless (song : Song) (factor : Int) :
    song.nameless.split factor = (song.split factor).map Song.nameless := by
  unfold split
  simp only [splitChannels_nameless]
  have hrows : song.nameless.patternLength = song.patternLength := rfl
  have hslots : song.nameless.length = song.length := rfl
  have hchannels : song.nameless.channels = song.channels := rfl
  rw [hrows, hslots, hchannels]
  split_ifs <;> rfl

lemma tryCandidate_nameless (pool : PatternPool) (candidate : Candidate) :
    song.nameless.tryCandidate encoding pool candidate =
      song.tryCandidate encoding pool candidate := by
  unfold tryCandidate
  rw [split_nameless]
  cases song.split candidate.factor with
  | none => rfl
  | some pieces => simp only [Option.map_some, encode_nameless]

lemma searchAmong_nameless (pool : PatternPool) (best : Option Choice)
    (candidates : List Candidate) :
    song.nameless.searchAmong encoding pool best candidates =
      song.searchAmong encoding pool best candidates := by
  induction candidates generalizing best with
  | nil => rfl
  | cons candidate rest ih =>
    unfold searchAmong
    simp only [tryCandidate_nameless, ih]

lemma search_nameless (song : Song) (encoding : Encoding) (pieceRows : Int) (pool : PatternPool) :
    Agree Eq (song.search encoding pieceRows pool)
      (song.nameless.search encoding pieceRows pool) := by
  have hcandidates : song.nameless.candidates pieceRows = song.candidates pieceRows := rfl
  unfold search
  rw [searchAmong_nameless, hcandidates]
  refine (Agree.refl _).bind fun found _ hfound => ?_
  subst hfound
  cases found with
  -- The error tells the name of the song.
  | none => exact .error _ _
  | some choice => exact .ok rfl

lemma fitted_nameless (kernel : Kernel) (song : Song) :
    song.nameless.fitted kernel = (song.fitted kernel).nameless := by
  unfold fitted
  split_ifs <;> rfl

end Song

namespace Project

variable (project : Project)

lemma select_nameless (wanted : Option (List Int)) :
    project.nameless.select wanted = (project.select wanted).nameless := by
  cases wanted with
  | none => rfl
  | some ids =>
    have hkept : project.nameless.songs.filter (ids.contains ·.id) =
        (project.songs.filter (ids.contains ·.id)).map Song.nameless := List.filter_map
    unfold select
    dsimp only
    rw [hkept]
    rfl

lemma instrumentsUsed_nameless : project.nameless.instrumentsUsed = project.instrumentsUsed := by
  unfold instrumentsUsed
  exact List.flatMap_map ..

lemma deleteUnusedInstruments_nameless :
    project.nameless.deleteUnusedInstruments = project.deleteUnusedInstruments.nameless := by
  have hkept : project.nameless.instruments.filter (project.instrumentsUsed.contains ·.id) =
      (project.instruments.filter (project.instrumentsUsed.contains ·.id)).map
        Instrument.nameless := List.filter_map
  unfold deleteUnusedInstruments
  dsimp only
  rw [instrumentsUsed_nameless, hkept]
  rfl

theorem prepare_nameless (wanted : Option (List Int)) (kernel : Kernel) :
    project.nameless.prepare wanted kernel = (project.prepare wanted kernel).nameless := by
  unfold prepare
  rw [select_nameless]
  generalize project.select wanted = project
  have hsongs : project.nameless.songs.map (·.fitted kernel) =
      (project.songs.map (·.fitted kernel)).map Song.nameless := by
    simp only [nameless, List.map_map]
    exact List.map_congr_left fun song _ => Song.fitted_nameless kernel song
  have hfitted : { project.nameless with songs := project.nameless.songs.map (·.fitted kernel) } =
      ({ project with songs := project.songs.map (·.fitted kernel) } : Project).nameless := by
    rw [hsongs]
    rfl
  dsimp only
  rw [hfitted, deleteUnusedInstruments_nameless]
  generalize deleteUnusedInstruments _ = project
  simp only [nameless, List.map_map]
  rfl

lemma instrumentIndex?_nameless : project.nameless.instrumentIndex? = project.instrumentIndex? := by
  funext id
  unfold instrumentIndex? nameless
  rw [← List.map_reverse, List.findIdx?_map, List.length_map]
  rfl

lemma usesSamples_nameless : project.nameless.usesSamples = project.usesSamples := by
  unfold usesSamples nameless
  rw [List.any_map]
  congr 1
  funext entry
  rcases entry with _ | ⟨_ | sample, pitch, loop⟩ <;> rfl

lemma sampleSize_nameless : project.nameless.sampleSize = project.sampleSize := by
  unfold sampleSize
  exact total_map ..

lemma sampleBlob_nameless : project.nameless.sampleBlob = project.sampleBlob := by
  unfold sampleBlob nameless
  exact List.flatMap_map ..

lemma addressIn_nameless (wanted : Sample) (samples : List Sample) :
    Agree Eq (addressIn wanted samples)
      (addressIn wanted.nameless (samples.map Sample.nameless)) := by
  induction samples with
  | nil => exact .error _ _
  | cons sample rest ih =>
    have hid : sample.nameless.id = sample.id := rfl
    have hwanted : wanted.nameless.id = wanted.id := rfl
    rw [List.map_cons, addressIn, addressIn, hid, hwanted]
    split_ifs
    · exact .ok rfl
    · refine ih.bind fun address _ haddress => ?_
      subst haddress
      exact .ok rfl

end Project

namespace InstrumentTables

variable {kernel : Kernel}

lemma placeAll_nameless (streams : List Bytes) (instruments : List Instrument) :
    placeAll kernel streams (instruments.map Instrument.nameless) =
      placeAll kernel streams instruments := by
  induction instruments generalizing streams with
  | nil => rfl
  | cons instrument rest ih =>
    have hplaced : placeInstrument kernel streams instrument.nameless =
        placeInstrument kernel streams instrument := rfl
    rw [List.map_cons, placeAll, placeAll, hplaced]
    simp only [ih]

lemma build_nameless (project : Project) : build project.nameless kernel = build project kernel := by
  have hcount : project.nameless.instruments.length = project.instruments.length :=
    List.length_map ..
  unfold build
  rw [hcount]
  split_ifs
  · rfl
  · exact congrArg (pure () >>= fun _ => ·) (placeAll_nameless _ _)

end InstrumentTables

namespace Assembly

/-- The line without what it says to a reader only. -/
def Line.bare : Line → Line
  | comment _ => comment ""
  | label (.musicData _) => label (.musicData "")
  | bytes values _ => bytes values
  | sample place units flags _ => sample place units flags ""
  | line => line

@[simp] lemma size_bare (line : Line) : line.bare.size = line.size := by
  cases line with
  | label l => cases l <;> rfl
  | blank | comment _ | count _ | bytes _ _ | words _ | sample _ _ _ _ => rfl

end Assembly

namespace Export

open Assembly

def SongSummary.nameless (summary : SongSummary) : SongSummary := { summary with name := "" }

/-- The document without names and remarks. -/
def Document.bare (document : Document) : Document :=
  { document with
    lines := document.lines.map Line.bare
    songs := document.songs.map SongSummary.nameless }

section Tables

variable (project : Project)

lemma sampleLine_nameless (slot : Nat) (entry : Option SampleMapping) :
    Agree (fun a b => a.bare = b.bare) (sampleLine project slot entry)
      (sampleLine project.nameless slot (entry.map SampleMapping.nameless)) := by
  rcases entry with _ | ⟨_ | sample, pitch, loop⟩
  · exact .ok rfl
  · exact .ok rfl
  · refine (Project.addressIn_nameless sample project.samples).bind fun address _ haddress => ?_
    subst haddress
    refine .ok ?_
    simp only [Line.bare]
    rfl

lemma sampleTable_nameless :
    Agree (fun a b => a.map Line.bare = b.map Line.bare) (sampleTable project)
      (sampleTable project.nameless) := by
  have hentries : (project.nameless.mapping.zipIdx.drop 1).take (Project.mappingSlots - 1) =
      ((project.mapping.zipIdx.drop 1).take (Project.mappingSlots - 1)).map
        (Prod.map (Option.map SampleMapping.nameless) id) := by
    have hmapping : project.nameless.mapping =
        project.mapping.map (Option.map SampleMapping.nameless) := rfl
    rw [hmapping, List.zipIdx_map, ← List.map_drop, ← List.map_take]
  unfold sampleTable
  rw [Project.usesSamples_nameless]
  split_ifs
  · dsimp only
    rw [hentries]
    have hentry : ∀ entry : Option SampleMapping × Nat, Agree (fun a b => a.bare = b.bare)
        (sampleLine project entry.2 entry.1)
        (sampleLine project.nameless entry.2 (entry.1.map SampleMapping.nameless)) :=
      fun entry => sampleLine_nameless project entry.2 entry.1
    refine (Agree.mapM _ hentry _).bind fun lines bare hlines => ?_
    have hbare : lines.map Line.bare = bare.map Line.bare := by
      rw [← List.forall₂_eq_eq_eq, List.forall₂_map_left_iff, List.forall₂_map_right_iff]
      exact hlines
    refine .ok ?_
    rw [List.map_append, List.map_append, hbare]
  · exact .ok rfl

lemma checkSamples_nameless :
    Agree Eq (checkSamples project) (checkSamples project.nameless) := by
  unfold checkSamples
  rw [project.sampleSize_nameless]
  refine (Agree.forM Sample.nameless (fun sample => ?_) project.samples).bind fun _ _ _ =>
    Agree.refl _
  have hdata : sample.nameless.data = sample.data := rfl
  unfold checkSample
  rw [hdata]
  split_ifs
  · exact .error _ _
  · exact .ok rfl

lemma bare_instrumentLines (number : Nat) (instrument : Instrument) (places : EnvelopePlaces) :
    (instrumentLines number instrument.nameless places).map Line.bare =
      (instrumentLines number instrument places).map Line.bare := by
  simp only [instrumentLines, List.map_cons, List.map_nil, Line.bare]
  rfl

lemma instrumentTable_nameless (tables : InstrumentTables) :
    (instrumentTable project.nameless tables).map Line.bare =
      (instrumentTable project tables).map Line.bare := by
  have hinstruments : project.nameless.instruments =
      project.instruments.map Instrument.nameless := rfl
  rw [instrumentTable, instrumentTable, hinstruments, List.zip_map_left, List.zipIdx_map,
    List.flatMap_map, List.map_flatMap, List.map_flatMap]
  exact List.flatMap_congr fun entry _ => bare_instrumentLines _ _ _

lemma tableLines_nameless (tables : InstrumentTables) :
    Agree (fun a b => a.map Line.bare = b.map Line.bare) (tableLines project tables)
      (tableLines project.nameless tables) := by
  have hlines : ∀ samples bare : List Line, samples.map Line.bare = bare.map Line.bare →
      (Line.label .instruments :: instrumentTable project tables ++
        [Line.blank, .label .samples] ++ samples ++ envelopeLines tables.streams).map Line.bare =
      (Line.label .instruments :: instrumentTable project.nameless tables ++
        [Line.blank, .label .samples] ++ bare ++ envelopeLines tables.streams).map Line.bare := by
    intro samples bare hsamples
    simp only [List.map_append, List.map_cons, instrumentTable_nameless, hsamples]
  unfold tableLines
  rw [project.usesSamples_nameless]
  dsimp only
  split_ifs
  · exact (checkSamples_nameless project).bind fun _ _ _ =>
      (sampleTable_nameless project).bind fun samples bare hsamples => .ok (hlines _ _ hsamples)
  · exact (sampleTable_nameless project).bind fun samples bare hsamples => .ok (hlines _ _ hsamples)

end Tables

section Songs

variable {encoding : Encoding} {pieceRows : Int}

lemma encodeSongs_nameless (pool : PatternPool) (songs : List Song) :
    Agree (fun a b => a.map (Prod.map Song.nameless id) = b)
      (encodeSongs encoding pieceRows pool songs)
      (encodeSongs encoding pieceRows pool (songs.map Song.nameless)) := by
  induction songs generalizing pool with
  | nil => exact .ok rfl
  | cons song rest ih =>
    rw [List.map_cons, encodeSongs, encodeSongs]
    refine (song.search_nameless encoding pieceRows pool).bind fun choice _ hchoice => ?_
    subst hchoice
    refine (ih choice.code.pool).bind fun entries _ hentries => ?_
    subst hentries
    exact .ok rfl

end Songs

lemma total_size_bare (lines : List Line) :
    total Line.size (lines.map Line.bare) = total Line.size lines := by
  simp only [total_map, size_bare]

lemma headerLines_nameless (project : Project) (name bare : String) :
    (headerLines project.nameless bare).map Line.bare =
      (headerLines project name).map Line.bare := by
  have hsongs : project.nameless.songs = project.songs.map Song.nameless := rfl
  have hheaders : (project.songs.map Song.nameless).zipIdx.map
      (fun entry => headerLine entry.1 entry.2) =
        project.songs.zipIdx.map fun entry => headerLine entry.1 entry.2 := by
    rw [List.zipIdx_map, List.map_map]
    rfl
  unfold headerLines
  rw [hsongs, hheaders, List.length_map]
  simp only [List.map_append]
  rfl

/-- A document of the same tables and songs says the same, whatever its names and remarks are. -/
lemma Parts.document_nameless {lines bare : List Line}
    (h : lines.map Line.bare = bare.map Line.bare) (project : Project) (name other : String)
    (tables : InstrumentTables) (songs : List (Song × Choice)) :
    (Parts.document ⟨name, tables, lines, songs⟩ project).bare =
      (Parts.document ⟨other, tables, bare, songs.map (Prod.map Song.nameless id)⟩
        project.nameless).bare := by
  have hheader := headerLines_nameless project name other
  have hcomments : ∀ summaries : List SongSummary,
      (summaries.zipIdx.map fun entry => summaryLine entry.1 entry.2).map Line.bare =
        List.replicate summaries.length (.comment "") := by
    intro summaries
    rw [List.map_map, List.eq_replicate_iff]
    refine ⟨by simp, fun line hm => ?_⟩
    obtain ⟨entry, -, rfl⟩ := List.mem_map.mp hm
    rfl
  have hlines : (Parts.lines ⟨name, tables, lines, songs⟩ project).map Line.bare =
      (Parts.lines ⟨other, tables, bare, songs.map (Prod.map Song.nameless id)⟩
        project.nameless).map Line.bare := by
    simp only [Parts.lines, Parts.comments, Parts.summaries, Parts.codes, List.map_append,
      List.map_cons, hheader, h, hcomments, List.length_map, List.map_map]
    rfl
  have hsize : total Line.size (headerLines project name ++ lines) =
      total Line.size (headerLines project.nameless other ++ bare) := by
    rw [← total_size_bare, List.map_append, ← hheader, h, ← List.map_append, total_size_bare]
  have hsummaries : (songs.map fun entry => summary entry.1 entry.2).map SongSummary.nameless =
      ((songs.map (Prod.map Song.nameless id)).map fun entry =>
        summary entry.1 entry.2).map SongSummary.nameless := by
    simp only [List.map_map]
    rfl
  have htotal : total SongSummary.size (songs.map fun entry => summary entry.1 entry.2) =
      total SongSummary.size ((songs.map (Prod.map Song.nameless id)).map fun entry =>
        summary entry.1 entry.2) := by
    simp only [total_map]
    rfl
  unfold Document.bare Parts.document
  rw [hlines, hsize]
  simp only [Parts.summaries, hsummaries, htotal, project.usesSamples_nameless,
    project.sampleBlob_nameless]

/-- What a document says besides names and remarks does not depend on names. -/
theorem document_nameless (project : Project) (options : Options) :
    Agree (fun a b => a.bare = b.bare) (document project options)
      (document project.nameless options) := by
  unfold document documentOf
  rw [project.prepare_nameless]
  generalize project.prepare options.wanted options.kernel = prepared
  have hsongs : prepared.nameless.songs = prepared.songs.map Song.nameless := rfl
  dsimp only
  rw [hsongs, InstrumentTables.build_nameless, prepared.instrumentIndex?_nameless]
  cases hcases : prepared.songs with
  | nil => exact .error _ _
  | cons first rest =>
    have hcount : ((first :: rest).map Song.nameless).length = (first :: rest).length :=
      List.length_map ..
    show Agree _ (ite _ _ _) (ite _ _ _)
    rw [hcount]
    by_cases hmany : (first :: rest).length > Limits.songs
    · rw [if_pos hmany, if_pos hmany]
      exact .error _ _
    · rw [if_neg hmany, if_neg hmany]
      have htempo : ∀ song, Agree Eq (checkTempo song) (checkTempo song.nameless) :=
        fun song => Agree.refl (checkTempo song)
      refine (Agree.forM Song.nameless htempo (first :: rest)).bind fun _ _ _ => ?_
      refine (Agree.refl _).bind fun tables _ htables => ?_
      subst htables
      refine (tableLines_nameless prepared tables).bind fun lines bare hlines => ?_
      refine (encodeSongs_nameless {} _).bind fun songs _ hsongs => ?_
      subst hsongs
      refine .ok ?_
      have hbare := Parts.document_nameless hlines prepared
        (labelName (if options.nameBySong then first.name else prepared.name))
        (labelName (if options.nameBySong then first.nameless.name else prepared.nameless.name))
        tables songs
      rw [Parts.document_eq, Parts.document_eq] at hbare
      exact hbare

end Export

end Chiptune
