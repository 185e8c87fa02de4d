import Chiptune.Proofs.DocumentLabels
import Chiptune.Proofs.Encodable
import Chiptune.Proofs.PreparedSongs
import Chiptune.Proofs.SplitMusic

/-!
# Refused exports

A project in which all that the songs and the samples refer to is there is exported, or it is
refused with one of the causes that `ExportError` lists. Only a tempo that cannot be written is left
to the caller to exclude.
-/

namespace Chiptune

/-- A song that every kernel can encode with the instruments of a list. -/
structure Song.Encodable (listed : List InstrumentId) (song : Song) : Prop where
  formed : song.Formed
  range : ∀ note ∈ song.notes, note.InRange
  listed : ∀ note ∈ song.notes, ∀ id, note.instrument = some id → id ∈ listed

/-- All that the songs and the mapping of a project refer to is in the project. -/
structure Project.Complete (project : Project) : Prop where
  songs : ∀ song ∈ project.songs, song.Encodable (project.instruments.map Instrument.id)
  samples : ∀ mapping : SampleMapping, some mapping ∈ project.mapping →
    ∀ sample, mapping.sample = some sample → sample ∈ project.samples

/-- The computation succeeds or says why the project cannot be exported. -/
def Orderly {α : Type} (x : Outcome α) : Prop :=
  ∀ error, x = .error error → ∃ cause, error = .unexportable cause

section Orderly

variable {α β : Type}

lemma orderly_ok (a : α) : Orderly (.ok a) := fun _ h => nomatch h

lemma orderly_refused (cause : ExportError) :
    Orderly (throw (.unexportable cause) : Outcome α) :=
  fun _ h => ⟨cause, (Except.error.inj h).symm⟩

lemma Orderly.bind {x : Outcome α} {f : α → Outcome β} (hx : Orderly x)
    (hf : ∀ a, x = .ok a → Orderly (f a)) : Orderly (x >>= f) := by
  intro error he
  cases hres : x with
  | error cause =>
    rw [hres] at he
    obtain rfl : cause = error := Except.error.inj he
    exact hx cause hres
  | ok a =>
    rw [hres] at he
    exact hf a hres error he

lemma orderly_forM {f : α → Outcome Unit} {xs : List α} (h : ∀ x ∈ xs, Orderly (f x)) :
    Orderly (xs.forM f) := by
  induction xs with
  | nil => exact orderly_ok _
  | cons x rest ih =>
    exact (h x (by simp)).bind fun _ _ => ih fun other ho => h other (by simp [ho])

end Orderly

namespace Envelope

/-- There is no release, or it leaves a value to hold and comes after the loop point. -/
def Releasable (env : Envelope) : Prop :=
  env.release < 0 ∨ 0 < env.release ∧ env.loop < env.release

lemma sanitised_releasable (env : Envelope) : env.sanitised.Releasable := by
  unfold sanitised
  split
  · exact .inl (show (-1 : Int) < 0 by decide)
  · next h =>
    by_cases hrelease : 0 ≤ env.release
    · refine .inr ?_
      omega
    · exact .inl (not_le.mp hrelease)

lemma released_ok (samples : Bytes) {release : Nat} {loop : Option Nat} (hpos : 0 < release)
    (hloop : ∀ start, loop = some start → start < release) :
    ∃ bytes, released samples release loop = .ok bytes := by
  unfold released
  cases loop with
  | none =>
    dsimp only
    rw [if_neg hpos.ne']
    exact ⟨_, rfl⟩
  | some start =>
    dsimp only
    rw [if_pos (hloop start rfl)]
    exact ⟨_, rfl⟩

lemma position?_eq_some {length : Nat} {field : Int} {position : Nat}
    (h : position? length field = some position) : (position : Int) = field := by
  unfold position? at h
  split at h
  · obtain rfl := Option.some.inj h
    omega
  · exact nomatch h

lemma stream_orderly {env : Envelope} {allowRelease : Bool}
    (h : allowRelease = true → env.Releasable) : Orderly (env.stream allowRelease) := by
  have hsize : ∀ bytes : Bytes, Orderly (do
      if bytes.length > Limits.envelopeBytes then
        throw (.unexportable (.envelopeTooLong bytes.length))
      return some bytes : Outcome (Option Bytes)) := by
    intro bytes
    dsimp only
    split
    · exact (orderly_refused _).bind fun _ _ => orderly_ok _
    · exact orderly_ok _
  unfold stream
  split
  · exact orderly_ok _
  · dsimp only
    split
    · next release hrelease =>
      have hfield := position?_eq_some hrelease
      obtain ⟨hpos, hloop⟩ := (h rfl).resolve_left (by omega)
      have hbefore : ∀ start,
          position? (env.values.map biased).length env.loop = some start → start < release := by
        intro start hstart
        have := position?_eq_some hstart
        omega
      obtain ⟨bytes, hbytes⟩ := released_ok (env.values.map biased)
        (show 0 < release by omega) hbefore
      rw [hbytes]
      exact (orderly_ok _).bind fun bytes _ => hsize bytes
    · exact (orderly_ok _).bind fun bytes _ => hsize bytes
    · exact (orderly_ok _).bind fun bytes _ => hsize bytes

end Envelope

namespace InstrumentTables

lemma placeEnvelope_orderly {streams : List Bytes} {envelope : Option Envelope}
    {allowRelease : Bool}
    (h : ∀ env, envelope = some env → allowRelease = true → env.Releasable) :
    Orderly (placeEnvelope streams envelope allowRelease) := by
  unfold placeEnvelope
  cases envelope with
  | none => exact orderly_ok _
  | some env => exact (Envelope.stream_orderly (h env rfl)).bind fun _ _ => orderly_ok _

variable {kernel : Kernel}

lemma placeInstrument_orderly {streams : List Bytes} {instrument : Instrument}
    (h : ∀ env, instrument.volume = some env → kernel.supportsReleases = true → env.Releasable) :
    Orderly (placeInstrument kernel streams instrument) := by
  unfold placeInstrument
  refine (placeEnvelope_orderly h).bind ?_
  rintro ⟨volume, streams⟩ -
  refine (placeEnvelope_orderly (by simp)).bind ?_
  rintro ⟨arpeggio, streams⟩ -
  refine (placeEnvelope_orderly (by simp)).bind ?_
  rintro ⟨pitch, streams⟩ -
  exact orderly_ok _

lemma placeAll_orderly {streams : List Bytes} {instruments : List Instrument}
    (h : ∀ instrument ∈ instruments, ∀ env, instrument.volume = some env →
      kernel.supportsReleases = true → env.Releasable) :
    Orderly (placeAll kernel streams instruments) := by
  induction instruments generalizing streams with
  | nil => exact orderly_ok _
  | cons instrument rest ih =>
    refine (placeInstrument_orderly (h instrument (by simp))).bind ?_
    rintro ⟨places, streams⟩ -
    exact (ih fun other ho => h other (by simp [ho])).bind fun _ _ => orderly_ok _

lemma build_orderly {project : Project}
    (h : ∀ instrument ∈ project.instruments, ∀ env, instrument.volume = some env →
      kernel.supportsReleases = true → env.Releasable) : Orderly (build project kernel) := by
  unfold build
  split
  · exact (orderly_refused _).bind fun _ _ => placeAll_orderly h
  · exact placeAll_orderly h

end InstrumentTables

/-- Where the kernel releases notes, the volume of a fitted instrument can be released. -/
lemma fitted_releasable {kernel : Kernel} {instrument : Instrument} {env : Envelope}
    (h : (instrument.fitted kernel).volume = some env) (hk : kernel.supportsReleases = true) :
    env.Releasable := by
  have hfull : Envelope.Releasable { values := [Note.loudest] } :=
    .inl (show (-1 : Int) < 0 by decide)
  unfold Instrument.fitted Envelope.mended at h
  rw [if_pos hk] at h
  obtain rfl := Option.some.inj h
  cases instrument.volume with
  | none => exact hfull
  | some volume =>
    rw [Option.map_some, Envelope.orFullVolume]
    split
    · exact hfull
    · exact volume.sanitised_releasable

namespace Export

open Assembly

variable {project : Project} {options : Options}

lemma checkSamples_orderly (project : Project) : Orderly (checkSamples project) := by
  unfold checkSamples
  refine (orderly_forM fun sample _ => ?_).bind fun _ _ => ?_
  · unfold checkSample
    split
    · exact orderly_refused _
    · exact orderly_ok _
  · split
    · exact orderly_refused _
    · exact orderly_ok _

lemma addressIn_ok {wanted : Sample} {samples : List Sample} (h : wanted ∈ samples) :
    ∃ address, Project.addressIn wanted samples = .ok address := by
  induction samples with
  | nil => exact absurd h List.not_mem_nil
  | cons sample rest ih =>
    rw [Project.addressIn]
    by_cases hid : sample.id = wanted.id
    · exact ⟨0, by rw [if_pos hid]; rfl⟩
    · have hrest : wanted ∈ rest := by
        rcases List.mem_cons.mp h with rfl | hm
        · exact absurd rfl hid
        · exact hm
      obtain ⟨address, haddress⟩ := ih hrest
      exact ⟨sample.alignedSize + address, by rw [if_neg hid, haddress]; rfl⟩

lemma sampleLine_ok (h : project.Complete) {entry : Option SampleMapping}
    (he : entry ∈ project.mapping) (slot : Nat) :
    ∃ line, sampleLine project slot entry = .ok line := by
  unfold sampleLine
  split
  · exact ⟨_, rfl⟩
  · next mapping sample hsample =>
    obtain ⟨found, rfl, hfound⟩ := Option.bind_eq_some_iff.mp hsample
    obtain ⟨named, hnamed, hpair⟩ := Option.map_eq_some_iff.mp hfound
    obtain ⟨rfl, rfl⟩ := Prod.mk.injEq .. ▸ hpair
    obtain ⟨address, haddress⟩ := addressIn_ok (h.samples found he named hnamed)
    exact ⟨_, by rw [Project.sampleAddress, haddress]; rfl⟩

lemma sampleTable_ok (h : project.Complete) : ∃ lines, sampleTable project = .ok lines := by
  unfold sampleTable
  split
  · have hall : ∀ entry ∈ (project.mapping.zipIdx.drop 1).take (Project.mappingSlots - 1),
        ∃ line, sampleLine project entry.2 entry.1 = .ok line := by
      intro entry he
      have hentry := List.mem_of_mem_drop (List.mem_of_mem_take he)
      exact sampleLine_ok h (List.fst_mem_of_mem_zipIdx hentry) entry.2
    obtain ⟨entries, hentries⟩ := mapM_ok hall
    exact ⟨entries ++ [.blank], by dsimp only; rw [hentries]; rfl⟩
  · exact ⟨[], rfl⟩

lemma tableLines_orderly (h : project.Complete) (tables : InstrumentTables) :
    Orderly (tableLines project tables) := by
  obtain ⟨lines, hlines⟩ := sampleTable_ok h
  unfold tableLines
  dsimp only
  split
  · refine (checkSamples_orderly project).bind fun _ _ => ?_
    rw [hlines]
    exact orderly_ok _
  · rw [hlines]
    exact orderly_ok _

end Export

section Songs

variable {song : Song} {encoding : Encoding}

/-- No candidate fails: it leads to a code, or the song has too many different patterns for it. -/
lemma tryCandidate_ok (hf : song.Formed) (hn : ∀ note ∈ song.notes, note.InRange)
    (hv : song.Voiced encoding.index) (pool : PatternPool) (candidate : Candidate) :
    ∃ code, song.tryCandidate encoding pool candidate = .ok code := by
  unfold Song.tryCandidate
  cases hsplit : song.split candidate.factor with
  | none => exact ⟨none, rfl⟩
  | some pieces =>
    obtain ⟨size, -, hcut⟩ := split_cut hsplit
    have hfactor : (candidate.factor : Int) ≠ 0 := by
      have := hcut.positive
      omega
    have hpieces := encode_unfailing (formed_cut hcut hf)
      (fun note hm => hn note (notes_cut hcut hm)) (fun note hm => hv note (notes_cut hcut hm))
      candidate.channel hfactor pool
    dsimp only
    rcases hpieces.ok_or_full with ⟨code, hcode⟩ | ⟨full, hfull⟩
    · exact ⟨some code, by rw [hcode]; rfl⟩
    · exact ⟨none, by rw [hfull]; rfl⟩

lemma searchAmong_ok (hf : song.Formed) (hn : ∀ note ∈ song.notes, note.InRange)
    (hv : song.Voiced encoding.index) (pool : PatternPool) (best : Option Choice)
    (candidates : List Candidate) :
    ∃ result, song.searchAmong encoding pool best candidates = .ok result := by
  induction candidates generalizing best with
  | nil => exact ⟨best, rfl⟩
  | cons candidate rest ih =>
    obtain ⟨tried, htried⟩ := tryCandidate_ok hf hn hv pool candidate
    rw [Song.searchAmong, htried, ok_bind]
    cases tried with
    | none => exact ih best
    | some code => exact ih _

lemma search_orderly (hf : song.Formed) (hn : ∀ note ∈ song.notes, note.InRange)
    (hv : song.Voiced encoding.index) (pieceRows : Int) (pool : PatternPool) :
    Orderly (song.search encoding pieceRows pool) := by
  obtain ⟨result, hresult⟩ := searchAmong_ok hf hn hv pool none (song.candidates pieceRows)
  rw [Song.search, hresult, ok_bind]
  cases result with
  | none => exact orderly_refused _
  | some choice => exact orderly_ok _

lemma encodeSongs_orderly {songs : List Song} (h : ∀ song ∈ songs, song.Formed ∧
      (∀ note ∈ song.notes, note.InRange) ∧ song.Voiced encoding.index) (pieceRows : Int)
    (pool : PatternPool) : Orderly (Export.encodeSongs encoding pieceRows pool songs) := by
  induction songs generalizing pool with
  | nil => exact orderly_ok _
  | cons song rest ih =>
    obtain ⟨hf, hn, hv⟩ := h song (by simp)
    refine (search_orderly hf hn hv pieceRows pool).bind fun choice _ => ?_
    exact (ih (fun other ho => h other (by simp [ho])) _).bind fun _ _ => orderly_ok _

end Songs

section Projects

variable {project : Project} {wanted : Option (List Int)} {kernel : Kernel}

lemma encodable_fitted {listed : List InstrumentId} {song : Song} (h : song.Encodable listed)
    (kernel : Kernel) : (song.fitted kernel).Encodable listed := by
  rw [song_fitted]
  refine ⟨formed_mapNotes h.formed, ?_, ?_⟩
  · rw [notes_mapNotes]
    intro note hn
    obtain ⟨source, hs, rfl⟩ := List.mem_map.mp hn
    exact (keeps_fitted kernel source).range (h.range source hs)
  · rw [notes_mapNotes]
    intro note hn id hid
    obtain ⟨source, hs, rfl⟩ := List.mem_map.mp hn
    exact h.listed source hs id ((keeps_fitted kernel source).instrument ▸ hid)

lemma select_samples (project : Project) (wanted : Option (List Int)) :
    (project.select wanted).samples = project.samples ∧
      (project.select wanted).mapping = project.mapping := by
  cases wanted <;> exact ⟨rfl, rfl⟩

lemma prepare_encodable (h : project.Complete) :
    ∀ song ∈ (project.prepare wanted kernel).songs,
      song.Encodable (project.instruments.map Instrument.id) := by
  intro song hs
  rw [Project.prepare_songs] at hs
  obtain ⟨source, hsource, rfl⟩ := List.mem_map.mp hs
  exact encodable_fitted (h.songs source (Project.mem_select hsource)) kernel

lemma prepare_complete (h : project.Complete) : (project.prepare wanted kernel).Complete where
  songs := by
    intro song hs
    have hsong := prepare_encodable h song hs
    refine ⟨hsong.formed, hsong.range, fun note hn id hid => ?_⟩
    exact Project.prepare_listed hs hn hid (hsong.listed note hn id hid)
  samples := by
    obtain ⟨hsamples, hmapping⟩ := select_samples project wanted
    intro mapping hm sample hs
    show sample ∈ (project.select wanted).samples
    rw [hsamples]
    refine h.samples mapping ?_ sample hs
    rw [← hmapping]
    exact hm

/-- The instruments of the songs are in the table, if the table is not too long. -/
lemma prepare_voiced (h : project.Complete)
    (hcount : (project.prepare wanted kernel).instruments.length ≤ Limits.instruments) :
    ∀ song ∈ (project.prepare wanted kernel).songs,
      song.Voiced (project.prepare wanted kernel).instrumentIndex? := by
  intro song hs note hn _ id hid
  obtain ⟨place, hplace, hlt⟩ := Project.prepare_instrumentIndex hs hn hid
    ((prepare_encodable h song hs).listed note hn id hid)
  exact ⟨place, hplace, lt_of_lt_of_le hlt hcount⟩

lemma checkTempo_cases (song : Song) : Export.checkTempo song = .ok () ∨
    Export.checkTempo song = .error .notANumeral := by
  unfold Export.checkTempo
  dsimp only
  split
  · exact .inl rfl
  · exact .inr rfl

lemma checkTempo_fitted (kernel : Kernel) (song : Song) :
    Export.checkTempo (song.fitted kernel) = Export.checkTempo song := by
  rw [song_fitted]
  rfl

/-- A complete project whose tempos can be written is exported or refused. -/
theorem document_orderly (h : project.Complete) {options : Export.Options}
    (htempo : ∀ song ∈ (project.select options.wanted).songs, Export.checkTempo song = .ok ()) :
    Orderly (Export.document project options) := by
  have hprepared : ∀ song ∈ (project.prepare options.wanted options.kernel).songs,
      Export.checkTempo song = .ok () := by
    intro song hs
    obtain ⟨source, hsource, rfl⟩ := List.mem_map.mp hs
    rw [checkTempo_fitted]
    exact htempo source hsource
  have hcomplete : (project.prepare options.wanted options.kernel).Complete := prepare_complete h
  have hvolume : ∀ instrument ∈ (project.prepare options.wanted options.kernel).instruments,
      ∀ env, instrument.volume = some env → options.kernel.supportsReleases = true →
        env.Releasable := by
    intro instrument hi env henv hk
    obtain ⟨source, -, rfl⟩ := List.mem_map.mp hi
    exact fitted_releasable henv hk
  have hvoiced : (project.prepare options.wanted options.kernel).instruments.length ≤
      Limits.instruments → ∀ song ∈ (project.prepare options.wanted options.kernel).songs,
        song.Voiced (project.prepare options.wanted options.kernel).instrumentIndex? :=
    prepare_voiced h
  unfold Export.document Export.documentOf
  generalize project.prepare options.wanted options.kernel = prepared at *
  dsimp only
  split
  · split
    · exact (orderly_refused _).bind fun _ hnever => nomatch hnever
    · rw [(forM_eq_ok_iff _ _).mpr hprepared, ok_bind]
      refine (InstrumentTables.build_orderly hvolume).bind fun tables htables => ?_
      refine (Export.tableLines_orderly hcomplete tables).bind fun lines _ => ?_
      refine (encodeSongs_orderly (fun song hs => ?_) _ _).bind fun songs _ => orderly_ok _
      have hsong := hcomplete.songs song hs
      exact ⟨hsong.formed, hsong.range, hvoiced (Export.length_of_build htables) song hs⟩
  · exact orderly_refused _

lemma document_noSongs {options : Export.Options}
    (hnone : (project.select options.wanted).songs = []) :
    Export.document project options = .error (.unexportable .noSongs) := by
  have hprepared : (project.prepare options.wanted options.kernel).songs = [] := by
    rw [Project.prepare_songs, hnone]
    rfl
  unfold Export.document Export.documentOf
  generalize project.prepare options.wanted options.kernel = prepared at *
  dsimp only
  rw [hprepared]
  rfl

/-- A tempo that cannot be written stops the export of the only song. -/
lemma document_notANumeral {options : Export.Options} {song : Song}
    (hone : (project.select options.wanted).songs = [song])
    (htempo : Export.checkTempo song ≠ .ok ()) :
    Export.document project options = .error .notANumeral := by
  have hprepared : (project.prepare options.wanted options.kernel).songs =
      [song.fitted options.kernel] := by
    rw [Project.prepare_songs, hone]
    rfl
  have hfitted : Export.checkTempo (song.fitted options.kernel) = .error .notANumeral := by
    rw [checkTempo_fitted]
    exact (checkTempo_cases song).resolve_left htempo
  unfold Export.document Export.documentOf
  generalize project.prepare options.wanted options.kernel = prepared at *
  dsimp only
  rw [hprepared]
  dsimp only
  have hcount : ¬ [song.fitted options.kernel].length > Limits.songs := by
    simp [Limits.songs]
  rw [if_neg hcount]
  have hforM : [song.fitted options.kernel].forM Export.checkTempo = .error .notANumeral := by
    have hcons : [song.fitted options.kernel].forM Export.checkTempo =
        Export.checkTempo (song.fitted options.kernel) >>= fun _ => pure () := rfl
    rw [hcons, hfitted]
    rfl
  rw [hforM]
  rfl

end Projects

end Chiptune
