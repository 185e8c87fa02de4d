import Chiptune.Proofs.Refusals

/-!
# What preparing leaves of a project

The wanted songs stay with all their rows, and the instruments that these songs play. Only releases
that the kernel cannot play and volume envelopes without values are mended.
-/

namespace Chiptune

/-- A note for a kernel: a kernel without releases gets an empty row for each. -/
def Note.KeptAs (kernel : Kernel) (note kept : Note) : Prop :=
  kept = if kernel = .legacy ∧ note.value = 247 then { note with value := 255 } else note

/-- Nothing of a song changes but the notes of its patterns. -/
structure Song.KeptAs (kernel : Kernel) (song kept : Song) : Prop where
  frame : kept = { song with patterns := kept.patterns }
  rows : List.Forall₂ (List.Forall₂ (Note.KeptAs kernel)) song.patterns kept.patterns

namespace Song

def isWanted (wanted : Option (List Int)) (song : Song) : Bool :=
  wanted.all fun ids => ids.contains song.id

/-- Whether some note of the song plays the instrument. -/
def plays (song : Song) (id : InstrumentId) : Bool :=
  song.notes.any fun note => note.instrument == some id

end Song

namespace Project

def wantedSongs (project : Project) (wanted : Option (List Int)) : List Song :=
  project.songs.filter (Song.isWanted wanted)

/-- Whether some wanted song plays the instrument. -/
def plays (project : Project) (wanted : Option (List Int)) (instrument : Instrument) : Bool :=
  (project.wantedSongs wanted).any (·.plays instrument.id)

/-- Every instrument that a note plays is in the list. -/
def Listed (project : Project) : Prop :=
  ∀ song ∈ project.songs, ∀ note ∈ song.notes, ∀ id, note.instrument = some id →
    id ∈ project.instruments.map Instrument.id

instance (project : Project) : Decidable project.Listed :=
  decidable_of_iff (∀ song ∈ project.songs, ∀ note ∈ song.notes, ∀ id ∈ note.instrument,
    id ∈ project.instruments.map Instrument.id) Iff.rfl

/-- Deletes songs without a wanted identifier one by one. The first `position` songs are known to
be wanted, and the others are yet to be looked at. -/
def deleteOthers (ids : List Int) : (position : Nat) → List Song → Project → Outcome Project
  | _, [], project => pure project
  | position, song :: rest, project =>
    if ids.contains song.id then deleteOthers ids (position + 1) rest project
    else do deleteOthers ids position rest (← project.deleteSong position)

end Project

section Songs

variable (kernel : Kernel) (note : Note) (song : Song)

lemma note_keptAs : Note.KeptAs kernel note (note.fitted kernel) := by
  unfold Note.KeptAs Note.fitted Note.withoutRelease Note.isRelease
  cases kernel with
  | extended => simp [Kernel.supportsReleases]
  | legacy => simp [Kernel.supportsReleases, Note.releaseValue, Note.emptyValue]

lemma fitted_note : (note.fitted kernel).fitted kernel = note.fitted kernel := by
  unfold Note.fitted
  by_cases hr : kernel.supportsReleases = true
  · rw [if_pos hr, if_pos hr]
  · rw [if_neg hr, if_neg hr]
    unfold Note.withoutRelease
    by_cases hn : note.isRelease = true
    · rw [if_pos hn]
      rfl
    · rw [if_neg hn, if_neg hn]

lemma song_keptAs : Song.KeptAs kernel song (song.fitted kernel) := by
  rw [song_fitted]
  refine ⟨rfl, ?_⟩
  apply List.forall₂_map_right_iff.mpr
  apply List.forall₂_same.mpr
  intro pattern _
  apply List.forall₂_map_right_iff.mpr
  exact List.forall₂_same.mpr fun note _ => note_keptAs kernel note

lemma fitted_song : (song.fitted kernel).fitted kernel = song.fitted kernel := by
  have hnote : Note.fitted kernel ∘ Note.fitted kernel = Note.fitted kernel := by
    funext note
    exact fitted_note kernel note
  rw [song_fitted kernel (song.fitted kernel), song_fitted kernel song]
  unfold Song.mapNotes
  simp [hnote]

lemma isWanted_fitted (wanted : Option (List Int)) :
    (song.fitted kernel).isWanted wanted = song.isWanted wanted := by
  rw [song_fitted]
  rfl

lemma plays_fitted (id : InstrumentId) : (song.fitted kernel).plays id = song.plays id := by
  rw [song_fitted, Song.plays, notes_mapNotes, List.any_map, Song.plays]
  congr 1
  funext note
  rw [Function.comp, (keeps_fitted kernel note).instrument]

end Songs

namespace Envelope

variable (env : Envelope)

lemma sanitised_of_releasable (h : env.release < 0 ∨ 0 < env.release ∧
    env.release < env.values.length ∧ env.loop < env.release) : env.sanitised = env := by
  unfold sanitised
  apply if_neg
  omega

lemma cutAtRelease_of_neg (h : env.release < 0) : env.cutAtRelease = env := by
  unfold cutAtRelease
  exact if_neg (not_le.mpr h)

lemma orFullVolume_values (volume : Option Envelope) : (orFullVolume volume).values ≠ [] := by
  cases volume with
  | none => exact List.cons_ne_nil _ _
  | some env =>
    rw [orFullVolume]
    by_cases h : env.values.isEmpty = true
    · rw [if_pos h]
      exact List.cons_ne_nil _ _
    · rw [if_neg h]
      exact fun hnil => h (List.isEmpty_iff.mpr hnil)

lemma orFullVolume_some {env : Envelope} (h : env.values ≠ []) : orFullVolume (some env) = env := by
  rw [orFullVolume]
  apply if_neg
  exact fun hempty => h (List.isEmpty_iff.mp hempty)

end Envelope

lemma fitted_eq (kernel : Kernel) (instrument : Instrument) : instrument.fitted kernel =
    { instrument with
      volume := some (Envelope.orFullVolume (instrument.volume.map (Envelope.mended kernel))) } :=
  rfl

namespace Project

variable (project : Project) (wanted : Option (List Int)) (kernel : Kernel)

lemma select_eq : project.select wanted = { project with songs := project.wantedSongs wanted } := by
  cases wanted with
  | none =>
    have hall : project.wantedSongs none = project.songs := List.filter_eq_self.mpr fun _ _ => rfl
    rw [hall]
    rfl
  | some ids => rfl

/-- Deleting the songs that are not wanted one by one leaves the wanted ones. -/
lemma deleteOthers_eq (ids : List Int) (rest kept : List Song)
    (hkept : ∀ song ∈ kept, ids.contains song.id = true) :
    deleteOthers ids kept.length rest { project with songs := kept ++ rest } =
      .ok { project with songs := kept ++ rest.filter (Song.isWanted (some ids)) } := by
  induction rest generalizing kept with
  | nil => rfl
  | cons song rest ih =>
    rw [deleteOthers, List.filter_cons]
    by_cases hw : ids.contains song.id = true
    · have hall : ∀ other ∈ kept ++ [song], ids.contains other.id = true := by
        intro other ho
        rcases List.mem_append.mp ho with ho | ho
        · exact hkept other ho
        · exact List.mem_singleton.mp ho ▸ hw
      have hnext := ih (kept ++ [song]) hall
      rw [List.length_append, List.append_assoc, List.append_assoc] at hnext
      have hwanted : Song.isWanted (some ids) song = true := hw
      rw [if_pos hw, if_pos hwanted]
      exact hnext
    · -- No kept song looks like the unwanted one, so the first to look like it is that song itself.
      have hfirst : kept.findIdx (·.sameContent song) = kept.length := by
        apply List.findIdx_eq_length.mpr
        intro other ho
        have hne : other.id ≠ song.id := by
          intro heq
          exact hw (heq ▸ hkept other ho)
        simp [Song.sameContent, hne]
      have hdelete : deleteSong { project with songs := kept ++ song :: rest } kept.length =
          .ok { project with songs := kept ++ rest } := by
        have hget : (kept ++ song :: rest)[kept.length]? = some song := by simp
        have herase : (kept ++ song :: rest).eraseIdx kept.length = kept ++ rest := by
          rw [List.eraseIdx_append_of_length_le (le_refl _), Nat.sub_self]
          rfl
        unfold deleteSong
        dsimp only
        rw [hget]
        dsimp only
        rw [List.take_left, hfirst, herase]
        rfl
      have hother : ¬ Song.isWanted (some ids) song = true := hw
      rw [if_neg hw, if_neg hother, hdelete]
      exact ih kept hkept

lemma contains_instrumentsUsed (id : InstrumentId) :
    project.instrumentsUsed.contains id = project.songs.any (·.plays id) := by
  rw [Bool.eq_iff_iff]
  simp [instrumentsUsed, Song.instrumentsUsed, Song.plays]

/-- All that preparing does. -/
lemma prepare_eq : project.prepare wanted kernel =
    { project with
      songs := (project.wantedSongs wanted).map (Song.fitted kernel)
      instruments :=
        (project.instruments.filter (project.plays wanted)).map (Instrument.fitted kernel) } := by
  have hplays : (fun instrument : Instrument => (instrumentsUsed { project with
      songs := (project.wantedSongs wanted).map (Song.fitted kernel) }).contains instrument.id) =
      project.plays wanted := by
    funext instrument
    rw [contains_instrumentsUsed, plays, List.any_map]
    simp only [Function.comp_def, plays_fitted]
  unfold prepare deleteUnusedInstruments
  rw [select_eq]
  dsimp only
  rw [hplays]

end Project

end Chiptune
