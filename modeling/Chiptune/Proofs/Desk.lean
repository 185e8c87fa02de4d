import Chiptune.Proofs.CopiedSongs
import Chiptune.Proofs.Preparation
import Chiptune.Proofs.SampleRegions

/-!
# Projects that are edited

Edits of a project one after the other, with patterns that songs can share. Whatever the order of
the edits, the songs, the mapping and the samples stay in shape, and a song or a project can be
cloned at any time.
-/

namespace Chiptune

/-- Every song can be played with the instruments there are, and every mapping plays a sample of
the project. -/
structure Project.Sound (project : Project) : Prop where
  songs : ∀ song ∈ project.songs, song.Sound (project.instruments.map Instrument.id)
  mapping : ∀ slot mapping, project.mapping[slot]? = some (some mapping) →
    1 ≤ slot ∧ slot ≤ 63 ∧ ∃ sample ∈ project.samples, mapping.sample = some sample
  samples : (project.samples.map Sample.id).Nodup

/-- A project whose songs have their patterns in one store. A pattern is told apart by its position
there. -/
structure Desk where
  store : List Pattern := []
  project : Project := {}

inductive Edit
  | createSong (name : String) (tempo speed : Int) (patternLength length : Nat)
  | createInstrument (name : String) (duty : Int)
  | deleteSong (position : Nat)
  | deleteUnusedInstruments
  | split (position : Nat) (factor : Int)
  /-- Adds a clone of the song to the songs. -/
  | cloneSong (position : Nat)
  /-- Goes on with a clone of the project, whose instruments and samples keep their numbers. -/
  | clone
  | mapSample (call : MapCall)
  /-- Puts a pattern of its own into a slot. -/
  | place (position channel slot : Nat) (pattern : Pattern)
  /-- Puts a pattern that there is into a slot. -/
  | share (position channel slot object : Nat)
  | setRow (position channel slot row : Nat) (note : Note)

namespace Desk

def songs (desk : Desk) : List Song := desk.project.songs.map (·.withStore desk.store)

/-- The project with the store as the patterns of every song. -/
def view (desk : Desk) : Project := { desk.project with songs := desk.songs }

def listed (desk : Desk) : List InstrumentId := desk.project.instruments.map Instrument.id

/-- The desk with other songs over another store. -/
def withSongs (desk : Desk) (store : List Pattern) (songs : List Song) : Desk :=
  ⟨store, { desk.project with songs }⟩

/-- Changes one song and the store with it, if there is such a song and the change succeeds. -/
def change (desk : Desk) (position : Nat) (op : Song → Option Song) : Desk :=
  match desk.songs[position]?.bind op with
  | some changed => desk.withSongs changed.patterns (desk.songs.set position changed)
  | none => desk

/-- Carries out an edit. One that fails leaves everything as it is. Of songs that cannot be told
apart the first one is deleted. -/
def perform (desk : Desk) : Edit → Desk
  | .createSong name tempo speed patternLength length =>
    { desk with project := desk.project.createSong name tempo speed patternLength length }
  | .createInstrument name duty => { desk with project := desk.project.createInstrument name duty }
  | .deleteSong position =>
    match desk.songs[position]? with
    | some song => desk.withSongs desk.store (desk.songs.erase song)
    | none => desk
  | .deleteUnusedInstruments => { desk with project := desk.view.deleteUnusedInstruments }
  | .split position factor => desk.change position (·.splitAside factor)
  | .cloneSong position =>
    match desk.songs[position]? with
    | some song => desk.withSongs (copiedStore desk.store [song])
        (desk.songs ++ copiedSongs desk.store [song])
    | none => desk
  | .clone => desk.withSongs (copiedStore desk.store desk.songs) (copiedSongs desk.store desk.songs)
  | .mapSample call => { desk with project := desk.project.mapCall call }
  | .place position channel slot pattern =>
    desk.change position fun song => (song.place channel slot pattern).toOption
  | .share position channel slot object =>
    desk.change position fun song => (song.setSlot channel slot (some object)).toOption
  | .setRow position channel slot row note =>
    desk.change position fun song => (song.setRow channel slot row note).toOption

def run (desk : Desk) (edits : List Edit) : Desk := edits.foldl perform desk

end Desk

/-- A pattern that is put into a song fits it, a note has an instrument of the project, and a
sample that is mapped is not another one with the number of a sample of the project. -/
def Edit.Fits (desk : Desk) : Edit → Prop
  | .mapSample call => ∀ sample ∈ desk.project.samples,
    sample.id = call.sample.id → sample = call.sample
  | .place position _ _ pattern => ∀ song ∈ desk.songs[position]?,
    Pattern.Fits desk.listed song.patternLength pattern
  | .share position _ _ object => ∀ song ∈ desk.songs[position]?,
    ∃ pattern ∈ desk.store[object]?, Pattern.Fits desk.listed song.patternLength pattern
  | .setRow _ _ _ _ note => note.Within desk.listed
  | .createSong .. | .createInstrument .. | .deleteSong _ | .deleteUnusedInstruments
  | .split .. | .cloneSong _ | .clone => True

/-- Every edit fits the desk that it is carried out on. -/
def Desk.Admits : Desk → List Edit → Prop
  | _, [] => True
  | desk, edit :: rest => edit.Fits desk ∧ (desk.perform edit).Admits rest

instance Edit.decidableFits (desk : Desk) : (edit : Edit) → Decidable (edit.Fits desk)
  | .mapSample call => inferInstanceAs (Decidable (∀ sample ∈ desk.project.samples,
    sample.id = call.sample.id → sample = call.sample))
  | .place position _ _ pattern => inferInstanceAs (Decidable (∀ song ∈ desk.songs[position]?,
    Pattern.Fits desk.listed song.patternLength pattern))
  | .share position _ _ object => inferInstanceAs (Decidable (∀ song ∈ desk.songs[position]?,
    ∃ pattern ∈ desk.store[object]?, Pattern.Fits desk.listed song.patternLength pattern))
  | .setRow _ _ _ _ note => inferInstanceAs (Decidable (note.Within desk.listed))
  | .createSong .. | .createInstrument .. | .deleteSong _ | .deleteUnusedInstruments
  | .split .. | .cloneSong _ | .clone => isTrue trivial

instance Desk.decidableAdmits : (desk : Desk) → (edits : List Edit) → Decidable (desk.Admits edits)
  | _, [] => isTrue trivial
  | desk, edit :: rest =>
    have := decidableAdmits (desk.perform edit) rest
    inferInstanceAs (Decidable (edit.Fits desk ∧ (desk.perform edit).Admits rest))

/-- What cloning gives at any time. -/
structure Desk.Clones (desk : Desk) : Prop where
  song : ∀ position song, desk.songs[position]? = some song → ∃ after copy,
    desk.perform (.cloneSong position) = desk.withSongs after (desk.songs ++ [copy]) ∧
      Copied desk.store [song] after [copy]
  project : ∃ after copies, desk.perform .clone = desk.withSongs after copies ∧
    Copied desk.store desk.songs after copies

section Edits

variable {desk : Desk} {edits : List Edit} {edit : Edit} {project : Project} {call : MapCall}

lemma blank_sound (listed : List InstrumentId) (id : Int) (name : String) (tempo speed : Int)
    (patternLength length : Nat) :
    (Song.blank id name tempo speed patternLength length).Sound listed where
  slots := by
    intro channel hc
    obtain ⟨voice, -, rfl⟩ := List.mem_map.mp hc
    exact List.length_replicate
  patterns := by
    intro object ho
    obtain ⟨channel, hc, hs⟩ := mem_used.mp ho
    obtain ⟨voice, -, rfl⟩ := List.mem_map.mp hc
    exact nomatch List.eq_of_mem_replicate hs

lemma within_used {song : Song} {note : Note} (hs : song ∈ project.songs) (hn : note ∈ song.notes)
    (h : note.Within (project.instruments.map Instrument.id)) :
    note.Within (project.deleteUnusedInstruments.instruments.map Instrument.id) := by
  intro id hid
  obtain ⟨instrument, hi, rfl⟩ := List.mem_map.mp (h id hid)
  have hused : project.instrumentsUsed.contains instrument.id = true := by
    rw [Project.contains_instrumentsUsed]
    apply List.any_eq_true.mpr
    exact ⟨song, hs, List.any_eq_true.mpr ⟨note, hn, beq_iff_eq.mpr hid⟩⟩
  exact List.mem_map_of_mem (List.mem_filter.mpr ⟨hi, hused⟩)

lemma mapCall_frame (project : Project) (call : MapCall) :
    (project.mapCall call).songs = project.songs ∧
      (project.mapCall call).instruments = project.instruments := by
  unfold Project.mapCall Project.mapSample
  cases Project.mappingSlot? call.note with
  | none => exact ⟨rfl, rfl⟩
  | some slot => exact ⟨rfl, rfl⟩

/-- A sample that is mapped is in the project afterwards. -/
lemma mapped_sample {slot : Nat} {mapping : SampleMapping}
    (h : ∀ slot mapping, project.mapping[slot]? = some (some mapping) →
      1 ≤ slot ∧ slot ≤ 63 ∧ ∃ sample ∈ project.samples, mapping.sample = some sample)
    (hcall : ∀ sample ∈ project.samples, sample.id = call.sample.id → sample = call.sample)
    (hget : (project.mapCall call).mapping[slot]? = some (some mapping)) :
    1 ≤ slot ∧ slot ≤ 63 ∧
      ∃ sample ∈ (project.mapCall call).samples, mapping.sample = some sample := by
  rcases mapCall_cases project call with ⟨-, hsame⟩ | ⟨set, hset, hmapping, hsamples⟩
  · rw [hsame] at hget ⊢
    exact h slot mapping hget
  · have hkept : project.samples ⊆ (project.mapCall call).samples ∧
        call.sample ∈ (project.mapCall call).samples := by
      rcases hsamples with ⟨hsame, other, ho, hid⟩ | ⟨hmore, -⟩
      · rw [hsame]
        exact ⟨fun _ h => h, hcall other ho hid ▸ ho⟩
      · rw [hmore]
        exact ⟨List.subset_append_left _ _, List.mem_append_right _ (List.mem_singleton_self _)⟩
    rw [hmapping] at hget
    by_cases hslot : set = slot
    · subst hslot
      obtain ⟨hlt, heq⟩ := List.getElem?_eq_some_iff.mp hget
      rw [List.getElem_set_self] at heq
      obtain rfl := Option.some.inj heq
      obtain ⟨hlow, hhigh, -⟩ := mappingSlot?_eq_some_iff.mp hset
      exact ⟨hlow, Nat.le_of_lt_succ hhigh, call.sample, hkept.2, rfl⟩
    · rw [List.getElem?_set_ne hslot] at hget
      obtain ⟨hlow, hhigh, sample, hs, hsample⟩ := h slot mapping hget
      exact ⟨hlow, hhigh, sample, hkept.1 hs, hsample⟩

/-- The first element that is like the one at a position is found before that position or there. -/
lemma idxOf_eq_findIdx_take {α : Type} [DecidableEq α] {xs : List α} {position : Nat} {x : α}
    {like : α → Bool} (hx : xs[position]? = some x)
    (hlike : ∀ y ∈ xs.take position, like y = (y == x)) :
    xs.idxOf x = (xs.take position).findIdx like := by
  induction xs generalizing position with
  | nil => exact nomatch hx
  | cons y rest ih =>
    cases position with
    | zero =>
      obtain rfl := Option.some.inj hx
      exact List.idxOf_cons_self
    | succ position =>
      rw [List.take_succ_cons, List.findIdx_cons, hlike y List.mem_cons_self, List.idxOf_cons,
        ih hx fun z hz => hlike z (List.mem_cons_of_mem _ hz)]

namespace Desk

lemma mem_songs {song : Song} (h : song ∈ desk.songs) : song.patterns = desk.store := by
  obtain ⟨source, -, rfl⟩ := List.mem_map.mp h
  rfl

lemma map_withStore {songs : List Song} (h : songs ⊆ desk.songs) :
    songs.map (·.withStore desk.store) = songs := by
  have hid : ∀ song ∈ songs, song.withStore desk.store = song := by
    intro song hs
    rw [← mem_songs (h hs)]
    rfl
  rw [List.map_congr_left hid, List.map_id']

/-- Where no two songs share a pattern, a song is found by its content as a project finds it. -/
lemma deleteSong_eq {position : Nat} {song : Song} (hsong : desk.songs[position]? = some song)
    (hown : desk.songs.Pairwise fun a b => ∀ object ∈ a.used, object ∉ b.used) :
    desk.view.deleteSong position = .ok (desk.perform (.deleteSong position)).view := by
  have hlike : ∀ other ∈ desk.songs.take position, other.sameContent song = (other == song) := by
    intro other ho
    have hlater : song ∈ desk.songs.drop position := by
      apply List.mem_of_getElem? (i := 0)
      rw [List.getElem?_drop, Nat.add_zero, hsong]
    rw [← List.take_append_drop position desk.songs] at hown
    have hapart := (List.pairwise_append.mp hown).2.2 other ho song hlater
    rw [Bool.eq_iff_iff, beq_iff_eq]
    constructor
    · intro h
      have hpatterns : other.patterns = song.patterns := by
        rw [mem_songs (List.mem_of_mem_take ho), mem_songs (List.mem_of_getElem? hsong)]
      simp only [Song.sameContent, Bool.and_eq_true, beq_iff_eq] at h
      cases other
      cases song
      simp_all
    · rintro rfl
      have hunused : other.used = [] :=
        List.eq_nil_iff_forall_not_mem.mpr fun object ho => hapart object ho ho
      simp [Song.sameContent, hunused]
  have hfirst := idxOf_eq_findIdx_take hsong hlike
  have hview : desk.view.songs[position]? = some song := hsong
  have hperform : desk.perform (.deleteSong position) =
      desk.withSongs desk.store (desk.songs.erase song) := by
    unfold perform
    dsimp only
    rw [hsong]
  have herase : desk.songs.erase song ⊆ desk.songs := List.erase_subset
  have hdeleted : (desk.withSongs desk.store (desk.songs.erase song)).view =
      { desk.view with songs := desk.songs.erase song } := by
    have hmap := map_withStore herase
    unfold view songs withSongs
    exact congrArg (fun songs => { desk.project with songs }) hmap
  unfold Project.deleteSong
  rw [hview, hperform, hdeleted, List.erase_eq_eraseIdx_of_idxOf hfirst]
  rfl

lemma sound_withSongs (h : desk.view.Sound) {store : List Pattern} {songs : List Song}
    (hsongs : ∀ song ∈ songs, (song.withStore store).Sound desk.listed) :
    (desk.withSongs store songs).view.Sound where
  songs := by
    intro song hs
    obtain ⟨source, hsource, rfl⟩ := List.mem_map.mp hs
    exact hsongs source hsource
  mapping := h.mapping
  samples := h.samples

/-- A song that is not changed itself goes on with a store that has what was there. -/
lemma sound_kept (h : desk.view.Sound) {song : Song} (hs : song ∈ desk.songs)
    {after : List Pattern} (hretains : Retains desk.listed desk.store after) :
    (song.withStore after).Sound desk.listed := by
  have hsound : song.Sound desk.listed := h.songs song hs
  apply hsound.withStore
  rw [mem_songs hs]
  exact hretains

lemma sound_change (h : desk.view.Sound) {position : Nat} {op : Song → Option Song}
    (hop : ∀ song changed, desk.songs[position]? = some song → song.Sound desk.listed →
      op song = some changed →
      changed.Sound desk.listed ∧ Retains desk.listed song.patterns changed.patterns) :
    (desk.change position op).view.Sound := by
  unfold change
  split
  · next changed hchanged =>
    obtain ⟨song, hsong, hchange⟩ := Option.bind_eq_some_iff.mp hchanged
    have hmem := List.mem_of_getElem? hsong
    obtain ⟨hsound, hretains⟩ := hop song changed hsong (h.songs song hmem) hchange
    rw [mem_songs hmem] at hretains
    apply sound_withSongs h
    intro other ho
    rcases List.mem_or_eq_of_mem_set ho with ho | rfl
    · exact sound_kept h ho hretains
    · exact hsound
  · exact h

lemma object_lt (h : desk.view.Sound) {object : Nat} (ho : object ∈ named desk.songs) :
    object < desk.store.length := by
  obtain ⟨song, hs, hused⟩ := mem_named.mp ho
  obtain ⟨pattern, hget, -⟩ := (h.songs song hs).patterns object hused
  rw [mem_songs hs] at hget
  exact (List.getElem?_eq_some_iff.mp hget).1

/-- Copies of songs are as sound as the songs. -/
lemma sound_copy (h : desk.view.Sound) {songs : List Song} (hsongs : songs ⊆ desk.songs)
    {copy : Song} (hc : copy ∈ copiedSongs desk.store songs) :
    (copy.withStore (copiedStore desk.store songs)).Sound desk.listed := by
  obtain ⟨song, hs, rfl⟩ := List.mem_map.mp hc
  have hsound : song.Sound desk.listed := h.songs song (hsongs hs)
  apply hsound.mapSlots
  intro object ho pattern hget hfits
  refine ⟨pattern, ?_, hfits⟩
  rw [mem_songs (hsongs hs)] at hget
  rw [getElem?_copiedStore desk.store songs (mem_named.mpr ⟨song, hs, ho⟩), getD_of_getElem? hget]

/-- What one edit leaves of a sound project is sound. -/
lemma perform_sound (h : desk.view.Sound) (hfits : edit.Fits desk) :
    (desk.perform edit).view.Sound := by
  cases edit with
  | createSong name tempo speed patternLength length =>
    refine ⟨fun song hs => ?_, h.mapping, h.samples⟩
    obtain ⟨source, hsource, rfl⟩ := List.mem_map.mp hs
    rcases List.mem_append.mp hsource with hsource | hsource
    · exact h.songs _ (List.mem_map_of_mem hsource)
    · obtain rfl := List.mem_singleton.mp hsource
      exact (blank_sound desk.listed _ name tempo speed patternLength length).withStore
        (retains_append desk.store)
  | createInstrument name duty =>
    refine ⟨fun song hs => ?_, h.mapping, h.samples⟩
    apply (h.songs song hs).mono
    intro note _ hnote id hid
    exact List.map_subset _ (List.subset_append_left _ _) (hnote id hid)
  | deleteSong position =>
    unfold perform
    dsimp only
    split
    · apply sound_withSongs h
      intro other ho
      exact sound_kept h (List.mem_of_mem_erase ho) retains_refl
    · exact h
  | deleteUnusedInstruments =>
    refine ⟨fun song hs => ?_, h.mapping, h.samples⟩
    obtain ⟨source, hsource, rfl⟩ := List.mem_map.mp hs
    have hmem : source ∈ desk.view.songs := hsource
    have hsound : source.Sound (desk.view.instruments.map Instrument.id) := h.songs source hmem
    have hmono := hsound.mono fun _ hn hnote => within_used hmem hn hnote
    apply hmono.withStore
    rw [mem_songs hmem]
    exact retains_refl
  | split position factor =>
    apply sound_change h
    intro song changed _ hsound hsplit
    exact hsound.splitAside hsplit
  | cloneSong position =>
    unfold perform
    dsimp only
    split
    · next song hsong =>
      have hmem := List.mem_of_getElem? hsong
      apply sound_withSongs h
      intro other ho
      rcases List.mem_append.mp ho with ho | ho
      · exact sound_kept h ho (retains_append _)
      · exact sound_copy h (fun other hother => List.mem_singleton.mp hother ▸ hmem) ho
    · exact h
  | clone => exact sound_withSongs h fun copy hc => sound_copy h (fun _ hs => hs) hc
  | mapSample call =>
    obtain ⟨hsongs, hinstruments⟩ := mapCall_frame desk.project call
    refine ⟨?_, fun slot mapping hget => mapped_sample h.mapping hfits hget,
      nodup_mapCall call h.samples⟩
    intro song hs
    have hmem : song ∈ desk.songs := by
      change song ∈ (desk.project.mapCall call).songs.map _ at hs
      rw [hsongs] at hs
      exact hs
    show song.Sound ((desk.project.mapCall call).instruments.map Instrument.id)
    rw [hinstruments]
    exact h.songs song hmem
  | place position channel slot pattern =>
    apply sound_change h
    intro song changed hsong hsound hplace
    exact hsound.place (hfits song hsong) (toOption_eq_some_iff.mp hplace)
  | share position channel slot object =>
    apply sound_change h
    intro song changed hsong hsound hset
    obtain ⟨pattern, hget, hpattern⟩ := hfits song hsong
    rw [← mem_songs (List.mem_of_getElem? hsong)] at hget
    obtain ⟨hchanged, hpatterns⟩ :=
      hsound.setSlot hget hpattern (toOption_eq_some_iff.mp hset)
    rw [hpatterns]
    exact ⟨hchanged, retains_refl⟩
  | setRow position channel slot row note =>
    apply sound_change h
    intro song changed _ hsound hset
    exact hsound.setRow hfits (toOption_eq_some_iff.mp hset)

lemma run_sound (h : desk.view.Sound) (hadmits : desk.Admits edits) :
    (desk.run edits).view.Sound := by
  induction edits generalizing desk with
  | nil => exact h
  | cons edit rest ih => exact ih (perform_sound h hadmits.1) hadmits.2

lemma empty_sound : ({} : Desk).view.Sound where
  songs := fun _ hs => absurd hs List.not_mem_nil
  mapping := by
    intro slot mapping hget
    exact nomatch List.eq_of_mem_replicate (List.mem_of_getElem? hget)
  samples := List.nodup_nil

lemma clones (h : desk.view.Sound) : desk.Clones where
  song := by
    intro position song hsong
    have hmem := List.mem_of_getElem? hsong
    refine ⟨_, _, ?_, copied_spec desk.store [song] ?_⟩
    · unfold perform
      dsimp only
      rw [hsong]
      rfl
    · intro object ho
      obtain ⟨other, hother, hused⟩ := mem_named.mp ho
      obtain rfl := List.mem_singleton.mp hother
      exact object_lt h (mem_named.mpr ⟨other, hmem, hused⟩)
  project := ⟨_, _, rfl, copied_spec desk.store desk.songs fun _ ho => object_lt h ho⟩

/-- Whatever edits are carried out in whatever order on an empty project, it stays sound, and its
songs and the project itself can be cloned. -/
theorem run_sound_clones {edits : List Edit} (h : Admits {} edits) :
    (run {} edits).view.Sound ∧ (run {} edits).Clones :=
  ⟨run_sound empty_sound h, clones (run_sound empty_sound h)⟩

/-- A song that two channels play in canon, its clone in shorter patterns, and a drum. -/
def canon : List Edit :=
  let theme : Pattern := [{ value := 30, instrument := some 0 }, {}, { value := 34 }, {}]
  [.createInstrument "lead" 2, .createInstrument "spare" 1, .createSong "canon" 150 6 4 2,
    .place 0 0 0 theme, .share 0 0 1 0, .share 0 1 1 0, .cloneSong 0, .split 1 2, .split 1 3,
    .mapSample ⟨36, ⟨0, "kick", [0x55]⟩, 15, false⟩, .mapSample ⟨12, ⟨1, "lost", []⟩, 15, false⟩,
    .clone, .setRow 0 1 1 2 { value := 35 }, .createSong "rest" 150 6 64 0, .deleteSong 2,
    .deleteUnusedInstruments]

theorem canon_sound : Admits {} canon ∧ (run {} canon).view.Sound ∧ (run {} canon).Clones ∧
    ((run {} canon).songs.map fun song => (song.channels.take 2).map Channel.slots) =
      [[[some 6, some 6], [none, some 6]],
        [[some 7, some 8, some 7, some 8], [none, none, some 9, some 10]]] := by
  have hadmits : Admits {} canon := by decide +kernel
  obtain ⟨hsound, hclones⟩ := run_sound_clones hadmits
  exact ⟨hadmits, hsound, hclones, by decide +kernel⟩

end Desk

end Edits

end Chiptune
