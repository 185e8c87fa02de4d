import Chiptune.Proofs.ArrangedMelody
import Chiptune.Proofs.ArrangedPitches
import Chiptune.Proofs.ProgramChanges

/-!
# The instruments of an arrangement

The first note with a program has the instrument made for it, and all later ones get the same. So
each note of a song has the one instrument that is built for the program in force in its row.
-/

namespace Chiptune.Arrangement

open Midi (NoteSpan Moment)

/-- The instrument is that of the file, with the name where the file has none, or what the entry of
the map says where there is no file or none that can be understood. -/
def Builds (tree : FileTree) (spec : InstrumentSpec) (name : String) (instrument : Instrument) :
    Prop :=
  match spec.fti with
  | none => instrument = InstrumentSpec.instrument spec instrument.id name
  | some path => ∃ bytes, tree.read path = .ok bytes ∧
      instrument = match Fti.load? instrument.id bytes with
        | some loaded => { loaded with name := if loaded.name.isEmpty then name else loaded.name }
        | none => InstrumentSpec.instrument spec instrument.id name

/-- Each instrument is built for an entry of the map, and no entry has two of them. -/
structure Roster (tree : FileTree) (map : InstrumentMap)
    (made : List (Option Int × Instrument)) : Prop where
  numbered : made.map (·.2.id) = List.range made.length
  distinct : (made.map Prod.fst).Nodup
  built : ∀ entry ∈ made, ∃ program, (map.entry program).1 = entry.1 ∧
    Builds tree (map.entry program).2 (programName entry.1) entry.2

/-- The value that a voice plays for a key. -/
def playedValue (voice : Voice) (key : Nat) : Int :=
  if voice = .noise then (drumPeriods.lookup key).getD 0 else noteValue key

/-- The note has the instrument that is made for the program of its channel in its row. -/
def Serves (score : Score) (made : List (Option Int × Instrument)) (note : NoteSpan)
    (written : Note) : Prop :=
  ∃ instrument, (score.mapped? (score.program note.channel note.start), instrument) ∈ made ∧
    written.instrument = some instrument.id

/-- What a voice owes to a note. Samples have no instrument. -/
def Due (score : Score) (voice : Voice) (made : List (Option Int × Instrument)) (note : NoteSpan)
    (written : Note) : Prop :=
  voice ≠ .dpcm → written.value = playedValue voice note.key ∧ Serves score made note written

/-- The notes in the rows are written for some of the notes, each in the row where that starts. -/
def Covered (post : NoteSpan → Note → Prop) (notes : List NoteSpan) (rows : List Note) : Prop :=
  ∀ place written, rows[place]? = some written → written.isMusical = true →
    ∃ note ∈ notes, rowPlace rows.length note.start = .ok place ∧ post note written

/-- From a roster that begins with `known`, a session that succeeds leads to one that goes on with
the same instruments, and its result fits these. -/
def Enlists {α : Type} (tree : FileTree) (map : InstrumentMap) (session : Session α)
    (known : List (Option Int × Instrument))
    (post : List (Option Int × Instrument) → α → Prop) : Prop :=
  ∀ before after a, Roster tree map before.instruments → known <+: before.instruments →
    session.run before = .ok (a, after) →
      Roster tree map after.instruments ∧ before.instruments <+: after.instruments ∧
        post after.instruments a

section Enlists

variable {α β : Type} {tree : FileTree} {map : InstrumentMap} {session : Session α}
  {known : List (Option Int × Instrument)} {post : List (Option Int × Instrument) → α → Prop}

lemma enlists_pure {a : α} (h : ∀ made, known <+: made → post made a) :
    Enlists tree map (pure a : Session α) known post := by
  intro before after b hb hk hrun
  obtain ⟨rfl, rfl⟩ := run_pure hrun
  exact ⟨hb, List.prefix_rfl, h _ hk⟩

lemma Enlists.bind {f : α → Session β} {final : List (Option Int × Instrument) → β → Prop}
    (h : Enlists tree map session known post)
    (hf : ∀ made a, known <+: made → post made a → Enlists tree map (f a) made final) :
    Enlists tree map (session >>= f) known final := by
  intro before after b hb hk hrun
  obtain ⟨a, middle, hfirst, hrest⟩ := run_bind hrun
  obtain ⟨hmiddle, hgrown, hpost⟩ := h before middle a hb hk hfirst
  obtain ⟨hafter, hmore, hfinal⟩ :=
    hf _ a (hk.trans hgrown) hpost middle after b hmiddle List.prefix_rfl hrest
  exact ⟨hafter, hgrown.trans hmore, hfinal⟩

lemma enlists_lift {x : Outcome α} (h : ∀ a, x = .ok a → ∀ made, known <+: made → post made a) :
    Enlists tree map (liftM x : Session α) known post := by
  intro before after a hb hk hrun
  obtain ⟨hx, rfl⟩ := run_lift hrun
  exact ⟨hb, List.prefix_rfl, h a hx _ hk⟩

end Enlists

section Instruments

variable {score : Score} {known made more : List (Option Int × Instrument)} {note : NoteSpan}
  {written : Note} {voice : Voice}

lemma roster_nil (tree : FileTree) (map : InstrumentMap) : Roster tree map [] where
  numbered := rfl
  distinct := .nil
  built := fun _ he => absurd he List.not_mem_nil

lemma makeInstrument_builds {tree : FileTree} {id : InstrumentId} {name : String}
    {spec : InstrumentSpec} {before after : Ensemble} {instrument : Instrument}
    (h : (makeInstrument tree id name spec).run before = .ok (instrument, after)) :
    Builds tree spec name instrument := by
  have hid := (makeInstrument_run h).1
  unfold makeInstrument at h
  unfold Builds
  cases hfti : spec.fti with
  | none =>
    rw [hfti] at h
    obtain ⟨rfl, -⟩ := run_pure h
    rfl
  | some path =>
    rw [hfti] at h
    obtain ⟨bytes, middle, hread, h⟩ := run_bind h
    refine ⟨bytes, (run_lift hread).1, ?_⟩
    rw [hid]
    cases hload : Fti.load? id bytes with
    | some loaded =>
      rw [hload] at h
      obtain ⟨rfl, -⟩ := run_pure h
      rfl
    | none =>
      rw [hload] at h
      obtain ⟨u, last, -, h⟩ := run_bind h
      obtain ⟨rfl, -⟩ := run_pure h
      rfl

/-- An instrument with the next number is added for an entry that has none yet. -/
lemma Roster.add {tree : FileTree} {map : InstrumentMap} (h : Roster tree map made)
    (program : Int) {instrument : Instrument} (hid : instrument.id = made.length)
    (hnew : made.lookup (map.entry program).1 = none)
    (hbuilt : Builds tree (map.entry program).2 (programName (map.entry program).1) instrument) :
    Roster tree map (made ++ [((map.entry program).1, instrument)]) where
  numbered := by
    rw [List.map_append, h.numbered, List.length_append, List.length_singleton,
      List.range_succ, List.map_singleton, hid]
  distinct := by
    have hfresh : (map.entry program).1 ∉ made.map Prod.fst := by
      intro hmem
      obtain ⟨entry, he, heq⟩ := List.mem_map.mp hmem
      have hne := List.lookup_eq_none_iff.mp hnew entry he
      simp [heq] at hne
    rw [List.map_append]
    exact h.distinct.append (List.nodup_singleton _) (by simpa using hfresh)
  built := by
    intro entry he
    rcases List.mem_append.mp he with he | he
    · exact h.built entry he
    · obtain rfl := List.mem_singleton.mp he
      exact ⟨program, rfl, hbuilt⟩

/-- The instrument of an entry is built for it, whatever program it was made for. -/
lemma Roster.builds {tree : FileTree} {map : InstrumentMap} (h : Roster tree map made)
    {program : Int} {instrument : Instrument} (hmem : ((map.entry program).1, instrument) ∈ made) :
    Builds tree (map.entry program).2 (programName (map.entry program).1) instrument := by
  obtain ⟨other, hsame, hbuilt⟩ := h.built _ hmem
  rwa [map.entry_congr hsame] at hbuilt

/-- A channel gets the instrument of its program, a new one only if there is none. -/
lemma enlists_instrumentFor (score : Score) (channel : Nat) (row : Int)
    (known : List (Option Int × Instrument)) :
    Enlists score.tree score.map (instrumentFor score channel row) known fun made id =>
      ∃ instrument, (score.mapped? (score.program channel row), instrument) ∈ made ∧
        id = instrument.id := by
  intro before after id hb hk hrun
  obtain ⟨instrument, rfl, ⟨hknown, rfl⟩ | ⟨hnone, hid, ⟨middle, hmake⟩, hlast⟩⟩ :=
    instrumentFor_run hrun
  · exact ⟨hb, List.prefix_rfl, instrument, mem_of_lookup hknown, rfl⟩
  · have hentry := entry_eq score (score.program channel row)
    have hadded := hb.add (score.program channel row) hid
      (by rw [hentry]; exact hnone) (by rw [hentry]; exact makeInstrument_builds hmake)
    rw [hentry, ← hlast] at hadded
    refine ⟨hadded, ?_, instrument, ?_, rfl⟩
    · rw [hlast]
      exact List.prefix_append _ _
    · simp [hlast]

lemma Serves.mono (h : Serves score made note written) (hle : made <+: more) :
    Serves score more note written := by
  obtain ⟨instrument, hmem, hid⟩ := h
  exact ⟨instrument, hle.subset hmem, hid⟩

lemma Due.mono (h : Due score voice made note written) (hle : made <+: more) :
    Due score voice more note written := fun hv => ⟨(h hv).1, (h hv).2.mono hle⟩

lemma enlists_pitchedNote (score : Score) (value : Int) (note : NoteSpan)
    (known : List (Option Int × Instrument)) :
    Enlists score.tree score.map (pitchedNote score value note) known fun made written =>
      written.value = value ∧ Serves score made note written := by
  have hvolume : Enlists score.tree score.map
      (liftM (noteVolume score note) : Session (Option Int)) known fun _ _ => True :=
    enlists_lift fun _ _ _ _ => trivial
  refine hvolume.bind fun made volume _ _ => ?_
  refine (enlists_instrumentFor score note.channel note.start made).bind fun made id _ hid => ?_
  obtain ⟨instrument, hmem, rfl⟩ := hid
  exact enlists_pure fun more hle => ⟨rfl, instrument, hle.subset hmem, rfl⟩

/-- Every part writes what its voice owes. -/
lemma enlists_part {options : Options} {drumChannel : Int} {notes : List NoteSpan} {part : Part}
    (hp : part ∈ parts options drumChannel score notes) (note : NoteSpan)
    (known : List (Option Int × Instrument)) :
    Enlists score.tree score.map (part.makeNote note) known
      fun made written => Due score part.voice made note written := by
  have hpitched : ∀ {value : Int} {voice : Voice}, value = playedValue voice note.key →
      Enlists score.tree score.map (pitchedNote score value note) known
        fun made written => Due score voice made note written := by
    rintro value voice rfl before after written hb hk hrun
    obtain ⟨hafter, hgrown, hpost⟩ := enlists_pitchedNote score _ note known _ _ _ hb hk hrun
    exact ⟨hafter, hgrown, fun _ => hpost⟩
  rcases List.mem_append.mp hp with hp | hp
  · obtain ⟨entry, he, rfl⟩ := List.mem_map.mp hp
    have htone := (mem_tones.mp (List.of_mem_zip he).1).1
    exact hpitched (if_neg htone).symm
  · rcases List.mem_cons.mp (List.mem_filter.mp hp).1 with rfl | hp
    · exact hpitched rfl
    · obtain rfl := List.mem_singleton.mp hp
      exact enlists_pure fun _ _ hv => absurd rfl hv

end Instruments

section Columns

variable {tree : FileTree} {map : InstrumentMap} {makeNote : NoteSpan → Session Note}
  {known : List (Option Int × Instrument)} {all notes : List NoteSpan} {rows : Array Note}
  {post : List (Option Int × Instrument) → NoteSpan → Note → Prop}

lemma Covered.mono {post weaker : NoteSpan → Note → Prop} {rows : List Note}
    (h : Covered post all rows) (himp : ∀ {note written}, post note written → weaker note written) :
    Covered weaker all rows := by
  intro place written hget hmusical
  obtain ⟨note, hn, hplace, hpost⟩ := h place written hget hmusical
  exact ⟨note, hn, hplace, himp hpost⟩

lemma covered_set {post : NoteSpan → Note → Prop} (h : Covered post all rows.toList) {place : Nat}
    {written : Note} (hw : written.isMusical = true → ∃ note ∈ all,
      rowPlace rows.size note.start = .ok place ∧ post note written) :
    Covered post all (rows.setIfInBounds place written).toList := by
  intro row found hfound hmusical
  rw [Array.getElem?_toList, Array.getElem?_setIfInBounds] at hfound
  rw [Array.length_toList, Array.size_setIfInBounds]
  split at hfound
  · next heq =>
    split at hfound
    · obtain rfl := Option.some.inj hfound
      exact heq ▸ hw hmusical
    · cases hfound
  · have hold := h row found (by rwa [Array.getElem?_toList]) hmusical
    rwa [Array.length_toList] at hold

/-- What a note adds to a column is covered by it, and a stop needs no note. -/
lemma enlists_fillColumn
    (hmake : ∀ note known, Enlists tree map (makeNote note) known fun made => post made note)
    (hmono : ∀ {made more note written}, made <+: more → post made note written →
      post more note written)
    (hsub : ∀ note ∈ notes, note ∈ all) (hrows : Covered (post known) all rows.toList) :
    Enlists tree map (fillColumn makeNote rows notes) known fun made filled =>
      filled.size = rows.size ∧ Covered (post made) all filled.toList := by
  have hgrow : ∀ {made more : List (Option Int × Instrument)} {rows : Array Note},
      made <+: more → Covered (post made) all rows.toList →
        Covered (post more) all rows.toList := by
    intro made more rows hle h
    exact h.mono (hmono hle)
  have hplace : ∀ {known : List (Option Int × Instrument)} {size : Nat} {row : Int},
      Enlists tree map (liftM (rowPlace size row) : Session Nat) known
        fun _ place => rowPlace size row = .ok place :=
    enlists_lift fun _ h _ _ => h
  induction notes generalizing rows known with
  | nil => exact enlists_pure fun made hle => ⟨rfl, hgrow hle hrows⟩
  | cons note rest ih =>
    have hrest := fun other ho => hsub other (List.mem_cons_of_mem note ho)
    rw [fillColumn]
    split
    · exact ih hrest hrows
    · refine (hmake note known).bind fun made written hle hpost => ?_
      refine hplace.bind fun made' place hle' hstart => ?_
      have hset : Covered (post made') all (rows.setIfInBounds place written).toList :=
        covered_set (hgrow (hle.trans hle') hrows) fun _ =>
          ⟨note, hsub note List.mem_cons_self, hstart, hmono hle' hpost⟩
      dsimp only
      split
      · refine hplace.bind fun last stop hlast _ => ?_
        split
        · simpa using ih hrest (hgrow hlast hset)
        · have hstop : Covered (post last) all
              ((rows.setIfInBounds place written).setIfInBounds stop
                { value := Note.stopValue }).toList :=
            covered_set (hgrow hlast hset) fun hmusical => absurd hmusical (by decide)
          simpa using ih hrest hstop
      · simpa using ih hrest hset

lemma enlists_column (known : List (Option Int × Instrument))
    (post : List (Option Int × Instrument) → NoteSpan → Note → Prop)
    (hmake : ∀ note known, Enlists tree map (makeNote note) known fun made => post made note)
    (hmono : ∀ {made more note written}, made <+: more → post made note written →
      post more note written) (count : Nat) :
    Enlists tree map (column makeNote count notes) known fun made rows =>
      rows.length = count ∧ Covered (post made) notes rows := by
  have hempty : Covered (post known) notes (Array.replicate count Note.empty).toList := by
    intro place written hget hmusical
    rw [Array.toList_replicate] at hget
    obtain rfl := List.eq_of_mem_replicate (List.mem_of_getElem? hget)
    cases hmusical
  refine (enlists_fillColumn hmake hmono (fun _ hn => hn) hempty).bind ?_
  rintro made filled - ⟨hsize, hcovered⟩
  exact enlists_pure fun more hle => ⟨by simpa using hsize, hcovered.mono (hmono hle)⟩

/-- The parts fill the song with columns whose notes have their instruments in the end. -/
lemma FillsInTurn.columns {score : Score} {options : Options} {drumChannel : Int}
    {song filled : Song} {before after : Ensemble} {playing : List Part}
    (h : FillsInTurn song before playing filled after)
    (hparts : ∀ part ∈ playing, part ∈ parts options drumChannel score notes)
    (hbefore : Roster score.tree score.map before.instruments) :
    Roster score.tree score.map after.instruments ∧
      before.instruments <+: after.instruments ∧ ∃ columns, filled = song.fillAll columns ∧
        ∀ column ∈ columns, ∃ part ∈ playing, column.1 = part.voice ∧
          column.2.length = song.length * song.patternLength ∧
          Covered (Due score part.voice after.instruments) (melody part.notes) column.2 := by
  induction h with
  | nil hsame => exact ⟨hsame ▸ hbefore, hsame ▸ List.prefix_rfl, [], rfl, by simp⟩
  | @cons song filled part rows rest before first middle after hsame hcolumn hrest ih =>
    have hmake := fun note known => enlists_part (hparts part List.mem_cons_self) note known
    obtain ⟨hmiddle, hgrown, hlength, hcovered⟩ := enlists_column [] (Due score part.voice)
      hmake (fun hle hdue => hdue.mono hle) _ _ _ _ (hsame ▸ hbefore) List.nil_prefix hcolumn
    obtain ⟨hafter, hmore, columns, rfl, hcolumns⟩ :=
      ih (fun other ho => hparts other (List.mem_cons_of_mem _ ho)) hmiddle
    refine ⟨hafter, hsame ▸ hgrown.trans hmore, (part.voice, rows) :: columns, rfl,
      List.forall_mem_cons.mpr ⟨⟨part, List.mem_cons_self, rfl, hlength,
        hcovered.mono fun hdue => hdue.mono hmore⟩, fun column hc => ?_⟩⟩
    obtain ⟨other, ho, hrest⟩ := hcolumns column hc
    exact ⟨other, List.mem_cons_of_mem _ ho, hrest⟩

end Columns

end Chiptune.Arrangement
