import Chiptune.Proofs.ArrangedInstruments
import Chiptune.Proofs.Preparation

/-!
# Instrument maps are normal

Whatever a document says, an instrument map that is read from it has all numbers in their ranges. A
program takes the fields that it does not have from the default entry. What is built for such an
entry needs little mending to be played.
-/

namespace Chiptune

/-- Values in a range. The loop is one of their positions or none, and so is the release, which is
not the first one. -/
structure Envelope.Normal (low high : Int) (env : Envelope) : Prop where
  values : env.values ≠ []
  range : ∀ value ∈ env.values, low ≤ value ∧ value ≤ high
  loop : env.loop = -1 ∨ 0 ≤ env.loop ∧ env.loop < env.values.length
  release : env.release = -1 ∨ 0 < env.release ∧ env.release < env.values.length

structure InstrumentSpec.Normal (spec : InstrumentSpec) : Prop where
  duty : 0 ≤ spec.duty ∧ spec.duty ≤ 3
  volume : ∀ env ∈ spec.volume, env.Normal 0 15
  arpeggio : ∀ env ∈ spec.arpeggio, env.Normal (-64) 63
  pitch : ∀ env ∈ spec.pitch, env.Normal (-64) 63

namespace Json

/-- A field of an object. All other values have none. -/
def member? (key : String) : Json → Option Json
  | object fields => fields.lookup key
  | _ => none

/-- The last field whose key is a numeral for a number. -/
def numbered? (number : Int) : Json → Option Json
  | object fields =>
    ((fields.filter fun field => Text.readInt? .decimal field.1.toList == some number).getLast?).map
      Prod.snd
  | _ => none

end Json

/-- An entry has the fields of its own value, and those that are missing there are the default ones.
The path of a file is never a default one. -/
structure InstrumentSpec.Inherits (folder : Text.Points) (raw : Json)
    (spec default : InstrumentSpec) : Prop where
  duty : raw.member? "duty" = none → spec.duty = default.duty
  volume : raw.member? "volume" = none → spec.volume = default.volume
  arpeggio : raw.member? "arpeggio" = none → spec.arpeggio = default.arpeggio
  pitch : raw.member? "pitch" = none → spec.pitch = default.pitch
  fti : ∀ path ∈ spec.fti, ∃ name, raw.member? "fti" = some (.string name) ∧
    path = Text.Path.join folder name

/-- A release that is not after the loop is dropped, and full volume stands for none. -/
def Instrument.repaired (instrument : Instrument) : Instrument :=
  { instrument with
    volume := some (match instrument.volume with
      | none => { values := [15] }
      | some env => if env.release ≤ env.loop then { env with release := -1 } else env) }

namespace InstrumentMap

/-- The file at a path has the text of a document. -/
def Holds (tree : FileTree) (path : String) (document : Json) : Prop :=
  ∃ bytes text, tree.read path = .ok bytes ∧ String.fromUTF8? ⟨bytes.toArray⟩ = some text ∧
    Json.ofText text = .ok document

/-- The instrument was made for an entry of the map without a file. -/
def Built (map : InstrumentMap) (instrument : Instrument) : Prop :=
  ∃ spec, (spec = map.default ∨ ∃ number, (number, spec) ∈ map.programs) ∧ spec.fti = none ∧
    ∃ tree id name before after,
      (Arrangement.makeInstrument tree id name spec).run before = .ok (instrument, after)

/-- All entries are in their ranges. The entries of programs are those of the document, and their
instruments are repaired at most. -/
structure NormalFor (folder : Text.Points) (document : Json) (map : InstrumentMap) : Prop where
  default : map.default.Normal
  programs : ∀ number spec, (number, spec) ∈ map.programs → spec.Normal ∧
    ∃ raw, (document.member? "programs").bind (Json.numbered? number) = some raw ∧
      spec.Inherits folder raw map.default
  complete : ∀ number raw, (document.member? "programs").bind (Json.numbered? number) = some raw →
    ∃ spec, (number, spec) ∈ map.programs
  samples : ∀ number sample, (number, sample) ∈ map.samples → 0 ≤ sample.pitch ∧ sample.pitch ≤ 15
  prepared : ∀ (project : Project) wanted,
    List.Forall₂ (fun instrument kept => map.Built instrument → kept = instrument.repaired)
      (project.instruments.filter (project.plays wanted))
      (project.prepare wanted .extended).instruments

section Envelopes

variable {low high : Int} {raw : Json}

lemma clampedInt_range (hle : low ≤ high) {value : Int} (h : clampedInt low high raw = .ok value) :
    low ≤ value ∧ value ≤ high := by
  obtain ⟨n, -, h⟩ := (bind_eq_ok_iff _ _ _).mp h
  obtain rfl := Except.ok.inj h
  unfold Kernel.clamp
  omega

lemma mapM_clampedInt_range (hle : low ≤ high) {items : List Json} {values : List Int}
    (h : items.mapM (clampedInt low high) = .ok values) :
    ∀ value ∈ values, low ≤ value ∧ value ≤ high := by
  intro value hmem
  obtain ⟨item, -, hitem⟩ := exists_left_of_mem ((mapM_eq_ok_iff _ _ _).mp h) hmem
  exact clampedInt_range hle hitem

lemma makeEnvelope_normal {values : List Int} (h : ∀ value ∈ values, low ≤ value ∧ value ≤ high)
    (loop release : Int) : ∀ env ∈ makeEnvelope values loop release, env.Normal low high := by
  intro env henv
  unfold makeEnvelope at henv
  split at henv
  · cases henv
  · next hne =>
    obtain rfl := Option.some.inj henv
    refine ⟨fun hnil => hne (List.isEmpty_iff.mpr hnil), h, ?_, ?_⟩
    · dsimp only
      split
      · exact .inr ‹_›
      · exact .inl rfl
    · dsimp only
      split
      · exact .inr ‹_›
      · exact .inl rfl

lemma readEnvelope_normal (hle : low ≤ high) {envelope : Option Envelope}
    (h : readEnvelope low high raw = .ok envelope) : ∀ env ∈ envelope, env.Normal low high := by
  cases raw with
  | null =>
    obtain rfl := Except.ok.inj h
    exact fun env henv => nomatch henv
  | array items =>
    obtain ⟨values, hvalues, h⟩ := (bind_eq_ok_iff _ _ _).mp h
    obtain rfl := Except.ok.inj h
    exact makeEnvelope_normal (mapM_clampedInt_range hle hvalues) _ _
  | object fields =>
    obtain ⟨items, -, h⟩ := (bind_eq_ok_iff _ _ _).mp h
    obtain ⟨values, hvalues, h⟩ := (bind_eq_ok_iff _ _ _).mp h
    split at h
    · obtain rfl := Except.ok.inj h
      exact fun env henv => nomatch henv
    · obtain ⟨loop, -, h⟩ := (bind_eq_ok_iff _ _ _).mp h
      obtain ⟨release, -, h⟩ := (bind_eq_ok_iff _ _ _).mp h
      obtain rfl := Except.ok.inj h
      exact makeEnvelope_normal (mapM_clampedInt_range hle hvalues) _ _
  | bool value => cases h
  | number value => cases h
  | string value => cases h

end Envelopes

section Entries

variable {α : Type} {fields : Fields} {key : String} {read : Json → Outcome α} {found : Option α}
  {folder : Text.Points} {default spec : InstrumentSpec} {raw : Json}

/-- A field of an entry is read where it is there, and the default is taken elsewhere. -/
lemma field?_cases (h : field? fields key read = .ok found) :
    (fields.lookup key = none ∧ found = none) ∨
      ∃ raw value, fields.lookup key = some raw ∧ read raw = .ok value ∧ found = some value := by
  unfold field? at h
  split at h
  · next raw hraw =>
    obtain ⟨value, hvalue, h⟩ := (bind_eq_ok_iff _ _ _).mp h
    exact .inr ⟨raw, value, hraw, hvalue, (Except.ok.inj h).symm⟩
  · next hnone => exact .inl ⟨hnone, (Except.ok.inj h).symm⟩

lemma field?_missing (h : field? fields key read = .ok found) (hnone : fields.lookup key = none)
    (default : α) : found.getD default = default := by
  rcases field?_cases h with ⟨-, rfl⟩ | ⟨raw, value, hraw, -, -⟩
  · rfl
  · rw [hnone] at hraw
    cases hraw

lemma field?_normal {post : α → Prop} (h : field? fields key read = .ok found)
    (hread : ∀ raw value, read raw = .ok value → post value) {default : α}
    (hdefault : post default) : post (found.getD default) := by
  rcases field?_cases h with ⟨-, rfl⟩ | ⟨raw, value, -, hvalue, rfl⟩
  · exact hdefault
  · exact hread raw value hvalue

lemma readFile?_own {fti : Option Text.Points} (h : readFile? folder fields = .ok fti) :
    ∀ path ∈ fti, ∃ name, fields.lookup "fti" = some (.string name) ∧
      path = Text.Path.join folder name := by
  intro path hpath
  unfold readFile? at h
  split at h
  · next value hvalue =>
    split at h
    · obtain ⟨joined, hjoined, h⟩ := (bind_eq_ok_iff _ _ _).mp h
      obtain rfl := Except.ok.inj h
      obtain rfl := Option.some.inj hpath
      cases value with
      | string name => exact ⟨name, hvalue, (Except.ok.inj hjoined).symm⟩
      | _ => cases hjoined
    · obtain rfl := Except.ok.inj h
      cases hpath
  · obtain rfl := Except.ok.inj h
    cases hpath

/-- What the fields of an entry are made of. -/
lemma readFields_eq_ok (h : readFields folder default fields = .ok spec) :
    ∃ duty volume arpeggio pitch fti,
      field? fields "duty" (clampedInt 0 3) = .ok duty ∧
      field? fields "volume" (readEnvelope 0 15) = .ok volume ∧
      field? fields "arpeggio" (readEnvelope (-64) 63) = .ok arpeggio ∧
      field? fields "pitch" (readEnvelope (-64) 63) = .ok pitch ∧
      readFile? folder fields = .ok fti ∧
      spec = {
        duty := duty.getD default.duty
        volume := volume.getD default.volume
        arpeggio := arpeggio.getD default.arpeggio
        pitch := pitch.getD default.pitch
        fti := fti <|> default.fti } := by
  obtain ⟨duty, hduty, h⟩ := (bind_eq_ok_iff _ _ _).mp h
  obtain ⟨volume, hvolume, h⟩ := (bind_eq_ok_iff _ _ _).mp h
  obtain ⟨arpeggio, harpeggio, h⟩ := (bind_eq_ok_iff _ _ _).mp h
  obtain ⟨pitch, hpitch, h⟩ := (bind_eq_ok_iff _ _ _).mp h
  obtain ⟨fti, hfti, h⟩ := (bind_eq_ok_iff _ _ _).mp h
  exact ⟨duty, volume, arpeggio, pitch, fti, hduty, hvolume, harpeggio, hpitch, hfti,
    (Except.ok.inj h).symm⟩

lemma readInstrument_cases (h : readInstrument folder default raw = .ok spec) :
    spec = default ∨
      ∃ fields, raw = .object fields ∧ readFields folder default fields = .ok spec := by
  unfold readInstrument at h
  split at h
  · exact .inl (Except.ok.inj h).symm
  · next htruthy =>
    split at h
    · next fields => exact .inr ⟨fields, rfl, h⟩
    · -- A value of any other kind is refused, whether it holds the name of a field or not.
      obtain ⟨_, -, h⟩ := (bind_eq_ok_iff _ _ _).mp h
      cases h

lemma readInstrument_normal (hdefault : default.Normal)
    (h : readInstrument folder default raw = .ok spec) : spec.Normal := by
  rcases readInstrument_cases h with rfl | ⟨fields, -, hfields⟩
  · exact hdefault
  · obtain ⟨duty, volume, arpeggio, pitch, fti, hduty, hvolume, harpeggio, hpitch, -, rfl⟩ :=
      readFields_eq_ok hfields
    exact {
      duty := field?_normal hduty (fun _ _ => clampedInt_range (by decide)) hdefault.duty
      volume := field?_normal hvolume (fun _ _ => readEnvelope_normal (by decide)) hdefault.volume
      arpeggio := field?_normal harpeggio (fun _ _ => readEnvelope_normal (by decide))
        hdefault.arpeggio
      pitch := field?_normal hpitch (fun _ _ => readEnvelope_normal (by decide)) hdefault.pitch }

lemma readInstrument_inherits
    (h : readInstrument folder { default with fti := none } raw = .ok spec) :
    spec.Inherits folder raw default := by
  rcases readInstrument_cases h with rfl | ⟨fields, rfl, hfields⟩
  · exact ⟨fun _ => rfl, fun _ => rfl, fun _ => rfl, fun _ => rfl, fun _ hpath => nomatch hpath⟩
  · obtain ⟨duty, volume, arpeggio, pitch, fti, hduty, hvolume, harpeggio, hpitch, hfti, rfl⟩ :=
      readFields_eq_ok hfields
    refine ⟨fun hnone => field?_missing hduty hnone _, fun hnone => field?_missing hvolume hnone _,
      fun hnone => field?_missing harpeggio hnone _, fun hnone => field?_missing hpitch hnone _, ?_⟩
    intro path hpath
    -- The defaults have no file, so the path is the entry's own.
    have hown : path ∈ fti := by
      cases fti with
      | none => exact hpath
      | some own => exact hpath
    exact readFile?_own hfti path hown

lemma readSample_pitch {sample : SampleSpec} (h : readSample folder raw = .ok sample) :
    0 ≤ sample.pitch ∧ sample.pitch ≤ 15 := by
  unfold readSample at h
  split at h
  · split at h
    · obtain ⟨file, -, h⟩ := (bind_eq_ok_iff _ _ _).mp h
      obtain ⟨pitch, hpitch, h⟩ := (bind_eq_ok_iff _ _ _).mp h
      obtain rfl := Except.ok.inj h
      exact field?_normal hpitch (fun _ _ => clampedInt_range (by decide)) (by decide)
    · cases h
  · obtain ⟨word, -, h⟩ := (bind_eq_ok_iff _ _ _).mp h
    split at h <;> cases h

end Entries

section Tables

variable {α β : Type} [BEq α] [LawfulBEq α]

lemma mem_put (table : List (α × β)) (key : α) (value : β) (entry : α × β) :
    entry ∈ Assoc.put table key value ↔
      entry = (key, value) ∨ entry.1 ≠ key ∧ entry ∈ table := by
  unfold Assoc.put
  split
  · next hknown =>
    obtain ⟨known, hmem, hkey⟩ := List.any_eq_true.mp hknown
    rw [List.mem_map]
    constructor
    · rintro ⟨source, hsource, rfl⟩
      by_cases hsame : source.1 = key
      · rw [if_pos (beq_iff_eq.mpr hsame)]
        exact .inl (by rw [hsame])
      · rw [if_neg (by simpa using hsame)]
        exact .inr ⟨hsame, hsource⟩
    · rintro (rfl | ⟨hne, hentry⟩)
      · refine ⟨known, hmem, ?_⟩
        rw [if_pos hkey, beq_iff_eq.mp hkey]
      · exact ⟨entry, hentry, if_neg (by simpa using hne)⟩
  · next hnew =>
    have hother : ∀ other ∈ table, other.1 ≠ key := by
      intro other hmem heq
      exact hnew (List.any_eq_true.mpr ⟨other, hmem, beq_iff_eq.mpr heq⟩)
    rw [List.mem_append, List.mem_singleton, or_comm]
    constructor
    · rintro (rfl | hmem)
      · exact .inl rfl
      · exact .inr ⟨hother entry hmem, hmem⟩
    · rintro (rfl | ⟨-, hmem⟩)
      · exact .inl rfl
      · exact .inr hmem

end Tables

section Numbered

variable {α : Type} {read : Json → Outcome α} {table : List (Int × α)} {entries fields : Fields}
  {key : String}

/-- The table has for each number what the value in the source says, and that can be read. -/
structure Tabulates (source : Int → Option Json) (read : Json → Outcome α)
    (table : List (Int × α)) : Prop where
  readable : ∀ number raw, source number = some raw → ∃ value, read raw = .ok value
  mem_iff : ∀ number value, (number, value) ∈ table ↔
    ∃ raw, source number = some raw ∧ read raw = .ok value

/-- A table with the next field taken into it, if the key is a numeral. -/
def addEntry (read : Json → Outcome α) (table : List (Int × α)) (entry : String × Json) :
    Outcome (List (Int × α)) :=
  match Text.readInt? .decimal entry.1.toList with
  | some number => do return Assoc.put table number (← read entry.2)
  | none => pure table

lemma numbered?_concat (entries : Fields) (entry : String × Json) (number : Int) :
    (Json.object (entries ++ [entry])).numbered? number =
      if Text.readInt? .decimal entry.1.toList = some number then some entry.2
      else (Json.object entries).numbered? number := by
  simp only [Json.numbered?, List.filter_append, List.getLast?_append]
  by_cases h : Text.readInt? .decimal entry.1.toList = some number <;> simp [h]

/-- One more field decides about the number of its key, and about nothing if that is no numeral. -/
lemma Tabulates.add {next : List (Int × α)} {entry : String × Json}
    (h : Tabulates (fun number => (Json.object entries).numbered? number) read table)
    (hadd : addEntry read table entry = .ok next) :
    Tabulates (fun number => (Json.object (entries ++ [entry])).numbered? number) read next := by
  unfold addEntry at hadd
  split at hadd
  · next key hkey =>
    obtain ⟨value, hvalue, hadd⟩ := (bind_eq_ok_iff _ _ _).mp hadd
    obtain rfl := Except.ok.inj hadd
    refine ⟨fun number raw hraw => ?_, fun number other => ?_⟩
    · rw [numbered?_concat, hkey] at hraw
      split at hraw
      · obtain rfl := Option.some.inj hraw
        exact ⟨value, hvalue⟩
      · exact h.readable number raw hraw
    · rw [mem_put, numbered?_concat, hkey, h.mem_iff]
      by_cases hsame : key = number
      · subst hsame
        simp [hvalue, eq_comm]
      · simp [hsame, eq_comm]
  · next hkey =>
    obtain rfl := Except.ok.inj hadd
    have hsource : ∀ number, (Json.object (entries ++ [entry])).numbered? number =
        (Json.object entries).numbered? number := by
      intro number
      rw [numbered?_concat, hkey, if_neg (by simp)]
    simp only [hsource]
    exact h

lemma foldlM_tabulates (h : entries.foldlM (addEntry read) [] = .ok table) :
    Tabulates (fun number => (Json.object entries).numbered? number) read table := by
  induction entries using List.reverseRecOn generalizing table with
  | nil =>
    obtain rfl := Except.ok.inj h
    exact ⟨fun _ _ hraw => (nomatch hraw), fun number value => by simp [Json.numbered?]⟩
  | append_singleton entries entry ih =>
    rw [List.foldlM_append] at h
    obtain ⟨before, hbefore, hrest⟩ := (bind_eq_ok_iff _ _ _).mp h
    rw [List.foldlM_cons] at hrest
    obtain ⟨next, hadd, hlast⟩ := (bind_eq_ok_iff _ _ _).mp hrest
    obtain rfl := Except.ok.inj hlast
    exact (ih hbefore).add hadd

lemma readTable_tabulates (h : readTable fields key read = .ok table) :
    Tabulates (fun number => ((Json.object fields).member? key).bind (Json.numbered? number))
      read table := by
  obtain ⟨found, hfound, h⟩ := (bind_eq_ok_iff _ _ _).mp h
  have hfold : (found.getD []).foldlM (addEntry read) [] = .ok table := h
  have htable := foldlM_tabulates hfold
  rcases field?_cases hfound with ⟨hnone, rfl⟩ | ⟨raw, own, hraw, hown, rfl⟩
  · simp only [Json.member?, hnone]
    exact htable
  · simp only [Json.member?, hraw]
    cases raw with
    | object fields =>
      obtain rfl := Except.ok.inj hown
      exact htable
    | _ => cases hown

end Numbered

/-! ### Prepared instruments -/

lemma Built.volume_normal {map : InstrumentMap} (hdefault : map.default.Normal)
    (hprograms : ∀ number spec, (number, spec) ∈ map.programs → spec.Normal)
    {instrument : Instrument} (h : map.Built instrument) :
    ∀ env ∈ instrument.volume, env.Normal 0 15 := by
  obtain ⟨spec, hspec, hfti, tree, id, name, before, after, hmade⟩ := h
  have hnormal : spec.Normal := by
    rcases hspec with rfl | ⟨number, hmem⟩
    · exact hdefault
    · exact hprograms number spec hmem
  have hbuilds := Arrangement.makeInstrument_builds hmade
  unfold Arrangement.Builds at hbuilds
  rw [hfti] at hbuilds
  rw [hbuilds]
  exact hnormal.volume

lemma sanitised_normal {low high : Int} {env : Envelope} (h : env.Normal low high) :
    env.sanitised = if env.release ≤ env.loop then { env with release := -1 } else env := by
  unfold Envelope.sanitised
  rcases h.release with hnone | ⟨hpos, hlt⟩
  · have hsame : { env with release := -1 } = env := by rw [← hnone]
    rw [hsame, ite_self, ite_self]
  · by_cases hloop : env.release ≤ env.loop
    · rw [if_pos (by omega), if_pos hloop]
    · rw [if_neg (by omega), if_neg hloop]

lemma fitted_normal {instrument : Instrument} (h : ∀ env ∈ instrument.volume, env.Normal 0 15) :
    instrument.fitted .extended = instrument.repaired := by
  rw [fitted_eq, Instrument.repaired]
  cases hvolume : instrument.volume with
  | none => rfl
  | some env =>
    have hnormal : env.Normal 0 15 := h env hvolume
    have hmended : env.mended .extended = env.sanitised := rfl
    have hvalues : env.sanitised.values ≠ [] := by
      rw [sanitised_normal hnormal]
      split <;> exact hnormal.values
    rw [Option.map_some, hmended, Envelope.orFullVolume_some hvalues, sanitised_normal hnormal]

variable {folder : Text.Points} {document : Json} {map : InstrumentMap}

lemma blank_normal : InstrumentSpec.Normal {} :=
  ⟨by decide, fun _ h => (nomatch h), fun _ h => (nomatch h), fun _ h => (nomatch h)⟩

lemma ofJson_normal (h : ofJson folder document = .ok map) : map.NormalFor folder document := by
  obtain ⟨fields, hfields, h⟩ := (bind_eq_ok_iff _ _ _).mp h
  obtain ⟨default, hdefault, h⟩ := (bind_eq_ok_iff _ _ _).mp h
  obtain ⟨programs, hprograms, h⟩ := (bind_eq_ok_iff _ _ _).mp h
  obtain ⟨samples, hsamples, h⟩ := (bind_eq_ok_iff _ _ _).mp h
  obtain ⟨defaultProgram, -, h⟩ := (bind_eq_ok_iff _ _ _).mp h
  obtain rfl := Except.ok.inj h
  cases document with
  | object own =>
    obtain rfl : own = fields := Except.ok.inj hfields
    have htable := readTable_tabulates hprograms
    have hnormal : default.Normal := readInstrument_normal blank_normal hdefault
    have hwithout : InstrumentSpec.Normal { default with fti := none } :=
      ⟨hnormal.duty, hnormal.volume, hnormal.arpeggio, hnormal.pitch⟩
    have hprogram : ∀ number spec, (number, spec) ∈ programs → spec.Normal := by
      intro number spec hmem
      obtain ⟨raw, -, hspec⟩ := (htable.mem_iff number spec).mp hmem
      exact readInstrument_normal hwithout hspec
    refine ⟨hnormal, fun number spec hmem => ⟨hprogram number spec hmem, ?_⟩, ?_, ?_, ?_⟩
    · obtain ⟨raw, hraw, hspec⟩ := (htable.mem_iff number spec).mp hmem
      exact ⟨raw, hraw, readInstrument_inherits hspec⟩
    · intro number raw hraw
      obtain ⟨spec, hspec⟩ := htable.readable number raw hraw
      exact ⟨spec, (htable.mem_iff number spec).mpr ⟨raw, hraw, hspec⟩⟩
    · intro number sample hmem
      obtain ⟨raw, -, hsample⟩ := ((readTable_tabulates hsamples).mem_iff number sample).mp hmem
      exact readSample_pitch hsample
    · intro project wanted
      rw [Project.prepare_eq]
      apply List.forall₂_map_right_iff.mpr
      exact List.forall₂_same.mpr fun instrument _ hbuilt =>
        fitted_normal (hbuilt.volume_normal hnormal hprogram)
  | _ => cases hfields

/-- Every map that can be loaded is normal for the document in its file. -/
theorem load_normal {tree : FileTree} {path : String} (h : load tree path = .ok map) :
    ∃ document, Holds tree path document ∧ map.NormalFor
      (Text.Path.directory (Text.Path.absolute tree.workingDirectory path)) document := by
  obtain ⟨bytes, hbytes, h⟩ := (bind_eq_ok_iff _ _ _).mp h
  split at h
  · next text htext =>
    split at h
    · next document hdocument =>
      exact ⟨document, ⟨bytes, text, hbytes, htext, hdocument⟩, ofJson_normal h⟩
    · cases h
    · cases h
    · cases h
  · cases h

/-- A map with numbers out of their ranges and a release before the loop. -/
def chest : FileTree :=
  let map := "\x7b\"default\":\x7b\"duty\":9\x7d,\"programs\":\x7b\"7\":\x7b\"volume\":" ++
    "\x7b\"values\":[16,8.5,1],\"loop\":2,\"release\":1\x7d\x7d\x7d\x7d"
  { workingDirectory := "/w", files := [(["w", "map"], map.toUTF8.toList)] }

def chestMap : InstrumentMap where
  default := { duty := 3 }
  programs := [(7, { duty := 3, volume := some { values := [15, 8, 1], loop := 2, release := 1 } })]

def chestLead : Instrument where
  id := 0
  name := "lead"
  duty := 3
  volume := some { values := [15, 8, 1], loop := 2, release := 1 }

def chestBell : Instrument where
  id := 1
  name := "bell"
  duty := 3

/-- The instrument of program 7 loses its release, and that of all others gets a volume. -/
theorem chest_normal : load chest "map" = .ok chestMap ∧
    (∃ document, Holds chest "map" document ∧ chestMap.NormalFor "/w" document) ∧
    chestMap.Built chestLead ∧ chestMap.Built chestBell ∧
    chestLead.repaired.volume = some { values := [15, 8, 1], loop := 2 } ∧
    chestBell.repaired.volume = some { values := [15] } := by
  have hload : load chest "map" = .ok chestMap := by decide +kernel
  have hfolder : Text.Path.directory (Text.Path.absolute chest.workingDirectory "map") =
      Text.points "/w" := by decide +kernel
  have hnormal := load_normal hload
  rw [hfolder] at hnormal
  refine ⟨hload, hnormal, ?_, ?_, by decide, by decide⟩
  · exact ⟨_, .inr ⟨7, List.mem_cons_self⟩, rfl, chest, 0, "lead", {}, {}, rfl⟩
  · exact ⟨_, .inl rfl, rfl, chest, 1, "bell", {}, {}, rfl⟩

end InstrumentMap

end Chiptune
