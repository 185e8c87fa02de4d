import Chiptune.Proofs.PatternRows
import Chiptune.Proofs.Refusals

/-!
# Samples in the blob and in the table

The samples of a project lie one after the other in its blob, each from a multiple of 64 bytes on. A
mapped note leads both kernels to an entry of the sample table, and that leads to the sample.
-/

namespace Chiptune

open Assembly

namespace Sample

lemma length_le_alignedSize (sample : Sample) : sample.data.length ≤ sample.alignedSize := by
  simp only [alignedSize, alignment]
  omega

lemma padded_length (sample : Sample) : sample.padded.length = sample.alignedSize := by
  rw [padded, List.length_append, List.length_replicate,
    Nat.add_sub_of_le sample.length_le_alignedSize]

end Sample

/-- The samples lie in the blob one after the other, apart from each other, and nothing else but
zeros lies there. -/
structure Project.LaysOut (project : Project) : Prop where
  length : project.sampleBlob.length = total Sample.alignedSize project.samples
  region : ∀ sample ∈ project.samples, ∃ address, project.sampleAddress sample = .ok address ∧
    Sample.alignment ∣ address ∧ address + sample.alignedSize ≤ project.sampleBlob.length ∧
    (project.sampleBlob.drop address).take sample.data.length = sample.data
  apart : ∀ first ∈ project.samples, ∀ second ∈ project.samples, first ≠ second → ∀ a b,
    project.sampleAddress first = .ok a → project.sampleAddress second = .ok b →
    a + first.data.length ≤ b ∨ b + second.data.length ≤ a
  zero : ∀ i < project.sampleBlob.length, (∀ sample ∈ project.samples, ∀ address,
      project.sampleAddress sample = .ok address →
      ¬ (address ≤ i ∧ i < address + sample.data.length)) → project.sampleBlob[i]? = some 0

section Regions

variable {samples : List Sample} {sample wanted : Sample} {address i : Nat}

lemma length_blob (samples : List Sample) :
    (samples.flatMap Sample.padded).length = total Sample.alignedSize samples := by
  induction samples with
  | nil => rfl
  | cons sample rest ih =>
    rw [List.flatMap_cons, List.length_append, sample.padded_length, ih, total]

lemma dvd_total (samples : List Sample) :
    Sample.alignment ∣ total Sample.alignedSize samples := by
  induction samples with
  | nil => exact Nat.dvd_zero _
  | cons sample rest ih => exact Nat.dvd_add (Nat.dvd_mul_left _ _) ih

/-- A sample that is found lies after those before it. -/
lemma addressIn_eq_ok (h : Project.addressIn wanted samples = .ok address) :
    ∃ place found, samples[place]? = some found ∧ found.id = wanted.id ∧
      address = total Sample.alignedSize (samples.take place) := by
  induction samples generalizing address with
  | nil => exact nomatch h
  | cons sample rest ih =>
    rw [Project.addressIn] at h
    by_cases hid : sample.id = wanted.id
    · rw [if_pos hid] at h
      exact ⟨0, sample, rfl, hid, (Except.ok.inj h).symm⟩
    · rw [if_neg hid] at h
      obtain ⟨later, hlater, h⟩ := (bind_eq_ok_iff _ _ _).mp h
      obtain rfl := Except.ok.inj h
      obtain ⟨place, found, hfound, hsame, rfl⟩ := ih hlater
      exact ⟨place + 1, found, hfound, hsame, rfl⟩

lemma addressIn_append (h : Project.addressIn wanted samples = .ok address) (later : List Sample) :
    Project.addressIn wanted (samples ++ later) = .ok address := by
  induction samples generalizing address with
  | nil => exact nomatch h
  | cons sample rest ih =>
    rw [Project.addressIn] at h
    rw [List.cons_append, Project.addressIn]
    by_cases hid : sample.id = wanted.id
    · rw [if_pos hid] at h ⊢
      exact h
    · rw [if_neg hid] at h ⊢
      obtain ⟨place, hplace, h⟩ := (bind_eq_ok_iff _ _ _).mp h
      rw [ih hplace]
      exact h

lemma total_take_succ {place : Nat} (h : samples[place]? = some sample) :
    total Sample.alignedSize (samples.take (place + 1)) =
      total Sample.alignedSize (samples.take place) + sample.alignedSize := by
  rw [List.take_add_one, h, total_append]
  rfl

lemma total_take_mono (samples : List Sample) {first second : Nat} (h : first ≤ second) :
    total Sample.alignedSize (samples.take first) ≤
      total Sample.alignedSize (samples.take second) := by
  obtain ⟨more, rfl⟩ := Nat.exists_eq_add_of_le h
  rw [List.take_add, total_append]
  exact Nat.le_add_right _ _

/-- A sample before another one ends before that starts. -/
lemma region_before {first second : Nat} (h : samples[first]? = some sample)
    (hlt : first < second) : total Sample.alignedSize (samples.take first) + sample.data.length ≤
      total Sample.alignedSize (samples.take second) := by
  have hend := total_take_mono samples (Nat.succ_le_of_lt hlt)
  rw [Nat.succ_eq_add_one, total_take_succ h] at hend
  have := sample.length_le_alignedSize
  omega

lemma drop_blob {place : Nat} (h : samples[place]? = some sample) :
    ∃ later, (samples.flatMap Sample.padded).drop
      (total Sample.alignedSize (samples.take place)) = sample.data ++ later := by
  have hsplit := congrArg (List.flatMap Sample.padded) (Export.eq_take_cons_drop h)
  rw [List.flatMap_append, List.flatMap_cons] at hsplit
  rw [hsplit, ← length_blob, List.drop_left, Sample.padded, List.append_assoc]
  exact ⟨_, rfl⟩

/-- Outside the samples there are zeros. -/
lemma getElem?_blob (hi : i < (samples.flatMap Sample.padded).length)
    (h : ∀ place found, samples[place]? = some found →
      ¬ (total Sample.alignedSize (samples.take place) ≤ i ∧
        i < total Sample.alignedSize (samples.take place) + found.data.length)) :
    (samples.flatMap Sample.padded)[i]? = some 0 := by
  induction samples generalizing i with
  | nil => exact absurd hi (Nat.not_lt_zero _)
  | cons sample rest ih =>
    rw [List.flatMap_cons, List.length_append, sample.padded_length] at hi
    rw [List.flatMap_cons]
    by_cases hin : i < sample.alignedSize
    · have hbehind : sample.data.length ≤ i := by
        by_contra hdata
        exact h 0 sample rfl ⟨Nat.zero_le _, by simp only [List.take_zero, total]; omega⟩
      rw [List.getElem?_append_left (by rwa [sample.padded_length]), Sample.padded,
        List.getElem?_append_right hbehind, List.getElem?_replicate_of_lt (by omega)]
    · rw [List.getElem?_append_right (by rw [sample.padded_length]; omega), sample.padded_length]
      refine ih (by omega) fun place found hfound hinside => h (place + 1) found hfound ?_
      simp only [List.take_succ_cons, total]
      omega

lemma laysOut_of_nodup {project : Project} (h : (project.samples.map Sample.id).Nodup) :
    project.LaysOut := by
  -- The sample that is found by its number is the one that was looked for.
  have hplace : ∀ sample ∈ project.samples, ∀ address, project.sampleAddress sample = .ok address →
      ∃ place, project.samples[place]? = some sample ∧
        address = total Sample.alignedSize (project.samples.take place) := by
    intro sample hs address haddress
    obtain ⟨place, found, hfound, hid, rfl⟩ := addressIn_eq_ok haddress
    obtain rfl := List.inj_on_of_nodup_map h (List.mem_of_getElem? hfound) hs hid
    exact ⟨place, hfound, rfl⟩
  refine ⟨length_blob project.samples, fun sample hs => ?_, ?_, fun i hi hout => ?_⟩
  · obtain ⟨address, haddress⟩ := Export.addressIn_ok hs
    obtain ⟨place, hfound, rfl⟩ := hplace sample hs address haddress
    obtain ⟨later, hlater⟩ := drop_blob hfound
    refine ⟨_, haddress, dvd_total _, ?_, ?_⟩
    · have hend := total_take_mono project.samples
        (Nat.succ_le_of_lt (List.getElem?_eq_some_iff.mp hfound).1)
      rw [Nat.succ_eq_add_one, total_take_succ hfound, List.take_length] at hend
      exact hend.trans (length_blob project.samples).ge
    · rw [Project.sampleBlob, hlater, List.take_left]
  · intro first hf second hs hne a b ha hb
    obtain ⟨place, hfirst, rfl⟩ := hplace first hf a ha
    obtain ⟨other, hsecond, rfl⟩ := hplace second hs b hb
    rcases Nat.lt_trichotomy place other with hlt | rfl | hlt
    · exact .inl (region_before hfirst hlt)
    · exact absurd (Option.some.inj (hfirst.symm.trans hsecond)) hne
    · exact .inr (region_before hsecond hlt)
  · refine getElem?_blob hi fun place found hfound => ?_
    obtain ⟨address, haddress⟩ := Export.addressIn_ok (List.mem_of_getElem? hfound)
    obtain ⟨other, hother, rfl⟩ := hplace found (List.mem_of_getElem? hfound) address haddress
    obtain rfl : place = other :=
      (List.getElem?_inj (List.getElem?_eq_some_iff.mp hfound).1 (h.of_map Sample.id)).mp
        (hfound.trans hother.symm)
    exact hout found (List.mem_of_getElem? hfound) _ haddress

end Regions

/-! ### Histories of mappings -/

/-- A wish to play a sample with a note. -/
structure MapCall where
  note : Int
  sample : Sample
  pitch : Int
  loop : Bool

def MapCall.mapping (call : MapCall) : SampleMapping := ⟨some call.sample, call.pitch, call.loop⟩

namespace Project

/-- A wish that cannot be met leaves the project as it is. -/
def mapCall (project : Project) (call : MapCall) : Project :=
  match project.mapSample call.note call.sample call.pitch call.loop with
  | .ok mapped => mapped
  | .error _ => project

def mapCalls (project : Project) (calls : List MapCall) : Project := calls.foldl mapCall project

end Project

/-- The last wish for a note. -/
def lastCall (calls : List MapCall) (note : Int) : Option MapCall :=
  calls.reverse.find? (·.note == note)

/-- No two samples have the same number. -/
def Told (calls : List MapCall) : Prop :=
  ∀ call ∈ calls, ∀ other ∈ calls, call.sample.id = other.sample.id → call.sample = other.sample

/-- The project has the samples of the calls so far, and every note plays what was wished last. -/
structure Follows (calls : List MapCall) (project : Project) : Prop where
  nodup : (project.samples.map Sample.id).Nodup
  known : ∀ sample ∈ project.samples, ∃ call ∈ calls, call.sample = sample
  listed : ∀ call ∈ calls, (Project.mappingSlot? call.note).isSome = true →
    call.sample ∈ project.samples
  slots : project.mapping.length = Project.mappingSlots
  mapping : ∀ note slot, Project.mappingSlot? note = some slot →
    project.mapping[slot]? = some ((lastCall calls note).map MapCall.mapping)

section Histories

variable {project : Project} {calls : List MapCall} {call : MapCall} {note : Int} {slot : Nat}

lemma mappingSlot?_eq_some_iff : Project.mappingSlot? note = some slot ↔
    1 ≤ slot ∧ slot < Project.mappingSlots ∧ note = slot + 12 := by
  unfold Project.mappingSlot? Project.firstSampleNote
  dsimp only
  by_cases hin : 1 ≤ note - 12 ∧ note - 12 < Project.mappingSlots
  · rw [if_pos hin, Option.some_inj]
    omega
  · rw [if_neg hin]
    simp only [reduceCtorEq, false_iff]
    omega

/-- What a call does: nothing, or it sets a slot and takes in the sample if that is new. -/
lemma mapCall_cases (project : Project) (call : MapCall) :
    Project.mappingSlot? call.note = none ∧ project.mapCall call = project ∨
      ∃ slot, Project.mappingSlot? call.note = some slot ∧
        (project.mapCall call).mapping = project.mapping.set slot (some call.mapping) ∧
        ((project.mapCall call).samples = project.samples ∧
            (∃ other ∈ project.samples, other.id = call.sample.id) ∨
          (project.mapCall call).samples = project.samples ++ [call.sample] ∧
            call.sample.id ∉ project.samples.map Sample.id) := by
  rw [Project.mapCall, Project.mapSample]
  cases hslot : Project.mappingSlot? call.note with
  | none => exact .inl ⟨rfl, rfl⟩
  | some slot =>
    refine .inr ⟨slot, rfl, rfl, ?_⟩
    by_cases hknown : project.samples.any (·.id == call.sample.id) = true
    · obtain ⟨other, ho, hid⟩ := List.any_eq_true.mp hknown
      exact .inl ⟨if_pos hknown, other, ho, beq_iff_eq.mp hid⟩
    · refine .inr ⟨if_neg hknown, fun hid => hknown ?_⟩
      obtain ⟨other, ho, hid⟩ := List.mem_map.mp hid
      exact List.any_eq_true.mpr ⟨other, ho, beq_iff_eq.mpr hid⟩

lemma prefix_mapCalls (project : Project) (later : List MapCall) :
    project.samples <+: (project.mapCalls later).samples := by
  induction later generalizing project with
  | nil => exact List.prefix_refl _
  | cons call rest ih =>
    refine List.IsPrefix.trans ?_ (ih (project.mapCall call))
    rcases mapCall_cases project call with ⟨-, hsame⟩ | ⟨slot, -, -, ⟨hsame, -⟩ | ⟨hmore, -⟩⟩
    · rw [hsame]
    · rw [hsame]
    · rw [hmore]
      exact List.prefix_append _ _

lemma lastCall_concat (calls : List MapCall) (call : MapCall) (note : Int) :
    lastCall (calls ++ [call]) note =
      if call.note = note then some call else lastCall calls note := by
  rw [lastCall, List.reverse_concat, List.find?_cons]
  by_cases hnote : call.note = note
  · rw [beq_iff_eq.mpr hnote, if_pos hnote]
  · rw [beq_eq_false_iff_ne.mpr hnote, if_neg hnote]
    rfl

lemma follows_nil (hsamples : project.samples = [])
    (hmapping : project.mapping = List.replicate Project.mappingSlots none) :
    Follows [] project where
  nodup := by
    rw [hsamples]
    exact List.nodup_nil
  known := by
    rw [hsamples]
    exact fun _ h => absurd h List.not_mem_nil
  listed := fun _ h => absurd h List.not_mem_nil
  slots := by rw [hmapping, List.length_replicate]
  mapping := by
    intro note slot hslot
    rw [hmapping, List.getElem?_replicate_of_lt (mappingSlot?_eq_some_iff.mp hslot).2.1]
    rfl

/-- After a call the note of the call plays its sample, and the others play what they played. -/
lemma Follows.mapping_mapCall (h : Follows calls project) (call : MapCall)
    (hs : Project.mappingSlot? note = some slot) : (project.mapCall call).mapping[slot]? =
      some ((lastCall (calls ++ [call]) note).map MapCall.mapping) := by
  rw [lastCall_concat]
  have hnote := mappingSlot?_eq_some_iff.mp hs
  rcases mapCall_cases project call with ⟨hnone, hsame⟩ | ⟨set, hset, hmapping, -⟩
  · have hne : call.note ≠ note := by
      rintro rfl
      rw [hs] at hnone
      cases hnone
    rw [hsame, if_neg hne]
    exact h.mapping note slot hs
  · have hcall := mappingSlot?_eq_some_iff.mp hset
    rw [hmapping]
    by_cases heq : call.note = note
    · obtain rfl : set = slot := by omega
      rw [if_pos heq, List.getElem?_set_self (by rw [h.slots]; exact hcall.2.1)]
      rfl
    · rw [if_neg heq, List.getElem?_set_ne (by omega)]
      exact h.mapping note slot hs

/-- No number is used twice after a sample is mapped, as one that is known is not added again. -/
lemma nodup_mapCall (call : MapCall) (h : (project.samples.map Sample.id).Nodup) :
    ((project.mapCall call).samples.map Sample.id).Nodup := by
  rcases mapCall_cases project call with ⟨-, hsame⟩ | ⟨_, -, -, ⟨hsame, -⟩ | ⟨hmore, hnew⟩⟩
  · rw [hsame]
    exact h
  · rw [hsame]
    exact h
  · rw [hmore, List.map_append, List.map_singleton, ← List.concat_eq_append]
    exact h.concat hnew

lemma Follows.mapCall (h : Follows calls project) (htold : Told (calls ++ [call])) :
    Follows (calls ++ [call]) (project.mapCall call) := by
  have hnodup := nodup_mapCall call h.nodup
  have hmapping : ∀ note slot, Project.mappingSlot? note = some slot →
      (project.mapCall call).mapping[slot]? =
        some ((lastCall (calls ++ [call]) note).map MapCall.mapping) :=
    fun _ _ hs => h.mapping_mapCall call hs
  have hcall : call ∈ calls ++ [call] := List.mem_append_right _ (List.mem_singleton_self call)
  have hknown : ∀ sample ∈ project.samples, ∃ other ∈ calls ++ [call], other.sample = sample := by
    intro sample hs
    obtain ⟨other, ho, heq⟩ := h.known sample hs
    exact ⟨other, List.mem_append_left _ ho, heq⟩
  rcases mapCall_cases project call with
    ⟨hnone, hsame⟩ | ⟨slot, -, hset, ⟨hsame, found, hf, hid⟩ | ⟨hmore, -⟩⟩
  · rw [hsame] at hmapping ⊢
    refine ⟨h.nodup, hknown, fun other ho hmaps => ?_, h.slots, hmapping⟩
    rcases List.mem_append.mp ho with ho | ho
    · exact h.listed other ho hmaps
    · obtain rfl := List.mem_singleton.mp ho
      rw [hnone] at hmaps
      cases hmaps
  · refine ⟨hnodup, hsame ▸ hknown, fun other ho hmaps => ?_, ?_, hmapping⟩
    · rw [hsame]
      rcases List.mem_append.mp ho with ho | ho
      · exact h.listed other ho hmaps
      · obtain rfl := List.mem_singleton.mp ho
        -- The sample with the number of this one came with an earlier call.
        obtain ⟨earlier, he, rfl⟩ := hknown found hf
        exact htold earlier he other hcall hid ▸ hf
    · rw [hset, List.length_set, h.slots]
  · refine ⟨hnodup, fun sample hs => ?_, fun other ho hmaps => ?_, ?_, hmapping⟩
    · rw [hmore] at hs
      rcases List.mem_append.mp hs with hs | hs
      · exact hknown sample hs
      · exact ⟨call, hcall, (List.mem_singleton.mp hs).symm⟩
    · rw [hmore]
      rcases List.mem_append.mp ho with ho | ho
      · exact List.mem_append_left _ (h.listed other ho hmaps)
      · obtain rfl := List.mem_singleton.mp ho
        exact List.mem_append_right _ (List.mem_singleton_self _)
    · rw [hset, List.length_set, h.slots]

/-- Whatever is mapped in whatever order, the project follows the calls. -/
lemma follows_mapCalls {fresh : Project} (hsamples : fresh.samples = [])
    (hmapping : fresh.mapping = List.replicate Project.mappingSlots none) (htold : Told calls) :
    Follows calls (fresh.mapCalls calls) := by
  induction calls using List.reverseRecOn with
  | nil => exact follows_nil hsamples hmapping
  | append_singleton calls call ih =>
    have hcalls : Told calls := fun first hf second hs =>
      htold first (List.mem_append_left _ hf) second (List.mem_append_left _ hs)
    have hlast : fresh.mapCalls (calls ++ [call]) = (fresh.mapCalls calls).mapCall call :=
      List.foldl_concat ..
    rw [hlast]
    exact (ih hcalls).mapCall htold

end Histories

/-- The line of a slot in the sample table leads to the sample of a call: its bytes say where the
sample lies, how long it is and how it is played, and they hold all of that. -/
def EntryOf (project : Project) (lines : List Line) (slot : Nat) (call : MapCall) : Prop :=
  ∃ (before entries after : List Line) (line : Line) (place units flags : UInt8),
    lines = before ++ .label .samples :: (entries ++ line :: after) ∧
    entries.length + 1 = slot ∧ total Line.size entries + 3 = 3 * slot ∧
    (∀ labels, line.code labels 0 = [place, units, flags]) ∧
    project.sampleAddress call.sample = .ok (64 * place.toNat) ∧
    units.toNat = call.sample.data.length / 16 ∧
    flags.toNat = (call.pitch.toNat ||| call.loop.toNat <<< 6) ∧
    (project.sampleBlob.drop (64 * place.toNat)).take call.sample.data.length = call.sample.data

section Tables

variable {project : Project} {tables : InstrumentTables} {lines : List Line} {slot : Nat}

lemma usesSamples_of_mapping {mapping : SampleMapping} {sample : Sample}
    (h : project.mapping[slot]? = some (some mapping)) (hs : mapping.sample = some sample) :
    project.usesSamples = true := by
  refine List.any_eq_true.mpr ⟨some mapping, List.mem_of_getElem? h, ?_⟩
  rw [Option.bind_some, hs]
  rfl

/-- Samples that are in use have been checked. -/
lemma checkSamples_of_tableLines (h : Export.tableLines project tables = .ok lines)
    (huses : project.usesSamples = true) :
    (∀ sample ∈ project.samples, sample.data.length / 16 ≤ Limits.sampleUnits) ∧
      project.sampleSize ≤ Limits.sampleBank := by
  unfold Export.tableLines at h
  dsimp only at h
  rw [if_pos huses] at h
  obtain ⟨u, hcheck, -⟩ := (bind_eq_ok_iff _ _ _).mp h
  unfold Export.checkSamples at hcheck
  obtain ⟨v, hsamples, hbank⟩ := (bind_eq_ok_iff _ _ _).mp hcheck
  constructor
  · intro sample hs
    have hsample := (forM_eq_ok_iff _ _).mp hsamples sample hs
    unfold Export.checkSample at hsample
    by_cases hlong : sample.data.length / 16 > Limits.sampleUnits
    · rw [if_pos hlong] at hsample
      cases hsample
    · exact not_lt.mp hlong
  · by_cases hlarge : project.sampleSize > Limits.sampleBank
    · rw [if_pos hlarge] at hbank
      cases hbank
    · exact not_lt.mp hlarge

/-- The entries of the table stand in the order of their slots. -/
lemma tableLines_entry (h : Export.tableLines project tables = .ok lines)
    (huses : project.usesSamples = true) (hslot : 1 ≤ slot) (hlt : slot < Project.mappingSlots)
    {entry : Option SampleMapping} (hentry : project.mapping[slot]? = some entry) :
    ∃ before entries after line, lines = before ++ .label .samples :: (entries ++ line :: after) ∧
      entries.length + 1 = slot ∧ total Line.size entries + 3 = 3 * slot ∧
      Export.sampleLine project slot entry = .ok line := by
  obtain ⟨samples, hsamples, hlines⟩ := Export.tableLines_eq_ok h
  unfold Export.sampleTable at hsamples
  rw [if_pos huses] at hsamples
  obtain ⟨rows, hrows, hsamples⟩ := (bind_eq_ok_iff _ _ _).mp hsamples
  obtain rfl := Except.ok.inj hsamples
  have hall := (mapM_eq_ok_iff _ _ _).mp hrows
  have hplace : ((project.mapping.zipIdx.drop 1).take (Project.mappingSlots - 1))[slot - 1]? =
      some (entry, slot) := by
    rw [List.getElem?_take_of_lt (by omega), List.getElem?_drop, Nat.add_sub_of_le hslot,
      List.getElem?_zipIdx, hentry, Nat.zero_add]
    rfl
  obtain ⟨line, hline, hentryLine⟩ := exists_right_of_getElem? hall hplace
  have hin := (List.getElem?_eq_some_iff.mp hline).1
  have hsize : ∀ row ∈ rows.take (slot - 1), row.size = 3 := by
    intro row hr
    obtain ⟨source, -, hrow⟩ := exists_left_of_mem hall (List.mem_of_mem_take hr)
    obtain ⟨place, units, flags, remark, rfl⟩ := Export.sampleLine_eq_ok hrow
    rfl
  have hlength : (rows.take (slot - 1)).length = slot - 1 := by
    rw [List.length_take]
    omega
  refine ⟨Line.label .instruments :: (Export.instrumentTable project tables ++ [Line.blank]),
    rows.take (slot - 1), rows.drop (slot - 1 + 1) ++ ([Line.blank] ++ Export.envelopeLines
      tables.streams), line, ?_, by omega, ?_, hentryLine⟩
  · rw [hlines]
    conv_lhs => rw [Export.eq_take_cons_drop hline]
    simp only [List.append_assoc, List.cons_append]
  · rw [total_const 3 hsize, hlength]
    omega

lemma sampleFlags_eq {pitch : Int} (hpos : 0 ≤ pitch) (hle : pitch ≤ 15) (loop : Bool) :
    Export.sampleFlags pitch loop = (pitch.toNat ||| loop.toNat <<< 6 : Nat) ∧
      pitch.toNat ||| loop.toNat <<< 6 < 256 := by
  obtain ⟨pitch, rfl⟩ := Int.eq_ofNat_of_zero_le hpos
  have hall : ∀ pitch < 16, ∀ loop, Export.sampleFlags (pitch : Nat) loop =
      ((pitch : Int).toNat ||| loop.toNat <<< 6 : Nat) ∧
        (pitch : Int).toNat ||| loop.toNat <<< 6 < 256 := by decide
  exact hall pitch (by omega) loop

/-- In a bank that is not too large, every sample starts at a place with a byte for it, unless it is
empty and lies at the end. -/
lemma Project.LaysOut.place_lt (h : project.LaysOut)
    (hbank : project.sampleSize ≤ Limits.sampleBank) {sample : Sample}
    (hs : sample ∈ project.samples) (hdata : sample.data ≠ []) :
    ∃ place < 256, project.sampleAddress sample = .ok (64 * place) ∧
      (project.sampleBlob.drop (64 * place)).take sample.data.length = sample.data := by
  obtain ⟨address, haddress, ⟨place, rfl⟩, hend, hbytes⟩ := h.region sample hs
  have hfilled : 0 < sample.data.length := List.length_pos_iff.mpr hdata
  have hroom := sample.length_le_alignedSize
  have hbound := hend.trans (h.length.trans_le hbank)
  simp only [Sample.alignment, Limits.sampleBank] at haddress hbytes hbound
  exact ⟨place, by omega, haddress, hbytes⟩

/-- The entry of a note whose sample is not empty leads to that sample. -/
lemma Follows.entryOf {calls : List MapCall} (h : Follows calls project)
    (hlines : Export.tableLines project tables = .ok lines) {note : Int}
    (hslot : Project.mappingSlot? note = some slot) {call : MapCall}
    (hcall : lastCall calls note = some call) (hdata : call.sample.data ≠ [])
    (hpitch : 0 ≤ call.pitch ∧ call.pitch ≤ 15) : EntryOf project lines slot call := by
  obtain ⟨hpos, hlt, -⟩ := mappingSlot?_eq_some_iff.mp hslot
  have hmapping := h.mapping note slot hslot
  rw [hcall, Option.map_some] at hmapping
  have huses := usesSamples_of_mapping hmapping rfl
  obtain ⟨before, entries, after, line, hsplit, hlength, hsize, hline⟩ :=
    tableLines_entry hlines huses hpos hlt hmapping
  have hnote : call.note = note := by simpa using List.find?_some hcall
  have hsample : call.sample ∈ project.samples := by
    refine h.listed call (List.mem_reverse.mp (List.mem_of_find?_eq_some hcall)) ?_
    rw [hnote, hslot]
    rfl
  obtain ⟨hunits, hbank⟩ := checkSamples_of_tableLines hlines huses
  have hunits := hunits call.sample hsample
  simp only [Limits.sampleUnits] at hunits
  obtain ⟨place, hplace, haddress, hbytes⟩ :=
    (laysOut_of_nodup h.nodup).place_lt hbank hsample hdata
  obtain ⟨hflags, hbyte⟩ := sampleFlags_eq hpitch.1 hpitch.2 call.loop
  obtain ⟨found, hfound, hline⟩ :=
    (bind_eq_ok_iff (project.sampleAddress call.sample) _ _).mp hline
  obtain rfl := Except.ok.inj (haddress.symm.trans hfound)
  obtain rfl := Except.ok.inj hline
  refine ⟨before, entries, after, _, Bytes.low place,
    Bytes.low (call.sample.data.length / 16 : Nat),
    Bytes.low (Export.sampleFlags call.pitch call.loop), hsplit, hlength, hsize, fun labels => ?_,
    ?_, low_toNat (by omega), ?_, ?_⟩
  · have hline : ((64 * place / 64 : Nat) : Int) + 0 = place := by omega
    exact congrArg (fun value => [Bytes.low value, _, _]) hline
  · rw [low_toNat hplace]
    exact haddress
  · rw [hflags, low_toNat hbyte]
  · rw [low_toNat hplace]
    exact hbytes

/-- The codes of a mapped note name its slot, whichever the kernel and whatever rides along. -/
lemma noteCode_mapped {note : Int} (h : Project.mappingSlot? note = some slot) (rides : Bool) :
    Kernel.legacy.noteCode .dpcm note rides.toNat = 2 * slot + rides.toNat ∧
      Kernel.extended.noteCode .dpcm note rides.toNat = slot := by
  obtain ⟨hpos, hlt, rfl⟩ := mappingSlot?_eq_some_iff.mp h
  simp only [Project.mappingSlots] at hlt
  have hpitch : max 1 ((slot : Int) + 12 - 12) % 64 = slot := by omega
  constructor
  · rw [Kernel.noteCode, Kernel.legacyCode, if_neg (by simp [Note.stopValue]; omega), hpitch,
      Int.toNat_natCast]
    cases rides with
    | false =>
      rw [Bool.toNat_false, Nat.cast_zero, withFlags_zero]
      omega
    | true =>
      rw [Bool.toNat_true, Nat.cast_one, withFlags_one]
      omega
  · unfold Kernel.noteCode Kernel.extendedCode
    rw [if_neg (by simp [Note.stopValue, Note.releaseValue]; omega)]
    simp only [Kernel.clamp]
    omega

end Tables

/-- Whatever is mapped in whatever order, the notes, the table and the blob agree on the samples. -/
theorem mapCalls_agree {fresh : Project} (hsamples : fresh.samples = [])
    (hmapping : fresh.mapping = List.replicate Project.mappingSlots none) {calls : List MapCall}
    (htold : Told calls) (hpitch : ∀ call ∈ calls, 0 ≤ call.pitch ∧ call.pitch ≤ 15)
    {tables : InstrumentTables} {lines : List Line}
    (hlines : Export.tableLines (fresh.mapCalls calls) tables = .ok lines) :
    let project := fresh.mapCalls calls
    project.LaysOut ∧
      (∀ sample ∈ project.samples, ∀ later,
        (project.mapCalls later).sampleAddress sample = project.sampleAddress sample) ∧
      ∀ note slot, Project.mappingSlot? note = some slot →
        note = slot + 12 ∧
        project.mapping[slot]? = some ((lastCall calls note).map MapCall.mapping) ∧
        (∀ rides : Bool, Kernel.legacy.noteCode .dpcm note rides.toNat = 2 * slot + rides.toNat ∧
          Kernel.extended.noteCode .dpcm note rides.toNat = slot) ∧
        ∀ call, lastCall calls note = some call → call.sample.data ≠ [] →
          EntryOf project lines slot call := by
  have hfollows := follows_mapCalls hsamples hmapping htold
  refine ⟨laysOut_of_nodup hfollows.nodup, fun sample hs later => ?_, fun note slot hslot => ?_⟩
  · obtain ⟨address, haddress⟩ := Export.addressIn_ok hs
    obtain ⟨more, hmore⟩ := prefix_mapCalls (fresh.mapCalls calls) later
    rw [Project.sampleAddress, Project.sampleAddress, ← hmore, haddress,
      addressIn_append haddress]
  · refine ⟨(mappingSlot?_eq_some_iff.mp hslot).2.2, hfollows.mapping note slot hslot,
      noteCode_mapped hslot, fun call hcall hdata => ?_⟩
    have hmem := List.mem_reverse.mp (List.mem_of_find?_eq_some hcall)
    exact hfollows.entryOf hlines hslot hcall hdata (hpitch call hmem)

def kick : Sample := ⟨0, "kick", List.replicate 70 7⟩

def snare : Sample := ⟨1, "snare", [1, 2, 3]⟩

/-- The first note has no slot, and another one is mapped twice. -/
def drumCalls : List MapCall :=
  [⟨12, snare, 0, false⟩, ⟨75, kick, 3, true⟩, ⟨13, kick, 15, false⟩, ⟨13, snare, 15, true⟩]

theorem drumCalls_agree : ∃ lines,
    Export.tableLines (({} : Project).mapCalls drumCalls) ⟨[], []⟩ = .ok lines ∧
    (({} : Project).mapCalls drumCalls).LaysOut ∧
    EntryOf (({} : Project).mapCalls drumCalls) lines 1 ⟨13, snare, 15, true⟩ ∧
    EntryOf (({} : Project).mapCalls drumCalls) lines 63 ⟨75, kick, 3, true⟩ ∧
    Kernel.legacy.noteCode .dpcm 75 1 = 127 ∧ Kernel.extended.noteCode .dpcm 75 0 = 63 := by
  have hok : (Export.tableLines (({} : Project).mapCalls drumCalls) ⟨[], []⟩).isOk = true := by
    decide +kernel
  obtain ⟨lines, hlines⟩ := ok_of_isOk hok
  have htold : Told drumCalls := by
    unfold Told
    decide
  obtain ⟨hlaid, -, hnotes⟩ :=
    @mapCalls_agree {} rfl rfl drumCalls htold (by decide) ⟨[], []⟩ lines hlines
  obtain ⟨-, -, -, hlow⟩ := hnotes 13 1 rfl
  obtain ⟨-, -, hcodes, hhigh⟩ := hnotes 75 63 rfl
  exact ⟨lines, hlines, hlaid, hlow _ rfl (by decide), hhigh _ rfl (by decide),
    (hcodes true).1, (hcodes false).2⟩

end Chiptune
