import Chiptune.Proofs.ArrangedSongs

/-!
# The slots of a voice

A column is cut into patterns, and the slots of its voice name their places. `Song.Spells` says that
the slots of a channel play some patterns and share just the equal ones. It is kept when the song
gets further patterns, so it holds of every voice once all are filled.
-/

namespace Chiptune

open Arrangement

/-- The slot of a pattern that lies at `place`. A silent one needs no place. -/
def slotOf (place : Pattern → Nat) (pattern : Pattern) : Option Nat :=
  if isSilent pattern then none else some (place pattern)

/-- The slots play the patterns, each from a place that depends on nothing else. -/
def Song.Spells (song : Song) (slots : List (Option Nat)) (patterns : List Pattern) : Prop :=
  ∃ place, slots = patterns.map (slotOf place) ∧
    ∀ pattern ∈ patterns, isSilent pattern = false →
      song.patterns[place pattern]? = some pattern

/-- The song in which the voices play the columns, filled in their order. -/
def Song.fillAll (song : Song) (columns : List (Voice × List Note)) : Song :=
  columns.foldl (fun song column => song.fillChannel column.1 column.2) song

namespace Song.Spells

variable {song other : Song} {slots : List (Option Nat)} {patterns : List Pattern} {i j : Nat}

lemma mono (h : song.Spells slots patterns) (hle : song.patterns <+: other.patterns) :
    other.Spells slots patterns := by
  obtain ⟨place, rfl, hplaces⟩ := h
  obtain ⟨more, hmore⟩ := hle
  refine ⟨place, rfl, fun pattern hp hsounds => ?_⟩
  have hplace := hplaces pattern hp hsounds
  have hlt := (List.getElem?_eq_some_iff.mp hplace).1
  rw [← hmore, List.getElem?_append_left hlt]
  exact hplace

lemma length_eq (h : song.Spells slots patterns) : slots.length = patterns.length := by
  obtain ⟨place, rfl, -⟩ := h
  exact List.length_map _

lemma pattern_eq (h : song.Spells slots patterns) {position : Nat}
    (hslot : slots[i]? = some (some position)) : patterns[i]? = some (song.pattern position) ∧
      isSilent (song.pattern position) = false := by
  obtain ⟨place, rfl, hplaces⟩ := h
  rw [List.getElem?_map, Option.map_eq_some_iff] at hslot
  obtain ⟨pattern, hpattern, hslot⟩ := hslot
  rw [slotOf] at hslot
  cases hsilent : isSilent pattern with
  | true =>
    rw [if_pos hsilent] at hslot
    cases hslot
  | false =>
    rw [if_neg (by rw [hsilent]; decide), Option.some_inj] at hslot
    have hplace := hplaces pattern (List.mem_of_getElem? hpattern) hsilent
    have heq : song.pattern position = pattern := getD_of_getElem? (hslot ▸ hplace)
    exact ⟨heq ▸ hpattern, heq ▸ hsilent⟩

/-- Where silent patterns have nothing but empty rows, the slots play just the patterns. -/
lemma map_slotNotes (h : song.Spells slots patterns) (hsilent : ∀ pattern ∈ patterns,
    isSilent pattern = true → pattern = List.replicate song.patternLength .empty) :
    slots.map song.slotNotes = patterns := by
  obtain ⟨place, rfl, hplaces⟩ := h
  rw [List.map_map]
  refine (List.map_congr_left fun pattern hp => ?_).trans (List.map_id patterns)
  rw [Function.comp_apply, slotOf, id_eq]
  by_cases hsounds : isSilent pattern = true
  · rw [if_pos hsounds]
    exact (hsilent pattern hp hsounds).symm
  · have hplace := hplaces pattern hp (eq_false_of_ne_true hsounds)
    rw [if_neg hsounds]
    exact getD_of_getElem? hplace

/-- Two slots share a place just if they play the same, and not nothing. -/
lemma shared_iff (h : song.Spells slots patterns) {first second : Pattern}
    (hi : patterns[i]? = some first) (hj : patterns[j]? = some second) :
    (∃ position, slots[i]? = some (some position) ∧ slots[j]? = some (some position)) ↔
      first = second ∧ isSilent first = false := by
  constructor
  · rintro ⟨position, hslot, hslot'⟩
    have hfirst := h.pattern_eq hslot
    have hsecond := h.pattern_eq hslot'
    obtain rfl := Option.some.inj (hi.symm.trans hfirst.1)
    obtain rfl := Option.some.inj (hj.symm.trans hsecond.1)
    exact ⟨rfl, hfirst.2⟩
  · rintro ⟨rfl, hsounds⟩
    obtain ⟨place, rfl, -⟩ := h
    refine ⟨place first, ?_, ?_⟩
    · rw [List.getElem?_map, hi, Option.map_some, slotOf, if_neg (by rw [hsounds]; decide)]
    · rw [List.getElem?_map, hj, Option.map_some, slotOf, if_neg (by rw [hsounds]; decide)]

end Song.Spells

lemma sharePatterns_eq (base : Nat) (known patterns : List Pattern) :
    let shared := sharePatterns base known patterns
    known <+: shared.2 ∧ (∀ pattern ∈ patterns, isSilent pattern = false → pattern ∈ shared.2) ∧
      shared.1 = patterns.map (slotOf fun pattern => base + shared.2.idxOf pattern) := by
  induction patterns generalizing known with
  | nil => exact ⟨List.prefix_rfl, fun _ h => absurd h List.not_mem_nil, rfl⟩
  | cons pattern rest ih =>
    dsimp only
    rw [sharePatterns]
    cases hsilent : isSilent pattern with
    | true =>
      obtain ⟨hgrown, hall, hslots⟩ := ih known
      rw [if_pos rfl]
      refine ⟨hgrown, fun other ho hsounds => ?_, ?_⟩
      · rcases List.mem_cons.mp ho with rfl | ho
        · rw [hsilent] at hsounds
          cases hsounds
        · exact hall other ho hsounds
      · rw [List.map_cons, ← hslots, slotOf, if_pos hsilent]
    | false =>
      rw [if_neg Bool.false_ne_true]
      dsimp only
      -- The pattern has its place among what is known now, and keeps it.
      have hgrown : ∃ grown, (if known.idxOf pattern < known.length then known
          else known ++ [pattern]) = grown ∧ known <+: grown ∧ pattern ∈ grown ∧
          known.idxOf pattern = grown.idxOf pattern := by
        by_cases hlt : known.idxOf pattern < known.length
        · exact ⟨known, if_pos hlt, List.prefix_rfl, List.idxOf_lt_length_iff.mp hlt, rfl⟩
        · have hnew : pattern ∉ known := fun h => hlt (List.idxOf_lt_length_iff.mpr h)
          refine ⟨known ++ [pattern], if_neg hlt, List.prefix_append _ _, by simp, ?_⟩
          rw [List.idxOf_append_of_notMem hnew, List.idxOf_cons_self, Nat.add_zero,
            List.idxOf_eq_length hnew]
      obtain ⟨grown, hgrown, hknown, hmem, hplace⟩ := hgrown
      obtain ⟨hlater, hall, hslots⟩ := ih grown
      rw [hgrown, hplace]
      refine ⟨hknown.trans hlater, fun other ho hsounds => ?_, ?_⟩
      · rcases List.mem_cons.mp ho with rfl | ho
        · exact hlater.subset hmem
        · exact hall other ho hsounds
      · obtain ⟨more, hmore⟩ := hlater
        rw [List.map_cons, ← hslots, slotOf, if_neg (by rw [hsilent]; decide), ← hmore,
          List.idxOf_append_of_mem hmem]

namespace Song

variable {song : Song} {voice : Voice} {rows : List Note} {channel : Channel}

lemma prefix_fillChannel (song : Song) (voice : Voice) (rows : List Note) :
    song.patterns <+: (song.fillChannel voice rows).patterns := List.prefix_append _ _

/-- The channel of the voice plays the rows, and the other ones play what they have played. -/
lemma mem_fillChannel (hc : channel ∈ (song.fillChannel voice rows).channels) :
    channel.voice ≠ voice ∧ channel ∈ song.channels ∨
      channel.voice = voice ∧ (song.fillChannel voice rows).Spells channel.slots
        (chunks song.patternLength song.length rows) := by
  obtain ⟨source, hs, rfl⟩ := List.mem_map.mp hc
  by_cases hv : source.voice = voice
  · rw [if_pos hv]
    obtain ⟨-, hall, hslots⟩ := sharePatterns_eq song.patterns.length []
      (chunks song.patternLength song.length rows)
    refine .inr ⟨hv, _, hslots, fun pattern hp hsounds => ?_⟩
    have hmem := hall pattern hp hsounds
    rw [fillChannel, List.getElem?_append_right (Nat.le_add_right _ _), Nat.add_sub_cancel_left,
      List.getElem?_idxOf hmem]
  · rw [if_neg hv]
    exact .inl ⟨hv, hs⟩

lemma fillAll_sameFrame (song : Song) (columns : List (Voice × List Note)) :
    song.SameFrame (song.fillAll columns) := by
  induction columns generalizing song with
  | nil => exact .refl song
  | cons column rest ih =>
    have hfirst : song.SameFrame (song.fillChannel column.1 column.2) :=
      ⟨rfl, rfl, rfl, rfl, rfl⟩
    exact hfirst.trans (ih _)

lemma prefix_fillAll (song : Song) (columns : List (Voice × List Note)) :
    song.patterns <+: (song.fillAll columns).patterns := by
  induction columns generalizing song with
  | nil => exact List.prefix_rfl
  | cons column rest ih => exact (prefix_fillChannel song _ _).trans (ih _)

lemma voices_fillAll (song : Song) (columns : List (Voice × List Note)) :
    (song.fillAll columns).channels.map Channel.voice = song.channels.map Channel.voice := by
  induction columns generalizing song with
  | nil => rfl
  | cons column rest ih =>
    refine (ih (song.fillChannel column.1 column.2)).trans ?_
    rw [fillChannel, List.map_map]
    refine List.map_congr_left fun channel _ => ?_
    by_cases hv : channel.voice = column.1
    · simp [hv]
    · simp [hv]

/-- A channel plays the column of its voice, or is as it was if there is none. -/
lemma mem_fillAll {columns : List (Voice × List Note)}
    (hc : channel ∈ (song.fillAll columns).channels) :
    channel.voice ∉ columns.map Prod.fst ∧ channel ∈ song.channels ∨
      ∃ rows, (channel.voice, rows) ∈ columns ∧ (song.fillAll columns).Spells channel.slots
        (chunks song.patternLength song.length rows) := by
  induction columns generalizing song with
  | nil => exact .inl ⟨List.not_mem_nil, hc⟩
  | cons column rest ih =>
    have hc : channel ∈ ((song.fillChannel column.1 column.2).fillAll rest).channels := hc
    rcases ih hc with ⟨hrest, hmem⟩ | ⟨rows, hmem, hspells⟩
    · rcases mem_fillChannel hmem with ⟨hv, hsong⟩ | ⟨hv, hspells⟩
      · exact .inl ⟨by simpa [hv] using hrest, hsong⟩
      · refine .inr ⟨column.2, ?_, hspells.mono (prefix_fillAll _ rest)⟩
        rw [hv]
        exact List.mem_cons_self
    · exact .inr ⟨rows, List.mem_cons_of_mem _ hmem, hspells⟩

end Song

section Chunks

variable {size count : Nat} {rows : List Note}

lemma flatten_chunks (h : rows.length = count * size) :
    (chunks size count rows).flatten = rows := by
  induction count generalizing rows with
  | zero =>
    rw [Nat.zero_mul] at h
    rw [List.length_eq_zero_iff.mp h]
    rfl
  | succ count ih =>
    rw [chunks, List.flatten_cons, ih, List.take_append_drop]
    rw [List.length_drop, h, Nat.succ_mul, Nat.add_sub_cancel]

end Chunks

end Chiptune
