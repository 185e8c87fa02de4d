import Mathlib
import Chiptune.Sound.SongCode

/-!
# The order of play

What the visits of a song have in common: they lie inside the song, in order, and none is longer
than a pattern.
-/

namespace Chiptune

namespace SlotEffects

lemma withLater_length (first later : SlotEffects) :
    (first.withLater later).length = max first.length later.length := by
  induction first generalizing later with
  | nil => simp [withLater]
  | cons row first ih =>
    cases later with
    | nil => simp [withLater]
    | cons other later =>
      rw [withLater, List.length_cons, ih, List.length_cons, List.length_cons]
      omega

lemma position_lt {slot : SlotEffects} {effect : Effect} {row : Nat}
    (h : slot.position effect = some row) : row < slot.length :=
  (List.findIdx?_eq_some_iff_getElem.mp h).1

end SlotEffects

namespace Song

variable {song : Song}

lemma channelEffects_length (song : Song) (slot : Nat) (channel : Channel) :
    (song.channelEffects slot channel).length ≤ song.patternLength := by
  unfold channelEffects
  split
  · simp
  · simp

lemma slotEffects_length (song : Song) (slot : Nat) :
    (song.slotEffects slot).length ≤ song.patternLength := by
  unfold slotEffects
  induction song.channels with
  | nil => simp
  | cons channel rest ih =>
    have hc := song.channelEffects_length slot channel
    rw [List.map_cons, List.foldr_cons, SlotEffects.withLater_length]
    omega

@[simp] lemma effects_length (song : Song) : song.effects.length = song.length := by
  simp [effects]

lemma length_of_mem_effects {slot : SlotEffects} (h : slot ∈ song.effects) :
    slot.length ≤ song.patternLength := by
  obtain ⟨number, -, rfl⟩ := List.mem_map.mp h
  exact song.slotEffects_length number

/-- Every visit is to one of the slots, and no longer than a pattern. -/
lemma mem_visitsFrom {patternLength : Nat} {factor : Int} {skipping : Bool} {slot : Nat}
    {effects : List SlotEffects} (h : ∀ slot ∈ effects, slot.length ≤ patternLength)
    {visit : Visit} (hv : visit ∈ visitsFrom patternLength factor skipping slot effects) :
    slot ≤ visit.slot ∧ visit.slot < slot + effects.length ∧ visit.rows ≤ patternLength := by
  induction effects generalizing skipping slot with
  | nil => simp [visitsFrom] at hv
  | cons first rest ih =>
    have hfirst := h first (by simp)
    have hrest : ∀ {skipping : Bool},
        visit ∈ visitsFrom patternLength factor skipping (slot + 1) rest → slot ≤ visit.slot ∧
          visit.slot < slot + (first :: rest).length ∧ visit.rows ≤ patternLength := by
      intro skipping hm
      have := ih (fun other ho => h other (by simp [ho])) hm
      rw [List.length_cons]
      omega
    rw [visitsFrom] at hv
    split at hv
    · exact hrest hv
    · split at hv
      · next row hskip =>
        rcases List.mem_cons.mp hv with rfl | hm
        · have := SlotEffects.position_lt hskip
          simp only [List.length_cons]
          omega
        · exact hrest hm
      · next row hskip hjump =>
        obtain rfl := List.mem_singleton.mp hv
        have := SlotEffects.position_lt hjump
        simp only [List.length_cons]
        omega
      · rcases List.mem_cons.mp hv with rfl | hm
        · simp
        · exact hrest hm

lemma mem_visits {factor : Int} {visit : Visit} (h : visit ∈ song.visits song.effects factor) :
    visit.slot < song.length ∧ visit.rows ≤ song.patternLength := by
  have := mem_visitsFrom (fun slot hs => length_of_mem_effects hs) h
  simpa using this

lemma splitVisits_append (loopSlot : Int) (visits : List Visit) :
    (splitVisits loopSlot visits).1 ++ (splitVisits loopSlot visits).2 = visits := by
  unfold splitVisits
  rw [List.span_eq_takeWhile_dropWhile]
  split
  · next all hspan =>
    obtain ⟨hall, hnone⟩ := Prod.mk.injEq .. ▸ hspan
    calc [] ++ all = visits.takeWhile _ ++ visits.dropWhile _ := by
          rw [hall, hnone, List.nil_append, List.append_nil]
      _ = visits := List.takeWhile_append_dropWhile
  · exact List.takeWhile_append_dropWhile

end Song

end Chiptune
