import Chiptune.Proofs.PreparedSongs

/-!
# The notes behind the effects of a song row

The encoder gathers the effects of a slot from all channels. In a row of a song an effect has the
parameter of the first channel whose note there carries it, if the row is one that the song plays.
-/

namespace Chiptune

/-- The parameter of an effect in a row of a slot. -/
def Song.effectAt (song : Song) (effect : Effect) (slot row : Nat) : Option Int :=
  if slot < song.length ∧ row < song.patternLength then
    song.channels.findSome? fun channel =>
      if (song.noteAt channel slot row).effect = effect then
        some (song.noteAt channel slot row).param
      else none
  else none

section Effects

variable {song : Song} {effect : Effect}

lemma param_withLater (first later : RowEffects) (effect : Effect) :
    (first.withLater later).param effect = (first.param effect <|> later.param effect) := by
  cases effect <;> rfl

lemma param_ofNote (h : effect ≠ .none) (note : Note) :
    (RowEffects.ofNote note).param effect =
      if note.effect = effect then some note.param else none := by
  unfold RowEffects.ofNote
  cases heffect : note.effect <;> cases effect <;> first | rfl | exact absurd rfl h

lemma param_empty (effect : Effect) : ({} : RowEffects).param effect = none := by
  cases effect <;> rfl

/-- Two slots together carry in each row what their rows carry together. -/
lemma param_row_withLater (first later : SlotEffects) (effect : Effect) (row : Nat) :
    ((first.withLater later).row row).param effect =
      ((first.row row).param effect <|> (later.row row).param effect) := by
  have hnone : ∀ row, (SlotEffects.row [] row).param effect = none := fun row => by
    rw [SlotEffects.row, List.getD_nil, param_empty]
  induction first generalizing later row with
  | nil =>
    rw [SlotEffects.withLater, hnone]
    rfl
  | cons effects first ih =>
    cases later with
    | nil =>
      have hfirst : SlotEffects.withLater (effects :: first) [] = effects :: first := rfl
      rw [hfirst, hnone]
      cases (SlotEffects.row (effects :: first) row).param effect <;> rfl
    | cons other later =>
      cases row with
      | zero => exact param_withLater effects other effect
      | succ row => exact ih later row

lemma row_channelEffects (song : Song) (channel : Channel) {slot row : Nat}
    (h : row < song.patternLength) : (song.channelEffects slot channel).row row =
      RowEffects.ofNote (song.noteAt channel slot row) := by
  rw [Song.noteAt, List.getD_eq_getElem?_getD, List.getD_eq_getElem?_getD, Song.channelEffects,
    SlotEffects.row, List.getD_eq_getElem?_getD]
  cases hslot : channel.slots[slot]? with
  | none =>
    simp [Song.slotNotes, h]
    rfl
  | some content =>
    cases content with
    | none =>
      simp [Song.slotNotes, h]
      rfl
    | some position =>
      simp only [Song.slotNotes, List.getElem?_map, List.getElem?_take_of_lt h, Option.getD_some]
      cases (song.pattern position)[row]? <;> rfl

lemma row_channelEffects_outside (song : Song) (channel : Channel) {slot row : Nat}
    (h : song.patternLength ≤ row) : (song.channelEffects slot channel).row row = {} := by
  have hlength : (song.channelEffects slot channel).length ≤ row := by
    unfold Song.channelEffects
    split
    · rw [List.length_map, List.length_take]
      omega
    · exact Nat.zero_le _
  rw [SlotEffects.row, List.getD_eq_default _ _ hlength]

/-- The effects of a slot are those of the first notes that carry them. -/
lemma param_slotEffects (h : effect ≠ .none) (song : Song) (slot row : Nat) :
    ((song.slotEffects slot).row row).param effect =
      if row < song.patternLength then
        song.channels.findSome? fun channel =>
          if (song.noteAt channel slot row).effect = effect then
            some (song.noteAt channel slot row).param
          else none
      else none := by
  unfold Song.slotEffects
  induction song.channels with
  | nil =>
    rw [List.map_nil, List.foldr_nil, SlotEffects.row, List.getD_nil, param_empty]
    split <;> rfl
  | cons channel channels ih =>
    rw [List.map_cons, List.foldr_cons, param_row_withLater, ih]
    by_cases hrow : row < song.patternLength
    · rw [if_pos hrow, if_pos hrow, row_channelEffects song channel hrow, param_ofNote h,
        List.findSome?_cons]
      by_cases hnote : (song.noteAt channel slot row).effect = effect
      · rw [if_pos hnote]
        rfl
      · rw [if_neg hnote]
        rfl
    · rw [if_neg hrow, if_neg hrow, row_channelEffects_outside song channel (not_lt.mp hrow),
        param_empty]
      rfl

theorem param_effects (h : effect ≠ .none) (song : Song) (slot row : Nat) :
    ((song.effects.getD slot []).row row).param effect = song.effectAt effect slot row := by
  unfold Song.effectAt
  by_cases hslot : slot < song.length
  · have hget : song.effects.getD slot [] = song.slotEffects slot := by
      simp [Song.effects, hslot]
    rw [hget, param_slotEffects h]
    simp only [hslot, true_and]
  · have hget : song.effects.getD slot [] = [] := by
      simp [Song.effects, hslot]
    rw [hget, SlotEffects.row, List.getD_nil, param_empty, if_neg (fun hrow => hslot hrow.1)]

end Effects

end Chiptune
