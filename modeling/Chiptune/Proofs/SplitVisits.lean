import Chiptune.Proofs.PlayOrder
import Chiptune.Proofs.SongStreams
import Chiptune.Proofs.SplitPieces

/-!
# The visits of a split song

A song and its pieces are played in the same order: what was one visit of a slot is a run of visits
to its pieces, of which only the last may be cut short.
-/

namespace Chiptune

/-- The first `count` pieces of `size` items. -/
def chop {α : Type} (size : Nat) : (count : Nat) → List α → List (List α)
  | 0, _ => []
  | count + 1, xs => xs.take size :: chop size count (xs.drop size)

section Chop

variable {α : Type} {size count : Nat} {xs : List α}

@[simp] lemma chop_length (size count : Nat) (xs : List α) :
    (chop size count xs).length = count := by
  induction count generalizing xs with
  | zero => rfl
  | succ count ih => rw [chop, List.length_cons, ih]

lemma getElem?_chop (size : Nat) (xs : List α) {k : Nat} (hk : k < count) :
    (chop size count xs)[k]? = some ((xs.drop (k * size)).take size) := by
  induction count generalizing xs k with
  | zero => omega
  | succ count ih =>
    cases k with
    | zero => simp [chop]
    | succ k =>
      rw [chop, List.getElem?_cons_succ, ih _ (by omega), List.drop_drop]
      congr 3
      rw [Nat.add_mul, Nat.one_mul]
      omega

lemma chop_flatten (h : xs.length ≤ count * size) : (chop size count xs).flatten = xs := by
  induction count generalizing xs with
  | zero =>
    obtain rfl := List.length_eq_zero_iff.mp (show xs.length = 0 by omega)
    rfl
  | succ count ih =>
    have htail : (xs.drop size).length ≤ count * size := by
      rw [Nat.add_mul, Nat.one_mul] at h
      rw [List.length_drop]
      omega
    rw [chop, List.flatten_cons, ih htail, List.take_append_drop]

end Chop

namespace SlotEffects

lemma withLater_nil (slot : SlotEffects) : slot.withLater [] = slot := by
  cases slot <;> rfl

lemma withLater_drop (first later : SlotEffects) (n : Nat) :
    (first.withLater later).drop n = withLater (first.drop n) (later.drop n) := by
  induction n generalizing first later with
  | zero => rfl
  | succ n ih =>
    cases first with
    | nil => simp [withLater]
    | cons row first =>
      cases later with
      | nil => simp [withLater, withLater_nil]
      | cons other later => exact ih first later

lemma withLater_take (first later : SlotEffects) (n : Nat) :
    (first.withLater later).take n = withLater (first.take n) (later.take n) := by
  induction n generalizing first later with
  | zero => simp [withLater]
  | succ n ih =>
    cases first with
    | nil => simp [withLater]
    | cons row first =>
      cases later with
      | nil => simp [withLater]
      | cons other later =>
        rw [withLater, List.take_succ_cons, ih]
        rfl

lemma foldr_withLater_part {slots : List SlotEffects} (n size : Nat) :
    ((slots.foldr withLater []).drop n).take size =
      (slots.map fun slot => (slot.drop n).take size).foldr withLater [] := by
  induction slots with
  | nil => simp
  | cons slot rest ih =>
    rw [List.foldr_cons, withLater_drop, withLater_take, ih]
    rfl

/-- The first row with an effect is in the first piece, or else it is the first one after it. -/
lemma position_pieces (slot : SlotEffects) (effect : Effect) (size : Nat) :
    (∃ row < size, slot.position effect = some row ∧
      position (slot.take size) effect = some row) ∨
    (position (slot.take size) effect = none ∧
      position (slot.drop size) effect = (slot.position effect).map (· - size) ∧
      ∀ row, slot.position effect = some row → size ≤ row) := by
  have hslot : position (slot.take size ++ slot.drop size) effect =
      (position (slot.take size) effect).or
        ((position (slot.drop size) effect).map (· + (slot.take size).length)) :=
    List.findIdx?_append
  rw [List.take_append_drop] at hslot
  cases htake : position (slot.take size) effect with
  | some row =>
    have hlt := position_lt htake
    rw [List.length_take] at hlt
    rw [htake] at hslot
    exact .inl ⟨row, by omega, hslot, rfl⟩
  | none =>
    refine .inr ⟨rfl, ?_⟩
    rw [htake, Option.none_or] at hslot
    cases hdrop : position (slot.drop size) effect with
    | none =>
      rw [hdrop] at hslot
      rw [hslot]
      exact ⟨rfl, by simp⟩
    | some row =>
      have hlt := position_lt hdrop
      rw [List.length_drop] at hlt
      have htaken : (slot.take size).length = size := by
        rw [List.length_take]
        omega
      rw [hdrop, htaken, Option.map_some] at hslot
      rw [hslot]
      refine ⟨by simp, ?_⟩
      intro other ho
      have := Option.some.inj ho
      omega

end SlotEffects

section Effects

variable {song pieces : Song} {size factor : Nat}

lemma channelEffects_cut {channel : Channel} {slots : List (Option Nat)}
    (h : Cut song pieces size factor) (hc : ChannelCut song pieces size factor channel.slots slots)
    (i : Nat) {k : Nat} (hk : k < factor) :
    pieces.channelEffects (i * factor + k) { channel with slots } =
      ((song.channelEffects i channel).drop (k * size)).take size := by
  have hfit := h.rows_le hk
  unfold Song.channelEffects
  cases hslot : channel.slots[i]? with
  | none =>
    have hlt : slots.length ≤ i * factor + k := by
      have := Nat.mul_le_mul_right factor (List.getElem?_eq_none_iff.mp hslot)
      rw [hc.length]
      omega
    rw [List.getElem?_eq_none_iff.mpr hlt]
    simp
  | some slot =>
    cases slot with
    | none =>
      rw [hc.empty i k hslot hk]
      simp
    | some position =>
      obtain ⟨other, hother, hpattern, -⟩ := hc.pattern i k position hslot hk
      have hmin : min size (song.patternLength - k * size) = size := by omega
      rw [hother]
      simp only [h.patternLength, hpattern, ← List.map_drop, ← List.map_take, List.drop_take,
        List.take_take, hmin]

lemma slotEffects_cut (h : Cut song pieces size factor) (i : Nat) {k : Nat} (hk : k < factor) :
    pieces.slotEffects (i * factor + k) =
      ((song.slotEffects i).drop (k * size)).take size := by
  unfold Song.slotEffects
  rw [SlotEffects.foldr_withLater_part]
  congr 1
  refine List.ext_getElem? fun number => ?_
  rw [List.map_map, List.getElem?_map, List.getElem?_map]
  cases hc : song.channels[number]? with
  | none =>
    have hlt := List.getElem?_eq_none_iff.mp hc
    rw [List.getElem?_eq_none_iff.mpr (by rw [h.channels]; exact hlt)]
    rfl
  | some channel =>
    obtain ⟨slots, hget, hcut⟩ := h.channel number channel hc
    rw [hget, Option.map_some, channelEffects_cut h hcut i hk]
    rfl

lemma effects_cut (h : Cut song pieces size factor) :
    pieces.effects = song.effects.flatMap (chop size factor) := by
  refine List.ext_getElem? fun number => ?_
  have hk := Nat.mod_lt number h.positive
  have hnumber : number / factor * factor + number % factor = number := by
    rw [Nat.mul_comm]
    exact Nat.div_add_mod number factor
  have hlt : number < song.length * factor ↔ number / factor < song.length :=
    (Nat.div_lt_iff_lt_mul h.positive).symm
  have hpiece : pieces.slotEffects number =
      ((song.slotEffects (number / factor)).drop (number % factor * size)).take size := by
    rw [← slotEffects_cut h _ hk, hnumber]
  have hright : (song.effects.flatMap (chop size factor))[number / factor * factor +
      number % factor]? = song.effects[number / factor]?.bind
        fun slot => (chop size factor slot)[number % factor]? :=
    getElem?_flatMap_uniform (fun slot _ => chop_length size factor slot) (number / factor) hk
  rw [hnumber] at hright
  rw [hright, Song.effects, Song.effects, List.getElem?_map, List.getElem?_map, h.length]
  by_cases hin : number < song.length * factor
  · rw [List.getElem?_range hin, List.getElem?_range (hlt.mp hin), Option.map_some,
      Option.map_some, Option.bind_some, getElem?_chop _ _ hk, hpiece]
  · have hout : ¬ number / factor < song.length := fun hi => hin (hlt.mpr hi)
    simp [hin, hout]

end Effects

/-! ### Visits -/

/-- The visits to `count` pieces from number `slot` on that play `rows` rows altogether. -/
def pieceVisits (size : Nat) : (slot rows count : Nat) → List Visit
  | _, _, 0 => []
  | slot, rows, count + 1 =>
    if size ≤ rows then ⟨slot, size⟩ :: pieceVisits size (slot + 1) (rows - size) count
    else [⟨slot, rows⟩]

/-- The rows that are played of a slot with `whole` rows. -/
def playedRows (whole : Nat) (slot : SlotEffects) : Nat :=
  (slot.position .skip <|> slot.position .jump).getD whole

/-- A slot does not carry both a skip and a jump. -/
def SlotEffects.Unmixed (slot : SlotEffects) : Prop :=
  slot.position .skip = none ∨ slot.position .jump = none

instance (slot : SlotEffects) : Decidable slot.Unmixed :=
  inferInstanceAs (Decidable (_ ∨ _))

lemma SlotEffects.Unmixed.jump_eq_none {slot : SlotEffects} {row : Nat} (h : slot.Unmixed)
    (hskip : slot.position .skip = some row) : slot.position .jump = none := by
  apply h.resolve_left
  rw [hskip]
  exact Option.some_ne_none row

lemma SlotEffects.Unmixed.skip_eq_none {slot : SlotEffects} {row : Nat} (h : slot.Unmixed)
    (hjump : slot.position .jump = some row) : slot.position .skip = none := by
  apply h.resolve_right
  rw [hjump]
  exact Option.some_ne_none row

/-- Where the first piece of a slot has neither a skip nor a jump, it is played in full, and of the
rest of the slot as much as of the slot without it. -/
lemma playedRows_drop {slot : SlotEffects} {size count : Nat}
    (hskip : SlotEffects.position (slot.drop size) .skip = (slot.position .skip).map (· - size))
    (hjump : SlotEffects.position (slot.drop size) .jump = (slot.position .jump).map (· - size))
    (hskipLe : ∀ row, slot.position .skip = some row → size ≤ row)
    (hjumpLe : ∀ row, slot.position .jump = some row → size ≤ row) :
    size ≤ playedRows ((count + 1) * size) slot ∧
      playedRows (count * size) (slot.drop size) = playedRows ((count + 1) * size) slot - size := by
  unfold playedRows
  rw [hskip, hjump]
  have hwhole : (count + 1) * size = count * size + size := by
    rw [Nat.add_mul, Nat.one_mul]
  cases hs : slot.position .skip with
  | some row => exact ⟨hskipLe row hs, rfl⟩
  | none =>
    cases hj : slot.position .jump with
    | some row => exact ⟨hjumpLe row hj, rfl⟩
    | none =>
      simp only [Option.map_none, Option.orElse_eq_orElse, Option.orElse_none, Option.getD_none,
        hwhole]
      omega

section Visits

variable {size count : Nat} {factor : Int}

/-- While skipping, the pieces that are no first ones are passed over. -/
lemma visitsFrom_skipping {slot : Nat} (h : ∀ k < count, ¬ factor ∣ ((slot + k : Nat) : Int))
    (effects : SlotEffects) (rest : List SlotEffects) :
    Song.visitsFrom size factor true slot (chop size count effects ++ rest) =
      Song.visitsFrom size factor true (slot + count) rest := by
  induction count generalizing slot effects with
  | zero => rfl
  | succ count ih =>
    have hslot : ¬ factor ∣ (slot : Int) := h 0 (by omega)
    have hnext : ∀ k < count, ¬ factor ∣ ((slot + 1 + k : Nat) : Int) := by
      intro k hk
      rw [show slot + 1 + k = slot + (k + 1) by omega]
      exact h (k + 1) (by omega)
    rw [chop, List.cons_append, Song.visitsFrom, if_pos ⟨rfl, hslot⟩, ih hnext,
      show slot + 1 + count = slot + (count + 1) by omega]

/-- The first pieces of a slot are played like the slot itself. -/
lemma visitsFrom_chop {slot : Nat} {effects : SlotEffects} (hlen : effects.length ≤ count * size)
    (hunmixed : effects.Unmixed)
    (hslot : ∀ k, 0 < k → k < count → ¬ factor ∣ ((slot + k : Nat) : Int))
    (rest : List SlotEffects) :
    Song.visitsFrom size factor false slot (chop size count effects ++ rest) =
      pieceVisits size slot (playedRows (count * size) effects) count ++
        if (effects.position .jump).isSome then [] else
          Song.visitsFrom size factor (effects.position .skip).isSome (slot + count) rest := by
  induction count generalizing slot effects with
  | zero =>
    obtain rfl := List.length_eq_zero_iff.mp (show effects.length = 0 by omega)
    rfl
  | succ count ih =>
    have hskipping : ∀ k < count, ¬ factor ∣ ((slot + 1 + k : Nat) : Int) := by
      intro k hk
      rw [show slot + 1 + k = slot + (k + 1) by omega]
      exact hslot (k + 1) (by omega) (by omega)
    rw [chop, List.cons_append, Song.visitsFrom, if_neg (by simp), pieceVisits]
    rcases effects.position_pieces .skip size with
      ⟨row, hrow, hskip, hfirst⟩ | ⟨hskipFirst, hskipRest, hskipLe⟩
    · -- the skip is in this piece, so the rest of the slot is passed over
      have hjump := hunmixed.jump_eq_none hskip
      have hplayed : playedRows ((count + 1) * size) effects = row := by
        rw [playedRows, hskip]
        rfl
      rw [hfirst, hplayed, if_neg (by omega), hjump, hskip]
      dsimp only
      rw [visitsFrom_skipping hskipping, show slot + 1 + count = slot + (count + 1) by omega]
      rfl
    · rcases effects.position_pieces .jump size with
        ⟨row, hrow, hjump, hfirst⟩ | ⟨hjumpFirst, hjumpRest, hjumpLe⟩
      · have hskip := hunmixed.skip_eq_none hjump
        have hplayed : playedRows ((count + 1) * size) effects = row := by
          rw [playedRows, hskip, hjump]
          rfl
        rw [hskipFirst, hfirst, hplayed, if_neg (by omega), hjump]
        rfl
      · -- neither is in this piece: it is played in full
        obtain ⟨hfull, hplayed⟩ :=
          playedRows_drop hskipRest hjumpRest hskipLe hjumpLe
        have hunmixedRest : SlotEffects.Unmixed (effects.drop size) := by
          rcases hunmixed with hs | hj
          · exact .inl (by rw [hskipRest, hs]; rfl)
          · exact .inr (by rw [hjumpRest, hj]; rfl)
        have hlenRest : (effects.drop size).length ≤ count * size := by
          rw [Nat.add_mul, Nat.one_mul] at hlen
          rw [List.length_drop]
          omega
        have hslotRest : ∀ k, 0 < k → k < count →
            ¬ factor ∣ ((slot + 1 + k : Nat) : Int) := fun k _ hk => hskipping k hk
        have htail := ih hlenRest hunmixedRest hslotRest
        rw [hplayed, hskipRest, hjumpRest, Option.isSome_map, Option.isSome_map,
          show slot + 1 + count = slot + (count + 1) by omega] at htail
        rw [hskipFirst, hjumpFirst, if_pos hfull]
        dsimp only
        rw [htail]
        rfl

end Visits

/-- The visits to the pieces of a slot in the place of the visit to the slot. -/
def Visit.pieces (size factor : Nat) (visit : Visit) : List Visit :=
  pieceVisits size (visit.slot * factor) visit.rows factor

section Whole

variable {size factor : Nat}

/-- The first piece of a slot is visited whether or not pieces are being skipped. -/
lemma visitsFrom_first {skipping : Bool} {slot : Nat} (h : (factor : Int) ∣ (slot : Int))
    (effects : List SlotEffects) :
    Song.visitsFrom size factor skipping slot effects =
      Song.visitsFrom size factor false slot effects := by
  cases effects with
  | nil => rfl
  | cons first rest =>
    rw [Song.visitsFrom, Song.visitsFrom, if_neg (fun hs => hs.2 h), if_neg (by simp)]

/-- The pieces of a song are visited like its slots. -/
theorem visitsFrom_cut {effects : List SlotEffects}
    (hlen : ∀ slot ∈ effects, slot.length ≤ factor * size)
    (hunmixed : ∀ slot ∈ effects, slot.Unmixed) (skipping cutSkipping : Bool) (i : Nat) :
    Song.visitsFrom size factor cutSkipping (i * factor) (effects.flatMap (chop size factor)) =
      (Song.visitsFrom (factor * size) 1 skipping i effects).flatMap
        (Visit.pieces size factor) := by
  induction effects generalizing skipping cutSkipping i with
  | nil => rfl
  | cons slot rest ih =>
    have hdvd : (factor : Int) ∣ ((i * factor : Nat) : Int) :=
      Int.natCast_dvd_natCast.mpr (Nat.dvd_mul_left factor i)
    have hinside : ∀ k, 0 < k → k < factor → ¬ (factor : Int) ∣ ((i * factor + k : Nat) : Int) := by
      intro k hpos hk hd
      have hd := Int.natCast_dvd_natCast.mp hd
      have := Nat.le_of_dvd hpos ((Nat.dvd_add_right (Nat.dvd_mul_left factor i)).mp hd)
      omega
    have hrest := fun skipping cutSkipping => ih (fun other ho => hlen other (by simp [ho]))
      (fun other ho => hunmixed other (by simp [ho])) skipping cutSkipping (i + 1)
    have hnext : i * factor + factor = (i + 1) * factor := by
      rw [Nat.add_mul, Nat.one_mul]
    have hone : ¬ (skipping = true ∧ ¬ (1 : Int) ∣ (i : Int)) := fun hs => hs.2 (one_dvd _)
    rw [List.flatMap_cons, visitsFrom_first hdvd,
      visitsFrom_chop (hlen slot (by simp)) (hunmixed slot (by simp)) hinside, hnext,
      Song.visitsFrom, if_neg hone, playedRows]
    cases hskip : slot.position .skip with
    | some row =>
      rw [(hunmixed slot (by simp)).jump_eq_none hskip, hrest true]
      rfl
    | none =>
      cases hjump : slot.position .jump with
      | some row =>
        simp only [Option.isSome_some, if_true, List.append_nil, List.flatMap_cons,
          List.flatMap_nil]
        rfl
      | none =>
        rw [hrest false]
        rfl

lemma mem_pieceVisits {slot rows count : Nat} {visit : Visit}
    (h : visit ∈ pieceVisits size slot rows count) :
    slot ≤ visit.slot ∧ visit.slot < slot + count := by
  induction count generalizing slot rows with
  | zero => exact absurd h (List.not_mem_nil)
  | succ count ih =>
    rw [pieceVisits] at h
    split at h
    · rcases List.mem_cons.mp h with rfl | h
      · dsimp only
        omega
      · have := ih h
        omega
    · obtain rfl := List.mem_singleton.mp h
      dsimp only
      omega

lemma pieces_ne_nil (size : Nat) (hfactor : 0 < factor) (visit : Visit) :
    visit.pieces size factor ≠ [] := by
  obtain ⟨count, rfl⟩ := Nat.exists_eq_succ_of_ne_zero hfactor.ne'
  rw [Visit.pieces, pieceVisits]
  split <;> simp

lemma pieces_slot_lt {visit piece : Visit} (h : piece ∈ visit.pieces size factor) (loopSlot : Int) :
    (piece.slot : Int) < loopSlot * factor ↔ (visit.slot : Int) < loopSlot := by
  obtain ⟨hle, hlt⟩ := mem_pieceVisits h
  have hle : (visit.slot : Int) * factor ≤ piece.slot := by exact_mod_cast hle
  have hlt : (piece.slot : Int) < (visit.slot + 1) * factor := by
    have : (piece.slot : Int) < visit.slot * factor + factor := by exact_mod_cast hlt
    linarith
  have hfactor : (0 : Int) ≤ factor := Int.natCast_nonneg factor
  constructor
  · intro hpiece
    by_contra hnot
    have := mul_le_mul_of_nonneg_right (not_lt.mp hnot) hfactor
    omega
  · intro hvisit
    have := mul_le_mul_of_nonneg_right (Int.add_one_le_iff.mpr hvisit) hfactor
    omega

/-- The loop slot of the pieces divides their visits where the loop slot divides the visits. -/
theorem splitVisits_cut (hfactor : 0 < factor) (loopSlot : Int) (visits : List Visit) :
    Song.splitVisits (loopSlot * factor) (visits.flatMap (Visit.pieces size factor)) =
      ((Song.splitVisits loopSlot visits).1.flatMap (Visit.pieces size factor),
        (Song.splitVisits loopSlot visits).2.flatMap (Visit.pieces size factor)) := by
  have hspan : (visits.flatMap (Visit.pieces size factor)).span
      (fun piece => decide (piece.slot < loopSlot * factor)) =
      ((visits.takeWhile fun visit => decide (visit.slot < loopSlot)).flatMap
        (Visit.pieces size factor),
      (visits.dropWhile fun visit => decide (visit.slot < loopSlot)).flatMap
        (Visit.pieces size factor)) := by
    rw [List.span_eq_takeWhile_dropWhile]
    induction visits with
    | nil => rfl
    | cons visit rest ih =>
      obtain ⟨htake, hdrop⟩ := Prod.mk.injEq .. ▸ ih
      by_cases hv : (visit.slot : Int) < loopSlot
      · have hall : ∀ piece ∈ visit.pieces size factor,
            decide ((piece.slot : Int) < loopSlot * factor) = true := fun piece hp =>
          decide_eq_true ((pieces_slot_lt hp loopSlot).mpr hv)
        rw [List.flatMap_cons, List.takeWhile_append_of_pos hall,
          List.dropWhile_append_of_pos hall, htake, hdrop, List.takeWhile_cons_of_pos (by simpa),
          List.dropWhile_cons_of_pos (by simpa), List.flatMap_cons]
      · rw [List.takeWhile_cons_of_neg (by simpa using hv),
          List.dropWhile_cons_of_neg (by simpa using hv), List.flatMap_cons]
        obtain ⟨piece, others, hpieces⟩ := List.exists_cons_of_ne_nil
          (pieces_ne_nil size hfactor visit)
        have hnot : ¬ (piece.slot : Int) < loopSlot * factor := fun hp =>
          hv ((pieces_slot_lt (hpieces ▸ List.mem_cons_self) loopSlot).mp hp)
        rw [hpieces, List.cons_append, List.takeWhile_cons_of_neg (by simpa using hnot),
          List.dropWhile_cons_of_neg (by simpa using hnot)]
        rfl
  unfold Song.splitVisits
  rw [hspan, List.span_eq_takeWhile_dropWhile]
  cases hdrop : visits.dropWhile fun visit => decide ((visit.slot : Int) < loopSlot) with
  | nil => rfl
  | cons visit rest =>
    obtain ⟨piece, others, hpieces⟩ := List.exists_cons_of_ne_nil
      (pieces_ne_nil size hfactor visit)
    rw [List.flatMap_cons, hpieces]
    rfl

end Whole

section Parts

variable {song pieces : Song} {size factor : Nat}

lemma flatten_chop {slots : List SlotEffects} (h : ∀ slot ∈ slots, slot.length ≤ factor * size) :
    (slots.flatMap (chop size factor)).flatten = slots.flatten := by
  induction slots with
  | nil => rfl
  | cons slot rest ih =>
    rw [List.flatMap_cons, List.flatten_append, chop_flatten (h slot (by simp)),
      ih fun other ho => h other (by simp [ho]), List.flatten_cons]

lemma flatten_effects_cut (h : Cut song pieces size factor) :
    pieces.effects.flatten = song.effects.flatten := by
  have hlen : ∀ slot ∈ song.effects, slot.length ≤ factor * size := fun slot hs =>
    h.whole ▸ Song.length_of_mem_effects hs
  rw [effects_cut h, flatten_chop hlen]

lemma firstParam_cut (h : Cut song pieces size factor) (effect : Effect) :
    Song.firstParam pieces.effects effect = Song.firstParam song.effects effect := by
  rw [Song.firstParam, Song.firstParam, flatten_effects_cut h]

lemma loopSlot_cut (h : Cut song pieces size factor) :
    pieces.loopSlot pieces.effects factor = song.loopSlot song.effects 1 * factor := by
  have hpos : (0 : Int) < factor := by exact_mod_cast h.positive
  unfold Song.loopSlot
  rw [firstParam_cut h, h.length, mul_one]
  push_cast
  by_cases hle : (song.length : Int) ≤ (Song.firstParam song.effects .jump).getD 0
  · rw [if_pos (mul_le_mul_of_nonneg_right hle hpos.le), if_pos hle, zero_mul]
  · rw [if_neg (fun hcut => hle (le_of_mul_le_mul_right hcut hpos)), if_neg hle]

/-- Before the loop point and from there on, the pieces of a song are visited like its slots. -/
theorem parts_cut (h : Cut song pieces size factor)
    (hunmixed : ∀ slot ∈ song.effects, slot.Unmixed) :
    pieces.parts factor = ((song.parts 1).1.flatMap (Visit.pieces size factor),
      (song.parts 1).2.flatMap (Visit.pieces size factor)) := by
  have hlen : ∀ slot ∈ song.effects, slot.length ≤ factor * size := fun slot hs =>
    h.whole ▸ Song.length_of_mem_effects hs
  have hvisits := visitsFrom_cut hlen hunmixed false false 0
  rw [Nat.zero_mul] at hvisits
  rw [Song.parts, Song.parts, loopSlot_cut h, ← splitVisits_cut h.positive, Song.visits,
    h.patternLength, effects_cut h, hvisits, Song.visits, h.whole]

end Parts

end Chiptune
