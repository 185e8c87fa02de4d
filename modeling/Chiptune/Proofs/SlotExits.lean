import Chiptune.Proofs.EffectNotes

/-!
# Where a song leaves its slots

A song leaves a slot in the first row with a skip or a jump. But a jump without a skip gives way to
a skip later in the same piece of the slot: then the rows before that skip are played, and the song
goes on with the next slot.
-/

namespace Chiptune

/-- The rows that are played of a slot, and whether the song ends then. -/
structure Exit where
  rows : Nat
  ends : Bool
  deriving DecidableEq, Repr

section Rows

variable {size whole : Nat} {skip jump : Nat → Bool}

/-- The exit from `whole` rows in pieces of `size`. -/
def exitOf (size : Nat) (skip jump : Nat → Bool) (whole : Nat) : Exit :=
  match (List.range whole).find? fun row => skip row || jump row with
  | none => ⟨whole, false⟩
  | some first =>
    match (List.range' first (size - first % size)).find? skip with
    | some row => ⟨row, false⟩
    | none => ⟨first, true⟩

lemma find?_range_add (p : Nat → Bool) (size whole : Nat) :
    (List.range (size + whole)).find? p = ((List.range size).find? p).or
      (((List.range whole).find? fun row => p (size + row)).map (size + ·)) := by
  rw [List.range_add, List.find?_append, List.find?_map]
  rfl

lemma find?_range'_eq {p : Nat → Bool} {first : Nat} (hle : first ≤ size)
    (hbefore : ∀ row < first, p row = false) :
    (List.range' first (size - first)).find? p = (List.range size).find? p := by
  obtain ⟨more, rfl⟩ := Nat.exists_eq_add_of_le hle
  have hnone : (List.range first).find? p = none :=
    List.find?_range_eq_none.mpr fun row hrow => by simp [hbefore row hrow]
  rw [List.range_add, List.find?_append, hnone, Nat.add_sub_cancel_left, Option.none_or,
    List.range'_eq_map_range]

/-- An exit in the first piece. -/
lemma exitOf_here {first : Nat} (whole : Nat)
    (h : (List.range size).find? (fun row => skip row || jump row) = some first) :
    exitOf size skip jump (size + whole) =
      match (List.range size).find? skip, (List.range size).find? jump with
      | some row, _ => ⟨row, false⟩
      | none, some row => ⟨row, true⟩
      | none, none => ⟨size + whole, false⟩ := by
  obtain ⟨hhere, hmem, hbefore⟩ := List.find?_range_eq_some.mp h
  have hlt := List.mem_range.mp hmem
  have hneither : ∀ row < first, skip row = false ∧ jump row = false := by
    intro row hrow
    simpa using hbefore row hrow
  rw [exitOf, find?_range_add, h, Option.some_or]
  dsimp only
  rw [Nat.mod_eq_of_lt hlt, find?_range'_eq hlt.le fun row hrow => (hneither row hrow).1]
  cases hskip : (List.range size).find? skip with
  | some row => rfl
  | none =>
    have hnone : skip first = false := by
      simpa using List.find?_range_eq_none.mp hskip first hlt
    have hjump : jump first = true := by simpa [hnone] using hhere
    have hat : (List.range size).find? jump = some first :=
      List.find?_range_eq_some.mpr ⟨hjump, hmem, fun row hrow => by simp [(hneither row hrow).2]⟩
    rw [hat]

/-- An exit behind the first piece. -/
lemma exitOf_later (whole : Nat)
    (h : (List.range size).find? (fun row => skip row || jump row) = none) :
    exitOf size skip jump (size + whole) =
      let later := exitOf size (fun row => skip (size + row)) (fun row => jump (size + row)) whole
      ⟨size + later.rows, later.ends⟩ := by
  rw [exitOf, find?_range_add, h, Option.none_or, exitOf]
  cases (List.range whole).find? fun row => skip (size + row) || jump (size + row) with
  | none => rfl
  | some first =>
    have hshift : (List.range' (size + first) (size - first % size)).find? skip =
        ((List.range' first (size - first % size)).find? fun row => skip (size + row)).map
          (size + ·) := by
      rw [← List.map_add_range', List.find?_map]
      rfl
    rw [Option.map_some]
    dsimp only
    rw [Nat.add_mod_left, hshift]
    cases (List.range' first (size - first % size)).find? fun row => skip (size + row) <;> rfl

/-- In the first piece a skip counts before a jump. Without any of both the later pieces count. -/
lemma exitOf_add (size : Nat) (skip jump : Nat → Bool) (whole : Nat) :
    exitOf size skip jump (size + whole) =
      match (List.range size).find? skip, (List.range size).find? jump with
      | some row, _ => ⟨row, false⟩
      | none, some row => ⟨row, true⟩
      | none, none =>
        let later := exitOf size (fun row => skip (size + row)) (fun row => jump (size + row)) whole
        ⟨size + later.rows, later.ends⟩ := by
  cases hfirst : (List.range size).find? fun row => skip row || jump row with
  | some first =>
    have hsome := List.find?_some hfirst
    have hmem := List.mem_of_find?_eq_some hfirst
    rw [exitOf_here whole hfirst]
    cases hskip : (List.range size).find? skip with
    | some row => rfl
    | none =>
      cases hjump : (List.range size).find? jump with
      | some row => rfl
      | none =>
        have hnot := List.find?_eq_none.mp hskip first hmem
        have hnor := List.find?_eq_none.mp hjump first hmem
        simp [hnot, hnor] at hsome
  | none =>
    have hneither : ∀ row ∈ List.range size, ¬ skip row = true ∧ ¬ jump row = true := by
      intro row hrow
      simpa using List.find?_eq_none.mp hfirst row hrow
    have hskip : (List.range size).find? skip = none :=
      List.find?_eq_none.mpr fun row hrow => (hneither row hrow).1
    have hjump : (List.range size).find? jump = none :=
      List.find?_eq_none.mpr fun row hrow => (hneither row hrow).2
    rw [exitOf_later whole hfirst, hskip, hjump]

end Rows

section Slots

variable {effects : SlotEffects} {effect : Effect} {size : Nat}

/-- Whether a row of a slot carries an effect. -/
def SlotEffects.carries (slot : SlotEffects) (effect : Effect) (row : Nat) : Bool :=
  ((slot.row row).param effect).isSome

lemma position_eq_find? (h : effects.length ≤ size) :
    effects.position effect = (List.range size).find? (effects.carries effect) := by
  cases hposition : effects.position effect with
  | none =>
    refine (List.find?_range_eq_none.mpr fun row _ => ?_).symm
    simp [SlotEffects.carries, param_of_position_none hposition row]
  | some position =>
    obtain ⟨hsome, hbefore⟩ := param_of_position_some hposition
    have hlt := SlotEffects.position_lt hposition
    refine (List.find?_range_eq_some.mpr ⟨hsome, List.mem_range.mpr (by omega), ?_⟩).symm
    intro row hrow
    simp [SlotEffects.carries, hbefore row hrow]

lemma position_take (effects : SlotEffects) (effect : Effect) (size : Nat) :
    SlotEffects.position (effects.take size) effect =
      (List.range size).find? (effects.carries effect) := by
  rw [position_eq_find? (List.length_take_le _ _)]
  refine List.find?_congr fun row hrow => ?_
  rw [SlotEffects.carries, SlotEffects.carries, SlotEffects.row, SlotEffects.row,
    List.getD_eq_getElem?_getD, List.getElem?_take_of_lt (List.mem_range.mp hrow),
    ← List.getD_eq_getElem?_getD]

lemma carries_drop (effects : SlotEffects) (effect : Effect) (size row : Nat) :
    SlotEffects.carries (effects.drop size) effect row = effects.carries effect (size + row) := by
  rw [SlotEffects.carries, SlotEffects.carries, SlotEffects.row, SlotEffects.row,
    List.getD_eq_getElem?_getD, List.getElem?_drop, ← List.getD_eq_getElem?_getD]

/-- The exit from a slot of `whole` rows in pieces of `size`. -/
def SlotEffects.exit (slot : SlotEffects) (size whole : Nat) : Exit :=
  exitOf size (slot.carries .skip) (slot.carries .jump) whole

lemma exit_add (effects : SlotEffects) (size whole : Nat) :
    effects.exit size (size + whole) =
      match SlotEffects.position (effects.take size) .skip,
        SlotEffects.position (effects.take size) .jump with
      | some row, _ => ⟨row, false⟩
      | none, some row => ⟨row, true⟩
      | none, none =>
        let later := SlotEffects.exit (effects.drop size) size whole
        ⟨size + later.rows, later.ends⟩ := by
  have hskip := funext (carries_drop effects .skip size)
  have hjump := funext (carries_drop effects .jump size)
  rw [SlotEffects.exit, exitOf_add, position_take, position_take, SlotEffects.exit, hskip, hjump]

end Slots

section Visits

variable {size factor : Nat}

/-- The pieces of a slot are visited up to its exit, and those of the next slot after them. -/
lemma visitsFrom_exit {count slot : Nat} {effects : SlotEffects}
    (hlen : effects.length ≤ count * size)
    (hinside : ∀ k, 0 < k → k < count → ¬ (factor : Int) ∣ ((slot + k : Nat) : Int))
    (hnext : (factor : Int) ∣ ((slot + count : Nat) : Int)) (rest : List SlotEffects) :
    Song.visitsFrom size factor false slot (chop size count effects ++ rest) =
      pieceVisits size slot (effects.exit size (count * size)).rows count ++
        if (effects.exit size (count * size)).ends then [] else
          Song.visitsFrom size factor false (slot + count) rest := by
  induction count generalizing slot effects with
  | zero =>
    rw [Nat.zero_mul]
    rfl
  | succ count ih =>
    have hslots : slot + 1 + count = slot + (count + 1) := by omega
    have hwhole : (count + 1) * size = size + count * size := by
      rw [Nat.add_mul, Nat.one_mul, Nat.add_comm]
    have hskipping : ∀ k < count, ¬ (factor : Int) ∣ ((slot + 1 + k : Nat) : Int) := by
      intro k hk
      rw [show slot + 1 + k = slot + (k + 1) by omega]
      exact hinside (k + 1) (by omega) (by omega)
    rw [chop, List.cons_append, Song.visitsFrom, if_neg (by simp), hwhole, exit_add, pieceVisits]
    cases hskip : SlotEffects.position (effects.take size) .skip with
    | some row =>
      have hlt := SlotEffects.position_lt hskip
      rw [List.length_take] at hlt
      dsimp only
      rw [if_neg (by omega), visitsFrom_skipping hskipping, visitsFrom_first (hslots ▸ hnext),
        hslots]
      rfl
    | none =>
      cases hjump : SlotEffects.position (effects.take size) .jump with
      | some row =>
        have hlt := SlotEffects.position_lt hjump
        rw [List.length_take] at hlt
        dsimp only
        rw [if_neg (by omega)]
        rfl
      | none =>
        have hlenRest : (effects.drop size).length ≤ count * size := by
          rw [List.length_drop]
          omega
        dsimp only
        rw [if_pos (Nat.le_add_right _ _), Nat.add_sub_cancel_left,
          ih hlenRest (fun k _ hk => hskipping k hk) (hslots ▸ hnext), hslots]
        rfl

end Visits

namespace Song

variable (song : Song)

/-- The stays in the slots of a song: each slot up to its exit, and no slot after one that ends the
song. -/
def staysBy (exit : Nat → Exit) : List Visit :=
  let slots := List.range song.length
  (slots.take (slots.findIdx (fun slot => (exit slot).ends) + 1)).map fun slot =>
    ⟨slot, (exit slot).rows⟩

/-- Whether a note in a row of a slot carries an effect. -/
def carries (effect : Effect) (slot row : Nat) : Bool := (song.effectAt effect slot row).isSome

/-- The exit from a slot in pieces of `size` rows. -/
def exit (size slot : Nat) : Exit :=
  exitOf size (song.carries .skip slot) (song.carries .jump slot) song.patternLength

end Song

section Stays

variable {song pieces : Song} {size factor : Nat}

lemma exit_eq (song : Song) (size : Nat) {slot : Nat} (h : slot < song.length) :
    song.exit size slot = (song.slotEffects slot).exit size song.patternLength := by
  have hget : song.effects.getD slot [] = song.slotEffects slot := by
    simp [Song.effects, h]
  have hcarries : ∀ effect, effect ≠ .none →
      song.carries effect slot = (song.slotEffects slot).carries effect := by
    intro effect heffect
    funext row
    rw [Song.carries, ← param_effects heffect, hget]
    rfl
  rw [Song.exit, SlotEffects.exit, hcarries .skip (by decide), hcarries .jump (by decide)]

lemma visitsFrom_stays (h : Cut song pieces size factor) (count : Nat) {start : Nat}
    (hcount : start + count ≤ song.length) :
    let slots := List.range' start count
    Song.visitsFrom size factor false (start * factor)
        (slots.flatMap fun slot => chop size factor (song.slotEffects slot)) =
      ((slots.take (slots.findIdx (fun slot => (song.exit size slot).ends) + 1)).map fun slot =>
        ⟨slot, (song.exit size slot).rows⟩).flatMap (Visit.pieces size factor) := by
  dsimp only
  induction count generalizing start with
  | zero => rfl
  | succ count ih =>
    have hlen : (song.slotEffects start).length ≤ factor * size :=
      h.whole ▸ song.slotEffects_length start
    have hinside : ∀ k, 0 < k → k < factor →
        ¬ (factor : Int) ∣ ((start * factor + k : Nat) : Int) := by
      intro k hpos hk hd
      have hd := Int.natCast_dvd_natCast.mp hd
      have := Nat.le_of_dvd hpos ((Nat.dvd_add_right (Nat.dvd_mul_left factor start)).mp hd)
      omega
    have hnext : start * factor + factor = (start + 1) * factor := by
      rw [Nat.add_mul, Nat.one_mul]
    have hdvd : (factor : Int) ∣ ((start * factor + factor : Nat) : Int) := by
      rw [hnext]
      exact Int.natCast_dvd_natCast.mpr (Nat.dvd_mul_left factor _)
    have hexit := exit_eq song size (show start < song.length by omega)
    rw [h.whole] at hexit
    rw [List.range'_succ, List.flatMap_cons, visitsFrom_exit hlen hinside hdvd, hnext,
      ih (by omega), List.findIdx_cons, ← hexit]
    cases hends : (song.exit size start).ends with
    | true => simp [Visit.pieces]
    | false => simp [Visit.pieces]

theorem visits_stays (h : Cut song pieces size factor) :
    pieces.visits pieces.effects factor =
      (song.staysBy (song.exit size)).flatMap (Visit.pieces size factor) := by
  have hall := visitsFrom_stays h song.length (show 0 + song.length ≤ song.length by omega)
  have heffects : pieces.effects = (List.range song.length).flatMap fun slot =>
      chop size factor (song.slotEffects slot) := by
    rw [effects_cut h, Song.effects, List.flatMap_map]
  rw [Nat.zero_mul, ← List.range_eq_range'] at hall
  rw [Song.visits, h.patternLength, heffects, hall]
  rfl

end Stays

end Chiptune
