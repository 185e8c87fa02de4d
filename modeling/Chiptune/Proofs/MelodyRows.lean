import Chiptune.Proofs.ArrangedSongs
import Chiptune.Proofs.HeardNotes

/-!
# The rows of a melody

A column is filled note by note, and a stop that is written ahead may be taken back by the next
note. `fillColumn_rows` says what a row holds in the end by the last note that starts up to it.
-/

namespace Chiptune.Arrangement

open Midi (NoteSpan)

/-- The row is what `makeNote` makes of the note. -/
def Made (makeNote : NoteSpan → Session Note) (note : NoteSpan) (written : Note) : Prop :=
  ∃ before after, (makeNote note).run before = .ok (written, after)

def stopNote : Note := { value := Note.stopValue }

/-- Of the notes that start up to a row this one starts last. -/
structure Latest (notes : List NoteSpan) (row : Int) (note : NoteSpan) : Prop where
  mem : note ∈ notes
  start_le : note.start ≤ row
  last : ∀ other ∈ notes, other.start ≤ row → other.start ≤ note.start

/-- The rows when a note has been written, with the stop after it. -/
def writeNote (rows : Array Note) (note : NoteSpan) (written : Note) (following : List NoteSpan) :
    Array Note :=
  let rows := rows.setIfInBounds note.start.toNat written
  if endsAt rows.size note.stop following ∧
      (rows.getD note.stop.toNat .empty).isValid = false then
    rows.setIfInBounds note.stop.toNat stopNote
  else rows

section Rows

variable {makeNote : NoteSpan → Session Note} {rows filled : Array Note} {note : NoteSpan}
  {notes rest : List NoteSpan} {before after : Ensemble}

lemma getD_setIfInBounds (rows : Array Note) (place row : Nat) (written default : Note) :
    (rows.setIfInBounds place written).getD row default =
      if place = row ∧ row < rows.size then written else rows.getD row default := by
  rw [Array.getD_eq_getD_getElem?, Array.getD_eq_getD_getElem?, Array.getElem?_setIfInBounds]
  by_cases hplace : place = row
  · by_cases hlt : row < rows.size
    · rw [if_pos hplace, if_pos (hplace ▸ hlt), if_pos ⟨hplace, hlt⟩]
      rfl
    · rw [if_pos hplace, if_neg (hplace ▸ hlt), if_neg fun h => hlt h.2,
        Array.getElem?_eq_none (by omega)]
  · rw [if_neg hplace, if_neg fun h => hplace h.1]

lemma rowPlace_eq_ok {count : Nat} {row : Int} (hle : 0 ≤ row) (hlt : row < count) :
    rowPlace count row = .ok row.toNat := if_pos ⟨hle, hlt⟩

/-- A note is left out if it starts behind the column, and is written with the stop after it
otherwise. -/
lemma fillColumn_cons (hle : 0 ≤ note.start) (hstop : note.start < note.stop)
    (h : (fillColumn makeNote rows (note :: rest)).run before = .ok (filled, after)) :
    rows.size ≤ note.start ∧ (fillColumn makeNote rows rest).run before = .ok (filled, after) ∨
      note.start < rows.size ∧ ∃ written middle,
        (makeNote note).run before = .ok (written, middle) ∧
        (fillColumn makeNote (writeNote rows note written rest) rest).run middle =
          .ok (filled, after) := by
  rw [fillColumn] at h
  by_cases hbehind : note.start ≥ rows.size
  · rw [if_pos hbehind] at h
    exact .inl ⟨hbehind, h⟩
  rw [if_neg hbehind] at h
  obtain ⟨written, middle, hmake, h⟩ := run_bind h
  rw [rowPlace_eq_ok hle (by omega)] at h
  obtain ⟨place, state, hplace, h⟩ := run_bind h
  obtain ⟨heq, rfl⟩ := run_lift hplace
  obtain rfl := Except.ok.inj heq
  refine .inr ⟨by omega, written, middle, hmake, ?_⟩
  rw [writeNote]
  dsimp only at h ⊢
  by_cases hends : endsAt (rows.setIfInBounds note.start.toNat written).size note.stop rest = true
  · have hinside : note.stop < (rows.setIfInBounds note.start.toNat written).size :=
      of_decide_eq_true (Bool.and_eq_true_iff.mp hends).1
    rw [if_pos hends, rowPlace_eq_ok (by omega) hinside] at h
    obtain ⟨place, state, hplace, h⟩ := run_bind h
    obtain ⟨heq, rfl⟩ := run_lift hplace
    obtain rfl := Except.ok.inj heq
    by_cases htaken : ((rows.setIfInBounds note.start.toNat written).getD note.stop.toNat
        .empty).isValid = true
    · rw [if_pos htaken] at h
      rw [if_neg fun hboth => Bool.false_ne_true (hboth.2.symm.trans htaken)]
      exact h
    · rw [if_neg htaken] at h
      rw [if_pos ⟨hends, eq_false_of_ne_true htaken⟩]
      exact h
  · rw [if_neg hends] at h
    rw [if_neg fun hboth => hends hboth.1]
    exact h

@[simp] lemma size_writeNote (rows : Array Note) (note : NoteSpan) (written : Note)
    (following : List NoteSpan) : (writeNote rows note written following).size = rows.size := by
  unfold writeNote
  dsimp only
  split
  · rw [Array.size_setIfInBounds, Array.size_setIfInBounds]
  · rw [Array.size_setIfInBounds]

lemma getD_writeNote_of_ne {written : Note} {row : Nat} (hstart : note.start.toNat ≠ row)
    (hstop : note.stop.toNat ≠ row) :
    (writeNote rows note written rest).getD row .empty = rows.getD row .empty := by
  unfold writeNote
  dsimp only
  split
  · rw [getD_setIfInBounds, if_neg fun h => hstop h.1, getD_setIfInBounds,
      if_neg fun h => hstart h.1]
  · rw [getD_setIfInBounds, if_neg fun h => hstart h.1]

lemma getD_writeNote_start {written : Note} (hle : 0 ≤ note.start) (hlt : note.start < rows.size)
    (hstop : note.start < note.stop) :
    (writeNote rows note written rest).getD note.start.toNat .empty = written := by
  have hin : note.start.toNat < rows.size := by omega
  unfold writeNote
  dsimp only
  split
  · rw [getD_setIfInBounds, if_neg fun h => by omega, getD_setIfInBounds, if_pos ⟨rfl, hin⟩]
  · rw [getD_setIfInBounds, if_pos ⟨rfl, hin⟩]

/-- Where no other note has started by then, the note is stopped at its end. -/
lemma getD_writeNote_stop {written : Note} (hle : 0 ≤ note.start) (hstop : note.start < note.stop)
    (hlt : note.stop < rows.size) (hempty : rows.getD note.stop.toNat .empty = .empty)
    (hnext : ∀ next ∈ rest, note.stop ≤ next.start) :
    (writeNote rows note written rest).getD note.stop.toNat .empty = stopNote := by
  have hends : endsAt (rows.setIfInBounds note.start.toNat written).size note.stop rest = true := by
    rw [Array.size_setIfInBounds]
    cases rest with
    | nil => exact Bool.and_eq_true_iff.mpr ⟨decide_eq_true hlt, rfl⟩
    | cons next rest =>
      have hstarts := hnext next List.mem_cons_self
      exact Bool.and_eq_true_iff.mpr ⟨decide_eq_true hlt, decide_eq_true hstarts⟩
  have hsame : (rows.setIfInBounds note.start.toNat written).getD note.stop.toNat .empty =
      .empty := by
    rw [getD_setIfInBounds, if_neg fun h => by omega, hempty]
  unfold writeNote
  dsimp only
  have hin : note.stop.toNat < (rows.setIfInBounds note.start.toNat written).size := by
    rw [Array.size_setIfInBounds]
    omega
  rw [if_pos ⟨hends, by rw [hsame]; rfl⟩, getD_setIfInBounds, if_pos ⟨rfl, hin⟩]

/-- Behind the start of the next note nothing is written ahead. -/
lemma getD_writeNote_after {written : Note} {next : NoteSpan} {row : Nat}
    (hle : 0 ≤ note.start) (hstart : note.start < next.start) (hrow : next.start < row) :
    (writeNote rows note written (next :: rest)).getD row .empty = rows.getD row .empty := by
  unfold writeNote
  dsimp only
  split
  · next hends =>
    have hends := hends.1
    rw [endsAt, Bool.and_eq_true, decide_eq_true_eq, decide_eq_true_eq] at hends
    rw [getD_setIfInBounds, if_neg fun h => by omega, getD_setIfInBounds,
      if_neg fun h => by omega]
  · rw [getD_setIfInBounds, if_neg fun h => by omega]

/-- Where no further note has started, a row shows the note itself: its start, its stop or nothing
after it. -/
lemma getD_writeNote_last {written : Note} {row : Nat} (hle : 0 ≤ note.start)
    (hstop : note.start < note.stop) (hlt : row < rows.size) (hstart : note.start ≤ row)
    (hempty : note.start < row → rows.getD row .empty = .empty)
    (hnext : ∀ next ∈ rest, row < next.start) :
    (writeNote rows note written rest).getD row .empty =
      if note.start = row then written else if note.stop = row then stopNote else .empty := by
  by_cases heq : note.start = row
  · obtain rfl : row = note.start.toNat := by omega
    rw [if_pos heq]
    exact getD_writeNote_start hle (by omega) hstop
  · have hempty := hempty (by omega)
    rw [if_neg heq]
    by_cases hends : note.stop = row
    · obtain rfl : row = note.stop.toNat := by omega
      rw [if_pos hends]
      refine getD_writeNote_stop hle hstop (by omega) hempty fun next hn => ?_
      have := hnext next hn
      omega
    · rw [if_neg hends, getD_writeNote_of_ne (by omega) (by omega)]
      exact hempty

section Latest

variable {row : Int} {other : NoteSpan}

lemma Latest.eq_of_cons (h : Latest (note :: rest) row other)
    (hnone : ∀ next ∈ rest, row < next.start) : other = note := by
  refine (List.mem_cons.mp h.mem).resolve_right fun hrest => ?_
  have := hnone other hrest
  have := h.start_le
  omega

lemma Latest.of_cons (h : Latest (note :: rest) row other)
    (hlater : ∀ next ∈ rest, note.start < next.start)
    (hsome : ¬ ∀ next ∈ rest, row < next.start) : Latest rest row other := by
  have hmem : other ∈ rest := by
    refine (List.mem_cons.mp h.mem).resolve_left ?_
    rintro rfl
    refine hsome fun next hn => ?_
    by_contra hge
    have := h.last next (List.mem_cons_of_mem _ hn) (by omega)
    have := hlater next hn
    omega
  exact ⟨hmem, h.start_le, fun next hn => h.last next (List.mem_cons_of_mem _ hn)⟩

end Latest

/-- What a row of a filled column holds: as before, if no note has started by then, and else what
the last note up to it leaves there. -/
structure Shows (makeNote : NoteSpan → Session Note) (notes : List NoteSpan) (row : Nat)
    (old shown : Note) : Prop where
  before : (∀ note ∈ notes, row < note.start) → shown = old
  start : ∀ note, Latest notes row note → note.start = row → Made makeNote note shown
  later : ∀ note, Latest notes row note → note.start ≠ row →
    shown = if note.stop = row then stopNote else .empty

/-- Once a note is written, the further notes may be written as if it were not there. -/
lemma Shows.cons {written shown : Note} {row : Nat} (hle : 0 ≤ note.start)
    (hstop : note.start < note.stop) (hlater : ∀ next ∈ rest, note.start < next.start)
    (hlt : row < rows.size) (hempty : note.start < row → rows.getD row .empty = .empty)
    (hmade : Made makeNote note written)
    (h : Shows makeNote rest row ((writeNote rows note written rest).getD row .empty) shown) :
    Shows makeNote (note :: rest) row (rows.getD row .empty) shown := by
  by_cases hnone : ∀ next ∈ rest, (row : Int) < next.start
  · have hshown := h.before hnone
    have hlast : note.start ≤ row → shown = if note.start = row then written
        else if note.stop = row then stopNote else .empty := fun hstart =>
      hshown.trans (getD_writeNote_last hle hstop hlt hstart hempty hnone)
    refine ⟨fun hbefore => ?_, fun other hl heq => ?_, fun other hl hne => ?_⟩
    · have := hbefore note List.mem_cons_self
      rw [hshown, getD_writeNote_of_ne (by omega) (by omega)]
    · obtain rfl := hl.eq_of_cons hnone
      rw [hlast hl.start_le, if_pos heq]
      exact hmade
    · obtain rfl := hl.eq_of_cons hnone
      rw [hlast hl.start_le, if_neg hne]
  · refine ⟨fun hbefore => ?_, fun other hl => ?_, fun other hl => ?_⟩
    · exact absurd (fun next hn => hbefore next (List.mem_cons_of_mem _ hn)) hnone
    · exact h.start other (hl.of_cons hlater hnone)
    · exact h.later other (hl.of_cons hlater hnone)

/-- Each row of a column shows the last note that starts up to it. -/
lemma fillColumn_shows (hsorted : notes.Pairwise (·.start < ·.start))
    (hle : ∀ note ∈ notes, 0 ≤ note.start) (hstop : ∀ note ∈ notes, note.start < note.stop)
    (hempty : ∀ first ∈ notes.head?, ∀ row : Nat, first.start < row →
      rows.getD row .empty = .empty)
    (h : (fillColumn makeNote rows notes).run before = .ok (filled, after)) :
    filled.size = rows.size ∧
      ∀ row < rows.size, Shows makeNote notes row (rows.getD row .empty)
        (filled.getD row .empty) := by
  induction notes generalizing rows before with
  | nil =>
    obtain ⟨rfl, -⟩ := run_pure h
    exact ⟨rfl, fun row _ => ⟨fun _ => rfl, fun _ hl => absurd hl.mem List.not_mem_nil,
      fun _ hl => absurd hl.mem List.not_mem_nil⟩⟩
  | cons note rest ih =>
    have hlater : ∀ next ∈ rest, note.start < next.start :=
      fun _ => List.rel_of_pairwise_cons hsorted
    have hle0 := hle note List.mem_cons_self
    have hstop0 := hstop note List.mem_cons_self
    have hempty0 := hempty note rfl
    have hle' := fun other ho => hle other (List.mem_cons_of_mem note ho)
    have hstop' := fun other ho => hstop other (List.mem_cons_of_mem note ho)
    rcases fillColumn_cons hle0 hstop0 h with ⟨hbehind, hrun⟩ | ⟨-, written, middle, hmade, hrun⟩
    · obtain ⟨hsize, hrows⟩ := ih hsorted.of_cons hle' hstop'
        (fun first hf row hrow => hempty0 row
          ((hlater first (List.mem_of_mem_head? hf)).trans hrow)) hrun
      refine ⟨hsize, fun row hrow => ?_⟩
      -- This note and all after it start behind the column.
      have hnone : ∀ next ∈ note :: rest, (row : Int) < next.start := by
        refine List.forall_mem_cons.mpr ⟨by omega, fun next hn => ?_⟩
        have := hlater next hn
        omega
      have hnever : ∀ other, ¬ Latest (note :: rest) row other := fun other hl => by
        have := hnone other hl.mem
        have := hl.start_le
        omega
      exact ⟨fun _ => (hrows row hrow).before fun next hn => hnone next (List.mem_cons_of_mem _ hn),
        fun other hl => absurd hl (hnever other), fun other hl => absurd hl (hnever other)⟩
    · have hempty' : ∀ first ∈ rest.head?, ∀ row : Nat, first.start < row →
          (writeNote rows note written rest).getD row .empty = .empty := by
        intro first hf row hrow
        obtain ⟨more, rfl⟩ := List.head?_eq_some_iff.mp hf
        have hstart := hlater first List.mem_cons_self
        rw [getD_writeNote_after hle0 hstart hrow]
        exact hempty0 row (hstart.trans hrow)
      obtain ⟨hsize, hrows⟩ := ih hsorted.of_cons hle' hstop' hempty' hrun
      rw [size_writeNote] at hsize hrows
      exact ⟨hsize, fun row hrow => (hrows row hrow).cons hle0 hstop0 hlater hrow (hempty0 row)
        ⟨before, middle, hmade⟩⟩

/-- Whatever the notes are, one of them adds nothing to a column but itself and a stop. -/
lemma fillColumn_step
    (h : (fillColumn makeNote rows (note :: rest)).run before = .ok (filled, after)) :
    ∃ changed middle, (fillColumn makeNote changed rest).run middle = .ok (filled, after) ∧
      changed.size = rows.size ∧
      ∀ written ∈ changed, written ∈ rows ∨ written = stopNote ∨ Made makeNote note written := by
  rw [fillColumn] at h
  by_cases hbehind : note.start ≥ rows.size
  · rw [if_pos hbehind] at h
    exact ⟨rows, before, h, rfl, fun _ hw => .inl hw⟩
  rw [if_neg hbehind] at h
  obtain ⟨made, middle, hmake, h⟩ := run_bind h
  obtain ⟨place, state, -, h⟩ := run_bind h
  have hset : ∀ written ∈ rows.setIfInBounds place made,
      written ∈ rows ∨ written = stopNote ∨ Made makeNote note written := by
    intro written hw
    rcases Array.mem_or_eq_of_mem_setIfInBounds hw with hw | rfl
    · exact .inl hw
    · exact .inr (.inr ⟨before, middle, hmake⟩)
  have hsize : (rows.setIfInBounds place made).size = rows.size := Array.size_setIfInBounds
  dsimp only at h
  by_cases hends : endsAt (rows.setIfInBounds place made).size note.stop rest = true
  · rw [if_pos hends] at h
    obtain ⟨stop, last, -, h⟩ := run_bind h
    by_cases htaken : ((rows.setIfInBounds place made).getD stop .empty).isValid = true
    · rw [if_pos htaken] at h
      exact ⟨_, last, h, hsize, hset⟩
    · rw [if_neg htaken] at h
      refine ⟨_, last, h, Array.size_setIfInBounds.trans hsize, fun written hw => ?_⟩
      rcases Array.mem_or_eq_of_mem_setIfInBounds hw with hw | rfl
      · exact hset written hw
      · exact .inr (.inl rfl)
  · rw [if_neg hends] at h
    exact ⟨_, state, h, hsize, hset⟩

lemma fillColumn_holds (h : (fillColumn makeNote rows notes).run before = .ok (filled, after)) :
    filled.size = rows.size ∧ ∀ written ∈ filled,
      written ∈ rows ∨ written = stopNote ∨ ∃ note ∈ notes, Made makeNote note written := by
  induction notes generalizing rows before with
  | nil =>
    obtain ⟨rfl, -⟩ := run_pure h
    exact ⟨rfl, fun _ hw => .inl hw⟩
  | cons note rest ih =>
    obtain ⟨changed, middle, hrest, hsize, hchanged⟩ := fillColumn_step h
    obtain ⟨hrestSize, hall⟩ := ih hrest
    refine ⟨hrestSize.trans hsize, fun written hw => ?_⟩
    rcases hall written hw with hw | hstop | ⟨other, ho, hmade⟩
    · refine (hchanged written hw).imp_right fun hnew => hnew.imp_right fun hmade => ?_
      exact ⟨note, List.mem_cons_self, hmade⟩
    · exact .inr (.inl hstop)
    · exact .inr (.inr ⟨other, List.mem_cons_of_mem _ ho, hmade⟩)

end Rows

section Columns

variable {makeNote : NoteSpan → Session Note} {count : Nat} {notes : List NoteSpan}
  {column : List Note} {before after : Ensemble}

/-- A column has all its rows, and they hold nothing but notes and stops. -/
lemma column_holds
    (h : (Arrangement.column makeNote count notes).run before = .ok (column, after)) :
    column.length = count ∧ ∀ written ∈ column,
      written = .empty ∨ written = stopNote ∨ ∃ note ∈ notes, Made makeNote note written := by
  obtain ⟨filled, middle, hfilled, h⟩ := run_bind h
  obtain ⟨rfl, rfl⟩ := run_pure h
  obtain ⟨hsize, hall⟩ := fillColumn_holds hfilled
  refine ⟨by rw [Array.length_toList, hsize, Array.size_replicate], fun written hw => ?_⟩
  refine (hall written (Array.mem_toList_iff.mp hw)).imp_left fun hm => ?_
  exact (Array.mem_replicate.mp hm).2

/-- A row of a column shows the last note that starts up to it, or is empty. -/
lemma column_shows (hsorted : notes.Pairwise (·.start < ·.start))
    (hle : ∀ note ∈ notes, 0 ≤ note.start) (hstop : ∀ note ∈ notes, note.start < note.stop)
    (h : (Arrangement.column makeNote count notes).run before = .ok (column, after)) :
    ∀ row < count, Shows makeNote notes row .empty (column.getD row .empty) := by
  obtain ⟨filled, middle, hfilled, h⟩ := run_bind h
  obtain ⟨rfl, rfl⟩ := run_pure h
  have hempty : ∀ row : Nat,
      (Array.replicate count Note.empty).getD row .empty = .empty := by
    intro row
    rw [Array.getD_eq_getD_getElem?, Array.getElem?_replicate]
    split
    · rfl
    · rfl
  intro row hrow
  obtain ⟨-, hrows⟩ := fillColumn_shows hsorted hle hstop (fun _ _ row _ => hempty row) hfilled
  rw [Array.size_replicate] at hrows
  have hshows := hrows row hrow
  rw [hempty row, Array.getD_eq_getD_getElem?] at hshows
  rw [List.getD_eq_getElem?_getD, Array.getElem?_toList]
  exact hshows

end Columns

end Chiptune.Arrangement
