import Chiptune.Arrangement.Melody
import Mathlib.Data.List.Basic
import Mathlib.Tactic.Common

/-!
# The notes that are heard

Of the notes of a channel that start in one row a single one is heard. `heardAt` says which one that
is without sorting anything, and `melody` lists just these notes, in the order of their rows.
-/

namespace Chiptune.Arrangement

open Midi (NoteSpan)

/-- Louder than the other note, or as loud and not higher. -/
def outdoes (note other : NoteSpan) : Bool :=
  other.velocity < note.velocity || (other.velocity == note.velocity && note.key ≤ other.key)

/-- The note that is heard of those that start in a row: the loudest, of equally loud ones the
lowest, and of equal ones the first. -/
def heardAt (notes : List NoteSpan) (row : Int) : Option NoteSpan :=
  let starting := notes.filter (·.start == row)
  starting.find? fun note => starting.all (outdoes note)

/-- The last note that is heard to start before a row. -/
def lastHeard (notes : List NoteSpan) : (row : Nat) → Option NoteSpan
  | 0 => none
  | row + 1 => (heardAt notes row).or (lastHeard notes row)

/-- The notes start together, equally loud and with the same key. -/
def alike (a b : NoteSpan) : Bool :=
  a.start == b.start && a.velocity == b.velocity && a.key == b.key

lemma alike_iff (a b : NoteSpan) :
    alike a b = true ↔ a.start = b.start ∧ a.velocity = b.velocity ∧ a.key = b.key := by
  simp only [alike, Bool.and_eq_true, beq_iff_eq, and_assoc]

lemma outdoes_iff (a b : NoteSpan) :
    outdoes a b = true ↔ b.velocity < a.velocity ∨ b.velocity = a.velocity ∧ a.key ≤ b.key := by
  simp only [outdoes, Bool.or_eq_true, Bool.and_eq_true, decide_eq_true_eq, beq_iff_eq]

/-- A stable sort leaves elements in their order that it cannot tell apart. -/
lemma filter_mergeSort {α : Type} {le : α → α → Bool} {p : α → Bool} {l : List α}
    (trans : ∀ a b c, le a b → le b c → le a c) (total : ∀ a b, le a b || le b a)
    (h : ∀ a ∈ l, ∀ b ∈ l, p a → p b → le a b) : (l.mergeSort le).filter p = l.filter p := by
  have hsorted : (l.filter p).Pairwise (le · ·) := by
    refine List.pairwise_of_forall_mem_list fun a ha b hb => ?_
    rw [List.mem_filter] at ha hb
    exact h a ha.1 b hb.1 ha.2 hb.2
  have hkept := (List.sublist_mergeSort trans total hsorted List.filter_sublist).filter p
  rw [List.filter_filter] at hkept
  simp only [Bool.and_self] at hkept
  exact (hkept.eq_of_length (((List.mergeSort_perm l le).filter p).length_eq.symm)).symm

section Heard

variable {notes : List NoteSpan} {row : Int} {note : NoteSpan}

lemma heardAt_eq_some_iff : heardAt notes row = some note ↔
    note.start = row ∧ (∀ other ∈ notes, other.start = row → outdoes note other = true) ∧
      notes.find? (alike note) = some note := by
  -- The best of the notes that start in the row are those that are like `note`.
  have hbest : note.start = row →
      (∀ other ∈ notes, other.start = row → outdoes note other = true) → note ∈ notes →
      heardAt notes row = notes.find? (alike note) := by
    intro hstart hall hmem
    rw [heardAt, List.find?_filter, ← List.head?_filter, ← List.head?_filter]
    congr 1
    refine List.filter_congr fun other ho => ?_
    rw [Bool.eq_iff_iff, decide_eq_true_eq, beq_iff_eq, List.all_eq_true, alike_iff, hstart]
    constructor
    · intro h
      have hother := (outdoes_iff ..).mp
        (h.2 note (List.mem_filter.mpr ⟨hmem, beq_iff_eq.mpr hstart⟩))
      have hnote := (outdoes_iff ..).mp (hall other ho h.1)
      omega
    · intro h
      refine ⟨h.1.symm, fun third ht => ?_⟩
      rw [List.mem_filter, beq_iff_eq] at ht
      have := (outdoes_iff ..).mp (hall third ht.1 ht.2)
      rw [outdoes_iff]
      omega
  constructor
  · intro h
    have hmem := List.mem_of_find?_eq_some h
    have hall := List.find?_some h
    rw [List.mem_filter, beq_iff_eq] at hmem
    rw [List.all_eq_true] at hall
    have hothers : ∀ other ∈ notes, other.start = row → outdoes note other = true :=
      fun other ho hs => hall other (List.mem_filter.mpr ⟨ho, beq_iff_eq.mpr hs⟩)
    exact ⟨hmem.2, hothers, hbest hmem.2 hothers hmem.1 ▸ h⟩
  · intro h
    rw [hbest h.1 h.2.1 (List.mem_of_find?_eq_some h.2.2)]
    exact h.2.2

lemma mem_of_heardAt (h : heardAt notes row = some note) : note ∈ notes ∧ note.start = row := by
  have h := heardAt_eq_some_iff.mp h
  exact ⟨List.mem_of_find?_eq_some h.2.2, h.1⟩

/-- Which of some notes is heard does not depend on their order, but for equal ones. -/
lemma heardAt_filter_mergeSort {le : NoteSpan → NoteSpan → Bool} {p : NoteSpan → Bool}
    (trans : ∀ a b c, le a b → le b c → le a c) (total : ∀ a b, le a b || le b a)
    (h : ∀ a ∈ notes, ∀ b ∈ notes, p a → p b → alike a b = true → le a b) :
    heardAt ((notes.mergeSort le).filter p) row = heardAt (notes.filter p) row := by
  ext note
  have hlike : (notes.mergeSort le).filter (fun a => alike note a && p a) =
      notes.filter fun a => alike note a && p a := by
    refine filter_mergeSort trans total fun a ha b hb hna hnb => ?_
    rw [Bool.and_eq_true, alike_iff] at hna hnb
    exact h a ha b hb hna.2 hnb.2 ((alike_iff a b).mpr (by omega))
  rw [heardAt_eq_some_iff, heardAt_eq_some_iff, ← List.head?_filter, ← List.head?_filter,
    List.filter_filter, List.filter_filter, hlike]
  simp only [List.mem_filter, List.mem_mergeSort]

end Heard

lemma louder_trans (a b c : NoteSpan) : louder a b → louder b c → louder a c := by
  simp only [louder, Bool.or_eq_true, Bool.and_eq_true, decide_eq_true_eq, beq_iff_eq]
  omega

lemma louder_total (a b : NoteSpan) : louder a b || louder b a := by
  simp only [louder, Bool.or_eq_true, Bool.and_eq_true, decide_eq_true_eq, beq_iff_eq]
  omega

lemma before_trans (a b c : NoteSpan) : a.before b → b.before c → a.before c := by
  simp only [NoteSpan.before, Bool.or_eq_true, Bool.and_eq_true, decide_eq_true_eq, beq_iff_eq]
  omega

lemma before_total (a b : NoteSpan) : a.before b || b.before a := by
  simp only [NoteSpan.before, Bool.or_eq_true, Bool.and_eq_true, decide_eq_true_eq, beq_iff_eq]
  omega

section Melody

variable {notes : List NoteSpan} {channel : Nat} {note : NoteSpan} {last : Int}

lemma heardAt_of_louder (hchannel : ∀ note ∈ notes, note.channel = channel)
    (hsorted : notes.Pairwise (louder · ·)) (row : Int) :
    heardAt notes row = notes.find? (·.start == row) := by
  rw [← List.head?_filter, heardAt]
  cases hstarting : notes.filter (·.start == row) with
  | nil => rfl
  | cons first rest =>
    have hmem : ∀ other ∈ first :: rest, other.channel = channel ∧ other.start = row := by
      intro other ho
      rw [← hstarting, List.mem_filter, beq_iff_eq] at ho
      exact ⟨hchannel other ho.1, ho.2⟩
    have hfirst := hmem first List.mem_cons_self
    have hbefore : ∀ other ∈ rest, louder first other = true :=
      fun _ => List.rel_of_pairwise_cons (hstarting ▸ hsorted.filter _)
    rw [List.find?_cons_of_pos, List.head?_cons]
    rw [List.all_eq_true]
    intro other ho
    rw [outdoes_iff]
    rcases List.mem_cons.mp ho with rfl | hrest
    · omega
    · have hlouder := hbefore other hrest
      have hother := hmem other ho
      simp only [louder, Bool.or_eq_true, Bool.and_eq_true, decide_eq_true_eq,
        beq_iff_eq] at hlouder
      omega

/-- The first of the notes that start together stay, but for those that start at `last`. -/
lemma mem_firstOfEach (hsorted : notes.Pairwise (·.start ≤ ·.start))
    (hlast : ∀ note ∈ notes, last ≤ note.start) :
    note ∈ firstOfEach last notes ↔
      note.start ≠ last ∧ notes.find? (·.start == note.start) = some note := by
  induction notes generalizing last with
  | nil => simp [firstOfEach]
  | cons first rest ih =>
    have hrest : ∀ other ∈ rest, first.start ≤ other.start :=
      fun _ => List.rel_of_pairwise_cons hsorted
    rw [firstOfEach]
    by_cases hsame : first.start = last
    · rw [if_pos hsame, ih hsorted.of_cons (hsame ▸ hrest)]
      refine and_congr_right fun hne => ?_
      rw [List.find?_cons_of_neg (by simpa [hsame] using hne.symm)]
    · rw [if_neg hsame, List.mem_cons, ih hsorted.of_cons hrest]
      by_cases hstart : first.start = note.start
      · rw [List.find?_cons_of_pos (by simpa using hstart), Option.some_inj]
        constructor
        · rintro (rfl | h)
          · exact ⟨hsame, rfl⟩
          · exact absurd hstart.symm h.1
        · exact fun h => .inl h.2.symm
      · rw [List.find?_cons_of_neg (by simpa using hstart)]
        constructor
        · rintro (rfl | h)
          · exact absurd rfl hstart
          · have hmem := List.mem_of_find?_eq_some h.2
            have hle := hrest note hmem
            have hfirst := hlast first List.mem_cons_self
            exact ⟨by omega, h.2⟩
        · exact fun h => .inr ⟨Ne.symm hstart, h.2⟩

lemma firstOfEach_sublist (last : Int) (notes : List NoteSpan) :
    (firstOfEach last notes).Sublist notes := by
  induction notes generalizing last with
  | nil => exact List.Sublist.refl _
  | cons first rest ih =>
    rw [firstOfEach]
    split
    · exact (ih last).cons first
    · exact (ih first.start).cons_cons first

lemma firstOfEach_sorted (hsorted : notes.Pairwise (·.start ≤ ·.start))
    (hlast : ∀ note ∈ notes, last ≤ note.start) :
    (firstOfEach last notes).Pairwise (·.start < ·.start) := by
  induction notes generalizing last with
  | nil => exact List.Pairwise.nil
  | cons first rest ih =>
    have hrest : ∀ other ∈ rest, first.start ≤ other.start :=
      fun _ => List.rel_of_pairwise_cons hsorted
    rw [firstOfEach]
    split
    · exact ih hsorted.of_cons fun other ho => hlast other (List.mem_cons_of_mem _ ho)
    · refine List.pairwise_cons.mpr ⟨fun other ho => ?_, ih hsorted.of_cons hrest⟩
      have hne := ((mem_firstOfEach hsorted.of_cons hrest).mp ho).1
      have hle := hrest other ((firstOfEach_sublist _ _).subset ho)
      omega

lemma sorted_louder (notes : List NoteSpan) :
    (notes.mergeSort louder).Pairwise (·.start ≤ ·.start) := by
  refine (List.pairwise_mergeSort louder_trans louder_total notes).imp fun {a b} h => ?_
  simp only [louder, Bool.or_eq_true, Bool.and_eq_true, decide_eq_true_eq, beq_iff_eq] at h
  omega

lemma mem_of_mem_melody (h : note ∈ melody notes) : note ∈ notes :=
  List.mem_mergeSort.mp ((firstOfEach_sublist _ _).subset h)

variable (hstart : ∀ note ∈ notes, 0 ≤ note.start)

include hstart

lemma melody_sorted : (melody notes).Pairwise (·.start < ·.start) := by
  refine firstOfEach_sorted (sorted_louder notes) fun other ho => ?_
  have := hstart other (List.mem_mergeSort.mp ho)
  omega

lemma mem_melody (hchannel : ∀ note ∈ notes, note.channel = channel) :
    note ∈ melody notes ↔ heardAt notes note.start = some note := by
  have hsorted := List.pairwise_mergeSort louder_trans louder_total notes
  have hlike : ∀ a ∈ notes, ∀ b ∈ notes, alike a b = true → louder a b = true := by
    intro a ha b hb hab
    rw [alike_iff] at hab
    have := hchannel a ha
    have := hchannel b hb
    simp only [louder, Bool.or_eq_true, Bool.and_eq_true, decide_eq_true_eq, beq_iff_eq]
    omega
  have hheard : heardAt notes note.start =
      (notes.mergeSort louder).find? (·.start == note.start) := by
    have hsame : heardAt ((notes.mergeSort louder).filter fun _ => true) note.start =
        heardAt (notes.filter fun _ => true) note.start :=
      heardAt_filter_mergeSort louder_trans louder_total fun a ha b hb _ _ => hlike a ha b hb
    rw [List.filter_true, List.filter_true] at hsame
    rw [← hsame]
    exact heardAt_of_louder (fun other ho => hchannel other (List.mem_mergeSort.mp ho)) hsorted _
  rw [melody, mem_firstOfEach (sorted_louder notes) fun other ho => ?_, hheard]
  · refine and_iff_right_of_imp fun h => ?_
    have := hstart note (List.mem_mergeSort.mp (List.mem_of_find?_eq_some h))
    omega
  · have := hstart other (List.mem_mergeSort.mp ho)
    omega

end Melody

/-- Of two notes that are equally loud the lower one is heard. -/
example : heardAt [⟨0, 2, 0, 67, 90⟩, ⟨0, 7, 0, 64, 100⟩, ⟨0, 7, 0, 60, 100⟩] 0 =
    some ⟨0, 7, 0, 60, 100⟩ := by decide

lemma lastHeard_congr {notes others : List NoteSpan}
    (h : ∀ row, heardAt notes row = heardAt others row) (row : Nat) :
    lastHeard notes row = lastHeard others row := by
  induction row with
  | zero => rfl
  | succ row ih => rw [lastHeard, lastHeard, ih, h]

section Last

variable {notes : List NoteSpan} {row : Nat} {note : NoteSpan}

lemma lastHeard_eq_none_iff :
    lastHeard notes row = none ↔ ∀ earlier < row, heardAt notes earlier = none := by
  induction row with
  | zero => simp [lastHeard]
  | succ row ih =>
    rw [lastHeard, Option.or_eq_none_iff, ih]
    constructor
    · intro h earlier hlt
      by_cases heq : earlier = row
      · exact heq ▸ h.1
      · exact h.2 earlier (by omega)
    · exact fun h => ⟨h row (by omega), fun earlier hlt => h earlier (by omega)⟩

lemma lastHeard_eq_some_iff : lastHeard notes row = some note ↔
    ∃ start < row, heardAt notes start = some note ∧
      ∀ between, start < between → between < row → heardAt notes between = none := by
  induction row with
  | zero => simp [lastHeard]
  | succ row ih =>
    rw [lastHeard]
    cases hheard : heardAt notes row with
    | some heard =>
      rw [Option.some_or, Option.some_inj]
      constructor
      · rintro rfl
        exact ⟨row, by omega, hheard, fun between _ _ => by omega⟩
      · rintro ⟨start, hlt, hstart, hnone⟩
        by_cases heq : start = row
        · exact Option.some.inj (hheard.symm.trans (heq ▸ hstart))
        · have := hnone row (by omega) (by omega)
          rw [hheard] at this
          cases this
    | none =>
      rw [Option.none_or, ih]
      constructor
      · rintro ⟨start, hlt, hstart, hnone⟩
        refine ⟨start, by omega, hstart, fun between hs hb => ?_⟩
        by_cases heq : between = row
        · exact heq ▸ hheard
        · exact hnone between hs (by omega)
      · rintro ⟨start, hlt, hstart, hnone⟩
        have hne : start ≠ row := by
          rintro rfl
          rw [hheard] at hstart
          cases hstart
        exact ⟨start, by omega, hstart, fun between hs hb => hnone between hs (by omega)⟩

end Last

end Chiptune.Arrangement
