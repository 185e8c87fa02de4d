import Chiptune.Arrangement.Ensemble
import Chiptune.Proofs.GridOrder
import Chiptune.Proofs.NoteSpans

/-!
# Programs in force

The changes of a channel are looked up by their rows. So a note gets the program of the last change
before its start in the timeline, unless there are changes behind its start in the same row: of
these the last one counts.
-/

namespace Chiptune

open Midi (Moment NoteSpan)

/-- What a map has for a program: an entry of its own, or the one for all other programs. -/
def InstrumentMap.entry (map : InstrumentMap) (program : Int) : Option Int × InstrumentSpec :=
  match map.programs.lookup program with
  | some spec => (some program, spec)
  | none => (none, map.default)

lemma InstrumentMap.entry_congr (map : InstrumentMap) {program other : Int}
    (h : (map.entry program).1 = (map.entry other).1) : map.entry program = map.entry other := by
  unfold InstrumentMap.entry at h ⊢
  cases hprogram : map.programs.lookup program with
  | none =>
    cases hother : map.programs.lookup other with
    | none => rfl
    | some spec =>
      rw [hprogram, hother] at h
      cases h
  | some spec =>
    cases hother : map.programs.lookup other with
    | none =>
      rw [hprogram, hother] at h
      cases h
    | some spec' =>
      rw [hprogram, hother] at h
      obtain rfl : program = other := Option.some.inj h
      rw [Option.some.inj (hprogram.symm.trans hother)]

namespace Arrangement

/-- A start of a note in a timeline. What follows it is cut into two parts. -/
structure Start where
  earlier : List Moment
  tick : Int
  channel : Nat
  key : Nat
  velocity : Nat
  row : Int
  same : List Moment
  later : List Moment

namespace Start

def moment (start : Start) : Moment :=
  ⟨start.tick, .noteOn start.channel start.key start.velocity⟩

/-- The note starts in its row, and of the changes of its channel that follow it those in the first
part lie in the row and those in the second one behind it. -/
structure In (start : Start) (grid : Grid) (timeline : List Moment) : Prop where
  timeline : timeline = start.earlier ++ start.moment :: (start.same ++ start.later)
  loud : start.velocity ≠ 0
  row : grid.row start.tick = .ok start.row
  same : ∀ change ∈ Midi.programChanges start.same start.channel,
    grid.row change.1 = .ok start.row
  later : ∀ change ∈ Midi.programChanges start.later start.channel,
    ∃ behind, grid.row change.1 = .ok behind ∧ start.row < behind

/-- The program of the last change of the channel up to the row. -/
def program (start : Start) (default : Int) : Int :=
  match (Midi.programChanges (start.earlier ++ start.same) start.channel).getLast? with
  | some change => change.2
  | none => default

end Start

section Changes

variable {row : Int} {changes : Array (Int × Nat)} {low high count : Nat}

/-- Halving finds where the changes up to a row end, if the later ones all lie behind it. -/
lemma changesUpTo_eq (hupTo : ∀ i < count, (changes.getD i (0, 0)).1 ≤ row)
    (hbehind : ∀ i, count ≤ i → i < changes.size → row < (changes.getD i (0, 0)).1)
    (hlow : low ≤ count) (hhigh : count ≤ high) (hsize : high ≤ changes.size) :
    changesUpTo row changes low high = count := by
  fun_induction changesUpTo row changes low high with
  | case1 low high hlt middle hless ih =>
    refine ih hlow ?_ (by omega)
    by_contra hover
    have hle := hupTo middle (by omega)
    omega
  | case2 low high hlt middle hge ih =>
    refine ih ?_ hhigh hsize
    by_contra hover
    have hless := hbehind middle (by omega) (by omega)
    omega
  | case3 low high hge => omega

end Changes

section Programs

variable {grid : Grid} {timeline : List Moment} {programs : List ProgramRows} {score : Score}
  {channel : Nat} {row : Int}

lemma mem_programChanges {change : Int × Nat} : change ∈ Midi.programChanges timeline channel ↔
    ⟨change.1, .program channel change.2⟩ ∈ timeline := by
  obtain ⟨tick, number⟩ := change
  constructor
  · intro h
    obtain ⟨⟨tick', event⟩, hm, h⟩ := List.mem_filterMap.mp h
    cases event with
    | program c n =>
      by_cases hc : c = channel
      · simp only [if_pos hc, Option.some.injEq, Prod.mk.injEq] at h
        obtain ⟨rfl, rfl⟩ := h
        exact hc ▸ hm
      · simp only [if_neg hc, reduceCtorEq] at h
    | noteOn _ _ _ | noteOff _ _ | tempo _ | other => cases h
  · exact fun h => List.mem_filterMap.mpr ⟨_, h, if_pos rfl⟩

/-- A change at its row. -/
def placeChange (grid : Grid) (change : Int × Nat) : Outcome (Int × Nat) := do
  return (← grid.row change.1, change.2)

lemma placeChange_eq_ok {change placed : Int × Nat} (h : placeChange grid change = .ok placed) :
    grid.row change.1 = .ok placed.1 ∧ placed.2 = change.2 := by
  obtain ⟨row, hrow, h⟩ := (bind_eq_ok_iff _ _ _).mp h
  obtain rfl := Except.ok.inj h
  exact ⟨hrow, rfl⟩

lemma rowsOf_eq_ok {entry : ProgramRows} (h : (do
      let changes ← (Midi.programChanges timeline channel).mapM (placeChange grid)
      return ⟨channel, changes.toArray⟩ : Outcome ProgramRows) = .ok entry) :
    entry.channel = channel ∧ ∃ placed,
      (Midi.programChanges timeline channel).mapM (placeChange grid) = .ok placed ∧
        entry.changes = placed.toArray := by
  obtain ⟨placed, hmapped, h⟩ := (bind_eq_ok_iff _ _ _).mp h
  obtain rfl := Except.ok.inj h
  exact ⟨rfl, placed, hmapped, rfl⟩

/-- All changes of a channel have rows, and these are what is looked up. -/
lemma programRows_placed (h : programRows grid timeline = .ok programs) (channel : Nat) :
    ∃ placed, (Midi.programChanges timeline channel).mapM (placeChange grid) = .ok placed ∧
      ((programs.find? (·.channel == channel)).map (·.changes)).getD #[] = placed.toArray := by
  have hrows := (mapM_eq_ok_iff _ _ _).mp h
  cases hfound : programs.find? (·.channel == channel) with
  | some entry =>
    have hchannel := List.find?_some hfound
    rw [beq_iff_eq] at hchannel
    obtain ⟨other, -, hentry⟩ := exists_left_of_mem hrows (List.mem_of_find?_eq_some hfound)
    obtain ⟨heq, hplaced⟩ := rowsOf_eq_ok hentry
    exact (heq.symm.trans hchannel) ▸ hplaced
  | none =>
    -- A channel that is not found has no changes.
    have hnone : Midi.programChanges timeline channel = [] := by
      refine List.eq_nil_iff_forall_not_mem.mpr fun change hchange => ?_
      obtain ⟨entry, he, hentry⟩ := exists_right_of_mem hrows
        (List.mem_eraseDups.mpr (List.mem_filterMap.mpr ⟨_, mem_programChanges.mp hchange, rfl⟩))
      have hother := List.find?_eq_none.mp hfound entry he
      exact hother (beq_iff_eq.mpr (rowsOf_eq_ok hentry).1)
    rw [hnone]
    exact ⟨[], rfl, rfl⟩

lemma row_of_change (h : programRows grid timeline = .ok programs) {change : Int × Nat}
    (hc : change ∈ Midi.programChanges timeline channel) : ∃ row, grid.row change.1 = .ok row := by
  obtain ⟨placed, hplaced, -⟩ := programRows_placed h channel
  obtain ⟨entry, -, hentry⟩ := exists_right_of_mem ((mapM_eq_ok_iff _ _ _).mp hplaced) hc
  exact ⟨entry.1, (placeChange_eq_ok hentry).1⟩

section Split

variable {upTo behind : List (Int × Nat)} {first second : List (Int × Nat)}

/-- The search finds where the placed changes are split by the row. -/
lemma changesUpTo_placed (hfirst : upTo.mapM (placeChange grid) = .ok first)
    (hsecond : behind.mapM (placeChange grid) = .ok second)
    (hupTo : ∀ change ∈ upTo, ∃ place, grid.row change.1 = .ok place ∧ place ≤ row)
    (hbehind : ∀ change ∈ behind, ∃ place, grid.row change.1 = .ok place ∧ row < place) :
    changesUpTo row (first ++ second).toArray 0 (first ++ second).toArray.size =
      first.length := by
  rw [mapM_eq_ok_iff] at hfirst hsecond
  have hget : ∀ i, (first ++ second).toArray.getD i (0, 0) = (first ++ second).getD i (0, 0) := by
    intro i
    rw [Array.getD_eq_getD_getElem?, List.getElem?_toArray, List.getD_eq_getElem?_getD]
  refine changesUpTo_eq (fun i hi => ?_) (fun i hle hi => ?_) (Nat.zero_le _) ?_ (le_refl _)
  · rw [hget, List.getD_append _ _ _ _ hi, List.getD_eq_getElem _ _ hi]
    obtain ⟨change, hc, hplace⟩ := exists_left_of_mem hfirst (List.getElem_mem hi)
    obtain ⟨place, hrow, hle⟩ := hupTo change hc
    rwa [← Except.ok.inj (hrow.symm.trans (placeChange_eq_ok hplace).1)]
  · rw [List.size_toArray, List.length_append] at hi
    have hin : i - first.length < second.length := by omega
    rw [hget, List.getD_append_right _ _ _ _ hle, List.getD_eq_getElem _ _ hin]
    obtain ⟨change, hc, hplace⟩ := exists_left_of_mem hsecond (List.getElem_mem hin)
    obtain ⟨place, hrow, hlt⟩ := hbehind change hc
    rwa [← Except.ok.inj (hrow.symm.trans (placeChange_eq_ok hplace).1)]
  · rw [List.size_toArray, List.length_append]
    exact Nat.le_add_right _ _

lemma placed_getLast? (hfirst : upTo.mapM (placeChange grid) = .ok first) :
    first.getLast?.map Prod.snd = upTo.getLast?.map Prod.snd := by
  have hnumbers : first.map Prod.snd = upTo.map Prod.snd := by
    rw [mapM_eq_ok_iff] at hfirst
    induction hfirst with
    | nil => rfl
    | cons h _ ih => rw [List.map_cons, List.map_cons, (placeChange_eq_ok h).2, ih]
  rw [← List.getLast?_map, hnumbers, List.getLast?_map]

/-- The program in a row is that of the last change up to it, if all later ones lie behind it. -/
lemma program_eq (h : programRows grid timeline = .ok score.programs)
    (hsplit : Midi.programChanges timeline channel = upTo ++ behind)
    (hupTo : ∀ change ∈ upTo, ∃ place, grid.row change.1 = .ok place ∧ place ≤ row)
    (hbehind : ∀ change ∈ behind, ∃ place, grid.row change.1 = .ok place ∧ row < place) :
    score.program channel row = match upTo.getLast? with
      | some change => (change.2 : Int)
      | none => score.map.defaultProgram := by
  obtain ⟨placed, hplaced, hchanges⟩ := programRows_placed h channel
  rw [hsplit, List.mapM_append] at hplaced
  obtain ⟨first, hfirst, hplaced⟩ := (bind_eq_ok_iff _ _ _).mp hplaced
  obtain ⟨second, hsecond, hplaced⟩ := (bind_eq_ok_iff _ _ _).mp hplaced
  obtain rfl := Except.ok.inj hplaced
  rw [Score.program, hchanges, changesUpTo_placed hfirst hsecond hupTo hbehind]
  have hlast := placed_getLast? hfirst
  generalize upTo.getLast? = last at hlast ⊢
  rcases List.eq_nil_or_concat first with rfl | ⟨init, place, rfl⟩
  · obtain rfl : last = none := Option.map_eq_none_iff.mp hlast.symm
    rfl
  · rw [List.concat_eq_append] at hlast ⊢
    rw [List.getLast?_concat] at hlast
    obtain ⟨change, rfl, hnumber⟩ := Option.map_eq_some_iff.mp hlast.symm
    rw [List.length_append, List.length_singleton]
    simp [hnumber]

end Split

end Programs

section Starts

variable {grid : Grid} {timeline : List Moment} {programs : List ProgramRows} {score : Score}
  {row : Int} {start : Start}

lemma programChanges_append (first more : List Moment) (channel : Nat) :
    Midi.programChanges (first ++ more) channel =
      Midi.programChanges first channel ++ Midi.programChanges more channel :=
  List.filterMap_append

/-- The changes of a channel are those of the parts of its timeline. -/
lemma Start.In.changes (h : start.In grid timeline) :
    Midi.programChanges timeline start.channel =
      Midi.programChanges (start.earlier ++ start.same) start.channel ++
        Midi.programChanges start.later start.channel := by
  have hnone : Midi.programChanges (start.moment :: (start.same ++ start.later)) start.channel =
      Midi.programChanges (start.same ++ start.later) start.channel := rfl
  rw [h.timeline, programChanges_append, hnone, programChanges_append, programChanges_append,
    List.append_assoc]

/-- The program that is looked up for a note. -/
lemma Start.In.program_eq (h : start.In grid timeline)
    (hgrid : 0 ≤ grid.ticksPerRow.mantissa) (hsorted : timeline.Pairwise (·.tick ≤ ·.tick))
    (hprograms : programRows grid timeline = .ok score.programs) :
    score.program start.channel start.row = start.program score.map.defaultProgram := by
  refine Arrangement.program_eq hprograms h.changes (fun change hc => ?_) h.later
  rw [programChanges_append] at hc
  rcases List.mem_append.mp hc with hc | hc
  · -- What precedes the start lies in no later row.
    have hmem := mem_programChanges.mp hc
    have hchange : change ∈ Midi.programChanges timeline start.channel := by
      rw [h.timeline, programChanges_append]
      exact List.mem_append_left _ hc
    obtain ⟨place, hplace⟩ := row_of_change hprograms hchange
    rw [h.timeline, List.pairwise_append] at hsorted
    have hle := hsorted.2.2 _ hmem _ List.mem_cons_self
    exact ⟨place, hplace, grid.row_mono hgrid hplace h.row hle⟩
  · exact ⟨start.row, h.same change hc, le_refl _⟩

/-- Whether a moment changes the program of the channel behind a row. -/
def changesBehind (grid : Grid) (channel : Nat) (row : Int) (moment : Moment) : Bool :=
  (Midi.programChanges [moment] channel).any fun change =>
    match grid.row change.1 with
    | .ok place => row < place
    | .error _ => false

lemma changesBehind_iff {channel : Nat} {change : Int × Nat} {place : Int}
    (h : grid.row change.1 = .ok place) :
    changesBehind grid channel row ⟨change.1, .program channel change.2⟩ = true ↔ row < place := by
  have hone : Midi.programChanges [⟨change.1, .program channel change.2⟩] channel = [change] :=
    List.filterMap_cons_some (if_pos rfl)
  simp [changesBehind, hone, h]

section Cut

variable {rest : List Moment} {channel : Nat}
  (hgrid : 0 ≤ grid.ticksPerRow.mantissa) (hsorted : rest.Pairwise (·.tick ≤ ·.tick))
  (hrows : ∀ change ∈ Midi.programChanges rest channel, ∃ place, grid.row change.1 = .ok place)

include hgrid hrows

/-- What follows a start up to the first change behind its row changes the program only in it. -/
lemma row_of_takeWhile {tick : Int} (hrow : grid.row tick = .ok row)
    (hlater : ∀ moment ∈ rest, tick ≤ moment.tick) {change : Int × Nat}
    (hc : change ∈ Midi.programChanges (rest.takeWhile (!changesBehind grid channel row ·))
      channel) : grid.row change.1 = .ok row := by
  have hmem := mem_programChanges.mp hc
  have hin := (List.takeWhile_sublist _).subset hmem
  obtain ⟨place, hplace⟩ := hrows change (mem_programChanges.mpr hin)
  have hnot : changesBehind grid channel row ⟨change.1, .program channel change.2⟩ = false := by
    simpa using List.mem_takeWhile_imp hmem
  have hupTo : ¬ row < place := fun hless =>
    Bool.false_ne_true (hnot.symm.trans ((changesBehind_iff hplace).mpr hless))
  rw [hplace, le_antisymm (not_lt.mp hupTo) (grid.row_mono hgrid hrow hplace (hlater _ hin))]

include hsorted

/-- From the first change behind a row on, all changes lie behind it. -/
lemma row_of_dropWhile {change : Int × Nat}
    (hc : change ∈ Midi.programChanges (rest.dropWhile (!changesBehind grid channel row ·))
      channel) : ∃ place, grid.row change.1 = .ok place ∧ row < place := by
  have hmem := mem_programChanges.mp hc
  have hsub : (rest.dropWhile (!changesBehind grid channel row ·)).Sublist rest :=
    List.dropWhile_sublist _
  obtain ⟨place, hplace⟩ := hrows change (mem_programChanges.mpr (hsub.subset hmem))
  refine ⟨place, hplace, ?_⟩
  have hhead := List.head?_dropWhile_not (!changesBehind grid channel row ·) rest
  cases hdropped : rest.dropWhile (!changesBehind grid channel row ·) with
  | nil =>
    rw [hdropped] at hmem
    exact absurd hmem List.not_mem_nil
  | cons first more =>
    rw [hdropped] at hhead hmem hsub
    obtain ⟨found, hfound, -⟩ := List.any_eq_true.mp (by simpa using hhead :
      changesBehind grid channel row first = true)
    obtain rfl := List.mem_singleton.mp (mem_programChanges.mp hfound)
    obtain ⟨place', hplace'⟩ :=
      hrows found (mem_programChanges.mpr (hsub.subset List.mem_cons_self))
    have hless := (changesBehind_iff hplace').mp (by simpa using hhead)
    have hle : found.1 ≤ change.1 := by
      rcases List.mem_cons.mp hmem with heq | hmore
      · exact (Moment.mk.inj heq).1.ge
      · exact List.rel_of_pairwise_cons (hsorted.sublist hsub) hmore
    exact hless.trans_le (grid.row_mono hgrid hplace' hplace hle)

end Cut

/-- The timeline can be cut where the first change of the channel lies behind the row of a note. -/
lemma exists_start (hgrid : 0 ≤ grid.ticksPerRow.mantissa)
    (hsorted : timeline.Pairwise (·.tick ≤ ·.tick))
    (hprograms : programRows grid timeline = .ok programs) {position : Nat} {span : NoteSpan}
    (hspan : Midi.SpanAt timeline position span) (hrow : grid.row span.start = .ok row) :
    ∃ start : Start, start.In grid timeline ∧ start.channel = span.channel ∧
      start.key = span.key ∧ start.velocity = span.velocity ∧ start.row = row := by
  obtain ⟨hlt, hmoment⟩ := List.getElem?_eq_some_iff.mp hspan.start
  have hsplit : timeline = timeline.take position ++
      ⟨span.start, .noteOn span.channel span.key span.velocity⟩ ::
        timeline.drop (position + 1) := by
    rw [← hmoment, ← List.drop_eq_getElem_cons hlt, List.take_append_drop]
  generalize timeline.take position = earlier at hsplit
  generalize timeline.drop (position + 1) = rest at hsplit
  have hrows : ∀ change ∈ Midi.programChanges rest span.channel,
      ∃ place, grid.row change.1 = .ok place := by
    intro change hc
    have hmem : ⟨change.1, .program span.channel change.2⟩ ∈ timeline := by
      rw [hsplit]
      exact List.mem_append_right _ (List.mem_cons_of_mem _ (mem_programChanges.mp hc))
    exact row_of_change hprograms (mem_programChanges.mpr hmem)
  rw [hsplit, List.pairwise_append, List.pairwise_cons] at hsorted
  obtain ⟨-, ⟨hlater, hrest⟩, -⟩ := hsorted
  refine ⟨⟨earlier, span.start, span.channel, span.key, span.velocity, row,
    rest.takeWhile (!changesBehind grid span.channel row ·),
    rest.dropWhile (!changesBehind grid span.channel row ·)⟩, ⟨?_, hspan.loud, hrow, ?_, ?_⟩,
    rfl, rfl, rfl, rfl⟩
  · rw [List.takeWhile_append_dropWhile]
    exact hsplit
  · exact fun change hc => row_of_takeWhile hgrid hrows hrow hlater hc
  · exact fun change hc => row_of_dropWhile hgrid hrest hrows hc

end Starts

lemma any_eq_isSome_lookup {β : Type} (entries : List (Int × β)) (key : Int) :
    entries.any (·.1 == key) = (entries.lookup key).isSome := by
  rw [Bool.eq_iff_iff, List.any_eq_true, List.lookup_isSome_iff]
  simp only [beq_iff_eq, @eq_comm _ key]

lemma entry_eq (score : Score) (program : Int) : score.map.entry program =
    (score.mapped? program, score.spec (score.mapped? program)) := by
  unfold InstrumentMap.entry Score.mapped?
  rw [any_eq_isSome_lookup]
  cases hlookup : score.map.programs.lookup program with
  | none => rfl
  | some spec =>
    rw [Option.isSome_some, if_pos rfl, Score.spec, hlookup]
    rfl

end Arrangement

end Chiptune
