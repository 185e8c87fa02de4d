import Chiptune.Proofs.QuantisedNotes

/-!
# The spans of notes

Every start of a note becomes one span, and nothing else does. A span ends with the next event of
its channel and key, whether that starts or ends a note, and else with the timeline.
-/

namespace Chiptune.Midi

/-- Whether an event starts or ends a note of a key. It ends the one that sounds in either case. -/
def Event.concerns (channel key : Nat) : Event → Bool
  | .noteOn c k _ | .noteOff c k => c == channel && k == key
  | _ => false

/-- The tick of the first of some moments that concerns a key, or the last tick of all. -/
def stopAmong (final : Int) (channel key : Nat) (later : List Moment) : Int :=
  ((later.find? (·.event.concerns channel key)).map Moment.tick).getD final

/-- Whether a note starts. A start without velocity is an end. -/
def Moment.startsNote (moment : Moment) : Bool :=
  match moment.event with
  | .noteOn _ _ velocity => velocity != 0
  | _ => false

/-- The span of the note that starts at a position of a timeline. -/
structure SpanAt (timeline : List Moment) (position : Nat) (span : NoteSpan) : Prop where
  start : timeline[position]? = some ⟨span.start, .noteOn span.channel span.key span.velocity⟩
  loud : span.velocity ≠ 0
  stop : span.stop =
    stopAmong (lastTick timeline) span.channel span.key (timeline.drop (position + 1))

/-- Notes of one key do not overlap: the first one is over when the second one starts. -/
def NoteSpan.Apart (a b : NoteSpan) : Prop :=
  a.channel = b.channel → a.key = b.key → a.stop ≤ b.start

/-- The spans are those of the notes that start in a timeline, one for each, in order of start,
channel and key. A note of a key is over when the next one starts. -/
structure Spans (timeline : List Moment) (spans : List NoteSpan) : Prop where
  each : ∃ positions : List Nat, positions.Nodup ∧
    (∀ position, position ∈ positions ↔ ∃ moment, timeline[position]? = some moment ∧
      moment.startsNote = true) ∧
    List.Forall₂ (SpanAt timeline) positions spans
  ordered : spans.Pairwise fun a b => a.start < b.start ∨ a.start = b.start ∧
    (a.channel < b.channel ∨ a.channel = b.channel ∧ a.key ≤ b.key)
  apart : spans.Pairwise NoteSpan.Apart

lemma momentsFrom_pairwise {track : Track} (h : ∀ message ∈ track, 0 ≤ message.delta)
    (now : Int) : (∀ moment ∈ momentsFrom now track, now ≤ moment.tick) ∧
      (momentsFrom now track).Pairwise (·.tick ≤ ·.tick) := by
  induction track generalizing now with
  | nil => exact ⟨fun _ hm => absurd hm List.not_mem_nil, .nil⟩
  | cons message rest ih =>
    have hdelta := h message List.mem_cons_self
    obtain ⟨hlater, hrest⟩ := ih (fun other ho => h other (List.mem_cons_of_mem _ ho))
      (now + message.delta)
    refine ⟨List.forall_mem_cons.mpr ⟨?_, fun moment hm => ?_⟩,
      List.pairwise_cons.mpr ⟨hlater, hrest⟩⟩
    · dsimp only
      omega
    · have hle := hlater moment hm
      omega

lemma timeline_pairwise (score : Score) : score.timeline.Pairwise (·.tick ≤ ·.tick) := by
  have htrans : ∀ a b c : Moment, decide (a.tick ≤ b.tick) = true →
      decide (b.tick ≤ c.tick) = true → decide (a.tick ≤ c.tick) = true := by
    simp only [decide_eq_true_eq]
    omega
  have htotal : ∀ a b : Moment,
      (decide (a.tick ≤ b.tick) || decide (b.tick ≤ a.tick)) = true := by
    simp only [Bool.or_eq_true, decide_eq_true_eq]
    omega
  exact (List.pairwise_mergeSort htrans htotal _).imp of_decide_eq_true

/-- The two notes have the same channel and the same key. -/
def OpenNote.Rivals (a b : OpenNote) : Prop := a.channel = b.channel ∧ a.key = b.key

/-- The note that starts at a moment. -/
def Moment.opened? (moment : Moment) : Option OpenNote :=
  match moment.event with
  | .noteOn channel key velocity =>
    if velocity = 0 then none else some ⟨channel, key, moment.tick, velocity⟩
  | _ => none

/-- The span of an open note if some moments follow. -/
def OpenNote.span (final : Int) (later : List Moment) (note : OpenNote) : NoteSpan :=
  note.closeAt (stopAmong final note.channel note.key later)

/-- The spans of the notes that start at some moments, in the order of their starts. -/
def spansFrom (final : Int) : List Moment → List NoteSpan
  | [] => []
  | moment :: rest => (moment.opened?.map (OpenNote.span final rest)).toList ++ spansFrom final rest

/-- At most one note of a key sounds, and it started when all ended notes of the key were over. -/
structure Sounding.Orderly (now : Int) (sounding : Sounding) : Prop where
  distinct : sounding.active.Pairwise fun a b => ¬ a.Rivals b
  started : ∀ note ∈ sounding.active, note.start ≤ now
  past : ∀ span ∈ sounding.ended, span.stop ≤ now
  between : ∀ span ∈ sounding.ended, ∀ note ∈ sounding.active,
    span.channel = note.channel → span.key = note.key → span.stop ≤ note.start
  ended : sounding.ended.Pairwise fun later earlier => earlier.Apart later

section Sounding

variable {sounding : Sounding} {note : OpenNote} {channel key : Nat} {tick now final : Int}
  {moment : Moment} {rest : List Moment}

lemma isFor_iff : note.isFor channel key = true ↔ note.channel = channel ∧ note.key = key := by
  simp only [OpenNote.isFor, Bool.and_eq_true, beq_iff_eq]

lemma stop_closeAt (h : note.start ≤ tick) : (note.closeAt tick).stop = tick := by
  simp only [OpenNote.closeAt, NoteSpan.stop]
  omega

/-- What the end of a key does: nothing if no note of the key sounds, else it ends the only one. -/
lemma stop_cases (h : sounding.active.Pairwise fun a b => ¬ a.Rivals b)
    (channel key : Nat) (tick : Int) :
    (∀ note ∈ sounding.active, note.isFor channel key = false) ∧
        sounding.stop channel key tick = sounding ∨
      ∃ before note after, sounding.active = before ++ note :: after ∧
        note.isFor channel key = true ∧
        (∀ other ∈ before ++ after, other.isFor channel key = false) ∧
        sounding.stop channel key tick =
          ⟨before ++ after, note.closeAt tick :: sounding.ended⟩ := by
  unfold Sounding.stop
  cases hfound : sounding.active.find? (OpenNote.isFor channel key) with
  | none =>
    refine .inl ⟨fun note hn => ?_, rfl⟩
    simpa using List.find?_eq_none.mp hfound note hn
  | some note =>
    obtain ⟨hfor, before, after, hactive, hbefore⟩ := List.find?_eq_some_iff_append.mp hfound
    have hothers : ∀ other ∈ before ++ after, other.isFor channel key = false := by
      intro other ho
      rcases List.mem_append.mp ho with ho | ho
      · simpa using hbefore other ho
      · rw [hactive, List.pairwise_append] at h
        have hrivals := List.rel_of_pairwise_cons h.2.1 ho
        rw [Bool.eq_false_iff]
        intro hother
        obtain ⟨hc, hk⟩ := isFor_iff.mp hother
        obtain ⟨hc', hk'⟩ := isFor_iff.mp hfor
        exact hrivals ⟨hc'.trans hc.symm, hk'.trans hk.symm⟩
    refine .inr ⟨before, note, after, hactive, hfor, hothers, ?_⟩
    have hkept : ∀ other ∈ before ++ after, (!OpenNote.isFor channel key other) = true :=
      fun other ho => by rw [hothers other ho]; rfl
    have hfilter : sounding.active.filter (!OpenNote.isFor channel key ·) = before ++ after := by
      rw [hactive, List.filter_append, List.filter_cons_of_neg (by simp [hfor]),
        ← List.filter_append, List.filter_eq_self.mpr hkept]
    rw [hfilter]

/-- The event is the start or the end of a note of one key. -/
def Event.IsFor (channel key : Nat) (event : Event) : Prop :=
  ∀ c k, event.concerns c k = true ↔ channel = c ∧ key = k

lemma isFor_noteOn (channel key velocity : Nat) :
    (Event.noteOn channel key velocity).IsFor channel key := by
  intro c k
  simp only [Event.concerns, Bool.and_eq_true, beq_iff_eq]

lemma isFor_noteOff (channel key : Nat) : (Event.noteOff channel key).IsFor channel key := by
  intro c k
  simp only [Event.concerns, Bool.and_eq_true, beq_iff_eq]

lemma span_of_concerns (h : moment.event.concerns note.channel note.key = true) :
    note.span final (moment :: rest) = note.closeAt moment.tick := by
  have hfirst : (moment :: rest).find? (·.event.concerns note.channel note.key) = some moment :=
    List.find?_cons_of_pos h
  rw [OpenNote.span, stopAmong, hfirst]
  rfl

lemma span_of_not_concerns (h : moment.event.concerns note.channel note.key = false) :
    note.span final (moment :: rest) = note.span final rest := by
  have hnext : (moment :: rest).find? (·.event.concerns note.channel note.key) =
      rest.find? (·.event.concerns note.channel note.key) :=
    List.find?_cons_of_neg (by simp [h])
  rw [OpenNote.span, stopAmong, hnext]
  rfl

/-- The notes that are over and those that sound keep their spans when a key is ended. -/
lemma stop_spans (h : sounding.active.Pairwise fun a b => ¬ a.Rivals b) (moment : Moment)
    (final : Int) (rest : List Moment) (hevent : moment.event.IsFor channel key) :
    ((sounding.stop channel key moment.tick).ended ++
        (sounding.stop channel key moment.tick).active.map (OpenNote.span final rest)).Perm
      (sounding.ended ++ sounding.active.map (OpenNote.span final (moment :: rest))) := by
  have hspared : ∀ others : List OpenNote, (∀ other ∈ others, other.isFor channel key = false) →
      others.map (OpenNote.span final (moment :: rest)) =
        others.map (OpenNote.span final rest) := by
    refine fun others hothers => List.map_congr_left fun other ho => span_of_not_concerns ?_
    rw [Bool.eq_false_iff]
    intro hconcerns
    obtain ⟨hc, hk⟩ := (hevent _ _).mp hconcerns
    exact Bool.eq_false_iff.mp (hothers other ho) (isFor_iff.mpr ⟨hc.symm, hk.symm⟩)
  rcases stop_cases h channel key moment.tick with
    ⟨hnone, hstop⟩ | ⟨before, note, after, hactive, hfor, hothers, hstop⟩
  · rw [hstop, hspared _ hnone]
  · obtain ⟨hc, hk⟩ := isFor_iff.mp hfor
    have hended : note.span final (moment :: rest) = note.closeAt moment.tick :=
      span_of_concerns ((hevent _ _).mpr ⟨hc.symm, hk.symm⟩)
    have hmap : sounding.active.map (OpenNote.span final (moment :: rest)) =
        before.map (OpenNote.span final rest) ++ note.closeAt moment.tick ::
          after.map (OpenNote.span final rest) := by
      rw [List.forall_mem_append] at hothers
      rw [hactive, List.map_append, List.map_cons, hended, hspared _ hothers.1,
        hspared _ hothers.2]
    rw [hstop, hmap]
    dsimp only
    rw [List.map_append, List.cons_append]
    exact (List.perm_middle.symm.trans (List.perm_middle.symm.append_left _))

/-- What a moment does: the notes that are over and those that sound keep their spans, and the note
that starts gets one. -/
lemma step_spans (h : sounding.active.Pairwise fun a b => ¬ a.Rivals b) (moment : Moment)
    (final : Int) (rest : List Moment) :
    ((sounding.step moment).ended ++
        (sounding.step moment).active.map (OpenNote.span final rest)).Perm
      (sounding.ended ++ sounding.active.map (OpenNote.span final (moment :: rest)) ++
        (moment.opened?.map (OpenNote.span final rest)).toList) := by
  obtain ⟨tick, event⟩ := moment
  cases event with
  | noteOn channel key velocity =>
    have hstop := stop_spans h ⟨tick, .noteOn channel key velocity⟩ final rest
      (isFor_noteOn channel key velocity)
    by_cases hv : velocity = 0
    · simpa only [Sounding.step, Moment.opened?, if_pos hv, Option.map_none, Option.toList_none,
        List.append_nil] using hstop
    · simp only [Sounding.step, Moment.opened?, if_neg hv, Option.map_some, Option.toList_some,
        List.map_append, List.map_singleton]
      rw [← List.append_assoc]
      exact hstop.append_right _
  | noteOff channel key =>
    simpa only [Sounding.step, Moment.opened?, Option.map_none, Option.toList_none,
      List.append_nil] using stop_spans h ⟨tick, .noteOff channel key⟩ final rest
        (isFor_noteOff channel key)
  | program _ _ | tempo _ | other =>
    simp only [Sounding.step, Moment.opened?, Option.map_none, Option.toList_none, List.append_nil]
    exact .of_eq (congrArg _ (List.map_congr_left fun note _ => (span_of_not_concerns rfl).symm))

lemma Sounding.Orderly.stop (h : sounding.Orderly now) (htick : now ≤ tick) (channel key : Nat) :
    (sounding.stop channel key tick).Orderly tick ∧
      ∀ note ∈ (sounding.stop channel key tick).active, note.isFor channel key = false := by
  rcases stop_cases h.distinct channel key tick with
    ⟨hnone, hstop⟩ | ⟨before, note, after, hactive, hfor, hothers, hstop⟩
  · rw [hstop]
    exact ⟨⟨h.distinct, fun note hn => (h.started note hn).trans htick,
      fun span hs => (h.past span hs).trans htick, h.between, h.ended⟩, hnone⟩
  · have hkept : ∀ other ∈ before ++ after, other ∈ sounding.active := by
      intro other ho
      rw [hactive]
      simp only [List.mem_append, List.mem_cons] at ho ⊢
      tauto
    have hnote : note ∈ sounding.active := by simp [hactive]
    have hstart := h.started note hnote
    have hclosed : (note.closeAt tick).stop = tick := stop_closeAt (hstart.trans htick)
    have hsub : (before ++ after).Sublist sounding.active := by
      rw [hactive]
      exact List.Sublist.append_left (List.sublist_cons_self _ _) _
    rw [hstop]
    refine ⟨⟨h.distinct.sublist hsub,
      fun other ho => (h.started other (hkept other ho)).trans htick,
      List.forall_mem_cons.mpr ⟨hclosed.le, fun span hs => (h.past span hs).trans htick⟩,
      List.forall_mem_cons.mpr ⟨fun other ho hc hk => ?_,
        fun span hs other ho => h.between span hs other (hkept other ho)⟩,
      List.pairwise_cons.mpr ⟨fun span hs hc hk => h.between span hs note hnote hc hk, h.ended⟩⟩,
      hothers⟩
    -- The note that is over was the only one of its key.
    obtain ⟨hfc, hfk⟩ := isFor_iff.mp hfor
    have hother := isFor_iff.mpr ⟨hc.symm.trans hfc, hk.symm.trans hfk⟩
    rw [hothers other ho] at hother
    cases hother

lemma Sounding.Orderly.step (h : sounding.Orderly now) (htick : now ≤ moment.tick) :
    (sounding.step moment).Orderly moment.tick := by
  unfold Sounding.step
  split
  · next channel key velocity _ =>
    obtain ⟨hstopped, hfree⟩ := h.stop htick channel key
    dsimp only
    split
    · exact hstopped
    · refine ⟨List.pairwise_append.mpr ⟨hstopped.distinct, List.pairwise_singleton _ _, ?_⟩,
        fun note hn => ?_, hstopped.past, fun span hs note hn => ?_, hstopped.ended⟩
      · intro note hn started hs
        obtain rfl := List.mem_singleton.mp hs
        intro hrivals
        have hfor := isFor_iff.mpr hrivals
        rw [hfree note hn] at hfor
        cases hfor
      · rcases List.mem_append.mp hn with hn | hn
        · exact hstopped.started note hn
        · obtain rfl := List.mem_singleton.mp hn
          exact le_refl _
      · rcases List.mem_append.mp hn with hn | hn
        · exact hstopped.between span hs note hn
        · obtain rfl := List.mem_singleton.mp hn
          exact fun _ _ => hstopped.past span hs
  · next channel key _ => exact (h.stop htick channel key).1
  · exact ⟨h.distinct, fun note hn => (h.started note hn).trans htick,
      fun span hs => (h.past span hs).trans htick, h.between, h.ended⟩

/-- A run through some moments: the notes at its end have the spans that the moments give them, and
those of a key come one after the other. -/
lemma run_spans (h : sounding.Orderly now) (hnow : ∀ moment ∈ rest, now ≤ moment.tick)
    (hrest : rest.Pairwise (·.tick ≤ ·.tick)) (final : Int) :
    ((rest.foldl Sounding.step sounding).finish final).Perm
        (sounding.ended ++ sounding.active.map (OpenNote.span final rest) ++ spansFrom final rest) ∧
      ((rest.foldl Sounding.step sounding).finish final).Pairwise NoteSpan.Apart := by
  induction rest generalizing sounding now with
  | nil =>
    have hspan : OpenNote.span final [] = (·.closeAt final) := rfl
    refine ⟨?_, ?_⟩
    · rw [List.foldl_nil, Sounding.finish, hspan, spansFrom, List.append_nil]
      exact (List.reverse_perm _).append_right _
    · rw [List.foldl_nil, Sounding.finish, List.pairwise_append, List.pairwise_reverse,
        List.pairwise_map]
      refine ⟨h.ended, h.distinct.imp fun hrivals hc hk => absurd ⟨hc, hk⟩ hrivals, ?_⟩
      intro span hs other ho hc hk
      obtain ⟨note, hn, rfl⟩ := List.mem_map.mp ho
      exact h.between span (List.mem_reverse.mp hs) note hn hc hk
  | cons moment rest ih =>
    obtain ⟨hlater, hsorted⟩ := List.pairwise_cons.mp hrest
    obtain ⟨hperm, happart⟩ := ih (h.step (hnow moment List.mem_cons_self)) hlater hsorted
    refine ⟨?_, happart⟩
    have hstep := (step_spans h.distinct moment final rest).append_right (spansFrom final rest)
    rw [List.foldl_cons]
    refine hperm.trans (hstep.trans (.of_eq ?_))
    rw [spansFrom, List.append_assoc]

end Sounding

section Positions

variable {timeline rest : List Moment} {moment : Moment} {note : OpenNote} {tick final : Int}

lemma opened?_eq_some_iff : moment.opened? = some note ↔
    moment = ⟨note.start, .noteOn note.channel note.key note.velocity⟩ ∧ note.velocity ≠ 0 := by
  obtain ⟨tick, event⟩ := moment
  obtain ⟨channel, key, start, velocity⟩ := note
  cases event with
  | noteOn c k v =>
    by_cases hv : v = 0
    · simp only [Moment.opened?, if_pos hv, Moment.mk.injEq, Event.noteOn.injEq, reduceCtorEq,
        false_iff]
      omega
    · simp only [Moment.opened?, if_neg hv, Moment.mk.injEq, Event.noteOn.injEq, Option.some.injEq,
        OpenNote.mk.injEq]
      omega
  | noteOff _ _ | program _ _ | tempo _ | other => simp [Moment.opened?]

lemma startsNote_iff : moment.startsNote = true ↔ moment.opened?.isSome = true := by
  obtain ⟨tick, event⟩ := moment
  cases event with
  | noteOn c k v => by_cases hv : v = 0 <;> simp [Moment.startsNote, Moment.opened?, hv]
  | noteOff _ _ | program _ _ | tempo _ | other => simp [Moment.startsNote, Moment.opened?]

lemma le_stopAmong (hlater : ∀ moment ∈ rest, tick ≤ moment.tick) (hfinal : tick ≤ final)
    (channel key : Nat) : tick ≤ stopAmong final channel key rest := by
  rw [stopAmong]
  cases hfound : rest.find? (·.event.concerns channel key) with
  | none => exact hfinal
  | some moment => exact hlater moment (List.mem_of_find?_eq_some hfound)

lemma le_lastTick (h : timeline.Pairwise (·.tick ≤ ·.tick)) (hm : moment ∈ timeline) :
    moment.tick ≤ lastTick timeline := by
  rcases List.eq_nil_or_concat timeline with rfl | ⟨before, last, rfl⟩
  · exact absurd hm List.not_mem_nil
  · rw [List.concat_eq_append] at h hm ⊢
    rw [lastTick, List.getLast?_concat, Option.map_some, Option.getD_some]
    rcases List.mem_append.mp hm with hm | hm
    · exact (List.pairwise_append.mp h).2.2 moment hm last (List.mem_singleton_self last)
    · exact (List.mem_singleton.mp hm ▸ le_refl _)

lemma spanAt_opened {before : List Moment}
    (h : (before ++ moment :: rest).Pairwise (·.tick ≤ ·.tick))
    (hopened : moment.opened? = some note) :
    SpanAt (before ++ moment :: rest) before.length
      (note.span (lastTick (before ++ moment :: rest)) rest) := by
  obtain ⟨hmoment, hloud⟩ := opened?_eq_some_iff.mp hopened
  have hstart : note.start = moment.tick := by rw [hmoment]
  have hlater := (List.pairwise_cons.mp (List.pairwise_append.mp h).2.1).1
  have hfinal := le_lastTick h (List.mem_append_right before List.mem_cons_self)
  have hstop := le_stopAmong hlater hfinal note.channel note.key
  refine ⟨?_, hloud, ?_⟩
  · rw [List.getElem?_append_right (le_refl _), Nat.sub_self, List.getElem?_cons_zero, hmoment]
    rfl
  · rw [OpenNote.span, stop_closeAt (hstart ▸ hstop)]
    simp [OpenNote.closeAt]

/-- The spans of the later part of a timeline, each with the position of its start. -/
lemma spansFrom_at (before : List Moment) {rest : List Moment}
    (h : (before ++ rest).Pairwise (·.tick ≤ ·.tick)) :
    ∃ positions : List Nat, positions.Nodup ∧
      (∀ position, position ∈ positions ↔ before.length ≤ position ∧
        ∃ moment, (before ++ rest)[position]? = some moment ∧ moment.startsNote = true) ∧
      List.Forall₂ (SpanAt (before ++ rest)) positions
        (spansFrom (lastTick (before ++ rest)) rest) := by
  induction rest generalizing before with
  | nil =>
    refine ⟨[], List.nodup_nil, fun position => ?_, .nil⟩
    simp only [List.not_mem_nil, false_iff]
    rintro ⟨hle, moment, hget, -⟩
    have hlt := (List.getElem?_eq_some_iff.mp hget).1
    simp only [List.append_nil] at hlt
    omega
  | cons moment rest ih =>
    have hsplit : before ++ moment :: rest = (before ++ [moment]) ++ rest := by simp
    obtain ⟨positions, hnodup, hmem, hspans⟩ := ih (before ++ [moment]) (hsplit ▸ h)
    rw [← hsplit, List.length_append, List.length_singleton] at hmem
    rw [← hsplit] at hspans
    have hhere : (before ++ moment :: rest)[before.length]? = some moment := by simp
    have hrest : ∀ position, position ∈ positions → position ≠ before.length := by
      rintro position hp rfl
      have := ((hmem _).mp hp).1
      omega
    cases hopened : moment.opened? with
    | none =>
      have hsilent : ¬ moment.startsNote = true := by simp [startsNote_iff, hopened]
      refine ⟨positions, hnodup, fun position => ?_, by simpa [spansFrom, hopened] using hspans⟩
      rw [hmem]
      refine ⟨fun hp => ⟨by omega, hp.2⟩, fun hp => ⟨?_, hp.2⟩⟩
      obtain ⟨hle, found, hget, hstarts⟩ := hp
      rcases Nat.lt_or_eq_of_le hle with hlt | rfl
      · exact hlt
      · obtain rfl := Option.some.inj (hhere.symm.trans hget)
        exact absurd hstarts hsilent
    | some note =>
      have hstarts : moment.startsNote = true := by simp [startsNote_iff, hopened]
      have hspan := spanAt_opened h hopened
      refine ⟨before.length :: positions,
        List.nodup_cons.mpr ⟨fun hp => hrest _ hp rfl, hnodup⟩, fun position => ?_,
        by simpa [spansFrom, hopened] using ⟨hspan, hspans⟩⟩
      rw [List.mem_cons, hmem]
      constructor
      · rintro (rfl | hp)
        · exact ⟨le_refl _, _, hhere, hstarts⟩
        · exact ⟨by omega, hp.2⟩
      · rintro ⟨hle, hp⟩
        rcases Nat.lt_or_eq_of_le hle with hlt | rfl
        · exact .inr ⟨hlt, hp⟩
        · exact .inl rfl

/-- A relation to the elements of a list is one to those of a rearrangement. -/
lemma forall₂_rearranged {α β : Type} {R : α → β → Prop} {xs : List α} {ys zs : List β}
    (h : List.Forall₂ R xs ys) (hperm : zs.Perm ys) : ∃ others : List α, others.Perm xs ∧
      List.Forall₂ R others zs := by
  obtain ⟨others, hothers, hp⟩ := List.perm_comp_forall₂ hperm h.flip
  exact ⟨others, hp, hothers.flip⟩

end Positions

/-! ### All notes of a timeline -/

section Notes

variable {timeline : List Moment} {spans : List NoteSpan}

lemma orderly_start (now : Int) : Sounding.Orderly now {} where
  distinct := .nil
  started := fun _ hn => absurd hn List.not_mem_nil
  past := fun _ hs => absurd hs List.not_mem_nil
  between := fun _ hs => absurd hs List.not_mem_nil
  ended := .nil

lemma duration_nonneg {final : Int} {later : List Moment} {span : NoteSpan}
    (h : span ∈ spansFrom final later) : 0 ≤ span.duration := by
  induction later with
  | nil => exact absurd h List.not_mem_nil
  | cons moment rest ih =>
    rcases List.mem_append.mp h with h | h
    · obtain ⟨note, -, rfl⟩ := Option.map_eq_some_iff.mp (Option.mem_toList.mp h)
      exact le_max_left 0 _
    · exact ih h

/-- Notes of one key that start together keep their order. -/
lemma sublist_of_mergeSort {a b : NoteSpan} (h : [a, b].Sublist (spans.mergeSort NoteSpan.before))
    (hstart : b.start = a.start) (hc : b.channel = a.channel) (hk : b.key = a.key) :
    [a, b].Sublist spans := by
  let p : NoteSpan → Bool := fun span =>
    span.start == a.start && span.channel == a.channel && span.key == a.key
  have hp : ∀ span, p span = true ↔
      span.start = a.start ∧ span.channel = a.channel ∧ span.key = a.key := by
    intro span
    simp only [p, Bool.and_eq_true, beq_iff_eq, and_assoc]
  have hfilter : (spans.mergeSort NoteSpan.before).filter p = spans.filter p := by
    refine Arrangement.filter_mergeSort Arrangement.before_trans Arrangement.before_total ?_
    intro first _ second _ hfirst hsecond
    rw [hp] at hfirst hsecond
    simp only [NoteSpan.before, Bool.or_eq_true, Bool.and_eq_true, decide_eq_true_eq, beq_iff_eq]
    omega
  have hall : [a, b].filter p = [a, b] := by
    refine List.filter_eq_self.mpr fun span hs => (hp span).mpr ?_
    simp only [List.mem_cons, List.not_mem_nil, or_false] at hs
    rcases hs with rfl | rfl
    · exact ⟨rfl, rfl, rfl⟩
    · exact ⟨hstart, hc, hk⟩
  have hkept := h.filter p
  rw [hall, hfilter] at hkept
  exact hkept.trans List.filter_sublist

lemma apart_mergeSort (hduration : ∀ span ∈ spans, 0 ≤ span.duration)
    (h : spans.Pairwise NoteSpan.Apart) :
    (spans.mergeSort NoteSpan.before).Pairwise NoteSpan.Apart := by
  have hsorted := List.pairwise_mergeSort Arrangement.before_trans Arrangement.before_total spans
  have hsymm : Std.Symm fun a b : NoteSpan => a.Apart b ∨ b.Apart a := ⟨fun _ _ => Or.symm⟩
  have hboth : spans.Pairwise fun a b => a.Apart b ∨ b.Apart a := h.imp Or.inl
  rw [List.pairwise_iff_forall_sublist] at h hsorted ⊢
  intro a b hpair hc hk
  have hle := hsorted hpair
  simp only [NoteSpan.before, Bool.or_eq_true, Bool.and_eq_true, decide_eq_true_eq,
    beq_iff_eq] at hle
  rcases Int.lt_or_eq_of_le (show a.start ≤ b.start by omega) with hlt | heq
  · have ha : a ∈ spans := List.mem_mergeSort.mp (hpair.subset (by simp))
    have hb : b ∈ spans := List.mem_mergeSort.mp (hpair.subset (by simp))
    have hne : a ≠ b := by
      rintro rfl
      omega
    rcases hboth.forall ha hb hne with happart | happart
    · exact happart hc hk
    · -- What starts later cannot be over before.
      have hlate := happart hc.symm hk.symm
      have hlong := hduration b hb
      rw [NoteSpan.stop] at hlate
      omega
  · exact h (sublist_of_mergeSort hpair heq.symm hc.symm hk.symm) hc hk

/-- In a timeline in order every note that starts gets its span. -/
lemma spans_notes (h : timeline.Pairwise (·.tick ≤ ·.tick)) : Spans timeline (notes timeline) := by
  -- Before the first moment nothing sounds, so any tick up to it will do.
  obtain ⟨now, hnow⟩ : ∃ now : Int, ∀ moment ∈ timeline, now ≤ moment.tick := by
    cases timeline with
    | nil => exact ⟨0, fun _ hm => absurd hm List.not_mem_nil⟩
    | cons first rest =>
      exact ⟨first.tick, List.forall_mem_cons.mpr ⟨le_refl _, (List.pairwise_cons.mp h).1⟩⟩
  obtain ⟨hperm, happart⟩ := run_spans (orderly_start now) hnow h (lastTick timeline)
  have hspans : (notes timeline).Perm (spansFrom (lastTick timeline) timeline) :=
    (List.mergeSort_perm _ _).trans hperm
  refine ⟨?_, ?_, apart_mergeSort (fun span hs => duration_nonneg (hperm.mem_iff.mp hs)) happart⟩
  · obtain ⟨positions, hnodup, hmem, hat⟩ := spansFrom_at [] h
    obtain ⟨others, hothers, hforall⟩ := forall₂_rearranged hat hspans
    refine ⟨others, hothers.nodup_iff.mpr hnodup, fun position => ?_, hforall⟩
    rw [hothers.mem_iff, hmem]
    simp
  · refine (List.pairwise_mergeSort Arrangement.before_trans Arrangement.before_total _).imp ?_
    intro a b hle
    simpa only [NoteSpan.before, Bool.or_eq_true, Bool.and_eq_true, decide_eq_true_eq,
      beq_iff_eq] using hle

end Notes

/-- All notes that start in a merged sequence of messages, and in a score, are extracted, and no
others. -/
theorem notes_spans :
    (∀ merged : Track, (∀ message ∈ merged, 0 ≤ message.delta) →
      Spans (moments merged) (notes (moments merged))) ∧
    ∀ score : Score, Spans score.timeline (notes score.timeline) :=
  ⟨fun _ h => spans_notes (momentsFrom_pairwise h 0).2,
    fun score => spans_notes (timeline_pairwise score)⟩

/-- A key is struck twice, ended by a start without velocity, and struck again in the same tick. -/
def struckTwice : Track :=
  [⟨0, .noteOn 0 60 100⟩, ⟨5, .noteOn 1 60 90⟩, ⟨5, .noteOn 0 60 80⟩, ⟨0, .noteOff 2 60⟩,
    ⟨3, .noteOn 0 60 0⟩, ⟨0, .noteOn 0 60 70⟩, ⟨4, .other⟩]

theorem struckTwice_spans : (∀ message ∈ struckTwice, 0 ≤ message.delta) ∧
    Spans (moments struckTwice) [⟨0, 10, 0, 60, 100⟩, ⟨5, 12, 1, 60, 90⟩, ⟨10, 3, 0, 60, 80⟩,
      ⟨13, 4, 0, 60, 70⟩] := by
  have hforward : ∀ message ∈ struckTwice, 0 ≤ message.delta := by decide
  have hnotes : notes (moments struckTwice) = [⟨0, 10, 0, 60, 100⟩, ⟨5, 12, 1, 60, 90⟩,
      ⟨10, 3, 0, 60, 80⟩, ⟨13, 4, 0, 60, 70⟩] := by cbv
  exact ⟨hforward, hnotes ▸ notes_spans.1 struckTwice hforward⟩

end Chiptune.Midi
