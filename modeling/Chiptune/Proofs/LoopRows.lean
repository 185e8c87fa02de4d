import Chiptune.Proofs.ChannelLength

/-!
# Rows in the loop of a song

Slots are visited in order, and only pieces after a skip are passed over. From its loop label on, a
channel plays something just if one of the slots that are visited from there on keeps a row.
-/

namespace Chiptune

section Visits

variable {patternLength : Nat} {factor : Int}

/-- What becomes of the first one of some slots: it is passed over, it ends the song, or the song
goes on after it. -/
lemma visitsFrom_cons (patternLength : Nat) (factor : Int) (skipping : Bool) (slot : Nat)
    (first : SlotEffects) (rest : List SlotEffects) :
    let visits := Song.visitsFrom patternLength factor skipping slot (first :: rest)
    let visit : Visit := ⟨slot, playedRows patternLength first⟩
    (skipping = true ∧ ¬ factor ∣ (slot : Int) ∧
        visits = Song.visitsFrom patternLength factor true (slot + 1) rest) ∨
      ((first.position .jump).isSome = true ∧ visits = [visit]) ∨
      ((first.position .skip = none → first.position .jump = none) ∧
        visits = visit :: Song.visitsFrom patternLength factor (first.position .skip).isSome
          (slot + 1) rest) := by
  dsimp only
  by_cases hpassed : skipping = true ∧ ¬ factor ∣ (slot : Int)
  · exact .inl ⟨hpassed.1, hpassed.2, by rw [Song.visitsFrom, if_pos hpassed]⟩
  · rw [Song.visitsFrom, if_neg hpassed, playedRows]
    cases hskip : first.position .skip with
    | some row => exact .inr (.inr ⟨by simp, rfl⟩)
    | none =>
      cases hjump : first.position .jump with
      | some row => exact .inr (.inl ⟨rfl, rfl⟩)
      | none => exact .inr (.inr ⟨fun _ => rfl, rfl⟩)

variable {effects : Nat → SlotEffects} {count slot : Nat} {skipping : Bool} {visit : Visit}

lemma rows_of_mem_visitsFrom (h : visit ∈ Song.visitsFrom patternLength factor skipping slot
    ((List.range' slot count).map effects)) :
    slot ≤ visit.slot ∧ visit.rows = playedRows patternLength (effects visit.slot) := by
  induction count generalizing slot skipping with
  | zero => exact absurd h (List.not_mem_nil)
  | succ count ih =>
    have hlater : ∀ {skipping}, visit ∈ Song.visitsFrom patternLength factor skipping (slot + 1)
        ((List.range' (slot + 1) count).map effects) →
        slot ≤ visit.slot ∧ visit.rows = playedRows patternLength (effects visit.slot) := by
      intro skipping hm
      obtain ⟨hle, hrows⟩ := ih hm
      exact ⟨by omega, hrows⟩
    rw [List.range'_succ, List.map_cons] at h
    rcases visitsFrom_cons patternLength factor skipping slot (effects slot)
      ((List.range' (slot + 1) count).map effects) with ⟨-, -, hv⟩ | ⟨-, hv⟩ | ⟨-, hv⟩
    · exact hlater (hv ▸ h)
    · obtain rfl := List.mem_singleton.mp (hv ▸ h)
      exact ⟨le_refl _, rfl⟩
    · rcases List.mem_cons.mp (hv ▸ h) with rfl | hm
      · exact ⟨le_refl _, rfl⟩
      · exact hlater hm

lemma visitsFrom_pairwise : (Song.visitsFrom patternLength factor skipping slot
    ((List.range' slot count).map effects)).Pairwise fun visit later =>
      visit.slot < later.slot := by
  induction count generalizing slot skipping with
  | zero => exact .nil
  | succ count ih =>
    rw [List.range'_succ, List.map_cons]
    rcases visitsFrom_cons patternLength factor skipping slot (effects slot)
      ((List.range' (slot + 1) count).map effects) with ⟨-, -, hv⟩ | ⟨-, hv⟩ | ⟨-, hv⟩
    · rw [hv]
      exact ih
    · rw [hv]
      exact List.pairwise_singleton _ _
    · rw [hv]
      exact .cons (fun later hl => (rows_of_mem_visitsFrom hl).1) ih

/-- A slot before a visited one is either visited itself and does not end the song, or it belongs to
the pieces that are passed over after a skip. -/
lemma visited_or_passed (h : visit ∈ Song.visitsFrom patternLength factor skipping slot
    ((List.range' slot count).map effects)) {earlier : Nat} (hle : slot ≤ earlier)
    (hlt : earlier < visit.slot) :
    ((∃ stay ∈ Song.visitsFrom patternLength factor skipping slot
        ((List.range' slot count).map effects), stay.slot = earlier) ∧
      ((effects earlier).position .skip = none → (effects earlier).position .jump = none)) ∨
    (∃ skipped, slot ≤ skipped ∧ skipped < earlier ∧
      ((effects skipped).position .skip).isSome = true ∧
      ∀ piece, skipped < piece → piece ≤ earlier → ¬ factor ∣ (piece : Int)) ∨
    (skipping = true ∧ ∀ piece, slot ≤ piece → piece ≤ earlier → ¬ factor ∣ (piece : Int)) := by
  induction count generalizing slot skipping with
  | zero => exact absurd h (List.not_mem_nil)
  | succ count ih =>
    rw [List.range'_succ, List.map_cons] at h ⊢
    rcases visitsFrom_cons patternLength factor skipping slot (effects slot)
      ((List.range' (slot + 1) count).map effects) with
      ⟨hskipping, hpiece, hv⟩ | ⟨-, hv⟩ | ⟨hgoes, hv⟩
    · rw [hv] at h ⊢
      rcases Nat.eq_or_lt_of_le hle with rfl | hnext
      · refine .inr (.inr ⟨hskipping, fun piece hfirst hlast => ?_⟩)
        rwa [Nat.le_antisymm hlast hfirst]
      · rcases ih h hnext with hvisited | ⟨skipped, hs, hrest⟩ | ⟨-, hnone⟩
        · exact .inl hvisited
        · exact .inr (.inl ⟨skipped, by omega, hrest⟩)
        · refine .inr (.inr ⟨hskipping, fun piece hfirst hlast => ?_⟩)
          rcases Nat.eq_or_lt_of_le hfirst with rfl | hnext
          · exact hpiece
          · exact hnone piece hnext hlast
    · rw [hv] at h
      obtain rfl := List.mem_singleton.mp h
      exact absurd hlt (Nat.not_lt.mpr hle)
    · rw [hv] at h ⊢
      rcases Nat.eq_or_lt_of_le hle with rfl | hnext
      · exact .inl ⟨⟨_, List.mem_cons_self, rfl⟩, hgoes⟩
      · rcases List.mem_cons.mp h with rfl | h
        · exact absurd hlt (Nat.not_lt.mpr hle)
        · rcases ih h hnext with
            ⟨⟨stay, hstay, hslot⟩, hends⟩ | ⟨skipped, hs, hrest⟩ | ⟨hskip, hnone⟩
          · exact .inl ⟨⟨stay, List.mem_cons_of_mem _ hstay, hslot⟩, hends⟩
          · exact .inr (.inl ⟨skipped, by omega, hrest⟩)
          · exact .inr (.inl ⟨slot, le_refl _, hnext, hskip, fun piece hp => hnone piece hp⟩)

end Visits

section Songs

variable {song : Song} {factor : Int} {visit : Visit}

lemma visits_range' (song : Song) (factor : Int) : song.visits song.effects factor =
    Song.visitsFrom song.patternLength factor false 0
      ((List.range' 0 song.length).map song.slotEffects) := by
  rw [← List.range_eq_range']
  rfl

lemma visits_pairwise (song : Song) (factor : Int) :
    (song.visits song.effects factor).Pairwise fun visit later => visit.slot < later.slot := by
  rw [visits_range']
  exact visitsFrom_pairwise

lemma visits_ne_nil (h : 0 < song.length) : song.visits song.effects factor ≠ [] := by
  obtain ⟨count, hcount⟩ := Nat.exists_eq_succ_of_ne_zero h.ne'
  rw [visits_range', hcount, List.range'_succ, List.map_cons]
  rcases visitsFrom_cons song.patternLength factor false 0 (song.slotEffects 0)
    ((List.range' (0 + 1) count).map song.slotEffects) with ⟨hskipping, -⟩ | ⟨-, hv⟩ | ⟨-, hv⟩
  · exact nomatch hskipping
  · rw [hv]
    exact List.cons_ne_nil _ _
  · rw [hv]
    exact List.cons_ne_nil _ _

lemma parts_snd_ne_nil (h : 0 < song.length) : (song.parts factor).2 ≠ [] := by
  have hvisits : song.visits song.effects factor ≠ [] := visits_ne_nil h
  unfold Song.parts Song.splitVisits
  split
  · next all hspan =>
    rw [List.span_eq_takeWhile_dropWhile] at hspan
    obtain ⟨hall, hnone⟩ := Prod.mk.injEq .. ▸ hspan
    rwa [← hall, List.takeWhile_eq_self_iff.mpr (List.dropWhile_eq_nil_iff.mp hnone)]
  · next parts hparts =>
    intro hnone
    exact hparts _ (Prod.ext rfl hnone)

lemma mem_visits_of_body (h : visit ∈ (song.parts factor).2) :
    visit ∈ song.visits song.effects factor := by
  rw [← Song.splitVisits_append (song.loopSlot song.effects factor)
    (song.visits song.effects factor)]
  exact List.mem_append_right _ h

lemma rows_of_mem_body (h : visit ∈ (song.parts factor).2) :
    visit.rows = playedRows song.patternLength (song.slotEffects visit.slot) := by
  have hvisit := mem_visits_of_body h
  rw [visits_range'] at hvisit
  exact (rows_of_mem_visitsFrom hvisit).2

lemma slotEffects_mem_effects (h : visit ∈ (song.parts factor).2) :
    song.slotEffects visit.slot ∈ song.effects :=
  List.mem_map_of_mem (List.mem_range.mpr (Song.mem_visits (mem_visits_of_body h)).1)

end Songs

/-- The code of a slot stands for commands of which one at least fills a row. -/
def SlotCode.PlaysRow (pool : PatternPool) (code : SlotCode) : Prop :=
  ∃ block, code.Represents pool block ∧ 0 < rowCommands block

section Rows

/-- The code of some rows fills a row. -/
lemma encodeRows_rowCommands {voicing : Voicing} {short : Bool}
    {active after : Option InstrumentId} {rows : List Row} {commands : List Command}
    (h : encodeRows voicing short active rows = .ok (commands, after)) :
    if rows.length = 0 then commands = [] else 0 < rowCommands commands := by
  have hrow : ∀ {head tail : List Command} {command : Command}, command.isRow = true →
      0 < rowCommands (head ++ command :: tail) := fun hc =>
    List.countP_pos_iff.mpr ⟨_, List.mem_append_right _ List.mem_cons_self, hc⟩
  cases rows with
  | nil =>
    rw [encodeRows] at h
    cases short with
    | true => cases h
    | false =>
      obtain ⟨rfl, -⟩ := Prod.mk.injEq .. ▸ Except.ok.inj h
      rfl
  | cons row rest =>
    rw [if_neg (by simp)]
    rcases encodeRows_cons_ok h with ⟨-, _, _, _, _, _, -, -, hcode, -, rfl⟩ | ⟨-, _, -, rfl⟩
    · exact hrow (isRow_of_note? hcode)
    · exact hrow rfl

lemma commandBytes_ne_nil {block : List Command} (h : 0 < rowCommands block) :
    commandBytes block ≠ [] := by
  obtain ⟨command, hc, -⟩ := List.countP_pos_iff.mp h
  intro hnone
  exact Command.bytes_ne_nil command (List.flatMap_eq_nil_iff.mp hnone command hc)

variable {song : Song} {encoding : Encoding} {effects : List SlotEffects} {channel : Channel}
  {takesSpeed : Bool}

/-- A visit without rows has no code, any other one fills a row. -/
lemma visitCommands_rowCommands {visits : List Visit} {active after : Option InstrumentId}
    {blocks : List (List Command)}
    (h : song.visitCommands encoding effects channel takesSpeed active visits =
      .ok (blocks, after)) :
    List.Forall₂ (fun block visit => if visit.rows = 0 then block = [] else 0 < rowCommands block)
      blocks visits := by
  induction visits generalizing active blocks with
  | nil =>
    obtain ⟨rfl, -⟩ := Prod.mk.injEq .. ▸ Except.ok.inj h
    exact .nil
  | cons visit rest ih =>
    rw [Song.visitCommands] at h
    cases hslot : channel.slots[visit.slot]? with
    | none => simp [hslot] at h
    | some slot =>
      simp only [hslot] at h
      obtain ⟨⟨commands, named⟩, hcommands, h⟩ := (bind_eq_ok_iff _ _ _).mp h
      obtain ⟨⟨later, last⟩, hlater, h⟩ := (bind_eq_ok_iff _ _ _).mp h
      obtain ⟨rfl, rfl⟩ := Prod.mk.injEq .. ▸ Except.ok.inj h
      have hrows := encodeRows_rowCommands hcommands
      rw [encodeSlot_length hcommands] at hrows
      exact .cons hrows (ih hlater)

/-- What the code of some visits plays: nothing if none of them has a row. -/
lemma represented_plays {pool : PatternPool} {codes : List SlotCode} {blocks : List (List Command)}
    {visits : List Visit} (h : List.Forall₂ (SlotCode.Represents pool) codes (coded blocks))
    (hrows : List.Forall₂
      (fun block visit => if visit.rows = 0 then block = [] else 0 < rowCommands block)
      blocks visits) :
    (∀ slot ∈ codes, slot.PlaysRow pool) ∧ (codes = [] ↔ ∀ visit ∈ visits, visit.rows = 0) := by
  constructor
  · intro slot hs
    obtain ⟨block, hb, hr⟩ := exists_right_of_mem h hs
    obtain ⟨hmem, hcode⟩ := List.mem_filter.mp hb
    obtain ⟨visit, -, hvisit⟩ := exists_right_of_mem hrows hmem
    split at hvisit
    · simp [hvisit, commandBytes] at hcode
    · exact ⟨block, hr, hvisit⟩
  · have hnil : codes = [] ↔ coded blocks = [] := by
      rw [← List.length_eq_zero_iff, h.length_eq, List.length_eq_zero_iff]
    rw [hnil, coded, List.filter_eq_nil_iff]
    constructor
    · intro hnone visit hv
      obtain ⟨block, hb, hvisit⟩ := exists_left_of_mem hrows hv
      by_contra hpos
      rw [if_neg hpos] at hvisit
      exact hnone block hb (by simpa using commandBytes_ne_nil hvisit)
    · intro hnone block hb
      obtain ⟨visit, hv, hvisit⟩ := exists_right_of_mem hrows hb
      rw [if_pos (hnone visit hv)] at hvisit
      simp [hvisit, commandBytes]

lemma playedRows_eq_zero {whole : Nat} (h : 0 < whole) {slot : SlotEffects}
    (hzero : playedRows whole slot = 0) :
    slot.position .skip = some 0 ∨ slot.position .jump = some 0 := by
  unfold playedRows at hzero
  cases hskip : slot.position .skip with
  | some row =>
    rw [hskip] at hzero
    exact .inl (congrArg some hzero)
  | none =>
    rw [hskip] at hzero
    cases hjump : slot.position .jump with
    | some row =>
      rw [hjump] at hzero
      exact .inr (congrArg some hzero)
    | none =>
      rw [hjump] at hzero
      exact absurd hzero h.ne'

/-- Every channel of an encoded song plays a row between its loop label and its loop command, unless
no slot that is visited from the loop point on keeps a row before its skip or jump. -/
theorem encode_loopPlays {pool : PatternPool} {speedChannel factor : Int} {code : SongCode}
    (hok : song.encode encoding speedChannel factor pool = .ok code) :
    (∀ channel ∈ code.channels, (∀ slot ∈ channel.body, slot.PlaysRow code.pool) ∧
      (channel.body = [] ↔ ∀ visit ∈ (song.parts factor).2,
        playedRows song.patternLength (song.slotEffects visit.slot) = 0)) ∧
    (0 < song.length → 0 < song.patternLength →
      (∀ slot ∈ song.effects, slot.position .skip ≠ some 0 ∧ slot.position .jump ≠ some 0) →
      ∀ channel ∈ code.channels, channel.body ≠ []) := by
  have hall : ∀ channel ∈ code.channels, (∀ slot ∈ channel.body, slot.PlaysRow code.pool) ∧
      (channel.body = [] ↔ ∀ visit ∈ (song.parts factor).2,
        playedRows song.patternLength (song.slotEffects visit.slot) = 0) := by
    intro channel hc
    obtain ⟨number, hlt, rfl⟩ := List.getElem_of_mem hc
    have hstores := encode_stores hok
    have hsong := List.getElem?_eq_getElem (hstores.length ▸ hlt)
    obtain ⟨-, stream, hstream, -, hbody⟩ :=
      hstores.channel number _ (List.getElem?_eq_getElem hlt)
    obtain ⟨active, after, -, hblocks⟩ := Song.stream_eq_ok hsong hstream
    obtain ⟨hplays, hempty⟩ := represented_plays hbody (visitCommands_rowCommands hblocks)
    refine ⟨hplays, hempty.trans (forall₂_congr fun visit hv => ?_)⟩
    rw [rows_of_mem_body hv]
  refine ⟨hall, fun hlength hpattern hfree channel hc hempty => ?_⟩
  have hbody : (song.parts factor).2 ≠ [] := parts_snd_ne_nil hlength
  obtain ⟨visit, hv⟩ := List.exists_mem_of_ne_nil _ hbody
  obtain ⟨hskip, hjump⟩ := hfree _ (slotEffects_mem_effects hv)
  rcases playedRows_eq_zero hpattern ((hall channel hc).2.mp hempty visit hv) with h | h
  · exact hskip h
  · exact hjump h

end Rows

theorem windingSong_loopPlays : ∃ code, windingSong.encode soleEncoding 1 1 {} = .ok code ∧
    code.channels.length = 2 ∧ ∀ channel ∈ code.channels,
      channel.body ≠ [] ∧ ∀ slot ∈ channel.body, slot.PlaysRow code.pool := by
  have hencoded : (windingSong.encode soleEncoding 1 1 {}).isOk = true := by decide +kernel
  obtain ⟨code, hok⟩ := ok_of_isOk hencoded
  obtain ⟨hplays, hbody⟩ := encode_loopPlays hok
  exact ⟨code, hok, (encode_stores hok).length, fun channel hc =>
    ⟨hbody (by decide) (by decide) (by decide +kernel) channel hc, (hplays channel hc).1⟩⟩

/-- A jump in the very first row. -/
def spinningSong : Song where
  id := 0
  name := "spinning"
  patternLength := 1
  patterns := [[{ effect := .jump }]]
  channels := [⟨.square1, [some 0]⟩]

theorem spinningSong_spins : 0 < spinningSong.length ∧ 0 < spinningSong.patternLength ∧
    spinningSong.encode soleEncoding 0 1 {} = .ok ⟨[⟨some 6, [], []⟩], {}⟩ ∧
    ¬ ∃ slot ∈ (⟨some 6, [], []⟩ : ChannelCode).body, slot.PlaysRow {} :=
  ⟨by decide, by decide, by decide +kernel, by simp⟩

end Chiptune
