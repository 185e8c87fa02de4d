import Chiptune.Proofs.SongStreams

/-!
# Runs of the encoder

The encoder goes through the slots of a channel in one loop, counts bytes and extends a copy of the
pool. A run that emits also writes the lines of its code, in some dialect; a dry run writes none.
Both have the size and the pool of the code that `Song.encode` returns, and fail where it fails.
-/

namespace Chiptune

open Assembly

/-- What a run has so far. -/
structure Draft where
  pool : PatternPool
  size : Nat := 0
  lines : List String := []
  deriving DecidableEq, Repr

/-- The lines that a run writes, which are none without a dialect. -/
def written (emit : Option Dialect) (lines : List Line) : List String :=
  match emit with
  | some dialect => lines.map (Line.text dialect)
  | none => []

/-- What a run has when it is over. -/
def SongCode.draft (emit : Option Dialect) (number : Nat) (code : SongCode) : Draft where
  pool := code.pool
  size := code.size
  lines := written emit (code.lines number)

namespace Draft

def write (emit : Option Dialect) (lines : List Line) (draft : Draft) : Draft :=
  { draft with lines := draft.lines ++ written emit lines }

/-- Writes lines in the place of line number `place`. -/
def insert (emit : Option Dialect) (place : Nat) (lines : List Line) (draft : Draft) : Draft :=
  { draft with
    lines := draft.lines.take place ++ written emit lines ++ draft.lines.drop place }

end Draft

/-- A run within a channel. -/
structure ChannelRun where
  draft : Draft
  active : Option InstrumentId := none
  /-- Whether the loop label has been written. -/
  labelled : Bool := false
  deriving DecidableEq, Repr

/-- What stays the same during a run. -/
structure RunSetting where
  song : Song
  encoding : Encoding
  speedChannel : Int
  factor : Int
  /-- The number of the song in the labels. -/
  number : Nat
  emit : Option Dialect

namespace RunSetting

variable (setting : RunSetting)

def loopSlot : Int := setting.song.loopSlot setting.song.effects setting.factor

def loopLabel (channel : Nat) : Line := .label (.channelLoop setting.number channel)

/-- Stores the code of a slot, or finds it in the pool. -/
def store (commands : List Command) (draft : Draft) : Except Obstacle Draft :=
  let bytes := commandBytes commands
  if bytes.isEmpty then pure draft
  else
    let known := if bytes.length ≤ SlotCode.referenceSize then none else draft.pool.find? bytes
    match known with
    | some buffer =>
      let draft := draft.write setting.emit
        [.bytes [Command.referenceCode.toNat, rowCommands commands],
          .words [.label (.buffer buffer)]]
      pure { draft with size := draft.size + SlotCode.referenceSize }
    | none =>
      if draft.pool.size ≥ setting.encoding.capacity then throw (.poolFull draft.pool)
      else
        let draft := draft.write setting.emit
          [.label (.buffer draft.pool.size), .bytes (bytes.map fun b => (b.toNat : Int))]
        pure { draft with pool := draft.pool.add bytes, size := draft.size + bytes.length }

/-- Writes the loop label if the loop starts at the slot or before it and has no label yet. -/
def mark (number slot : Nat) (run : ChannelRun) : ChannelRun :=
  if setting.emit.isSome && !run.labelled && setting.loopSlot ≤ slot then
    { run with draft := run.draft.write setting.emit [setting.loopLabel number], labelled := true }
  else run

/-- Encodes the first rows of a slot. -/
def codeSlot (channel : Channel) (number slot rows : Nat) (run : ChannelRun) :
    Except Obstacle ChannelRun := do
  let voicing := ⟨setting.encoding.kernel, channel.voice, setting.encoding.index⟩
  let some content := channel.slots[slot]? | throw (.failure .outOfRange)
  let (commands, active) ← setting.song.encodeSlot voicing (setting.song.effects.getD slot [])
    (number = setting.speedChannel) run.active content rows
  return { run with draft := ← setting.store commands run.draft, active }

def runSlot (channel : Channel) (number slot rows : Nat) (run : ChannelRun) :
    Except Obstacle ChannelRun :=
  setting.codeSlot channel number slot rows (setting.mark number slot run)

/-- Runs through the slots of a channel up to one that jumps. After a skip the other pieces of the
slot are passed over. -/
def runSlots (channel : Channel) (number : Nat) :
    (skipping : Bool) → (slot : Nat) → List SlotEffects → ChannelRun → Except Obstacle ChannelRun
  | _, _, [], run => pure run
  | skipping, slot, effects :: rest, run =>
    if skipping ∧ ¬ setting.factor ∣ slot then runSlots channel number true (slot + 1) rest run
    else match effects.position .skip, effects.position .jump with
      | some row, _ => do
        runSlots channel number true (slot + 1) rest (← setting.runSlot channel number slot row run)
      | none, some row => setting.runSlot channel number slot row run
      | none, none => do
        runSlots channel number false (slot + 1) rest
          (← setting.runSlot channel number slot setting.song.patternLength run)

/-- A channel whose loop slot lies behind its end repeats from its start, so its loop label goes
there. -/
def runChannel (number : Nat) (channel : Channel) (draft : Draft) : Except Obstacle Draft := do
  let draft := draft.write setting.emit [.blank, .label (.channel setting.number number)]
  let draft := if number = setting.speedChannel then
    { draft.write setting.emit [.bytes [Command.speedCode.toNat, setting.song.speed]] with
      size := draft.size + 2 }
    else draft
  let run ← setting.runSlots channel number false 0 setting.song.effects { draft }
  let draft := if run.labelled then run.draft
    else run.draft.insert setting.emit draft.lines.length [setting.loopLabel number]
  let draft := draft.write setting.emit
    [.bytes [Command.loopCode.toNat], .words [.label (.channelLoop setting.number number)]]
  return { draft with size := draft.size + ChannelCode.loopSize }

def runChannels : (number : Nat) → List Channel → Draft → Except Obstacle Draft
  | _, [], draft => pure draft
  | number, channel :: rest, draft => do
    runChannels (number + 1) rest (← setting.runChannel number channel draft)

/-- The run on a song that was split by the factor. -/
def run (pool : PatternPool) : Except Obstacle Draft :=
  setting.runChannels 0 setting.song.channels { pool }

end RunSetting

lemma written_append (emit : Option Dialect) (lines more : List Line) :
    written emit (lines ++ more) = written emit lines ++ written emit more := by
  cases emit with
  | none => rfl
  | some dialect => exact List.map_append

lemma written_nil (emit : Option Dialect) : written emit [] = [] := by
  cases emit <;> rfl

/-- A draft to which the codes of some slots have been added. -/
def Draft.after (emit : Option Dialect) (draft : Draft) (codes : List SlotCode)
    (pool : PatternPool) : Draft where
  pool := pool
  size := draft.size + total SlotCode.size codes
  lines := draft.lines ++ written emit (codes.flatMap SlotCode.lines)

lemma Draft.after_nil (emit : Option Dialect) (draft : Draft) :
    draft.after emit [] draft.pool = draft := by
  rw [Draft.after, List.flatMap_nil, written_nil, List.append_nil]
  rfl

lemma Draft.after_after (emit : Option Dialect) (draft : Draft) (codes more : List SlotCode)
    (pool last : PatternPool) :
    (draft.after emit codes pool).after emit more last = draft.after emit (codes ++ more) last := by
  simp only [Draft.after, total_append, List.flatMap_append, written_append, List.append_assoc,
    Nat.add_assoc]

namespace RunSetting

variable {setting : RunSetting} {channel : Channel} {number : Nat}

/-- A run stores what the encoder stores. -/
lemma store_eq (commands : List Command) (draft : Draft) :
    setting.store commands draft =
      (Song.storeSlot setting.encoding.capacity draft.pool commands).map fun stored =>
        draft.after setting.emit stored.1.toList stored.2 := by
  unfold store Song.storeSlot
  by_cases hempty : (commandBytes commands).isEmpty = true
  · simp only [if_pos hempty]
    exact congrArg Except.ok (draft.after_nil setting.emit).symm
  · have hshort : (commandBytes commands).length < Song.shortestReferred ↔
        (commandBytes commands).length ≤ SlotCode.referenceSize := Nat.lt_succ_iff
    simp only [if_neg hempty, hshort]
    generalize (if (commandBytes commands).length ≤ SlotCode.referenceSize then none
      else draft.pool.find? (commandBytes commands)) = known
    cases known with
    | some buffer => rfl
    | none =>
      by_cases hfull : (draft.pool.size : Int) ≥ setting.encoding.capacity
      · simp only [if_pos hfull]
        rfl
      · simp only [if_neg hfull]
        rfl

/-- Runs through some visits. -/
def runVisits (setting : RunSetting) (channel : Channel) (number : Nat) :
    List Visit → ChannelRun → Except Obstacle ChannelRun
  | [], run => pure run
  | visit :: rest, run => do
    runVisits setting channel number rest
      (← setting.runSlot channel number visit.slot visit.rows run)

/-- The loop over the slots makes the visits. -/
lemma runSlots_eq (skipping : Bool) (slot : Nat) (effects : List SlotEffects) (run : ChannelRun) :
    setting.runSlots channel number skipping slot effects run =
      setting.runVisits channel number (Song.visitsFrom setting.song.patternLength setting.factor
        skipping slot effects) run := by
  induction effects generalizing skipping slot run with
  | nil => rfl
  | cons effects rest ih =>
    rw [runSlots, Song.visitsFrom]
    by_cases hpassed : skipping = true ∧ ¬ setting.factor ∣ (slot : Int)
    · rw [if_pos hpassed, if_pos hpassed, ih]
    · rw [if_neg hpassed, if_neg hpassed]
      cases effects.position .skip with
      | some row =>
        simp only [ih]
        rfl
      | none =>
        cases effects.position .jump with
        | some row =>
          simp only [runVisits]
          exact (bind_pure _).symm
        | none =>
          simp only [ih]
          rfl

lemma runVisits_append (before after : List Visit) (run : ChannelRun) :
    setting.runVisits channel number (before ++ after) run =
      setting.runVisits channel number before run >>= setting.runVisits channel number after := by
  induction before generalizing run with
  | nil => rfl
  | cons visit rest ih =>
    rw [List.cons_append, runVisits, runVisits, bind_assoc]
    simp only [ih]

/-- A run to which the codes of some slots have been added. -/
def added (emit : Option Dialect) (run : ChannelRun) (coded : List SlotCode × Progress) :
    ChannelRun :=
  { run with draft := run.draft.after emit coded.1 coded.2.pool, active := coded.2.active }

/-- A run adds the code of a slot. -/
lemma codeSlot_eq (visit : Visit) (run : ChannelRun) :
    setting.codeSlot channel number visit.slot visit.rows run =
      (setting.song.encodeVisits setting.encoding setting.song.effects channel
        (number = setting.speedChannel) ⟨run.draft.pool, run.active⟩ [visit]).map
          (added setting.emit run) := by
  rw [codeSlot, Song.encodeVisits]
  cases channel.slots[visit.slot]? with
  | none => rfl
  | some content =>
    simp only [store_eq, Song.encodeVisits]
    cases setting.song.encodeSlot ⟨setting.encoding.kernel, channel.voice,
      setting.encoding.index⟩ (setting.song.effects.getD visit.slot [])
      (number = setting.speedChannel) run.active content visit.rows with
    | error error => rfl
    | ok coded =>
      obtain ⟨commands, active⟩ := coded
      have hlift : (liftM (Except.ok (commands, active) : Outcome _) : Except Obstacle _) =
        .ok (commands, active) := rfl
      rw [hlift, ok_bind, ok_bind]
      dsimp only
      cases Song.storeSlot setting.encoding.capacity run.draft.pool commands with
      | error obstacle => rfl
      | ok stored =>
        obtain ⟨code, pool⟩ := stored
        rw [ok_bind]
        exact congrArg (fun codes => Except.ok (added setting.emit run (codes, ⟨pool, active⟩)))
          (List.append_nil code.toList).symm

/-- The codes of some visits and of those after them. -/
lemma encodeVisits_append (song : Song) (encoding : Encoding) (effects : List SlotEffects)
    (channel : Channel) (takesSpeed : Bool) (before after : List Visit) (progress : Progress) :
    song.encodeVisits encoding effects channel takesSpeed progress (before ++ after) =
      song.encodeVisits encoding effects channel takesSpeed progress before >>= fun first =>
        (song.encodeVisits encoding effects channel takesSpeed first.2 after).map fun second =>
          (first.1 ++ second.1, second.2) := by
  induction before generalizing progress with
  | nil =>
    have hnone : song.encodeVisits encoding effects channel takesSpeed progress [] =
        .ok ([], progress) := rfl
    rw [List.nil_append, hnone, ok_bind]
    cases song.encodeVisits encoding effects channel takesSpeed progress after with
    | error obstacle => rfl
    | ok second => rfl
  | cons visit rest ih =>
    rw [List.cons_append, Song.encodeVisits, Song.encodeVisits]
    cases channel.slots[visit.slot]? with
    | none => rfl
    | some content =>
      simp only [ih, bind_assoc]
      congr 1
      funext coded
      congr 1
      funext stored
      congr 1
      funext first
      rw [pure_bind]
      cases song.encodeVisits encoding effects channel takesSpeed first.2 after with
      | error obstacle => rfl
      | ok second =>
        exact congrArg (fun codes => Except.ok (codes, second.2)) (List.append_assoc _ _ _).symm

/-- The loop label has no place before the slot, or it has been written, or no line is. -/
def Unmarked (setting : RunSetting) (run : ChannelRun) (visit : Visit) : Prop :=
  setting.emit = none ∨ run.labelled = true ∨ (visit.slot : Int) < setting.loopSlot

lemma added_added (emit : Option Dialect) (run : ChannelRun)
    (first second : List SlotCode × Progress) :
    added emit (added emit run first) second = added emit run (first.1 ++ second.1, second.2) := by
  simp only [added, Draft.after_after]

/-- Where no loop label is to be written, a run adds the codes of the visits. -/
lemma runVisits_unmarked {visits : List Visit} {run : ChannelRun}
    (h : ∀ visit ∈ visits, setting.Unmarked run visit) :
    setting.runVisits channel number visits run =
      (setting.song.encodeVisits setting.encoding setting.song.effects channel
        (number = setting.speedChannel) ⟨run.draft.pool, run.active⟩ visits).map
          (added setting.emit run) := by
  induction visits generalizing run with
  | nil =>
    have hnone := Draft.after_nil setting.emit run.draft
    rw [runVisits, Song.encodeVisits]
    exact congrArg Except.ok (by rw [added, hnone])
  | cons visit rest ih =>
    have hmark : setting.mark number visit.slot run = run := by
      refine if_neg ?_
      rcases h visit (by simp) with he | hl | hs
      · simp [he]
      · simp [hl]
      · simp [hs]
    have happend := encodeVisits_append setting.song setting.encoding setting.song.effects channel
      (number = setting.speedChannel) [visit] rest ⟨run.draft.pool, run.active⟩
    rw [List.singleton_append] at happend
    rw [runVisits, runSlot, hmark, codeSlot_eq, happend]
    cases hfirst : setting.song.encodeVisits setting.encoding setting.song.effects channel
      (number = setting.speedChannel) ⟨run.draft.pool, run.active⟩ [visit] with
    | error obstacle => rfl
    | ok first =>
      have hrest := ih (show ∀ visit ∈ rest, setting.Unmarked (added setting.emit run first) visit
        from fun other ho => h other (List.mem_cons_of_mem _ ho))
      rw [Except.map, ok_bind, ok_bind, hrest]
      have hstate : (⟨(added setting.emit run first).draft.pool,
        (added setting.emit run first).active⟩ : Progress) = first.2 := rfl
      rw [hstate]
      cases setting.song.encodeVisits setting.encoding setting.song.effects channel
        (number = setting.speedChannel) first.2 rest with
      | error obstacle => rfl
      | ok second => exact congrArg Except.ok (added_added _ _ _ _)

/-- A run whose loop label has been written, if lines are. -/
def marked (setting : RunSetting) (number : Nat) (run : ChannelRun) : ChannelRun :=
  { run with
    draft := run.draft.write setting.emit [setting.loopLabel number]
    labelled := setting.emit.isSome }

/-- From the loop slot on the label is written once. -/
lemma mark_eq {run : ChannelRun} (hrun : run.labelled = false) {slot : Nat}
    (hslot : setting.loopSlot ≤ slot) :
    setting.mark number slot run = setting.marked number run ∧
      setting.mark number slot (setting.marked number run) = setting.marked number run := by
  unfold mark marked
  cases he : setting.emit with
  | none =>
    have hwrite : run.draft.write none [setting.loopLabel number] = run.draft := by
      rw [Draft.write, written, List.append_nil]
    have hsame : { run with draft := run.draft, labelled := (none : Option Dialect).isSome } =
        run := by
      rw [Option.isSome_none, ← hrun]
    rw [hwrite, hsame]
    exact ⟨rfl, rfl⟩
  | some dialect =>
    refine ⟨if_pos ?_, if_neg ?_⟩
    · simp [hrun, hslot]
    · simp

/-- The visits from the loop slot on are made after the loop label has been written. -/
lemma runVisits_marked {visit : Visit} {rest : List Visit} {run : ChannelRun}
    (hrun : run.labelled = false) (hvisit : setting.loopSlot ≤ visit.slot) :
    setting.runVisits channel number (visit :: rest) run =
      (setting.song.encodeVisits setting.encoding setting.song.effects channel
        (number = setting.speedChannel) ⟨run.draft.pool, run.active⟩ (visit :: rest)).map
          (added setting.emit (setting.marked number run)) := by
  obtain ⟨hmark, hagain⟩ := @mark_eq setting number run hrun visit.slot hvisit
  have hmarked : setting.runVisits channel number (visit :: rest) run =
      setting.runVisits channel number (visit :: rest) (setting.marked number run) := by
    rw [runVisits, runVisits, runSlot, runSlot, hmark, hagain]
  have hlate : ∀ other ∈ visit :: rest,
      setting.Unmarked (setting.marked number run) other := by
    intro other _
    cases he : setting.emit with
    | none => exact .inl he
    | some dialect => exact .inr (.inl (by simp [marked, he]))
  rw [hmarked, runVisits_unmarked hlate]
  rfl

/-- The draft of a channel after its first slots, its loop label and the slots behind it. -/
def looped (setting : RunSetting) (number : Nat) (draft : Draft)
    (intro body : List SlotCode × Progress) : Draft :=
  ((draft.after setting.emit intro.1 intro.2.pool).write setting.emit
    [setting.loopLabel number]).after setting.emit body.1 body.2.pool

/-- The draft of a channel that has been run through, with its loop label at a place before all
slots if there is none yet. -/
def close (setting : RunSetting) (number place : Nat) (run : ChannelRun) : Draft :=
  if run.labelled then run.draft
  else run.draft.insert setting.emit place [setting.loopLabel number]

lemma close_late (draft : Draft) (body : List SlotCode × Progress) :
    setting.close number draft.lines.length (added setting.emit { draft } body) =
      setting.looped number draft ([], { pool := draft.pool }) body := by
  have hnone := Draft.after_nil setting.emit draft
  rw [looped, hnone]
  simp [close, added, Draft.insert, Draft.after, Draft.write]

lemma close_marked (draft : Draft) (place : Nat) (intro body : List SlotCode × Progress) :
    setting.close number place (added setting.emit
      (setting.marked number (added setting.emit { draft } intro)) body) =
        setting.looped number draft intro body := by
  cases he : setting.emit with
  | none => simp [close, added, marked, looped, he, Draft.insert, written]
  | some dialect =>
    simp [close, added, marked, looped, he]

/-- The loop label of a channel stands between the visits before the loop slot and those from there
on, or before all of them. -/
lemma runVisits_looped (visits : List Visit) (draft : Draft) :
    let parts := Song.splitVisits setting.loopSlot visits
    let encode := setting.song.encodeVisits setting.encoding setting.song.effects channel
      (number = setting.speedChannel)
    (setting.runVisits channel number visits { draft }).map
        (setting.close number draft.lines.length) =
      encode { pool := draft.pool } parts.1 >>= fun intro =>
        (encode intro.2 parts.2).map (setting.looped number draft intro) := by
  dsimp only
  have hall := List.takeWhile_append_dropWhile
    (p := fun visit : Visit => decide ((visit.slot : Int) < setting.loopSlot)) (l := visits)
  have hearly : ∀ visit ∈ visits.takeWhile fun visit : Visit =>
      decide ((visit.slot : Int) < setting.loopSlot), setting.Unmarked { draft } visit :=
    fun visit hv => .inr (.inr (by simpa using List.mem_takeWhile_imp hv))
  rw [Song.splitVisits, List.span_eq_takeWhile_dropWhile]
  generalize hb : visits.takeWhile (fun visit : Visit =>
    decide ((visit.slot : Int) < setting.loopSlot)) = before at hall hearly
  cases hafter : visits.dropWhile fun visit : Visit =>
      decide ((visit.slot : Int) < setting.loopSlot) with
  | nil =>
    rw [hafter, List.append_nil] at hall
    subst hall
    dsimp only
    rw [runVisits_unmarked hearly, Song.encodeVisits, pure_bind]
    cases setting.song.encodeVisits setting.encoding setting.song.effects channel
      (number = setting.speedChannel) { pool := draft.pool } before with
    | error obstacle => rfl
    | ok body => exact congrArg Except.ok (close_late draft body)
  | cons visit rest =>
    have hvisit : setting.loopSlot ≤ visit.slot := by
      have hhead := List.head?_dropWhile_not (fun visit : Visit =>
        decide ((visit.slot : Int) < setting.loopSlot)) visits
      rw [hafter] at hhead
      simpa using hhead
    rw [hafter] at hall
    dsimp only
    rw [← hall, runVisits_append, runVisits_unmarked hearly]
    cases setting.song.encodeVisits setting.encoding setting.song.effects channel
      (number = setting.speedChannel) { pool := draft.pool } before with
    | error obstacle => rfl
    | ok intro =>
      have hrun : (added setting.emit { draft } intro).labelled = false := rfl
      have hstate : (⟨(added setting.emit { draft } intro).draft.pool,
        (added setting.emit { draft } intro).active⟩ : Progress) = intro.2 := rfl
      rw [Except.map, ok_bind, ok_bind, runVisits_marked hrun hvisit, hstate]
      cases setting.song.encodeVisits setting.encoding setting.song.effects channel
        (number = setting.speedChannel) intro.2 (visit :: rest) with
      | error obstacle => rfl
      | ok body => exact congrArg Except.ok (close_marked draft draft.lines.length intro body)

/-! ### Channels and songs -/

/-- A draft to which the code of a channel has been added. -/
def withChannel (setting : RunSetting) (number : Nat) (draft : Draft) (code : ChannelCode)
    (pool : PatternPool) : Draft where
  pool := pool
  size := draft.size + code.size
  lines := draft.lines ++ written setting.emit (code.lines setting.number number)

/-- The draft with the start of a channel. -/
def opened (setting : RunSetting) (number : Nat) (draft : Draft) : Draft :=
  let draft := draft.write setting.emit [.blank, .label (.channel setting.number number)]
  if number = setting.speedChannel then
    { draft.write setting.emit [.bytes [Command.speedCode.toNat, setting.song.speed]] with
      size := draft.size + 2 }
  else draft

/-- The draft with the command that repeats a channel. -/
def repeated (setting : RunSetting) (number : Nat) (draft : Draft) : Draft :=
  { draft.write setting.emit
    [.bytes [Command.loopCode.toNat], .words [.label (.channelLoop setting.number number)]] with
    size := draft.size + ChannelCode.loopSize }

lemma opened_pool (draft : Draft) : (setting.opened number draft).pool = draft.pool := by
  unfold opened
  by_cases hspeed : (number : Int) = setting.speedChannel
  · rw [if_pos hspeed]
    rfl
  · rw [if_neg hspeed]
    rfl

/-- The draft of a channel is the draft before it with the code of the channel. -/
lemma repeated_looped (draft : Draft) (intro body : List SlotCode × Progress) :
    setting.repeated number (setting.looped number (setting.opened number draft) intro body) =
      setting.withChannel number draft
        ⟨if number = setting.speedChannel then some setting.song.speed else none, intro.1, body.1⟩
        body.2.pool := by
  by_cases hspeed : (number : Int) = setting.speedChannel
  · simp only [repeated, looped, opened, withChannel, Draft.after, Draft.write, if_pos hspeed,
      ChannelCode.size, ChannelCode.lines, ChannelCode.slots, written_append, total_append,
      List.append_assoc, Option.isSome_some, if_true, loopLabel, Option.toList_some,
      List.map_cons, List.map_nil]
    congr 1
    omega
  · simp only [repeated, looped, opened, withChannel, Draft.after, Draft.write, if_neg hspeed,
      ChannelCode.size, ChannelCode.lines, ChannelCode.slots, written_append, total_append,
      List.append_assoc, Option.isSome_none, loopLabel, Option.toList_none, List.map_nil,
      List.nil_append]
    congr 1
    simp
    omega

/-- A run adds the code of a channel. -/
lemma runChannel_eq (number : Nat) (channel : Channel) (draft : Draft) :
    setting.runChannel number channel draft =
      (setting.song.encodeChannel setting.encoding setting.song.effects
        (setting.song.parts setting.factor) channel (number = setting.speedChannel)
        draft.pool).map fun coded => setting.withChannel number draft coded.1 coded.2 := by
  have hlooped := @runVisits_looped setting channel number
    (setting.song.visits setting.song.effects setting.factor) (setting.opened number draft)
  dsimp only at hlooped
  rw [opened_pool] at hlooped
  have hrun : setting.runChannel number channel draft =
      ((setting.runVisits channel number (setting.song.visits setting.song.effects setting.factor)
        { draft := setting.opened number draft }).map
          (setting.close number (setting.opened number draft).lines.length)).map
            (setting.repeated number) := by
    rw [runChannel, runSlots_eq, Song.visits]
    change (setting.runVisits channel number _ { draft := setting.opened number draft }) >>= _ = _
    cases setting.runVisits channel number _ { draft := setting.opened number draft } with
    | error obstacle => rfl
    | ok run => rfl
  have hparts : setting.song.parts setting.factor = Song.splitVisits setting.loopSlot
    (setting.song.visits setting.song.effects setting.factor) := rfl
  rw [hrun, hlooped, hparts, Song.encodeChannel]
  generalize Song.splitVisits setting.loopSlot
    (setting.song.visits setting.song.effects setting.factor) = parts
  cases setting.song.encodeVisits setting.encoding setting.song.effects channel
    (number = setting.speedChannel) { pool := draft.pool } parts.1 with
  | error obstacle => rfl
  | ok intro =>
    rw [ok_bind, ok_bind]
    dsimp only
    cases setting.song.encodeVisits setting.encoding setting.song.effects channel
      (number = setting.speedChannel) intro.2 parts.2 with
    | error obstacle => rfl
    | ok body =>
      refine congrArg Except.ok ((repeated_looped draft intro body).trans ?_)
      simp only [decide_eq_true_eq]

lemma runChannels_eq (number : Nat) (channels : List Channel) (draft : Draft) :
    setting.runChannels number channels draft =
      (setting.song.encodeChannels setting.encoding setting.song.effects
        (setting.song.parts setting.factor) setting.speedChannel number draft.pool channels).map
          fun coded =>
            { pool := coded.2
              size := draft.size + total ChannelCode.size coded.1
              lines := draft.lines ++ written setting.emit
                ((coded.1.zipIdx number).map fun (code, number) =>
                  code.lines setting.number number).flatten } := by
  induction channels generalizing number draft with
  | nil =>
    simp [runChannels, Song.encodeChannels, Except.map, pure, Except.pure, total, written_nil]
  | cons channel rest ih =>
    rw [runChannels, Song.encodeChannels, runChannel_eq]
    cases setting.song.encodeChannel setting.encoding setting.song.effects
      (setting.song.parts setting.factor) channel (number = setting.speedChannel) draft.pool with
    | error obstacle => rfl
    | ok coded =>
      have hrest := ih (number + 1) (setting.withChannel number draft coded.1 coded.2)
      rw [Except.map, ok_bind, ok_bind, hrest]
      have hpool : (setting.withChannel number draft coded.1 coded.2).pool = coded.2 := rfl
      dsimp only
      rw [hpool]
      cases setting.song.encodeChannels setting.encoding setting.song.effects
        (setting.song.parts setting.factor) setting.speedChannel (number + 1) coded.2 rest with
      | error obstacle => rfl
      | ok later =>
        refine congrArg Except.ok ?_
        simp only [withChannel, total, List.zipIdx_cons, List.map_cons, List.flatten_cons,
          written_append, List.append_assoc, Nat.add_assoc]

/-- A run has the size, the pool and the lines of the code that the encoder returns, and fails where
it fails. -/
theorem run_eq (hfactor : setting.factor ≠ 0) (pool : PatternPool) :
    setting.run pool = (setting.song.encode setting.encoding setting.speedChannel setting.factor
      pool).map (SongCode.draft setting.emit setting.number) := by
  have hpieces : Song.piecesUndefined setting.song.effects setting.factor
      (setting.song.visits setting.song.effects setting.factor) = false := by
    rw [Song.piecesUndefined, beq_false_of_ne hfactor, Bool.false_and]
  have hparts : Song.splitVisits (setting.song.loopSlot setting.song.effects setting.factor)
    (setting.song.visits setting.song.effects setting.factor) =
      setting.song.parts setting.factor := rfl
  rw [run, runChannels_eq, Song.encode]
  simp only [hpieces, hparts, Bool.false_and, Bool.false_eq_true, if_false]
  cases setting.song.encodeChannels setting.encoding setting.song.effects
    (setting.song.parts setting.factor) setting.speedChannel 0 pool setting.song.channels with
  | error obstacle => rfl
  | ok coded =>
    refine congrArg Except.ok ?_
    simp only [SongCode.draft, SongCode.size, SongCode.lines, Nat.zero_add, List.nil_append]

end RunSetting

end Chiptune
