import Chiptune.Proofs.ChosenSplits
import Chiptune.Proofs.CopiedSongs
import Chiptune.Proofs.EncoderRuns

/-!
# Trial runs on copies

Every candidate is tried on a copy of the song, which is split in place, and a run of the encoder
extends a copy of the pool. The copies are left behind, and so is the copy that the last run, which
emits, is made on. All patterns and pools that there were before stay what they were.
-/

namespace Chiptune

open Assembly

/-- The objects that there are while songs are encoded. -/
structure Bench where
  /-- The patterns of all songs. -/
  store : List Pattern := []
  pools : List PatternPool := []
  deriving DecidableEq, Repr

/-- The song with a new pattern for each pattern that it names. -/
def Bench.copy (bench : Bench) (song : Song) : Song :=
  (song.mapSlots (copyName bench.store.length [song])).withStore (copiedStore bench.store [song])

/-- Everything that there was is still there, as it was. -/
structure Bench.Keeps (before after : Bench) : Prop where
  store : before.store <+: after.store
  pools : before.pools <+: after.pools

/-- Work on a bench, which shows what was done also where the work fails. -/
abbrev Work := ExceptT Error (StateM Bench)

namespace Work

/-- How the work ends. -/
def outcome {α : Type} (work : Work α) (bench : Bench) : Outcome α :=
  (work.run bench : Except Error α × Bench).1

/-- What the work leaves. -/
def left {α : Type} (work : Work α) (bench : Bench) : Bench :=
  (work.run bench : Except Error α × Bench).2

def copySong (song : Song) : Work Song := do
  let bench ← get
  let copy := bench.copy song
  set { bench with store := copy.patterns }
  return copy

/-- Whether the song can be split, and the song as it is then. -/
def splitSong (song : Song) (factor : Int) : Work (Bool × Song) := do
  match song.splitAside factor with
  | none => return (false, song)
  | some pieces =>
    modify fun bench => { bench with store := pieces.patterns }
    return (true, pieces)

/-- A run of the encoder on a copy of a pool. Nothing comes of it if the pool grows too large. -/
def runEncoder (setting : RunSetting) (pool : Nat) : Work (Option Draft) := do
  let bench ← get
  match setting.run (bench.pools.getD pool {}) with
  | .ok draft =>
    set { bench with pools := bench.pools ++ [draft.pool] }
    return some draft
  | .error (.poolFull full) =>
    set { bench with pools := bench.pools ++ [full] }
    return none
  | .error (.failure error) => throw error

end Work

/-- A song that is to be encoded on a bench. Its slots name patterns of the bench. -/
structure SongTask where
  song : Song
  /-- The number of the song in the labels. -/
  number : Nat
  encoding : Encoding
  pieceRows : Int
  /-- The pool to go on from. -/
  pool : Nat

namespace SongTask

variable (task : SongTask)

def setting (song : Song) (candidate : Candidate) (emit : Option Dialect) : RunSetting where
  song := song
  encoding := task.encoding
  speedChannel := candidate.channel
  factor := candidate.factor
  number := task.number
  emit := emit

/-- A copy of the song, split by the factor if that is possible. -/
def cutCopy (factor : Nat) : Work (Bool × Song) := do
  Work.splitSong (← Work.copySong task.song) factor

/-- The dry run with a candidate. -/
def trial (candidate : Candidate) : Work (Option Draft) := do
  let (done, pieces) ← task.cutCopy candidate.factor
  if done then Work.runEncoder (task.setting pieces candidate none) task.pool
  else return none

def smaller (best : Option (Candidate × Nat)) (candidate : Candidate) (size : Nat) :
    Candidate × Nat :=
  match best with
  | none => (candidate, size)
  | some found => if size < found.2 then (candidate, size) else found

def searchAmong : (best : Option (Candidate × Nat)) → List Candidate →
    Work (Option (Candidate × Nat))
  | best, [] => return best
  | best, candidate :: rest => do
    match ← task.trial candidate with
    | none => searchAmong best rest
    | some draft => searchAmong (some (smaller best candidate draft.size)) rest

/-- The candidate to choose, and the size of its dry run. -/
def search : Work (Candidate × Nat) := do
  match ← task.searchAmong none (task.song.candidates task.pieceRows) with
  | some found => return found
  | none => throw (.unexportable (.songTooComplex task.song.name))

/-- The run that emits, with the candidate that the search leaves. -/
def compile (dialect : Dialect) : Work (Candidate × Draft) := do
  let (candidate, _) ← task.search
  let (_, pieces) ← task.cutCopy candidate.factor
  match ← Work.runEncoder (task.setting pieces candidate (some dialect)) task.pool with
  | some draft => return (candidate, draft)
  | none => throw (.unexportable (.songTooComplex task.song.name))

end SongTask

namespace Song

/-- The song with other names for its patterns, in a store where they are found under these. -/
def Twin (song twin : Song) : Prop :=
  ∃ rename store, twin = (song.mapSlots rename).withStore store ∧
    ∀ object ∈ song.used, store.getD (rename object) [] = song.pattern object

/-- The song with its patterns behind those of a store. -/
def behind (song : Song) (store : List Pattern) : Song :=
  (song.mapSlots (store.length + ·)).withStore (store ++ song.patterns)

end Song

section Renamed

variable {song twin : Song} {rename : Nat → Nat} {store : List Pattern} {channel : Channel}

lemma channelEffects_renamed (hchannel : channel ∈ song.channels)
    (h : ∀ object ∈ song.used, store.getD (rename object) [] = song.pattern object) (slot : Nat) :
    ((song.mapSlots rename).withStore store).channelEffects slot
      { channel with slots := channel.slots.map (Option.map rename) } =
        song.channelEffects slot channel := by
  unfold Song.channelEffects
  rw [List.getElem?_map]
  cases hslot : channel.slots[slot]? with
  | none => rfl
  | some content =>
    cases content with
    | none => rfl
    | some object =>
      have hobject := h object (mem_used.mpr ⟨channel, hchannel, List.mem_of_getElem? hslot⟩)
      have hpattern : ((song.mapSlots rename).withStore store).pattern (rename object) =
        song.pattern object := hobject
      simp only [Option.map_some, hpattern]
      rfl

lemma effects_renamed
    (h : ∀ object ∈ song.used, store.getD (rename object) [] = song.pattern object) :
    ((song.mapSlots rename).withStore store).effects = song.effects := by
  refine List.map_congr_left fun slot _ => ?_
  refine congrArg (List.foldr SlotEffects.withLater []) ?_
  refine List.map_map.trans (List.map_congr_left fun channel hchannel => ?_)
  exact channelEffects_renamed hchannel h slot

lemma encodeSlot_renamed {content : Option Nat}
    (h : ∀ object, content = some object → store.getD (rename object) [] = song.pattern object)
    (voicing : Voicing) (effects : SlotEffects) (takesSpeed : Bool) (active : Option InstrumentId)
    (count : Nat) :
    ((song.mapSlots rename).withStore store).encodeSlot voicing effects takesSpeed active
      (content.map rename) count =
        song.encodeSlot voicing effects takesSpeed active content count := by
  cases content with
  | none => rfl
  | some object =>
    have hnotes : ((song.mapSlots rename).withStore store).slotNotes (some (rename object)) =
      song.slotNotes (some object) := h object rfl
    rw [Option.map_some, Song.encodeSlot, Song.encodeSlot, Song.rows, Song.rows, hnotes]

lemma encodeVisits_renamed (hchannel : channel ∈ song.channels)
    (h : ∀ object ∈ song.used, store.getD (rename object) [] = song.pattern object)
    (encoding : Encoding) (effects : List SlotEffects) (takesSpeed : Bool) (progress : Progress)
    (visits : List Visit) :
    ((song.mapSlots rename).withStore store).encodeVisits encoding effects
      { channel with slots := channel.slots.map (Option.map rename) } takesSpeed progress visits =
        song.encodeVisits encoding effects channel takesSpeed progress visits := by
  induction visits generalizing progress with
  | nil => rfl
  | cons visit rest ih =>
    unfold Song.encodeVisits
    dsimp only
    rw [List.getElem?_map]
    cases hslot : channel.slots[visit.slot]? with
    | none => rfl
    | some content =>
      have hcontent : ∀ object, content = some object →
          store.getD (rename object) [] = song.pattern object := by
        rintro object rfl
        exact h object (mem_used.mpr ⟨channel, hchannel, List.mem_of_getElem? hslot⟩)
      simp only [Option.map_some, encodeSlot_renamed hcontent, ih]

lemma encodeChannels_renamed
    (h : ∀ object ∈ song.used, store.getD (rename object) [] = song.pattern object)
    (encoding : Encoding) (effects : List SlotEffects) (visits : List Visit × List Visit)
    (speedChannel : Int) (number : Nat) (pool : PatternPool) {channels : List Channel}
    (hchannels : ∀ channel ∈ channels, channel ∈ song.channels) :
    ((song.mapSlots rename).withStore store).encodeChannels encoding effects visits speedChannel
      number pool (channels.map fun channel =>
        { channel with slots := channel.slots.map (Option.map rename) }) =
          song.encodeChannels encoding effects visits speedChannel number pool channels := by
  induction channels generalizing number pool with
  | nil => rfl
  | cons channel rest ih =>
    have hrest := fun number pool =>
      ih number pool fun other ho => hchannels other (List.mem_cons_of_mem _ ho)
    rw [List.map_cons]
    unfold Song.encodeChannels Song.encodeChannel
    simp only [encodeVisits_renamed (hchannels channel (by simp)) h, hrest]
    rfl

/-- A song has the same code under other names. -/
theorem Song.Twin.encode (h : song.Twin twin) (encoding : Encoding) (speedChannel factor : Int)
    (pool : PatternPool) :
    twin.encode encoding speedChannel factor pool =
      song.encode encoding speedChannel factor pool := by
  obtain ⟨rename, store, rfl, h⟩ := h
  have hchannels : ∀ undefined : Bool,
      (if undefined then ((song.mapSlots rename).withStore store).channels.take 1
        else ((song.mapSlots rename).withStore store).channels) =
      (if undefined then song.channels.take 1 else song.channels).map fun channel =>
        { channel with slots := channel.slots.map (Option.map rename) } := by
    rintro (_ | _)
    · rfl
    · exact List.map_take.symm
  have hmem : ∀ undefined : Bool,
      ∀ channel ∈ (if undefined then song.channels.take 1 else song.channels),
        channel ∈ song.channels := by
    rintro (_ | _) channel hchannel
    · exact hchannel
    · exact List.mem_of_mem_take hchannel
  have hnone : ((song.mapSlots rename).withStore store).channels.isEmpty = song.channels.isEmpty :=
    List.isEmpty_map
  unfold Song.encode
  dsimp only
  rw [effects_renamed h, hchannels, encodeChannels_renamed h _ _ _ _ _ _ (hmem _), hnone]
  rfl

lemma eraseDups_map {names : List Nat}
    (h : ∀ a ∈ names, ∀ b ∈ names, rename a = rename b → a = b) :
    (names.map rename).eraseDups = names.eraseDups.map rename := by
  induction hn : names.length using Nat.strong_induction_on generalizing names with
  | _ n ih =>
    cases names with
    | nil => rfl
    | cons name rest =>
      have hother : (rest.map rename).filter (fun other => !other == rename name) =
          (rest.filter fun other => !other == name).map rename := by
        rw [List.filter_map]
        congr 1
        refine List.filter_congr fun other ho => ?_
        have hsame : rename other = rename name ↔ other = name :=
          ⟨h other (by simp [ho]) name (by simp), congrArg rename⟩
        simp [hsame]
      rw [List.map_cons, List.eraseDups_cons, List.eraseDups_cons, List.map_cons, hother]
      refine congrArg _ (ih (rest.filter fun other => !other == name).length ?_ ?_ rfl)
      · have hle := List.length_filter_le (fun other => !other == name) rest
        rw [← hn, List.length_cons]
        omega
      · intro a ha b hb
        exact h a (by simp [List.mem_of_mem_filter ha]) b (by simp [List.mem_of_mem_filter hb])

lemma idxOf_map {names : List Nat} {name : Nat}
    (h : ∀ a ∈ names, rename a = rename name → a = name) :
    (names.map rename).idxOf (rename name) = names.idxOf name := by
  induction names with
  | nil => rfl
  | cons other rest ih =>
    have hsame : rename other = rename name ↔ other = name := ⟨h other (by simp), congrArg rename⟩
    have hrest := ih fun a ha => h a (by simp [ha])
    rw [List.map_cons, List.idxOf_cons, List.idxOf_cons, hrest]
    have htest : (rename other == rename name) = (other == name) := by
      rw [Bool.eq_iff_iff, beq_iff_eq, beq_iff_eq, hsame]
    rw [htest]

lemma used_renamed (hinj : ∀ a ∈ channel.used, ∀ b ∈ channel.used, rename a = rename b → a = b) :
    Channel.used { channel with slots := channel.slots.map (Option.map rename) } =
      channel.used.map rename := by
  have hnames : (channel.slots.map (Option.map rename)).filterMap id =
      (channel.slots.filterMap id).map rename := by
    rw [List.filterMap_map, List.map_filterMap]
    rfl
  rw [Channel.used, hnames]
  refine eraseDups_map fun a ha b hb => ?_
  exact hinj a (List.mem_eraseDups.mpr ha) b (List.mem_eraseDups.mpr hb)

lemma splitSlots_renamed
    (hinj : ∀ a ∈ channel.used, ∀ b ∈ channel.used, rename a = rename b → a = b)
    (base factor : Nat) :
    Channel.splitSlots { channel with slots := channel.slots.map (Option.map rename) } base factor =
      channel.splitSlots base factor := by
  unfold Channel.splitSlots
  rw [used_renamed hinj, List.flatMap_map]
  refine List.flatMap_congr fun content hcontent => ?_
  cases content with
  | none => rfl
  | some object =>
    have hobject : object ∈ channel.used := by
      rw [Channel.used, List.mem_eraseDups]
      exact List.mem_filterMap.mpr ⟨some object, hcontent, rfl⟩
    simp only [Option.map_some, idxOf_map fun a ha => hinj a ha object hobject]

lemma splitChannels_renamed
    (h : ∀ object ∈ song.used, store.getD (rename object) [] = song.pattern object)
    (hinj : ∀ a ∈ song.used, ∀ b ∈ song.used, rename a = rename b → a = b)
    (size factor : Nat) (done : List Pattern) {channels : List Channel}
    (hchannels : ∀ channel ∈ channels, channel ∈ song.channels) :
    ((song.mapSlots rename).withStore store).splitChannels size factor done
      (channels.map fun channel =>
        { channel with slots := channel.slots.map (Option.map rename) }) =
          song.splitChannels size factor done channels := by
  induction channels generalizing done with
  | nil => rfl
  | cons channel rest ih =>
    have hused : ∀ object ∈ channel.used, object ∈ song.used := fun object ho =>
      List.mem_eraseDups.mpr (List.mem_flatMap.mpr ⟨channel, hchannels channel (by simp), ho⟩)
    have hone : ∀ a ∈ channel.used, ∀ b ∈ channel.used, rename a = rename b → a = b :=
      fun a ha b hb => hinj a (hused a ha) b (hused b hb)
    have hpieces : ((song.mapSlots rename).withStore store).channelPieces size factor
        { channel with slots := channel.slots.map (Option.map rename) } =
          song.channelPieces size factor channel := by
      unfold Song.channelPieces
      rw [used_renamed hone, List.flatMap_map]
      refine List.flatMap_congr fun object ho => ?_
      exact congrArg (fun pattern => Pattern.pieces pattern size factor)
        (h object (hused object ho))
    have hrest := fun done => ih done fun other ho => hchannels other (List.mem_cons_of_mem _ ho)
    rw [List.map_cons]
    unfold Song.splitChannels
    simp only [splitSlots_renamed hone, hpieces, hrest]

/-- Copies with names of their own are cut into the very pieces of the song. -/
lemma split_renamed
    (h : ∀ object ∈ song.used, store.getD (rename object) [] = song.pattern object)
    (hinj : ∀ a ∈ song.used, ∀ b ∈ song.used, rename a = rename b → a = b) {factor : Int}
    (hfactor : factor ≠ 1) :
    ((song.mapSlots rename).withStore store).split factor = song.split factor := by
  have hchannels : ((song.mapSlots rename).withStore store).splitChannels
      (song.patternLength / factor.toNat) factor.toNat []
      ((song.mapSlots rename).withStore store).channels =
        song.splitChannels (song.patternLength / factor.toNat) factor.toNat [] song.channels :=
    splitChannels_renamed h hinj _ _ _ fun _ hc => hc
  have hrows : ((song.mapSlots rename).withStore store).patternLength = song.patternLength := rfl
  have hlength : ((song.mapSlots rename).withStore store).length = song.length := rfl
  unfold Song.split
  rw [if_neg hfactor, if_neg hfactor]
  dsimp only
  rw [hrows, hlength, hchannels]
  rfl

end Renamed

lemma Bench.keeps_refl (bench : Bench) : bench.Keeps bench :=
  ⟨List.prefix_rfl, List.prefix_rfl⟩

/-- From a bench with the objects of the first one the work ends with the outcome, and no object has
changed. -/
def Work.Yields {α : Type} (start : Bench) (work : Work α) (outcome : Outcome α) : Prop :=
  ∀ bench, start.Keeps bench → ∃ after, start.Keeps after ∧
    (work.run bench : Except Error α × Bench) = (outcome, after)

section Rules

variable {α β : Type} {start bench mid : Bench} {work : Work α} {f : α → Work β}

lemma run_bind_ok {a : α} (h : (work.run bench : Except Error α × Bench) = (.ok a, mid)) :
    ((work >>= f).run bench : Except Error β × Bench) = (f a).run mid := by
  have hrun : ((work >>= f).run bench : Except Error β × Bench) =
      ExceptT.bindCont f (work.run bench).1 (work.run bench).2 := rfl
  rw [hrun, h]
  rfl

lemma run_bind_error {error : Error}
    (h : (work.run bench : Except Error α × Bench) = (.error error, mid)) :
    ((work >>= f).run bench : Except Error β × Bench) = (.error error, mid) := by
  have hrun : ((work >>= f).run bench : Except Error β × Bench) =
      ExceptT.bindCont f (work.run bench).1 (work.run bench).2 := rfl
  rw [hrun, h]
  rfl

namespace Work

lemma Yields.outcome {outcome : Outcome α} (h : Yields start work outcome) :
    work.outcome start = outcome := by
  obtain ⟨after, -, hrun⟩ := h start start.keeps_refl
  exact congrArg Prod.fst hrun

lemma Yields.left {outcome : Outcome α} (h : Yields start work outcome) :
    start.Keeps (work.left start) := by
  obtain ⟨after, hafter, hrun⟩ := h start start.keeps_refl
  have hleft : work.left start = after := congrArg Prod.snd hrun
  rwa [hleft]

lemma yields_pure (a : α) : Yields start (pure a) (.ok a) := fun bench h => ⟨bench, h, rfl⟩

end Work

end Rules

/-! ### Trials, searches and compilation -/

lemma one_le_of_split {song pieces : Song} {factor : Int} (h : song.split factor = some pieces) :
    1 ≤ factor := by
  rcases split_cases h with ⟨hone, -⟩ | ⟨size, hlt, -⟩
  · omega
  · omega

lemma split_one (song : Song) : song.split 1 = some song := by
  have hdvd : ¬ ((1 : Int) < 1 ∨ song.patternLength % (1 : Int).toNat ≠ 0) := by
    rw [Int.toNat_one, Nat.mod_one]
    simp
  rw [Song.split, if_neg hdvd, if_pos rfl]

/-- What comes of a run. -/
def attempted : Except Obstacle Draft → Outcome (Option Draft)
  | .ok draft => .ok (some draft)
  | .error (.poolFull _) => .ok none
  | .error (.failure error) => .error error

namespace SongTask

/-- The song with the patterns of a bench. -/
def view (task : SongTask) (bench : Bench) : Song := task.song.withStore bench.store

/-- The song and the pool of the task are on the bench. -/
structure On (task : SongTask) (bench : Bench) (pool : PatternPool) : Prop where
  store : ∀ object ∈ task.song.used, object < bench.store.length
  pool : bench.pools[task.pool]? = some pool

variable {task : SongTask} {start bench : Bench} {pool : PatternPool}

/-- A copy has the patterns of the song, and is cut as the song is. -/
lemma copy_twin (h : task.On start pool) (hbench : start.Keeps bench) :
    (task.view start).Twin (bench.copy task.song) ∧ ∀ factor : Int, factor ≠ 1 →
      (bench.copy task.song).split factor = (task.view start).split factor := by
  have hnamed : ∀ object ∈ (task.view start).used, object ∈ named [task.song] :=
    fun object hobject => mem_named.mpr ⟨task.song, by simp, hobject⟩
  have hpatterns : ∀ object ∈ (task.view start).used, (copiedStore bench.store [task.song]).getD
      (copyName bench.store.length [task.song] object) [] = (task.view start).pattern object := by
    intro object hobject
    have hlt := h.store object hobject
    obtain ⟨more, hmore⟩ := hbench.store
    rw [getD_of_getElem? (getElem?_copiedStore bench.store [task.song] (hnamed object hobject)),
      ← hmore, List.getD_append _ _ _ _ hlt]
    rfl
  refine ⟨⟨_, _, rfl, hpatterns⟩, fun factor hfactor => split_renamed hpatterns ?_ hfactor⟩
  intro a ha b _ hab
  exact copyName_inj bench.store [task.song] (hnamed a ha) hab

lemma behind_twin (pieces : Song) (store : List Pattern) : pieces.Twin (pieces.behind store) := by
  refine ⟨_, _, rfl, fun object _ => ?_⟩
  rw [List.getD_append_right _ _ _ _ (Nat.le_add_right _ _), Nat.add_sub_cancel_left]
  rfl

lemma cutCopy_run (h : task.On start pool) (hbench : start.Keeps bench) (factor : Nat) :
    ∃ pieces after, start.Keeps after ∧
      ((task.cutCopy factor).run bench : Except Error (Bool × Song) × Bench) =
        (.ok (((task.view start).split factor).isSome, pieces), after) ∧
      ∀ cut, (task.view start).split factor = some cut → cut.Twin pieces := by
  obtain ⟨htwin, hsplit⟩ := copy_twin h hbench
  have hcut : ((task.cutCopy factor).run bench : Except Error (Bool × Song) × Bench) =
      (Work.splitSong (bench.copy task.song) factor).run
        { bench with store := (bench.copy task.song).patterns } := rfl
  have hkeeps : start.store <+: (bench.copy task.song).patterns :=
    hbench.store.trans (List.prefix_append _ _)
  by_cases hfactor : (factor : Int) = 1
  · have haside : (bench.copy task.song).splitAside factor = some (bench.copy task.song) := by
      rw [Song.splitAside, hfactor, split_one, Option.map_some, if_pos rfl]
    refine ⟨bench.copy task.song, { bench with store := (bench.copy task.song).patterns },
      ⟨hkeeps, hbench.pools⟩, ?_, ?_⟩
    · rw [hcut, Work.splitSong, haside, hfactor, split_one]
      rfl
    · intro cut hsome
      rw [hfactor, split_one] at hsome
      obtain rfl := Option.some.inj hsome
      exact htwin
  · have haside : (bench.copy task.song).splitAside factor =
        ((task.view start).split factor).map
          fun cut => cut.behind (bench.copy task.song).patterns := by
      rw [Song.splitAside, hsplit _ hfactor]
      simp only [if_neg hfactor]
      rfl
    cases hpieces : (task.view start).split factor with
    | none =>
      rw [hpieces, Option.map_none] at haside
      refine ⟨bench.copy task.song, { bench with store := (bench.copy task.song).patterns },
        ⟨hkeeps, hbench.pools⟩, ?_, fun _ hsome => nomatch hsome⟩
      rw [hcut, Work.splitSong, haside]
      rfl
    | some cut =>
      rw [hpieces, Option.map_some] at haside
      refine ⟨cut.behind (bench.copy task.song).patterns,
        { bench with store := (bench.copy task.song).patterns ++ cut.patterns },
        ⟨hkeeps.trans (List.prefix_append _ _), hbench.pools⟩, ?_, ?_⟩
      · rw [hcut, Work.splitSong, haside]
        rfl
      · intro other hsome
        obtain rfl := Option.some.inj hsome
        exact behind_twin _ _

lemma runEncoder_yields (h : task.On start pool) (setting : RunSetting) :
    Work.Yields start (Work.runEncoder setting task.pool) (attempted (setting.run pool)) := by
  intro bench hbench
  have hpool : bench.pools.getD task.pool {} = pool := by
    obtain ⟨more, hmore⟩ := hbench.pools
    have hlt := (List.getElem?_eq_some_iff.mp h.pool).1
    rw [← hmore, List.getD_append _ _ _ _ hlt, getD_of_getElem? h.pool]
  have hadded : ∀ final, start.Keeps { bench with pools := bench.pools ++ [final] } :=
    fun final => ⟨hbench.store, hbench.pools.trans (List.prefix_append _ _)⟩
  have hget : ((get : Work Bench).run bench : Except Error Bench × Bench) = (.ok bench, bench) :=
    rfl
  rw [Work.runEncoder, run_bind_ok hget, hpool]
  cases setting.run pool with
  | ok draft => exact ⟨_, hadded draft.pool, rfl⟩
  | error obstacle =>
    cases obstacle with
    | failure error => exact ⟨_, hbench, rfl⟩
    | poolFull full => exact ⟨_, hadded full, rfl⟩

/-- A run has what the encoder returns. -/
lemma run_setting {candidate : Candidate} (hfactor : 1 ≤ (candidate.factor : Int))
    (emit : Option Dialect) (pieces : Song) (pool : PatternPool) :
    (task.setting pieces candidate emit).run pool =
      (pieces.encode task.encoding candidate.channel candidate.factor pool).map
        (SongCode.draft emit task.number) := by
  refine RunSetting.run_eq ?_ pool
  have heq : (task.setting pieces candidate emit).factor = candidate.factor := rfl
  omega

lemma trial_yields (h : task.On start pool) (candidate : Candidate) :
    Work.Yields start (task.trial candidate)
      (((task.view start).tryCandidate task.encoding pool candidate).map
        (Option.map (SongCode.draft none task.number))) := by
  intro bench hbench
  obtain ⟨pieces, mid, hmid, hrun, htwin⟩ := cutCopy_run h hbench candidate.factor
  rw [trial, run_bind_ok hrun, Song.tryCandidate]
  cases hcut : (task.view start).split candidate.factor with
  | none => exact ⟨mid, hmid, rfl⟩
  | some cut =>
    obtain ⟨after, hafter, hruns⟩ :=
      runEncoder_yields h (task.setting pieces candidate none) mid hmid
    refine ⟨after, hafter, ?_⟩
    rw [run_setting (one_le_of_split hcut), (htwin cut hcut).encode] at hruns
    refine hruns.trans (congrArg (·, after) ?_)
    dsimp only
    rcases cut.encode task.encoding candidate.channel candidate.factor pool with
      (_ | _) | _ <;> rfl

/-- What a search has so far. -/
def found (choice : Choice) : Candidate × Nat := (choice.candidate, choice.code.size)

lemma smaller_found (best : Option Choice) (candidate : Candidate) (code : SongCode) :
    smaller (best.map found) candidate code.size = found (Song.smaller best candidate code) := by
  cases best with
  | none => rfl
  | some choice =>
    have hnew : found ⟨candidate, code⟩ = (candidate, code.size) := rfl
    rw [Song.smaller, apply_ite found, hnew]
    rfl

lemma searchAmong_yields (h : task.On start pool) (best : Option Choice)
    (candidates : List Candidate) :
    Work.Yields start (task.searchAmong (best.map found) candidates)
      (((task.view start).searchAmong task.encoding pool best candidates).map
        (Option.map found)) := by
  induction candidates generalizing best with
  | nil => exact Work.yields_pure _
  | cons candidate rest ih =>
    intro bench hbench
    obtain ⟨mid, hmid, htrial⟩ := trial_yields h candidate bench hbench
    rw [searchAmong, Song.searchAmong]
    cases htried : (task.view start).tryCandidate task.encoding pool candidate with
    | error error =>
      rw [htried] at htrial
      exact ⟨mid, hmid, run_bind_error htrial⟩
    | ok tried =>
      rw [htried] at htrial
      rw [run_bind_ok htrial, ok_bind]
      cases tried with
      | none => exact ih best mid hmid
      | some code =>
        have hsmaller := smaller_found best candidate code
        obtain ⟨after, hafter, hrest⟩ := ih (some (Song.smaller best candidate code)) mid hmid
        rw [Option.map_some, ← hsmaller] at hrest
        exact ⟨after, hafter, hrest⟩

theorem search_yields (h : task.On start pool) :
    Work.Yields start task.search
      (((task.view start).search task.encoding task.pieceRows pool).map found) := by
  intro bench hbench
  obtain ⟨after, hafter, hrun⟩ := searchAmong_yields h none
    (task.song.candidates task.pieceRows) bench hbench
  have hcandidates : (task.view start).candidates task.pieceRows =
    task.song.candidates task.pieceRows := rfl
  refine ⟨after, hafter, ?_⟩
  rw [Option.map_none] at hrun
  rw [search, Song.search, hcandidates]
  cases hamong : (task.view start).searchAmong task.encoding pool none
      (task.song.candidates task.pieceRows) with
  | error error =>
    rw [hamong] at hrun
    exact run_bind_error hrun
  | ok result =>
    rw [hamong] at hrun
    rw [run_bind_ok hrun, ok_bind]
    cases result <;> rfl

/-- The run that emits has the code that the search found. -/
theorem compile_yields (h : task.On start pool) (dialect : Dialect) :
    Work.Yields start (task.compile dialect)
      (((task.view start).search task.encoding task.pieceRows pool).map fun choice =>
        (choice.candidate, choice.code.draft (some dialect) task.number)) := by
  intro bench hbench
  obtain ⟨mid, hmid, hsearch⟩ := search_yields h bench hbench
  rw [compile]
  cases hchoice : (task.view start).search task.encoding task.pieceRows pool with
  | error error =>
    rw [hchoice] at hsearch
    exact ⟨mid, hmid, run_bind_error hsearch⟩
  | ok choice =>
    obtain ⟨cut, hstems⟩ := search_stems hchoice
    obtain ⟨pieces, last, hlast, hcut, htwin⟩ := cutCopy_run h hmid choice.candidate.factor
    obtain ⟨after, hafter, hruns⟩ := runEncoder_yields h
      (task.setting pieces choice.candidate (some dialect)) last hlast
    rw [run_setting (one_le_of_split hstems.split), (htwin cut hstems.split).encode,
      hstems.encode] at hruns
    rw [hchoice] at hsearch
    rw [run_bind_ok hsearch]
    refine ⟨after, hafter, ?_⟩
    refine (run_bind_ok hcut).trans ?_
    exact run_bind_ok hruns

end SongTask

end Chiptune
