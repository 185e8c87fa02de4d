import Chiptune.Proofs.OptimalSplits

/-!
# The capacity of the pool

A computation that adds buffers to the pool ends the same with any number of places that suffice,
and with fewer it stops where the next buffer has no place. So a larger capacity changes nothing
for a song that fits already, and a search over its splits only gets more candidates.
-/

namespace Chiptune

/-- The same encoding with a pool of so many places. -/
def Encoding.capped (encoding : Encoding) (capacity : Int) : Encoding := { encoding with capacity }

namespace Song

/-- What is left of the encoding when the pool may grow as much as it needs. -/
def Uncapped (song : Song) (encoding : Encoding) (speedChannel factor : Int) (pool : PatternPool)
    (result : Except Obstacle SongCode) : Prop :=
  ∃ enough : Int, ∀ capacity, enough ≤ capacity →
    song.encode (encoding.capped capacity) speedChannel factor pool = result

/-- No way to cut the song meets an error, whatever the pool holds in the end. -/
def Encodes (song : Song) (encoding : Encoding) (pieceRows : Int) (pool : PatternPool) : Prop :=
  ∀ candidate pieces, song.Offers pieceRows candidate → song.split candidate.factor = some pieces →
    ∃ code, pieces.Uncapped encoding candidate.channel candidate.factor pool (.ok code)

/-- The song is no worse off with the larger of two capacities. -/
structure Gains (song : Song) (encoding : Encoding) (pool : PatternPool) (small large : Int) :
    Prop where
  /-- What does not fill the smaller pool is the same in the larger one. -/
  same : ∀ speedChannel factor,
    (∀ full, song.encode (encoding.capped small) speedChannel factor pool ≠
      .error (.poolFull full)) →
    song.encode (encoding.capped large) speedChannel factor pool =
      song.encode (encoding.capped small) speedChannel factor pool
  /-- With places enough there is one result, and it is not a full pool. -/
  settles : ∀ speedChannel factor, ∃ result,
    song.Uncapped encoding speedChannel factor pool result ∧
      ∀ full, result ≠ .error (.poolFull full)
  /-- The pool is filled just if a buffer is added and there are more of them than places. -/
  fills : ∀ speedChannel factor code,
    song.Uncapped encoding speedChannel factor pool (.ok code) →
    ((∃ full, song.encode (encoding.capped small) speedChannel factor pool =
      .error (.poolFull full)) ↔ pool.size < code.pool.size ∧ small < code.pool.size)
  /-- A search that ends with a code ends with one that is not larger. -/
  searches : ∀ pieceRows, song.Encodes encoding pieceRows pool →
    ∀ choice, song.search (encoding.capped small) pieceRows pool = .ok choice →
    ∃ better, song.search (encoding.capped large) pieceRows pool = .ok better ∧
      better.code.size ≤ choice.code.size

end Song

/-- With `capacity` places a pool of `before` buffers may grow to `reached`. One that does not grow
may be larger than that already. -/
def Room (capacity : Int) (before reached : Nat) : Prop :=
  before < reached → (reached : Int) ≤ capacity

/-- The computation ends with this result when there is room for the buffers it adds, and with a
full pool when there is not. -/
structure Runs {α : Type} (run : Int → Except Obstacle α) (before reached : Nat)
    (result : Outcome α) : Prop where
  grows : before ≤ reached
  fits : ∀ capacity, Room capacity before reached → run capacity = liftM result
  full : ∀ capacity, ¬ Room capacity before reached → ∃ pool,
    run capacity = .error (.poolFull pool)

/-- The computation begins with `pool` and has the pool `final` in its result. -/
def Extends {α : Type} (run : Int → Except Obstacle α) (pool : PatternPool)
    (final : α → PatternPool) : Prop :=
  ∃ reached result, Runs run pool.size reached result ∧
    ∀ value, result = .ok value → (final value).size = reached

section Runs

variable {α β : Type} {run : Int → Except Obstacle α} {before reached : Nat}
  {result : Outcome α} {pool : PatternPool} {final : α → PatternPool}

lemma liftM_ne_full (result : Outcome α) (full : PatternPool) :
    (liftM result : Except Obstacle α) ≠ .error (.poolFull full) := by
  cases result with
  | ok value => exact fun h => nomatch h
  | error error => exact fun h => nomatch Except.error.inj h

lemma Runs.full_iff (h : Runs run before reached result) (capacity : Int) :
    (∃ full, run capacity = .error (.poolFull full)) ↔ ¬ Room capacity before reached := by
  refine ⟨?_, h.full capacity⟩
  rintro ⟨full, hfull⟩ hroom
  rw [h.fits capacity hroom] at hfull
  exact liftM_ne_full result full hfull

lemma Runs.room {capacity : Int} (h : Runs run before reached result)
    (hfull : ∀ full, run capacity ≠ .error (.poolFull full)) : Room capacity before reached := by
  by_contra hroom
  obtain ⟨full, hrun⟩ := h.full capacity hroom
  exact hfull full hrun

lemma extends_lift (outcome : Outcome α) (hfinal : ∀ value, outcome = .ok value →
    (final value).size = pool.size) : Extends (fun _ => liftM outcome) pool final :=
  ⟨pool.size, outcome, ⟨Nat.le_refl _, fun _ _ => rfl,
    fun _ hroom => absurd (fun hlt => absurd hlt (Nat.lt_irrefl _)) hroom⟩, hfinal⟩

lemma extends_pure (value : α) (hfinal : (final value).size = pool.size) :
    Extends (fun _ => .ok value) pool final :=
  extends_lift (.ok value) fun _ h => (Except.ok.inj h) ▸ hfinal

lemma extends_error (error : Error) :
    Extends (fun _ => (liftM (.error error : Outcome α) : Except Obstacle α)) pool final :=
  extends_lift (.error error) fun _ h => absurd h (by simp)

/-- There is room for two computations in a row just if there is for each of them. -/
lemma room_trans (capacity : Int) {middle : Nat} (hfirst : before ≤ middle)
    (hsecond : middle ≤ reached) :
    Room capacity before reached ↔ Room capacity before middle ∧ Room capacity middle reached := by
  unfold Room
  omega

/-- Two computations, the second of which goes on with the pool of the first. -/
lemma Extends.bind {next : α → Int → Except Obstacle β} {last : β → PatternPool}
    (h : Extends run pool final) (hnext : ∀ value, Extends (next value) (final value) last) :
    Extends (fun capacity => run capacity >>= fun value => next value capacity) pool last := by
  obtain ⟨middle, result, hrun, hmiddle⟩ := h
  cases result with
  | error error =>
    refine ⟨middle, .error error, ⟨hrun.grows, fun capacity hroom => ?_, fun capacity hroom => ?_⟩,
      fun value hvalue => nomatch hvalue⟩
    · rw [hrun.fits capacity hroom]
      rfl
    · obtain ⟨full, hfull⟩ := hrun.full capacity hroom
      exact ⟨full, by rw [hfull]; rfl⟩
  | ok value =>
    obtain ⟨reached, second, hsecond, hreached⟩ := hnext value
    rw [hmiddle value rfl] at hsecond
    have hrooms := fun capacity => room_trans capacity hrun.grows hsecond.grows
    refine ⟨reached, second, ⟨hrun.grows.trans hsecond.grows, fun capacity hroom => ?_,
      fun capacity hroom => ?_⟩, hreached⟩
    · obtain ⟨hfirst, hlast⟩ := (hrooms capacity).mp hroom
      rw [hrun.fits capacity hfirst]
      exact hsecond.fits capacity hlast
    · by_cases hfirst : Room capacity pool.size middle
      · rw [hrun.fits capacity hfirst]
        exact hsecond.full capacity fun hlast => hroom ((hrooms capacity).mpr ⟨hfirst, hlast⟩)
      · obtain ⟨full, hfull⟩ := hrun.full capacity hfirst
        exact ⟨full, by rw [hfull]; rfl⟩

end Runs

section Encoder

variable {song : Song} {encoding : Encoding} {channel : Channel} {takesSpeed : Bool}

@[simp] lemma PatternPool.size_add (pool : PatternPool) (buffer : Bytes) :
    (pool.add buffer).size = pool.size + 1 := Array.size_push _

lemma storeSlot_extends (pool : PatternPool) (commands : List Command) :
    Extends (fun capacity => Song.storeSlot capacity pool commands) pool Prod.snd := by
  unfold Song.storeSlot
  dsimp only
  split
  · exact extends_pure _ rfl
  · split
    · exact extends_pure _ rfl
    · -- The one place where the capacity is looked at.
      refine ⟨pool.size + 1, .ok (some (.buffer pool.size (commandBytes commands)),
        pool.add (commandBytes commands)), ⟨Nat.le_succ _, ?_, ?_⟩, ?_⟩
      · intro capacity hroom
        have hplace := hroom (Nat.lt_succ_self _)
        rw [if_neg (by omega)]
        rfl
      · intro capacity hroom
        have hplace : (pool.size : Int) ≥ capacity := by
          unfold Room at hroom
          omega
        exact ⟨pool, if_pos hplace⟩
      · intro value hvalue
        obtain rfl := Except.ok.inj hvalue
        exact pool.size_add _

lemma encodeVisits_extends (effects : List SlotEffects) (visits : List Visit)
    (progress : Progress) :
    Extends (fun capacity => song.encodeVisits (encoding.capped capacity) effects channel
      takesSpeed progress visits) progress.pool fun result => result.2.pool := by
  induction visits generalizing progress with
  | nil => exact extends_pure _ rfl
  | cons visit rest ih =>
    simp only [Song.encodeVisits]
    cases hslot : channel.slots[visit.slot]? with
    | none => exact extends_error .outOfRange
    | some slot =>
      have hslot : Extends (fun _ => liftM (song.encodeSlot
          ⟨encoding.kernel, channel.voice, encoding.index⟩ (effects.getD visit.slot []) takesSpeed
          progress.active slot visit.rows)) progress.pool fun _ => progress.pool :=
        extends_lift _ fun _ _ => rfl
      refine hslot.bind ?_
      rintro ⟨commands, active⟩
      refine (storeSlot_extends progress.pool commands).bind ?_
      rintro ⟨code, pool⟩
      refine (ih ⟨pool, active⟩).bind ?_
      rintro ⟨codes, progress⟩
      exact extends_pure _ rfl

lemma encodeChannel_extends (effects : List SlotEffects) (visits : List Visit × List Visit)
    (pool : PatternPool) :
    Extends (fun capacity => song.encodeChannel (encoding.capped capacity) effects visits channel
      takesSpeed pool) pool Prod.snd := by
  refine (encodeVisits_extends effects visits.1 { pool }).bind ?_
  rintro ⟨intro, progress⟩
  refine (encodeVisits_extends effects visits.2 progress).bind ?_
  rintro ⟨body, progress⟩
  exact extends_pure _ rfl

lemma encodeChannels_extends (effects : List SlotEffects) (visits : List Visit × List Visit)
    (speedChannel : Int) (channels : List Channel) (number : Nat) (pool : PatternPool) :
    Extends (fun capacity => song.encodeChannels (encoding.capped capacity) effects visits
      speedChannel number pool channels) pool Prod.snd := by
  induction channels generalizing number pool with
  | nil => exact extends_pure _ rfl
  | cons channel rest ih =>
    refine (encodeChannel_extends effects visits pool).bind ?_
    rintro ⟨code, pool⟩
    refine (ih (number + 1) pool).bind ?_
    rintro ⟨codes, pool⟩
    exact extends_pure _ rfl

lemma encode_extends (song : Song) (encoding : Encoding) (speedChannel factor : Int)
    (pool : PatternPool) :
    Extends (fun capacity => song.encode (encoding.capped capacity) speedChannel factor pool)
      pool SongCode.pool := by
  simp only [Song.encode]
  refine (encodeChannels_extends _ _ _ _ _ _).bind ?_
  rintro ⟨channels, final⟩
  split
  · exact extends_error .divisionByZero
  · exact extends_pure _ rfl

end Encoder

section Capacities

variable {song : Song} {encoding : Encoding} {speedChannel factor : Int} {pool : PatternPool}
  {small large : Int} {code : SongCode} {candidate : Candidate}

/-- What does not fill the smaller pool does not fill a larger one either. -/
lemma encode_same (hle : small ≤ large)
    (hfull : ∀ full, song.encode (encoding.capped small) speedChannel factor pool ≠
      .error (.poolFull full)) :
    song.encode (encoding.capped large) speedChannel factor pool =
      song.encode (encoding.capped small) speedChannel factor pool := by
  obtain ⟨reached, result, hrun, -⟩ := encode_extends song encoding speedChannel factor pool
  have hsmall := hrun.room hfull
  rw [hrun.fits small hsmall]
  exact hrun.fits large fun hlt => (hsmall hlt).trans hle

/-- The pool that the code needs decides whether a smaller one is filled. -/
lemma encode_full_iff (h : song.Uncapped encoding speedChannel factor pool (.ok code))
    (capacity : Int) :
    (∃ full, song.encode (encoding.capped capacity) speedChannel factor pool =
      .error (.poolFull full)) ↔ pool.size < code.pool.size ∧ capacity < code.pool.size := by
  obtain ⟨reached, result, hrun, hreached⟩ :=
    encode_extends song encoding speedChannel factor pool
  obtain ⟨enough, henough⟩ := h
  -- Both thresholds are passed by the larger of them.
  have hroom : Room (max enough reached) pool.size reached := fun _ => le_max_right _ _
  have hcode := (hrun.fits _ hroom).symm.trans (henough _ (le_max_left _ _))
  have hsize := hreached code ((lift_eq_ok_iff _ _).mp hcode)
  refine (hrun.full_iff capacity).trans ?_
  unfold Room
  omega

/-- A song that can be encoded without a cap is encoded unless the pool is full. -/
lemma encode_ok_or_full (h : song.Uncapped encoding speedChannel factor pool (.ok code))
    (capacity : Int) : song.encode (encoding.capped capacity) speedChannel factor pool = .ok code ∨
      ∃ full, song.encode (encoding.capped capacity) speedChannel factor pool =
        .error (.poolFull full) := by
  obtain ⟨enough, henough⟩ := h
  by_cases hfull : ∃ full, song.encode (encoding.capped capacity) speedChannel factor pool =
      .error (.poolFull full)
  · exact .inr hfull
  · have hsame := encode_same (le_max_right enough capacity) (not_exists.mp hfull)
    exact .inl (hsame.symm.trans (henough _ (le_max_left _ _)))

/-- A code that some capacity gives is the one that is left without a cap. -/
lemma uncapped_of_ok {capacity : Int}
    (h : song.encode (encoding.capped capacity) speedChannel factor pool = .ok code) :
    song.Uncapped encoding speedChannel factor pool (.ok code) :=
  ⟨capacity, fun _ hle => (encode_same hle fun _ hfull => nomatch h.symm.trans hfull).trans h⟩

lemma Song.Encodes.tryCandidate_ok {pieceRows : Int} (h : song.Encodes encoding pieceRows pool)
    (hoffered : song.Offers pieceRows candidate) (capacity : Int) :
    ∃ code, song.tryCandidate (encoding.capped capacity) pool candidate = .ok code := by
  rw [Song.tryCandidate]
  split
  · exact ⟨none, rfl⟩
  · next pieces hsplit =>
    obtain ⟨code, hcode⟩ := h candidate pieces hoffered hsplit
    rcases encode_ok_or_full hcode capacity with hok | ⟨full, hfull⟩
    · exact ⟨some code, by rw [hok]; rfl⟩
    · exact ⟨none, by rw [hfull]; rfl⟩

/-- A candidate keeps its code in a larger pool. -/
lemma tryCandidate_larger (hle : small ≤ large)
    (h : song.tryCandidate (encoding.capped small) pool candidate = .ok (some code)) :
    song.tryCandidate (encoding.capped large) pool candidate = .ok (some code) := by
  obtain ⟨pieces, hsplit, hcode⟩ := tryCandidate_eq_some h
  refine tryCandidate_eq_some_iff.mpr ⟨pieces, hsplit, ?_⟩
  exact (encode_same hle fun full hfull => nomatch hcode.symm.trans hfull).trans hcode

/-- A search over candidates none of which fails finds the best one or nothing. -/
lemma search_leads {pieceRows : Int} (h : song.Encodes encoding pieceRows pool) (capacity : Int) :
    ∃ best, Leads song (encoding.capped capacity) pool (song.candidates pieceRows) best ∧
      ∀ choice, song.search (encoding.capped capacity) pieceRows pool = .ok choice ↔
        best = some choice := by
  obtain ⟨best, hbest, hleads⟩ := @searchAmong_leads song (encoding.capped capacity) pool []
    none (song.candidates pieceRows) candidates_sorted
    (fun candidate hc => h.tryCandidate_ok (mem_candidates_iff.mp hc) capacity)
    (fun candidate hc => absurd hc (by simp))
  refine ⟨best, hleads, fun choice => ?_⟩
  rw [Song.search, hbest, ok_bind]
  cases best with
  | none => exact iff_of_false (by simp) (by simp)
  | some found => exact ⟨fun heq => congrArg some (Except.ok.inj heq),
      fun heq => congrArg Except.ok (Option.some.inj heq)⟩

lemma search_larger {pieceRows : Int} {choice : Choice} (hle : small ≤ large)
    (h : song.Encodes encoding pieceRows pool)
    (hchoice : song.search (encoding.capped small) pieceRows pool = .ok choice) :
    ∃ better, song.search (encoding.capped large) pieceRows pool = .ok better ∧
      better.code.size ≤ choice.code.size := by
  obtain ⟨best, hbest, hsmall⟩ := search_leads h small
  obtain rfl := (hsmall choice).mp hchoice
  have hcode := tryCandidate_larger hle hbest.code
  obtain ⟨best, hleads, hlarge⟩ := search_leads h large
  cases best with
  | none => exact absurd hcode (hleads _ hbest.mem _)
  | some better => exact ⟨better, (hlarge better).mpr rfl, hleads.smallest _ hbest.mem _ hcode⟩

/-- A larger capacity of the pool never hurts a song. -/
theorem capacity_gains (song : Song) (encoding : Encoding) (pool : PatternPool)
    (hle : small ≤ large) : song.Gains encoding pool small large where
  same _ _ := encode_same hle
  settles speedChannel factor := by
    obtain ⟨reached, result, hrun, -⟩ := encode_extends song encoding speedChannel factor pool
    exact ⟨liftM result, ⟨reached, fun capacity hroom => hrun.fits capacity fun _ => hroom⟩,
      liftM_ne_full result⟩
  fills _ _ _ h := encode_full_iff h small
  searches _ h _ hchoice := search_larger hle h hchoice

/-- The riff in one song, with its two equal halves. -/
def riff : Song := SongTask.riffTask.view SongTask.riffBench

lemma riff_encodes : riff.Encodes soleEncoding 6 {} := by
  have hruns : ∀ candidate ∈ riff.candidates 6, ∀ pieces ∈ riff.split candidate.factor,
      (pieces.encode (soleEncoding.capped 4) candidate.channel candidate.factor {}).isOk = true :=
    by decide +kernel
  intro candidate pieces hoffered hsplit
  obtain ⟨code, hcode⟩ :=
    ok_of_isOk (hruns candidate (mem_candidates_iff.mpr hoffered) pieces hsplit)
  exact ⟨code, uncapped_of_ok hcode⟩

/-- With two places the riff stays in one piece, with three its halves can be shared. -/
theorem riff_gains : (2 : Int) ≤ 3 ∧ riff.Encodes soleEncoding 6 {} ∧
    ∃ choice better, riff.search (soleEncoding.capped 2) 6 {} = .ok choice ∧
      riff.search (soleEncoding.capped 3) 6 {} = .ok better ∧
      better.code.size ≤ choice.code.size ∧ choice.code.size = 27 ∧ better.code.size = 24 := by
  have hsmall : (riff.search (soleEncoding.capped 2) 6 {}).isOk = true := by decide +kernel
  have hsizes : ((riff.search (soleEncoding.capped 2) 6 {}).map (·.code.size)).toOption = some 27 ∧
      ((riff.search (soleEncoding.capped 3) 6 {}).map (·.code.size)).toOption = some 24 := by
    decide +kernel
  obtain ⟨choice, hchoice⟩ := ok_of_isOk hsmall
  have hlarger : (2 : Int) ≤ 3 := by decide
  obtain ⟨better, hbetter, hle⟩ := (capacity_gains riff soleEncoding {} hlarger).searches 6
    riff_encodes choice hchoice
  rw [hchoice, hbetter] at hsizes
  exact ⟨hlarger, riff_encodes, choice, better, hchoice, hbetter, hle,
    Option.some.inj hsizes.1, Option.some.inj hsizes.2⟩

end Capacities

end Chiptune
