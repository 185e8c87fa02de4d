import Chiptune.Proofs.Encodable
import Chiptune.Proofs.TrialRuns

/-!
# The best candidate

The search goes through the candidates in lexicographic order and keeps the first one with the
smallest dry run. What it has kept after some candidates is the best of these, so in the end it has
the best of all, unless none fits.
-/

namespace Chiptune

open Assembly

/-- By channel, then by factor. -/
def Candidate.Before (a b : Candidate) : Prop :=
  a.channel < b.channel ∨ a.channel = b.channel ∧ a.factor < b.factor

namespace Song

/-- The factor divides the pattern length and leaves pieces of at least `pieceRows` rows. -/
structure Divided (song : Song) (pieceRows : Int) (factor : Nat) : Prop where
  pos : 0 < factor
  dvd : factor ∣ song.patternLength
  le : factor ≤ song.patternLength
  rows : pieceRows ≤ (song.patternLength / factor : Nat)

/-- Any channel together with a factor, which is one if there is no other. -/
structure Offers (song : Song) (pieceRows : Int) (candidate : Candidate) : Prop where
  channel : candidate.channel < song.channels.length
  factor : song.Divided pieceRows candidate.factor ∨
    candidate.factor = 1 ∧ ∀ factor, ¬ song.Divided pieceRows factor

end Song

namespace SongTask

variable (task : SongTask) (bench : Bench) (pool : PatternPool)

/-- The song can be split as the candidate says, and the dry run on its pieces does not fill the
pool. -/
structure Feasible (candidate : Candidate) (dry : Draft) : Prop where
  offered : task.song.Offers task.pieceRows candidate
  run : ∃ pieces, (task.view bench).split candidate.factor = some pieces ∧
    (task.setting pieces candidate none).run pool = .ok dry

/-- Of the feasible candidates with the smallest dry run the first one. -/
structure Best (candidate : Candidate) (dry : Draft) : Prop where
  feasible : task.Feasible bench pool candidate dry
  smallest : ∀ other draft, task.Feasible bench pool other draft → dry.size ≤ draft.size
  first : ∀ other draft, task.Feasible bench pool other draft → other.Before candidate →
    dry.size < draft.size

/-- The search finds the best candidate, and the run that emits agrees with its dry run. -/
structure Optimal : Prop where
  chosen : ∀ candidate size, task.search.outcome bench = .ok (candidate, size) ↔
    ∃ dry, task.Best bench pool candidate dry ∧ dry.size = size
  refused : task.search.outcome bench = .error (.unexportable (.songTooComplex task.song.name)) ↔
    ∀ candidate dry, ¬ task.Feasible bench pool candidate dry
  emitted : ∀ dialect candidate size, task.search.outcome bench = .ok (candidate, size) →
    ∃ dry draft, task.Best bench pool candidate dry ∧
      (task.compile dialect).outcome bench = .ok (candidate, draft) ∧
      draft.size = size ∧ draft.pool = dry.pool
  /-- The run that emits stops nowhere. -/
  failed : ∀ dialect error, (task.compile dialect).outcome bench = .error error ↔
    task.search.outcome bench = .error error
  /-- The song and the pool are left as they were. -/
  kept : bench.Keeps (task.search.left bench) ∧
    ∀ dialect, bench.Keeps ((task.compile dialect).left bench)
  /-- A search on the song itself, without copies, finds the same code. -/
  agrees : ∀ dialect, (task.compile dialect).outcome bench =
    ((task.view bench).search task.encoding task.pieceRows pool).map fun choice =>
      (choice.candidate, choice.code.draft (some dialect) task.number)

end SongTask

section Candidates

variable {song : Song} {pieceRows : Int}

lemma Candidate.Before.trans {a b c : Candidate} (hab : a.Before b) (hbc : b.Before c) :
    a.Before c := by
  unfold Candidate.Before at *
  omega

lemma Candidate.before_irrefl (a : Candidate) : ¬ a.Before a := by
  unfold Candidate.Before
  omega

lemma Candidate.eq_or_before (a b : Candidate) : a = b ∨ a.Before b ∨ b.Before a := by
  by_cases hsame : a = b
  · exact .inl hsame
  · have hdiffer : a.channel ≠ b.channel ∨ a.factor ≠ b.factor := by
      by_contra hboth
      rw [not_or, not_not, not_not] at hboth
      obtain ⟨channel, factor⟩ := a
      obtain ⟨rfl, rfl⟩ := hboth
      exact hsame rfl
    unfold Candidate.Before
    omega

/-- The divisors among the factors. -/
lemma mem_divisors {factor : Nat} : factor ∈ ((List.range song.patternLength).map (· + 1)).filter
    (fun f => song.patternLength % f == 0 && pieceRows ≤ (song.patternLength / f : Nat)) ↔
      song.Divided pieceRows factor := by
  simp only [List.mem_filter, List.mem_map, List.mem_range, Bool.and_eq_true, beq_iff_eq,
    decide_eq_true_eq]
  constructor
  · rintro ⟨⟨k, hk, rfl⟩, hdvd, hrows⟩
    exact ⟨by omega, Nat.dvd_of_mod_eq_zero hdvd, by omega, hrows⟩
  · rintro ⟨hpos, hdvd, hle, hrows⟩
    exact ⟨⟨factor - 1, by omega, by omega⟩, Nat.mod_eq_zero_of_dvd hdvd, hrows⟩

lemma mem_factors {factor : Nat} : factor ∈ song.factors pieceRows ↔
    song.Divided pieceRows factor ∨ factor = 1 ∧ ∀ other, ¬ song.Divided pieceRows other := by
  unfold Song.factors
  dsimp only
  split
  · next hnone =>
    have hall : ∀ other, ¬ song.Divided pieceRows other := by
      intro other hother
      have hmem := mem_divisors.mpr hother
      rw [List.isEmpty_iff.mp hnone] at hmem
      exact nomatch hmem
    rw [List.mem_singleton]
    exact ⟨fun h => .inr ⟨h, hall⟩, fun h => h.elim (fun hd => absurd hd (hall factor)) And.left⟩
  · next hsome =>
    rw [mem_divisors]
    refine ⟨.inl, fun h => h.elim id fun hnone => absurd ?_ hsome⟩
    refine List.isEmpty_iff.mpr (List.eq_nil_iff_forall_not_mem.mpr fun other hother => ?_)
    exact hnone.2 other (mem_divisors.mp hother)

lemma mem_candidates_iff {candidate : Candidate} :
    candidate ∈ song.candidates pieceRows ↔ song.Offers pieceRows candidate := by
  constructor
  · intro h
    obtain ⟨channel, hchannel, h⟩ := List.mem_flatMap.mp h
    obtain ⟨factor, hfactor, rfl⟩ := List.mem_map.mp h
    exact ⟨List.mem_range.mp hchannel, mem_factors.mp hfactor⟩
  · rintro ⟨hchannel, hfactor⟩
    refine List.mem_flatMap.mpr ⟨candidate.channel, List.mem_range.mpr hchannel, ?_⟩
    exact List.mem_map.mpr ⟨candidate.factor, mem_factors.mpr hfactor, rfl⟩

lemma factors_sorted : (song.factors pieceRows).Pairwise (· < ·) := by
  unfold Song.factors
  dsimp only
  split
  · exact List.pairwise_singleton _ _
  · refine List.Pairwise.filter _ (List.pairwise_map.mpr ?_)
    exact List.pairwise_lt_range.imp fun h => Nat.succ_lt_succ h

lemma candidates_sorted : (song.candidates pieceRows).Pairwise Candidate.Before := by
  refine List.pairwise_flatMap.mpr ⟨fun channel _ => ?_, ?_⟩
  · exact List.pairwise_map.mpr (factors_sorted.imp fun h => .inr ⟨rfl, h⟩)
  · refine List.pairwise_lt_range.imp fun hlt a ha b hb => ?_
    obtain ⟨_, -, rfl⟩ := List.mem_map.mp ha
    obtain ⟨_, -, rfl⟩ := List.mem_map.mp hb
    exact .inl hlt

end Candidates

/-! ### The best so far -/

section Tried

variable {song : Song} {encoding : Encoding} {pool : PatternPool} {tried : List Candidate}
  {best : Option Choice} {candidate : Candidate}

/-- Of the candidates that were tried, the choice is the first one with the smallest code. -/
structure Choice.BestOf (song : Song) (encoding : Encoding) (pool : PatternPool)
    (tried : List Candidate) (choice : Choice) : Prop where
  mem : choice.candidate ∈ tried
  code : song.tryCandidate encoding pool choice.candidate = .ok (some choice.code)
  smallest : ∀ other ∈ tried, ∀ code, song.tryCandidate encoding pool other = .ok (some code) →
    choice.code.size ≤ code.size
  first : ∀ other ∈ tried, ∀ code, song.tryCandidate encoding pool other = .ok (some code) →
    other.Before choice.candidate → choice.code.size < code.size

/-- What a search has kept after it tried some candidates. -/
def Leads (song : Song) (encoding : Encoding) (pool : PatternPool) (tried : List Candidate) :
    Option Choice → Prop
  | none => ∀ candidate ∈ tried, ∀ code,
    song.tryCandidate encoding pool candidate ≠ .ok (some code)
  | some choice => choice.BestOf song encoding pool tried

lemma Leads.skip (h : Leads song encoding pool tried best)
    (hcandidate : song.tryCandidate encoding pool candidate = .ok none) :
    Leads song encoding pool (tried ++ [candidate]) best := by
  have hold : ∀ other ∈ tried ++ [candidate], ∀ code,
      song.tryCandidate encoding pool other = .ok (some code) → other ∈ tried := by
    intro other ho code hcode
    rcases List.mem_append.mp ho with ho | ho
    · exact ho
    · rw [List.mem_singleton.mp ho, hcandidate] at hcode
      exact nomatch Except.ok.inj hcode
  cases best with
  | none => exact fun other ho code hcode => h other (hold other ho code hcode) code hcode
  | some choice =>
    exact ⟨List.mem_append_left _ h.mem, h.code,
      fun other ho code hcode => h.smallest other (hold other ho code hcode) code hcode,
      fun other ho code hcode => h.first other (hold other ho code hcode) code hcode⟩

/-- The codes of all candidates that were tried and of one more. -/
lemma tried_or_last {other : Candidate} {code found : SongCode}
    (hcode : song.tryCandidate encoding pool candidate = .ok (some code))
    (hother : other ∈ tried ++ [candidate])
    (hfound : song.tryCandidate encoding pool other = .ok (some found)) :
    other ∈ tried ∨ other = candidate ∧ found = code := by
  rcases List.mem_append.mp hother with ho | ho
  · exact .inl ho
  · obtain rfl := List.mem_singleton.mp ho
    rw [hcode] at hfound
    exact .inr ⟨rfl, (Option.some.inj (Except.ok.inj hfound)).symm⟩

/-- A candidate whose code is smaller than all before is the best one. -/
lemma bestOf_last {code : SongCode}
    (hcode : song.tryCandidate encoding pool candidate = .ok (some code))
    (hless : ∀ other ∈ tried, ∀ found,
      song.tryCandidate encoding pool other = .ok (some found) → code.size < found.size) :
    Choice.BestOf song encoding pool (tried ++ [candidate]) ⟨candidate, code⟩ where
  mem := List.mem_append_right _ (List.mem_singleton.mpr rfl)
  code := hcode
  smallest := by
    intro other ho found hfound
    rcases tried_or_last hcode ho hfound with ho | ⟨-, rfl⟩
    · exact Nat.le_of_lt (hless other ho found hfound)
    · exact Nat.le_refl _
  first := by
    intro other ho found hfound hbefore
    rcases tried_or_last hcode ho hfound with ho | ⟨rfl, -⟩
    · exact hless other ho found hfound
    · exact absurd hbefore (Candidate.before_irrefl other)

/-- The best candidate stays the best one when the code of the next is not smaller. -/
lemma Choice.BestOf.stays {choice : Choice} {code : SongCode}
    (h : choice.BestOf song encoding pool tried)
    (hlast : ∀ other ∈ tried, other.Before candidate)
    (hcode : song.tryCandidate encoding pool candidate = .ok (some code))
    (hle : choice.code.size ≤ code.size) :
    choice.BestOf song encoding pool (tried ++ [candidate]) where
  mem := List.mem_append_left _ h.mem
  code := h.code
  smallest := by
    intro other ho found hfound
    rcases tried_or_last hcode ho hfound with ho | ⟨-, rfl⟩
    · exact h.smallest other ho found hfound
    · exact hle
  first := by
    intro other ho found hfound hbefore
    rcases tried_or_last hcode ho hfound with ho | ⟨rfl, -⟩
    · exact h.first other ho found hfound hbefore
    · exact absurd (hbefore.trans (hlast _ h.mem)) (Candidate.before_irrefl other)

/-- A candidate that comes last becomes the best one if its code is smaller than all before. -/
lemma Leads.smaller {code : SongCode} (h : Leads song encoding pool tried best)
    (hlast : ∀ other ∈ tried, other.Before candidate)
    (hcode : song.tryCandidate encoding pool candidate = .ok (some code)) :
    Leads song encoding pool (tried ++ [candidate]) (some (Song.smaller best candidate code)) := by
  cases best with
  | none => exact bestOf_last hcode fun other ho found hfound => absurd hfound (h other ho found)
  | some choice =>
    rw [Song.smaller]
    by_cases hsmaller : code.size < choice.code.size
    · rw [if_pos hsmaller]
      exact bestOf_last hcode fun other ho found hfound =>
        Nat.lt_of_lt_of_le hsmaller (h.smallest other ho found hfound)
    · rw [if_neg hsmaller]
      exact h.stays hlast hcode (Nat.le_of_not_lt hsmaller)

/-- A search that meets no error keeps the best of all candidates. -/
lemma searchAmong_leads {rest : List Candidate}
    (hsorted : (tried ++ rest).Pairwise Candidate.Before)
    (hok : ∀ candidate ∈ rest, ∃ code, song.tryCandidate encoding pool candidate = .ok code)
    (h : Leads song encoding pool tried best) :
    ∃ result, song.searchAmong encoding pool best rest = .ok result ∧
      Leads song encoding pool (tried ++ rest) result := by
  induction rest generalizing tried best with
  | nil => exact ⟨best, rfl, by rwa [List.append_nil]⟩
  | cons candidate rest ih =>
    have hlater := fun other ho => hok other (List.mem_cons_of_mem _ ho)
    have hlast : ∀ other ∈ tried, other.Before candidate := fun other ho =>
      (List.pairwise_append.mp hsorted).2.2 other ho candidate (by simp)
    have hassoc : tried ++ candidate :: rest = tried ++ [candidate] ++ rest := by simp
    rw [hassoc] at hsorted ⊢
    obtain ⟨code, hcode⟩ := hok candidate (by simp)
    rw [Song.searchAmong, hcode, ok_bind]
    cases code with
    | none => exact ih hsorted hlater (h.skip hcode)
    | some code => exact ih hsorted hlater (h.smaller hlast hcode)

end Tried

lemma tryCandidate_eq_some_iff {song : Song} {encoding : Encoding} {pool : PatternPool}
    {candidate : Candidate} {code : SongCode} :
    song.tryCandidate encoding pool candidate = .ok (some code) ↔
      ∃ pieces, song.split candidate.factor = some pieces ∧
        pieces.encode encoding candidate.channel candidate.factor pool = .ok code := by
  refine ⟨tryCandidate_eq_some, ?_⟩
  rintro ⟨pieces, hsplit, hencode⟩
  rw [Song.tryCandidate, hsplit]
  simp only [hencode]
  rfl

namespace SongTask

variable {task : SongTask} {bench : Bench} {pool : PatternPool} {candidate : Candidate}
  {dry : Draft}

/-- The dry run of a candidate has what the search has of it. -/
lemma feasible_iff : task.Feasible bench pool candidate dry ↔
    candidate ∈ task.song.candidates task.pieceRows ∧ ∃ code : SongCode,
      (task.view bench).tryCandidate task.encoding pool candidate = .ok (some code) ∧
        dry = code.draft none task.number := by
  constructor
  · rintro ⟨hoffered, pieces, hsplit, hrun⟩
    rw [run_setting (one_le_of_split hsplit)] at hrun
    cases hcode : pieces.encode task.encoding candidate.channel candidate.factor pool with
    | error obstacle =>
      rw [hcode] at hrun
      exact nomatch hrun
    | ok code =>
      rw [hcode] at hrun
      obtain rfl := Except.ok.inj hrun
      exact ⟨mem_candidates_iff.mpr hoffered, code,
        tryCandidate_eq_some_iff.mpr ⟨pieces, hsplit, hcode⟩, rfl⟩
  · rintro ⟨hmem, code, hcode, rfl⟩
    obtain ⟨pieces, hsplit, hencode⟩ := tryCandidate_eq_some hcode
    refine ⟨mem_candidates_iff.mp hmem, pieces, hsplit, ?_⟩
    rw [run_setting (one_le_of_split hsplit), hencode]
    rfl

lemma Best.unique {other : Candidate} {draft : Draft} (h : task.Best bench pool candidate dry)
    (hother : task.Best bench pool other draft) : candidate = other ∧ dry.size = draft.size := by
  have hle := h.smallest other draft hother.feasible
  have hge := hother.smallest candidate dry h.feasible
  have hsize : dry.size = draft.size := Nat.le_antisymm hle hge
  refine ⟨?_, hsize⟩
  rcases candidate.eq_or_before other with heq | hbefore | hbefore
  · exact heq
  · have hlt := hother.first candidate dry h.feasible hbefore
    omega
  · have hlt := h.first other draft hother.feasible hbefore
    omega

/-- What a search has kept in the end is the best candidate. -/
lemma best_of_leads {choice : Choice} (h : choice.BestOf (task.view bench) task.encoding pool
    (task.song.candidates task.pieceRows)) :
    task.Best bench pool choice.candidate (choice.code.draft none task.number) where
  feasible := feasible_iff.mpr ⟨h.mem, choice.code, h.code, rfl⟩
  smallest := by
    intro other draft hother
    obtain ⟨hmem, code, hcode, rfl⟩ := feasible_iff.mp hother
    exact h.smallest other hmem code hcode
  first := by
    intro other draft hother hbefore
    obtain ⟨hmem, code, hcode, rfl⟩ := feasible_iff.mp hother
    exact h.first other hmem code hcode hbefore

/-- Where no dry run meets an error, the search either leaves the best candidate or finds that none
is feasible. -/
lemma search_best (hfine : ∀ candidate pieces, task.song.Offers task.pieceRows candidate →
      (task.view bench).split candidate.factor = some pieces →
      Unfailing ((task.setting pieces candidate none).run pool)) :
    (∃ choice, (task.view bench).search task.encoding task.pieceRows pool = .ok choice ∧
      task.Best bench pool choice.candidate (choice.code.draft none task.number)) ∨
    (task.view bench).search task.encoding task.pieceRows pool =
      .error (.unexportable (.songTooComplex task.song.name)) ∧
        ∀ candidate dry, ¬ task.Feasible bench pool candidate dry := by
  have hok : ∀ candidate ∈ task.song.candidates task.pieceRows,
      ∃ code, (task.view bench).tryCandidate task.encoding pool candidate = .ok code := by
    intro candidate hmem
    rw [Song.tryCandidate]
    cases hsplit : (task.view bench).split candidate.factor with
    | none => exact ⟨none, rfl⟩
    | some pieces =>
      have hrun := hfine candidate pieces (mem_candidates_iff.mp hmem) hsplit
      rw [run_setting (one_le_of_split hsplit)] at hrun
      dsimp only
      rcases hencode : pieces.encode task.encoding candidate.channel candidate.factor pool with
        (error | full) | code
      · rw [hencode] at hrun
        exact absurd rfl (hrun error)
      · exact ⟨none, rfl⟩
      · exact ⟨some code, rfl⟩
  obtain ⟨result, hresult, hleads⟩ := @searchAmong_leads (task.view bench) task.encoding pool []
    none (task.song.candidates task.pieceRows) candidates_sorted hok
    fun _ hmem => absurd hmem List.not_mem_nil
  rw [List.nil_append] at hleads
  have hcandidates : (task.view bench).candidates task.pieceRows =
    task.song.candidates task.pieceRows := rfl
  rw [Song.search, hcandidates, hresult, ok_bind]
  cases result with
  | none =>
    refine .inr ⟨rfl, fun candidate dry hfeasible => ?_⟩
    obtain ⟨hmem, code, hcode, -⟩ := feasible_iff.mp hfeasible
    exact hleads candidate hmem code hcode
  | some choice => exact .inl ⟨choice, rfl, best_of_leads hleads⟩

lemma kept_bench (h : task.On bench pool) : bench.Keeps (task.search.left bench) ∧
    ∀ dialect, bench.Keeps ((task.compile dialect).left bench) :=
  ⟨(search_yields h).left, fun dialect => (compile_yields h dialect).left⟩

lemma optimal_of_best {choice : Choice} (h : task.On bench pool)
    (hchoice : (task.view bench).search task.encoding task.pieceRows pool = .ok choice)
    (hbest : task.Best bench pool choice.candidate (choice.code.draft none task.number)) :
    task.Optimal bench pool := by
  have hcompile := fun dialect => (compile_yields h dialect).outcome
  have hfound : task.search.outcome bench = .ok (choice.candidate, choice.code.size) := by
    rw [(search_yields h).outcome, hchoice]
    rfl
  have hemitted : ∀ dialect, (task.compile dialect).outcome bench =
      .ok (choice.candidate, choice.code.draft (some dialect) task.number) := fun dialect => by
    rw [hcompile, hchoice]
    rfl
  refine ⟨fun candidate size => ⟨fun heq => ?_, ?_⟩, ⟨fun heq => ?_, fun hnone => ?_⟩,
    fun dialect candidate size heq => ?_, fun dialect error => ?_, kept_bench h, hcompile⟩
  · rw [hfound] at heq
    obtain ⟨rfl, rfl⟩ := Prod.mk.inj (Except.ok.inj heq)
    exact ⟨_, hbest, rfl⟩
  · rintro ⟨dry, hdry, rfl⟩
    obtain ⟨rfl, hsize⟩ := hbest.unique hdry
    rw [hfound, ← hsize]
    rfl
  · rw [hfound] at heq
    exact nomatch heq
  · exact absurd hbest.feasible (hnone _ _)
  · rw [hfound] at heq
    obtain ⟨rfl, rfl⟩ := Prod.mk.inj (Except.ok.inj heq)
    exact ⟨_, _, hbest, hemitted dialect, rfl, rfl⟩
  · rw [hfound, hemitted]
    exact iff_of_false (fun heq => nomatch heq) (fun heq => nomatch heq)

lemma optimal_of_none (h : task.On bench pool)
    (hsearch : (task.view bench).search task.encoding task.pieceRows pool =
      .error (.unexportable (.songTooComplex task.song.name)))
    (hnone : ∀ candidate dry, ¬ task.Feasible bench pool candidate dry) :
    task.Optimal bench pool := by
  have hcompile := fun dialect => (compile_yields h dialect).outcome
  have hrefused : task.search.outcome bench =
      .error (.unexportable (.songTooComplex task.song.name)) := by
    rw [(search_yields h).outcome, hsearch]
    rfl
  have hstopped : ∀ dialect, (task.compile dialect).outcome bench =
      .error (.unexportable (.songTooComplex task.song.name)) := fun dialect => by
    rw [hcompile, hsearch]
    rfl
  refine ⟨fun candidate size => ⟨fun heq => ?_, ?_⟩, iff_of_true hrefused hnone,
    fun dialect candidate size heq => ?_, fun dialect error => ?_, kept_bench h, hcompile⟩
  · rw [hrefused] at heq
    exact nomatch heq
  · rintro ⟨dry, hdry, -⟩
    exact absurd hdry.feasible (hnone _ _)
  · rw [hrefused] at heq
    exact nomatch heq
  · rw [hrefused, hstopped]
    exact ⟨fun heq => congrArg Except.error (Except.error.inj heq),
      fun heq => congrArg Except.error (Except.error.inj heq)⟩

/-- Where no dry run meets an error but a full pool, the search is optimal and the run that emits
agrees with it. -/
theorem search_optimal (h : task.On bench pool)
    (hfine : ∀ candidate pieces, task.song.Offers task.pieceRows candidate →
      (task.view bench).split candidate.factor = some pieces →
      Unfailing ((task.setting pieces candidate none).run pool)) :
    task.Optimal bench pool := by
  rcases search_best hfine with ⟨choice, hchoice, hbest⟩ | ⟨hsearch, hnone⟩
  · exact optimal_of_best h hchoice hbest
  · exact optimal_of_none h hsearch hnone

/-- Eight notes that come twice, with a change of the speed in between. -/
def riffTask : SongTask where
  song := { id := 0, name := "riff", patternLength := 16,
            channels := [⟨.square1, [some 1]⟩, ⟨.triangle, [none]⟩] }
  number := 0
  encoding := soleEncoding
  pieceRows := 6
  pool := 0

def riffBench : Bench :=
  let bar : Pattern := [30, 32, 34, 35, 37, 39, 41, 42].map fun value : Int => { value }
  { store := [[], bar ++ { value := 30, effect := .speed, param := 5 } :: bar.tail]
    pools := [{}] }

/-- Two pieces of the riff are equal if it is cut in half and the speed is set elsewhere. -/
theorem riffTask_optimal : riffTask.On riffBench {} ∧
    riffTask.search.outcome riffBench = .ok (⟨1, 2⟩, 24) ∧
    ∃ dry draft, riffTask.Best riffBench {} ⟨1, 2⟩ dry ∧
      (riffTask.compile .ca65).outcome riffBench = .ok (⟨1, 2⟩, draft) ∧ draft.size = 24 ∧
      draft.pool = dry.pool := by
  have hon : riffTask.On riffBench {} := ⟨by decide, rfl⟩
  have hruns : ∀ candidate ∈ riffTask.song.candidates riffTask.pieceRows,
      ∀ pieces ∈ (riffTask.view riffBench).split candidate.factor,
        ((riffTask.setting pieces candidate none).run {}).isOk = true := by decide +kernel
  have hfound : (riffTask.search.outcome riffBench).toOption = some (⟨1, 2⟩, 24) := by
    decide +kernel
  have hsearch := toOption_eq_some_iff.mp hfound
  have hoptimal := search_optimal hon fun candidate pieces hoffered hsplit error hfailed => by
    have hrun := hruns candidate (mem_candidates_iff.mpr hoffered) pieces hsplit
    rw [hfailed] at hrun
    exact nomatch hrun
  exact ⟨hon, hsearch, hoptimal.emitted .ca65 ⟨1, 2⟩ 24 hsearch⟩

end SongTask

end Chiptune
