import Chiptune.Proofs.EnvelopePlayer
import Chiptune.Proofs.Outcome
import Chiptune.Proofs.Refusals

/-!
# What envelope streams play

The code of samples spells them, wherever runs are cut. From its start a stream therefore plays the
samples and then again from the loop point, or holds the last of them; behind the release point it
plays the samples that are left.
-/

namespace Chiptune

namespace Envelope

def expandRun (run : UInt8 × Nat) : Bytes := List.replicate (run.2 + 1) run.1

lemma runs_expand (samples : Bytes) : (runs samples).flatMap expandRun = samples := by
  induction samples with
  | nil => rfl
  | cons v rest ih =>
    unfold runs
    cases hrest : runs rest with
    | nil =>
      rw [hrest, List.flatMap_nil] at ih
      rw [← ih]
      rfl
    | cons run tail =>
      obtain ⟨w, n⟩ := run
      rw [hrest] at ih
      dsimp only
      split
      · next h =>
        subst h
        rw [← ih, List.flatMap_cons, List.flatMap_cons, expandRun, expandRun, List.replicate_succ,
          List.cons_append]
      · rw [List.flatMap_cons, ih]
        rfl

lemma runs_ne_nil {samples : Bytes} (h : samples ≠ []) : runs samples ≠ [] := by
  intro hruns
  have := runs_expand samples
  rw [hruns] at this
  exact h this.symm

lemma mem_of_mem_runs {samples : Bytes} {run : UInt8 × Nat} (h : run ∈ runs samples) :
    run.1 ∈ samples := by
  rw [← runs_expand samples]
  refine List.mem_flatMap.mpr ⟨run, h, ?_⟩
  simp [expandRun]

section Code

variable {v : UInt8} {n : Nat}

lemma isCount_ofNat (hpos : 0 < n) (hle : n ≤ longestHold) : IsCount (UInt8.ofNat n) := by
  have hle' : n ≤ 126 := hle
  have hn : (UInt8.ofNat n).toNat = n := UInt8.toNat_ofNat_of_lt' (show n < 256 by omega)
  rw [IsCount, hn]
  exact ⟨hpos, hle⟩

lemma not_isValue_of_isCount {b : UInt8} (h : IsCount b) : ¬ IsValue b := by
  have hle : b.toNat ≤ 126 := h.2
  unfold IsValue
  omega

lemma spelled_count {b : UInt8} (h : IsCount b) (rest : Bytes) :
    spelled v (b :: rest) = List.replicate b.toNat v ++ spelled v rest := by
  rw [spelled, if_neg (not_isValue_of_isCount h)]

lemma spelled_longest (k : Nat) (rest : Bytes) :
    spelled v (List.replicate k (UInt8.ofNat longestHold) ++ rest) =
      List.replicate (k * longestHold) v ++ spelled v rest := by
  induction k with
  | zero => simp
  | succ k ih =>
    have hcount := isCount_ofNat (n := longestHold) (by decide) le_rfl
    rw [List.replicate_succ, List.cons_append, spelled_count hcount, ih, ← List.append_assoc,
      ← List.replicate_add, Nat.succ_mul, Nat.add_comm (k * _)]
    rfl

lemma hold_spells (hv : IsValue v) (n : Nat) :
    Plain (hold v n) ∧ spelled v (hold v n) = List.replicate n v := by
  match n with
  | 0 => exact ⟨nofun, rfl⟩
  | 1 =>
    refine ⟨?_, ?_⟩
    · simp [Plain, hold, hv]
    · simp [hold, spelled, hv]
  | n + 2 =>
    have hle : (n + 1) % longestHold + 1 ≤ longestHold := Nat.mod_lt _ (by decide)
    have hcount := isCount_ofNat (Nat.succ_pos _) hle
    have hlongest := isCount_ofNat (n := longestHold) (by decide) le_rfl
    have hsum := Nat.div_add_mod' (n + 1) longestHold
    constructor
    · intro b hb
      rw [hold, List.mem_append, List.mem_replicate, List.mem_singleton] at hb
      rcases hb with ⟨-, rfl⟩ | rfl
      · exact .inr hlongest
      · exact .inr hcount
    · have hlast : (UInt8.ofNat ((n + 1) % longestHold + 1)).toNat = (n + 1) % longestHold + 1 :=
        UInt8.toNat_ofNat_of_lt' (lt_of_le_of_lt hle (by decide))
      rw [hold, spelled_longest, spelled_count hcount, hlast, spelled, List.append_nil,
        ← List.replicate_add]
      congr 1
      omega

lemma hold_length (v : UInt8) (n : Nat) : (hold v n).length ≤ n := by
  match n with
  | 0 => exact le_rfl
  | 1 => exact le_rfl
  | n + 2 =>
    have := Nat.div_le_self (n + 1) longestHold
    rw [hold, List.length_append, List.length_replicate, List.length_singleton]
    omega

lemma runCode_spells {run : UInt8 × Nat} (hv : IsValue run.1) :
    Spells (runCode run) (expandRun run) := by
  obtain ⟨hplain, hspelled⟩ := hold_spells hv run.2
  constructor
  · exact List.forall_mem_cons.mpr ⟨.inl hv, hplain⟩
  · intro value
    rw [runCode, spelled, if_pos hv, hspelled]
    rfl

lemma flatMap_runCode_spells {groups : List (UInt8 × Nat)} (h : ∀ run ∈ groups, IsValue run.1) :
    Spells (groups.flatMap runCode) (groups.flatMap expandRun) := by
  induction groups with
  | nil => exact .nil
  | cons run groups ih =>
    exact (runCode_spells (h run (by simp))).append (ih fun other ho => h other (by simp [ho]))

variable {samples : Bytes}

lemma compress_spells (h : ∀ b ∈ samples, IsValue b) : Spells (compress samples) samples := by
  have hruns := flatMap_runCode_spells fun run hrun => h run.1 (mem_of_mem_runs hrun)
  rwa [runs_expand] at hruns

lemma flatMap_runCode_length (groups : List (UInt8 × Nat)) :
    (groups.flatMap runCode).length ≤ (groups.flatMap expandRun).length := by
  induction groups with
  | nil => exact le_rfl
  | cons run groups ih =>
    have := hold_length run.1 run.2
    simp only [List.flatMap_cons, List.length_append, runCode, expandRun, List.length_cons,
      List.length_replicate]
    omega

lemma compress_length (samples : Bytes) : (compress samples).length ≤ samples.length :=
  (flatMap_runCode_length _).trans_eq (congrArg List.length (runs_expand samples))

lemma compressTail_eq (hne : samples ≠ []) :
    compressTail samples = compress samples.dropLast ++ [samples.getLast hne] := by
  rw [compressTail, List.getLast?_eq_some_getLast hne]
  rfl

lemma single_spells (hv : IsValue v) : Spells [v] [v] := by
  have hrun : IsValue (v, 0).1 := hv
  exact runCode_spells hrun

lemma compressTail_spells (hne : samples ≠ []) (h : ∀ b ∈ samples, IsValue b) :
    Spells (compressTail samples) samples := by
  have hlast := single_spells (h _ (List.getLast_mem hne))
  have hinit := compress_spells fun b hb => h b (List.mem_of_mem_dropLast hb)
  have := hinit.append hlast
  rwa [List.dropLast_append_getLast, ← compressTail_eq hne] at this

lemma compressTail_length (samples : Bytes) : (compressTail samples).length ≤ samples.length := by
  by_cases hne : samples = []
  · rw [hne]
    decide
  · have hinit := compress_length samples.dropLast
    have hpos := List.length_pos_iff.mpr hne
    rw [compressTail_eq hne, List.length_append, List.length_singleton]
    rw [List.length_dropLast] at hinit
    omega

end Code

/-- The sample of a frame: the samples in order, and then again from the loop point, or the last. -/
def sampleAt (length : Nat) : Option Nat → (frame : Nat) → Nat
  | some start, frame =>
    if frame < length then frame else start + (frame - start) % (length - start)
  | none, frame => min frame (length - 1)

/-- The level that some values have in a frame if they loop from a position, if there is one. -/
def levelAt (values : List Int) (loop : Int) (frame : Nat) : Int :=
  Kernel.clamp (-64) 63
    (values.getD (sampleAt values.length (position? values.length loop) frame) 0) + 192

lemma biased_level (value : Int) :
    ((biased value).toNat : Int) = Kernel.clamp (-64) 63 value + 192 := by
  have hlow : -64 ≤ Kernel.clamp (-64) 63 value := le_max_left _ _
  have hhigh : Kernel.clamp (-64) 63 value ≤ 63 := max_le (by decide) (min_le_left _ _)
  have hsmall : (Kernel.clamp (-64) 63 value + 192).toNat < 256 := by omega
  rw [biased, UInt8.toNat_ofNat_of_lt' hsmall]
  omega

lemma isValue_biased (value : Int) : IsValue (biased value) := by
  have hlevel := biased_level value
  have hlow : -64 ≤ Kernel.clamp (-64) 63 value := le_max_left _ _
  unfold IsValue
  omega

lemma isValue_of_mem_biased {values : List Int} {b : UInt8} (h : b ∈ values.map biased) :
    IsValue b := by
  obtain ⟨value, -, rfl⟩ := List.mem_map.mp h
  exact isValue_biased value

lemma position?_lt {length position : Nat} {field : Int}
    (h : position? length field = some position) : position < length := by
  have hposition := position?_eq_some h
  unfold position? at h
  split at h
  · omega
  · exact nomatch h

/-- A body that is played again and again starts at the loop point, or it holds one value. -/
def Rounds (lead body : Bytes) (loop : Option Nat) : Prop :=
  loop = some lead.length ∨ loop = none ∧ ∃ b n, body = List.replicate n b

/-- The samples of a lead and its body are played at the places at which they stand. -/
lemma cycled_eq {lead body : Bytes} {loop : Option Nat} (hne : body ≠ [])
    (h : Rounds lead body loop) (frame : Nat) :
    sampleAt (lead ++ body).length loop frame < (lead ++ body).length ∧
      cycled lead body frame = (lead ++ body)[sampleAt (lead ++ body).length loop frame]? := by
  have hpos := List.length_pos_iff.mpr hne
  have hround := Nat.mod_lt (frame - lead.length) hpos
  rw [List.length_append]
  unfold cycled
  by_cases hlead : frame < lead.length
  · have hfirst : sampleAt (lead.length + body.length) loop frame = frame := by
      rcases h with rfl | ⟨rfl, -⟩
      · exact if_pos (by omega)
      · exact min_eq_left (by omega)
    rw [hfirst, if_pos hlead, List.getElem?_append_left hlead]
    exact ⟨by omega, rfl⟩
  · rw [if_neg hlead]
    rcases h with rfl | ⟨rfl, b, n, rfl⟩
    · have hplace : sampleAt (lead.length + body.length) (some lead.length) frame =
          lead.length + (frame - lead.length) % body.length := by
        dsimp only [sampleAt]
        rw [Nat.add_sub_cancel_left]
        split
        · rw [Nat.mod_eq_of_lt (by omega)]
          omega
        · rfl
      rw [hplace, List.getElem?_append_right (Nat.le_add_right _ _), Nat.add_sub_cancel_left]
      exact ⟨by omega, rfl⟩
    · rw [List.length_replicate] at hpos hround ⊢
      have hplace : lead.length ≤ sampleAt (lead.length + n) none frame ∧
          sampleAt (lead.length + n) none frame < lead.length + n := by
        dsimp only [sampleAt]
        omega
      rw [List.getElem?_append_right hplace.1, List.getElem?_replicate, List.getElem?_replicate,
        if_pos hround, if_pos (by omega)]
      exact ⟨hplace.2, rfl⟩

/-! ### Streams -/

section Streams

variable {stream leadCode bodyCode lead body rest : Bytes} {start : Nat}

lemma LoopAt.plays {values : List Int} {loop : Int}
    (h : LoopAt stream start leadCode bodyCode lead body rest)
    (hvalues : lead ++ body = values.map biased)
    (hloop : Rounds lead body (position? values.length loop)) :
    Plays stream start (levelAt values loop) := by
  intro value frame
  obtain ⟨hlt, hcycled⟩ := cycled_eq h.nonempty hloop frame
  rw [hvalues, List.length_map] at hlt hcycled
  rw [List.getElem?_map, List.getElem?_eq_getElem hlt] at hcycled
  refine ⟨_, (h.heard value frame).trans hcycled, ?_⟩
  rw [biased_level, levelAt, List.getD_eq_getElem _ _ hlt]

/-- The positions that a stream jumps to. -/
def jumpTargets : Bytes → List Nat
  | [] => []
  | [_] => []
  | b :: next :: rest =>
    if b = 0 then next.toNat :: jumpTargets rest else jumpTargets (next :: rest)

lemma jumpTargets_plain (h : Plain leadCode) :
    jumpTargets (leadCode ++ rest) = jumpTargets rest := by
  induction leadCode with
  | nil => rfl
  | cons b code ih =>
    have hb := ne_zero_of_plain (h b (by simp))
    rw [← ih fun other ho => h other (by simp [ho]), List.cons_append]
    cases code ++ rest with
    | nil => rfl
    | cons next more => rw [jumpTargets, if_neg hb]

lemma LoopAt.jumpTargets_eq (h : LoopAt stream start leadCode bodyCode lead body rest) :
    jumpTargets (stream.drop start) = (start + leadCode.length) :: jumpTargets rest := by
  rw [h.placed, jumpTargets_plain h.leadSpells.plain, jumpTargets_plain h.bodySpells.plain,
    jumpTargets, if_pos rfl, UInt8.toNat_ofNat_of_lt' h.small]

/-- A stream that ends with its last sample and a jump back to it. -/
lemma loopAt_last {before samples : Bytes} (hne : samples ≠ []) (h : ∀ b ∈ samples, IsValue b)
    (hsmall : (jumpToLast (before ++ compressTail samples)).length ≤ 256) :
    LoopAt (jumpToLast (before ++ compressTail samples)) before.length
      (compress samples.dropLast) [samples.getLast hne] samples.dropLast
      [samples.getLast hne] [] := by
  have hlength : (before ++ compressTail samples).length - 1 =
      before.length + (compress samples.dropLast).length := by
    rw [compressTail_eq hne]
    simp
  constructor
  · rw [jumpToLast, hlength, List.append_assoc, List.drop_left, compressTail_eq hne,
      List.append_assoc]
    rfl
  · exact compress_spells fun b hb => h b (List.mem_of_mem_dropLast hb)
  · exact single_spells (h _ (List.getLast_mem hne))
  · exact List.cons_ne_nil _ _
  · rw [jumpToLast, List.length_append] at hsmall
    have hjump : (jumpTo ((before ++ compressTail samples).length - 1)).length = 2 := rfl
    rw [compressTail_eq hne] at hsmall
    simp only [List.length_append, List.length_singleton] at hsmall
    omega

/-- A stream without a release is one loop. -/
lemma sustained_loop {header samples : Bytes} {loop : Option Nat} (hne : samples ≠ [])
    (h : ∀ b ∈ samples, IsValue b) (hloop : ∀ start, loop = some start → start < samples.length)
    (hsmall : (sustained header samples loop).length ≤ 256) :
    ∃ leadCode bodyCode lead body,
      LoopAt (sustained header samples loop) header.length leadCode bodyCode lead body [] ∧
        lead ++ body = samples ∧ Rounds lead body loop := by
  cases loop with
  | none =>
    exact ⟨_, _, _, _, loopAt_last hne h hsmall, List.dropLast_append_getLast hne,
      .inr ⟨rfl, _, 1, rfl⟩⟩
  | some start =>
    have hlt := hloop start rfl
    have hbody : samples.drop start ≠ [] := by
      rw [Ne, List.drop_eq_nil_iff]
      omega
    have hlead : (samples.take start).length = start := List.length_take_of_le hlt.le
    refine ⟨compress (samples.take start), compressTail (samples.drop start), samples.take start,
      samples.drop start, ⟨?_, ?_, ?_, hbody, ?_⟩, List.take_append_drop _ _, .inl (by rw [hlead])⟩
    · rw [sustained, List.append_assoc, List.append_assoc, List.drop_left, List.length_append]
      rfl
    · exact compress_spells fun b hb => h b (List.mem_of_mem_take hb)
    · exact compressTail_spells hbody fun b hb => h b (List.mem_of_mem_drop hb)
    · simp only [sustained, List.length_append] at hsmall
      have hjump : (jumpTo (header.length + (compress (samples.take start)).length)).length = 2 :=
        rfl
      omega

lemma sustained_length (header : Bytes) (samples : Bytes) (loop : Option Nat) :
    (sustained header samples loop).length ≤ header.length + samples.length + 2 := by
  cases loop with
  | none =>
    have := compressTail_length samples
    simp only [sustained, jumpToLast, jumpTo, List.length_append, List.length_cons, List.length_nil]
    omega
  | some start =>
    have hlead := compress_length (samples.take start)
    have hbody := compressTail_length (samples.drop start)
    simp only [sustained, jumpTo, List.length_append, List.length_cons, List.length_nil]
    rw [List.length_take] at hlead
    rw [List.length_drop] at hbody
    omega

/-- The samples before the release, as a lead and the body that is repeated. -/
structure HeldCode (samples : Bytes) (loop : Option Nat) (leadCode bodyCode lead body : Bytes) :
    Prop where
  leadSpells : Spells leadCode lead
  bodySpells : Spells bodyCode body
  nonempty : body ≠ []
  whole : lead ++ body = samples
  rounds : Rounds lead body loop
  short : (leadCode ++ bodyCode).length ≤ samples.length

lemma heldCode_last {samples : Bytes} (hne : samples ≠ []) (h : ∀ b ∈ samples, IsValue b) :
    ∃ bodyCode lead body, HeldCode samples none ((runs samples).dropLast.flatMap runCode) bodyCode
      lead body ∧ (runs samples).dropLast.flatMap runCode ++ bodyCode = compress samples := by
  have hruns := runs_ne_nil hne
  have hvalues : ∀ run ∈ runs samples, IsValue run.1 := fun run hrun => h _ (mem_of_mem_runs hrun)
  have hsplit := List.dropLast_append_getLast hruns
  have hcode : (runs samples).dropLast.flatMap runCode ++ runCode ((runs samples).getLast hruns) =
      compress samples := by
    rw [compress, ← List.flatMap_singleton runCode, ← List.flatMap_append, hsplit]
  have hwhole : (runs samples).dropLast.flatMap expandRun ++
      expandRun ((runs samples).getLast hruns) = samples := by
    rw [← List.flatMap_singleton expandRun, ← List.flatMap_append, hsplit, runs_expand]
  refine ⟨_, _, _, ⟨?_, ?_, ?_, hwhole, .inr ⟨rfl, _, _, rfl⟩, ?_⟩, hcode⟩
  · exact flatMap_runCode_spells fun run hrun => hvalues run (List.mem_of_mem_dropLast hrun)
  · exact runCode_spells (hvalues _ (List.getLast_mem hruns))
  · simp [expandRun]
  · rw [hcode]
    exact compress_length samples

lemma heldCode_loop {samples : Bytes} {start : Nat} (hstart : start < samples.length)
    (h : ∀ b ∈ samples, IsValue b) :
    HeldCode samples (some start) (compress (samples.take start)) (compress (samples.drop start))
      (samples.take start) (samples.drop start) := by
  refine ⟨compress_spells fun b hb => h b (List.mem_of_mem_take hb),
    compress_spells fun b hb => h b (List.mem_of_mem_drop hb), ?_, List.take_append_drop _ _,
    .inl (by rw [List.length_take_of_le hstart.le]), ?_⟩
  · rw [Ne, List.drop_eq_nil_iff]
    omega
  · have hlead := compress_length (samples.take start)
    have hbody := compress_length (samples.drop start)
    rw [List.length_take] at hlead
    rw [List.length_drop] at hbody
    rw [List.length_append]
    omega

/-- The part of a stream that is played before the release, from its code. -/
def heldBytes (leadCode bodyCode : Bytes) : Bytes :=
  UInt8.ofNat ((leadCode ++ bodyCode).length + 3) :: (leadCode ++ bodyCode) ++
    jumpTo (leadCode.length + 1)

lemma heldBytes_length (leadCode bodyCode : Bytes) :
    (heldBytes leadCode bodyCode).length = (leadCode ++ bodyCode).length + 3 := by
  simp only [heldBytes, jumpTo, List.length_append, List.length_cons, List.length_nil]

/-- The stream of an envelope that is released. -/
def releasedCode (leadCode bodyCode tail : Bytes) : Bytes :=
  jumpToLast (heldBytes leadCode bodyCode ++ compressTail tail)

lemma released_eq {samples : Bytes} {release : Nat} {loop : Option Nat} (hpos : 0 < release)
    (hrelease : release < samples.length) (hloop : ∀ start, loop = some start → start < release)
    (h : ∀ b ∈ samples, IsValue b) :
    ∃ leadCode bodyCode lead body,
      HeldCode (samples.take release) loop leadCode bodyCode lead body ∧
        released samples release loop =
          .ok (releasedCode leadCode bodyCode (samples.drop release)) := by
  have hheld : (samples.take release).length = release := List.length_take_of_le hrelease.le
  have hvalues : ∀ b ∈ samples.take release, IsValue b := fun b hb => h b (List.mem_of_mem_take hb)
  cases loop with
  | none =>
    have hne : samples.take release ≠ [] := by
      rw [← List.length_pos_iff]
      omega
    obtain ⟨bodyCode, lead, body, hcode, hwhole⟩ := heldCode_last hne hvalues
    refine ⟨_, _, _, _, hcode, ?_⟩
    rw [releasedCode, heldBytes, hwhole]
    unfold released
    dsimp only
    rw [if_neg hpos.ne']
    rfl
  | some start =>
    have hstart := hloop start rfl
    have hinside : start < (samples.take release).length := by omega
    refine ⟨_, _, _, _, heldCode_loop hinside hvalues, ?_⟩
    unfold released
    dsimp only
    rw [if_pos hstart]
    have htail : releasePart samples release (some start) = compressTail (samples.drop release) :=
      if_neg (by omega)
    rw [releasedCode, heldBytes, ← htail]
    rfl

lemma releasedCode_length (leadCode bodyCode tail : Bytes) :
    (releasedCode leadCode bodyCode tail).length ≤
      (leadCode ++ bodyCode).length + tail.length + 5 := by
  have := compressTail_length tail
  rw [releasedCode, jumpToLast, jumpTo, List.length_append, List.length_append, heldBytes_length]
  simp only [List.length_cons, List.length_nil]
  omega

/-- A stream with a release is two loops, the second of which starts where its first byte says. -/
lemma releasedCode_loops {leadCode bodyCode lead body samples tail : Bytes} {loop : Option Nat}
    (hheld : HeldCode samples loop leadCode bodyCode lead body) (hne : tail ≠ [])
    (htail : ∀ b ∈ tail, IsValue b) (hsmall : (releasedCode leadCode bodyCode tail).length ≤ 256) :
    ∃ entry, (releasedCode leadCode bodyCode tail)[0]? = some entry ∧
      LoopAt (releasedCode leadCode bodyCode tail) 1 leadCode bodyCode lead body
        ((releasedCode leadCode bodyCode tail).drop entry.toNat) ∧
      LoopAt (releasedCode leadCode bodyCode tail) entry.toNat (compress tail.dropLast)
        [tail.getLast hne] tail.dropLast [tail.getLast hne] [] := by
  have hlast : LoopAt (releasedCode leadCode bodyCode tail) (heldBytes leadCode bodyCode).length
      (compress tail.dropLast) [tail.getLast hne] tail.dropLast [tail.getLast hne] [] :=
    loopAt_last hne htail hsmall
  have hentry : (UInt8.ofNat (heldBytes leadCode bodyCode).length).toNat =
      (heldBytes leadCode bodyCode).length :=
    UInt8.toNat_ofNat_of_lt' (Nat.lt_of_add_right_lt hlast.small)
  refine ⟨UInt8.ofNat (heldBytes leadCode bodyCode).length, ?_, ?_, ?_⟩
  · rw [heldBytes_length]
    rfl
  · refine ⟨?_, hheld.leadSpells, hheld.bodySpells, hheld.nonempty, ?_⟩
    · rw [hentry, releasedCode, jumpToLast, List.append_assoc, List.drop_left, heldBytes,
        Nat.add_comm 1]
      simp only [jumpTo, List.cons_append, List.append_assoc, List.nil_append, List.drop_succ_cons,
        List.drop_zero]
    · have := hlast.small
      rw [heldBytes_length, List.length_append] at this
      omega
  · rw [hentry]
    exact hlast

end Streams

/-- Where the driver starts to read: behind the place for the position of the release. -/
def origin (allowRelease : Bool) : Nat := if allowRelease then 1 else 0

/-- The release point of an envelope, if it is used. -/
def releaseAt (env : Envelope) (allowRelease : Bool) : Option Nat :=
  if allowRelease then position? env.values.length env.release else none

/-- The stream plays the envelope before the release and after it, and its jumps go to values. -/
structure PlaysEnvelope (env : Envelope) (allowRelease : Bool) (bytes : Bytes) : Prop where
  unreleased : env.releaseAt allowRelease = none →
    Plays bytes (origin allowRelease) (levelAt env.values env.loop)
  held : ∀ release, env.releaseAt allowRelease = some release →
    Plays bytes (origin allowRelease) (levelAt (env.values.take release) env.loop)
  released : ∀ release, env.releaseAt allowRelease = some release →
    ∃ entry, bytes[0]? = some entry ∧
      Plays bytes entry.toNat (levelAt (env.values.drop release) (-1))
  targets : ∀ target ∈ jumpTargets (bytes.drop (origin allowRelease)),
    ∃ b, bytes[target]? = some b ∧ IsValue b

variable {env : Envelope} {allowRelease : Bool}

/-- A loop point before the release is one of the values before the release too. -/
lemma position?_take {values : List Int} {loop : Int} {release : Nat} (hloop : loop < release)
    (hrelease : release < values.length) :
    position? (values.take release).length loop = position? values.length loop := by
  unfold position?
  rw [List.length_take_of_le hrelease.le]
  by_cases hneg : 0 ≤ loop
  · rw [if_pos ⟨hneg, hloop⟩, if_pos ⟨hneg, by omega⟩]
  · rw [if_neg (by omega), if_neg (by omega)]

lemma sustained_plays (hne : env.values ≠ []) (hnone : env.releaseAt allowRelease = none)
    {header : Bytes} (hheader : header.length = origin allowRelease)
    (hsmall : (sustained header (env.values.map biased)
      (position? env.values.length env.loop)).length ≤ 256) :
    PlaysEnvelope env allowRelease
      (sustained header (env.values.map biased) (position? env.values.length env.loop)) := by
  obtain ⟨leadCode, bodyCode, lead, body, hat, hwhole, hrounds⟩ :=
    sustained_loop (fun h => hne (List.map_eq_nil_iff.mp h)) (fun _ => isValue_of_mem_biased)
      (fun start hstart => List.length_map biased ▸ position?_lt hstart) hsmall
  rw [hheader] at hat
  refine ⟨fun _ => hat.plays hwhole hrounds, by simp [hnone], by simp [hnone], ?_⟩
  intro target htarget
  rw [hat.jumpTargets_eq, jumpTargets, List.mem_singleton] at htarget
  exact htarget ▸ hat.targets_value

lemma released_plays {release : Nat} {leadCode bodyCode lead body : Bytes}
    (hsome : env.releaseAt true = some release) (hloop : env.loop < release)
    (hheld : HeldCode ((env.values.map biased).take release) (position? env.values.length env.loop)
      leadCode bodyCode lead body)
    (hsmall :
      (releasedCode leadCode bodyCode ((env.values.map biased).drop release)).length ≤ 256) :
    PlaysEnvelope env true
      (releasedCode leadCode bodyCode ((env.values.map biased).drop release)) := by
  have hlt : release < env.values.length := position?_lt hsome
  have hne : (env.values.map biased).drop release ≠ [] := by
    rw [Ne, List.drop_eq_nil_iff, List.length_map]
    omega
  obtain ⟨entry, hentry, hfirst, hsecond⟩ := releasedCode_loops hheld hne
    (fun b hb => isValue_of_mem_biased (List.mem_of_mem_drop hb)) hsmall
  have hwhole : lead ++ body = (env.values.take release).map biased := by
    rw [hheld.whole, List.map_take]
  have hrest : ((env.values.map biased).drop release).dropLast ++
      [((env.values.map biased).drop release).getLast hne] =
        (env.values.drop release).map biased := by
    rw [List.dropLast_append_getLast, List.map_drop]
  refine ⟨by simp [hsome], ?_, ?_, ?_⟩
  · rintro other hother
    obtain rfl := Option.some.inj (hsome.symm.trans hother)
    exact hfirst.plays hwhole (position?_take hloop hlt ▸ hheld.rounds)
  · rintro other hother
    obtain rfl := Option.some.inj (hsome.symm.trans hother)
    exact ⟨entry, hentry, hsecond.plays hrest (.inr ⟨if_neg (by omega), _, 1, rfl⟩)⟩
  · intro target htarget
    rw [origin, if_pos rfl, hfirst.jumpTargets_eq, hsecond.jumpTargets_eq, jumpTargets,
      List.mem_cons, List.mem_singleton] at htarget
    rcases htarget with rfl | rfl
    · exact hfirst.targets_value
    · exact hsecond.targets_value

/-- The last step of the compilation: the driver reaches only so many bytes. -/
def fitting (bytes : Bytes) : Outcome (Option Bytes) := do
  if bytes.length > Limits.envelopeBytes then
    throw (.unexportable (.envelopeTooLong bytes.length))
  return some bytes

lemma stream_unreleased (hne : env.values ≠ []) (hnone : env.releaseAt allowRelease = none) :
    env.stream allowRelease = fitting (sustained (if allowRelease then [0] else [])
      (env.values.map biased) (position? env.values.length env.loop)) := by
  unfold stream fitting
  rw [if_neg (by simpa using hne)]
  dsimp only
  rw [List.length_map]
  cases allowRelease with
  | false => rfl
  | true =>
    have hrelease : position? env.values.length env.release = none := hnone
    rw [hrelease]
    rfl

lemma stream_released {release : Nat} {bytes : Bytes} (hne : env.values ≠ [])
    (hsome : env.releaseAt true = some release)
    (hbytes : Envelope.released (env.values.map biased) release
      (position? env.values.length env.loop) = .ok bytes) : env.stream true = fitting bytes := by
  have hrelease : position? env.values.length env.release = some release := hsome
  unfold stream fitting
  rw [if_neg (by simpa using hne)]
  dsimp only
  rw [List.length_map, hrelease]
  dsimp only
  rw [hbytes]
  rfl

/-- What an envelope may be compiled to: a stream that plays it, or a refusal of its size. -/
def Compiles (env : Envelope) (allowRelease : Bool) : Prop :=
  (∃ bytes, env.stream allowRelease = .ok (some bytes) ∧ PlaysEnvelope env allowRelease bytes) ∨
    251 < env.values.length ∧ ∃ size, Limits.envelopeBytes < size ∧
      env.stream allowRelease = .error (.unexportable (.envelopeTooLong size))

lemma compiles_of_fitting {bytes : Bytes} (hstream : env.stream allowRelease = fitting bytes)
    (hlength : bytes.length ≤ env.values.length + 5)
    (hplays : bytes.length ≤ 256 → PlaysEnvelope env allowRelease bytes) :
    env.Compiles allowRelease := by
  unfold fitting at hstream
  by_cases hsize : bytes.length > Limits.envelopeBytes
  · rw [if_pos hsize] at hstream
    have hlarge : 256 < bytes.length := hsize
    exact .inr ⟨by omega, bytes.length, hsize, hstream⟩
  · rw [if_neg hsize] at hstream
    exact .inl ⟨bytes, hstream, hplays (Nat.le_of_not_lt hsize)⟩

/-- An envelope with a value to hold before its release, or without one, gets a stream that plays
it. Only an envelope of more than 251 values can be too long. -/
theorem stream_plays (hne : env.values ≠ [])
    (hrelease : allowRelease = true → env.release < 0 ∨ env.values.length ≤ env.release ∨
      0 < env.release ∧ env.release < env.values.length ∧ env.loop < env.release) :
    env.Compiles allowRelease := by
  cases hat : env.releaseAt allowRelease with
  | none =>
    have hheader : (if allowRelease then [0] else [] : Bytes).length = origin allowRelease := by
      cases allowRelease <;> rfl
    refine compiles_of_fitting (stream_unreleased hne hat) ?_ (sustained_plays hne hat hheader)
    have hlength := sustained_length (if allowRelease then [0] else []) (env.values.map biased)
      (position? env.values.length env.loop)
    have horigin : origin allowRelease ≤ 1 := by cases allowRelease <;> decide
    rw [List.length_map, hheader] at hlength
    omega
  | some release =>
    obtain rfl : allowRelease = true := by
      by_contra hoff
      rw [releaseAt, if_neg hoff] at hat
      exact nomatch hat
    have hfield : (release : Int) = env.release := position?_eq_some hat
    have hlt : release < env.values.length := position?_lt hat
    obtain ⟨hpos, -, hloop⟩ := ((hrelease rfl).resolve_left (by omega)).resolve_left (by omega)
    have hbefore : ∀ start, position? env.values.length env.loop = some start →
        start < release := by
      intro start hstart
      have := position?_eq_some hstart
      omega
    have hvalues : ∀ b ∈ env.values.map biased, IsValue b := fun _ => isValue_of_mem_biased
    obtain ⟨leadCode, bodyCode, lead, body, hheld, hbytes⟩ :=
      released_eq (by omega) (by simpa using hlt) hbefore hvalues
    refine compiles_of_fitting (stream_released hne hat hbytes) ?_
      (released_plays hat (by omega) hheld)
    have hlength := releasedCode_length leadCode bodyCode ((env.values.map biased).drop release)
    have hshort := hheld.short
    rw [List.length_take, List.length_map] at hshort
    rw [List.length_drop, List.length_map] at hlength
    omega

/-- Two equal samples are repeated until the release, and then the other two are left. -/
def struckEnvelope : Envelope := { values := [12, 12, 12, 7, 0], loop := 1, release := 3 }

theorem struckEnvelope_plays :
    (struckEnvelope.values ≠ [] ∧ 0 < struckEnvelope.release ∧
      struckEnvelope.release < struckEnvelope.values.length ∧
      struckEnvelope.loop < struckEnvelope.release) ∧
    struckEnvelope.stream true = .ok (some [6, 204, 204, 204, 0, 2, 199, 192, 0, 7]) ∧
    PlaysEnvelope struckEnvelope true [6, 204, 204, 204, 0, 2, 199, 192, 0, 7] := by
  have hrelease : 0 < struckEnvelope.release ∧
      struckEnvelope.release < struckEnvelope.values.length ∧
      struckEnvelope.loop < struckEnvelope.release := by decide
  have hstream : struckEnvelope.stream true =
      .ok (some [6, 204, 204, 204, 0, 2, 199, 192, 0, 7]) := by decide +kernel
  have hplays : struckEnvelope.Compiles true :=
    stream_plays (by decide) fun _ => .inr (.inr hrelease)
  obtain ⟨bytes, hbytes, hplayed⟩ := hplays.resolve_right fun h => absurd h.1 (by decide)
  rw [hstream] at hbytes
  obtain rfl := Option.some.inj (Except.ok.inj hbytes)
  exact ⟨⟨by decide, hrelease⟩, hstream, hplayed⟩

end Envelope

end Chiptune
