import Chiptune.Proofs.LoopRows

/-!
# The loop labels of a song

The labels go by the first jump of the song in the order of its slots and rows, which need not be
the one that ends the song: a skip passes over the jumps behind it, and over all jumps of its own
slot.
-/

namespace Chiptune

/-- The first jump of a song, in the order of its slots and rows. -/
def Song.firstJump (song : Song) : Option Int := song.effects.flatten.findSome? RowEffects.jump

/-- The streams of a song end in the visit `last` at a jump to `target`. -/
structure Song.EndsAtJump (song : Song) (factor : Int) (last : Visit) (target : Int) : Prop where
  ends : (song.visits song.effects factor).getLast? = some last
  skip : (song.slotEffects last.slot).position .skip = none
  jump : (song.slotEffects last.slot).position .jump = some last.rows
  target : ((song.slotEffects last.slot).row last.rows).jump = some target

/-- The loop labels of a song stand between the code of the visits `before` and the code of the
visits `after`. -/
def SongCode.LabelsBetween (code : SongCode) (song : Song) (encoding : Encoding)
    (speedChannel : Int) (before after : List Visit) : Prop :=
  ∀ (number : Nat) (channel : ChannelCode), code.channels[number]? = some channel →
    ∃ entry stream, song.channels[number]? = some entry ∧
      song.channelStream encoding song.effects (before, after) entry (number = speedChannel) =
        .ok stream ∧ channel.Carries code.pool stream

section Labels

lemma splitVisits_at {visits : List Visit}
    (h : visits.Pairwise fun visit later => visit.slot < later.slot) {visit : Visit}
    (hv : visit ∈ visits) : ∃ before rest,
      Song.splitVisits visit.slot visits = (before, visit :: rest) ∧
      visits = before ++ visit :: rest ∧ ∀ earlier ∈ before, earlier.slot < visit.slot := by
  obtain ⟨before, rest, rfl⟩ := List.append_of_mem hv
  have hearlier : ∀ earlier ∈ before, earlier.slot < visit.slot := fun earlier he =>
    (List.pairwise_append.mp h).2.2 earlier he visit List.mem_cons_self
  have hbefore : ∀ earlier ∈ before, decide ((earlier.slot : Int) < visit.slot) = true :=
    fun earlier he => decide_eq_true (Int.ofNat_lt.mpr (hearlier earlier he))
  refine ⟨before, rest, ?_, rfl, hearlier⟩
  unfold Song.splitVisits
  rw [List.span_eq_takeWhile_dropWhile, List.takeWhile_append_of_pos hbefore,
    List.dropWhile_append_of_pos hbefore, List.takeWhile_cons_of_neg (by simp),
    List.dropWhile_cons_of_neg (by simp), List.append_nil]

lemma splitVisits_whole {visits : List Visit} {loopSlot : Int}
    (h : loopSlot ≤ 0 ∨ ∀ visit ∈ visits, (visit.slot : Int) < loopSlot) :
    Song.splitVisits loopSlot visits = ([], visits) := by
  unfold Song.splitVisits
  rw [List.span_eq_takeWhile_dropWhile]
  rcases h with hstart | hend
  · cases visits with
    | nil => rfl
    | cons visit rest =>
      have hnot : ¬ (visit.slot : Int) < loopSlot := by omega
      rw [List.takeWhile_cons_of_neg (by simpa using hnot),
        List.dropWhile_cons_of_neg (by simpa using hnot)]
  · have hall : ∀ visit ∈ visits, decide ((visit.slot : Int) < loopSlot) = true := fun visit hv =>
      decide_eq_true (hend visit hv)
    rw [List.takeWhile_eq_self_iff.mpr hall, List.dropWhile_eq_nil_iff.mpr hall]

variable {song pieces : Song} {factor : Int}

/-- First pieces are not passed over. -/
lemma firstPiece_visited {last : Visit} (hl : last ∈ song.visits song.effects factor) {piece : Nat}
    (hpiece : factor ∣ (piece : Int)) (hle : piece ≤ last.slot) :
    ∃ visit ∈ song.visits song.effects factor, visit.slot = piece := by
  rcases Nat.eq_or_lt_of_le hle with rfl | hlt
  · exact ⟨last, hl, rfl⟩
  · rw [visits_range'] at hl ⊢
    rcases visited_or_passed hl (Nat.zero_le piece) hlt with
      ⟨hvisited, -⟩ | ⟨_, -, hs, -, hnone⟩ | ⟨h, -⟩
    · exact hvisited
    · exact absurd hpiece (hnone piece hs (le_refl _))
    · exact nomatch h

lemma firstParam_eq (h : ∀ slot ∈ song.effects, ∀ row ∈ slot, ∀ target ∈ row.jump, 0 ≤ target) :
    Song.firstParam song.effects .jump = song.firstJump := by
  have hrow : ∀ row ∈ song.effects.flatten, (row.param .jump).filter (0 ≤ ·) = row.jump := by
    intro row hr
    obtain ⟨slot, hs, hr⟩ := List.mem_flatten.mp hr
    change row.jump.filter (0 ≤ ·) = row.jump
    cases hjump : row.jump with
    | none => rfl
    | some target => simp [h slot hs row hr target hjump]
  unfold Song.firstParam Song.firstJump
  generalize song.effects.flatten = rows at hrow ⊢
  induction rows with
  | nil => rfl
  | cons row rest ih =>
    rw [List.findSome?_cons, List.findSome?_cons, hrow row List.mem_cons_self,
      ih fun other ho => hrow other (List.mem_cons_of_mem _ ho)]

lemma findSome?_of_position {slot : SlotEffects} {row : Nat} {target : Int}
    (h : slot.position .jump = some row) (ht : (slot.row row).jump = some target) :
    slot.findSome? RowEffects.jump = some target := by
  obtain ⟨hlt, -, hbefore⟩ := List.findIdx?_eq_some_iff_getElem.mp h
  refine List.findSome?_eq_some_iff.mpr ⟨slot.take row, slot[row], slot.drop (row + 1), ?_, ?_, ?_⟩
  · rw [← List.drop_eq_getElem_cons, List.take_append_drop]
  · simpa [SlotEffects.row, hlt] using ht
  · intro other ho
    obtain ⟨number, hn, rfl⟩ := List.getElem_of_mem ho
    rw [List.length_take] at hn
    have := hbefore number (by omega)
    rw [List.getElem_take]
    simpa [RowEffects.param] using this

/-- A jump in a piece is a jump in the slot, and so is a skip. -/
lemma position_of_piece {size : Nat} (h : Cut song pieces size factor.toNat) {piece : Nat}
    {effect : Effect} (hp : ((pieces.slotEffects piece).position effect).isSome = true) :
    ((song.slotEffects (piece / factor.toNat)).position effect).isSome = true := by
  have hk := Nat.mod_lt piece h.positive
  have hpiece := slotEffects_cut h (piece / factor.toNat) hk
  rw [Nat.mul_comm, Nat.div_add_mod] at hpiece
  rw [hpiece, SlotEffects.position, List.findIdx?_isSome, List.any_eq_true] at hp
  obtain ⟨row, hr, hparam⟩ := hp
  rw [SlotEffects.position, List.findIdx?_isSome, List.any_eq_true]
  exact ⟨row, List.mem_of_mem_drop (List.mem_of_mem_take hr), hparam⟩

/-- In a song without slots that carry both a skip and a jump, no jump precedes the one that ends
it. -/
lemma no_jump_before {size : Nat} (h : Cut song pieces size factor.toNat)
    (hfactor : (factor.toNat : Int) = factor) (hu : ∀ slot ∈ song.effects, slot.Unmixed)
    {last : Visit} (hl : last ∈ pieces.visits pieces.effects factor) {earlier : Nat}
    (hlt : earlier < last.slot) : (pieces.slotEffects earlier).position .jump = none := by
  by_contra hjump
  have hsome := Option.ne_none_iff_isSome.mp hjump
  have hlast := (Song.mem_visits hl).1
  have hsource := position_of_piece h hsome
  have hin : earlier / factor.toNat < song.length := by
    rw [Nat.div_lt_iff_lt_mul h.positive, ← h.length]
    omega
  -- The slot of the song carries no skip, so none of its pieces does.
  have hskip : ∀ piece, piece / factor.toNat = earlier / factor.toNat →
      (pieces.slotEffects piece).position .skip = none := by
    intro piece hp
    by_contra hs
    have hs := position_of_piece h (Option.ne_none_iff_isSome.mp hs)
    rw [hp] at hs
    rcases hu _ (List.mem_map_of_mem (List.mem_range.mpr hin)) with hn | hn
    · rw [hn] at hs
      exact nomatch hs
    · rw [hn] at hsource
      exact nomatch hsource
  rw [visits_range'] at hl
  rcases visited_or_passed hl (Nat.zero_le earlier) hlt with
    ⟨-, hends⟩ | ⟨skipped, -, hs, hskipped, hnone⟩ | ⟨hskipping, -⟩
  · exact hjump (hends (hskip earlier rfl))
  · have hslot : skipped / factor.toNat = earlier / factor.toNat := by
      by_contra hne
      have hle : skipped / factor.toNat < earlier / factor.toNat :=
        lt_of_le_of_ne (Nat.div_le_div_right hs.le) hne
      -- The first piece of the later slot lies between the two.
      refine hnone (earlier / factor.toNat * factor.toNat) ?_ (Nat.div_mul_le_self _ _) ?_
      · exact (Nat.div_lt_iff_lt_mul h.positive).mp hle
      · rw [← hfactor, Nat.cast_mul]
        exact Dvd.intro_left _ rfl
    rw [hskip skipped hslot] at hskipped
    exact nomatch hskipped
  · exact nomatch hskipping

/-- The first jump is in the slots before a slot with a jump, or it is the first of that slot. -/
lemma firstJump_eq_or {slot : Nat} (hs : slot < song.length) {target : Int}
    (h : (song.slotEffects slot).findSome? RowEffects.jump = some target) :
    song.firstJump =
      ((song.effects.take slot).flatten.findSome? RowEffects.jump).or (some target) := by
  have hlt : slot < song.effects.length := by rwa [Song.effects_length]
  have hget : song.effects[slot] = song.slotEffects slot := by simp [Song.effects]
  have hsplit : song.effects = song.effects.take slot ++
      song.slotEffects slot :: song.effects.drop (slot + 1) := by
    rw [← hget, ← List.drop_eq_getElem_cons, List.take_append_drop]
  rw [Song.firstJump]
  conv_lhs => rw [hsplit]
  rw [List.flatten_append, List.flatten_cons, List.findSome?_append, List.findSome?_append, h,
    Option.some_or]

variable {size : Nat} {last : Visit} {target : Int} {first : Nat}

lemma Song.EndsAtJump.mem (h : song.EndsAtJump factor last target) :
    last ∈ song.visits song.effects factor :=
  List.mem_of_getLast? h.ends

lemma Song.EndsAtJump.findSome? (h : song.EndsAtJump factor last target) :
    (song.slotEffects last.slot).findSome? RowEffects.jump = some target :=
  findSome?_of_position h.jump h.target

/-- A song that ends at a jump has a first jump, and without slots that carry both a skip and a jump
it is the one that ends the song. -/
lemma firstJump_of_ends (h : Cut song pieces size factor.toNat)
    (hfactor : (factor.toNat : Int) = factor)
    (hjumps : ∀ slot ∈ song.effects, ∀ row ∈ slot, ∀ target ∈ row.jump, 0 ≤ target)
    (hend : pieces.EndsAtJump factor last target) :
    ∃ first : Nat, song.firstJump = some (first : Int) ∧
      ((∀ slot ∈ song.effects, slot.Unmixed) → first = target) := by
  have hpieces : pieces.firstJump = song.firstJump := by
    rw [Song.firstJump, Song.firstJump, flatten_effects_cut h]
  have hor := firstJump_eq_or (Song.mem_visits hend.mem).1 hend.findSome?
  rw [hpieces] at hor
  obtain ⟨jump, hjump⟩ : ∃ jump, song.firstJump = some jump := by
    rw [hor]
    cases (pieces.effects.take last.slot).flatten.findSome? RowEffects.jump with
    | none => exact ⟨target, rfl⟩
    | some jump => exact ⟨jump, rfl⟩
  have hpos : 0 ≤ jump := by
    obtain ⟨row, hr, hj⟩ := List.exists_of_findSome?_eq_some hjump
    obtain ⟨slot, hs, hr⟩ := List.mem_flatten.mp hr
    exact hjumps slot hs row hr jump hj
  obtain ⟨first, rfl⟩ := Int.eq_ofNat_of_zero_le hpos
  refine ⟨first, hjump, fun hu => ?_⟩
  have hnone : (pieces.effects.take last.slot).flatten.findSome? RowEffects.jump = none := by
    rw [List.findSome?_eq_none_iff]
    intro row hr
    obtain ⟨slot, hs, hr⟩ := List.mem_flatten.mp hr
    obtain ⟨earlier, he, rfl⟩ := List.getElem_of_mem hs
    rw [List.length_take] at he
    have hlt : earlier < last.slot := by omega
    have hearlier := no_jump_before h hfactor hu hend.mem hlt
    have hget : (pieces.effects.take last.slot)[earlier] = pieces.slotEffects earlier := by
      simp [Song.effects]
    rw [hget] at hr
    simpa [RowEffects.param] using List.findIdx?_eq_none_iff.mp hearlier row hr
  rw [hnone, hjump, Option.none_or] at hor
  exact Option.some.inj hor

lemma loopSlot_eq (hfactor : (factor.toNat : Int) = factor)
    (hfirst : Song.firstParam pieces.effects .jump = some (first : Int)) :
    pieces.loopSlot pieces.effects factor =
      if first * factor.toNat < pieces.length then ((first * factor.toNat : Nat) : Int) else 0 := by
  have hproduct : (first : Int) * factor = ((first * factor.toNat : Nat) : Int) := by
    rw [Nat.cast_mul, hfactor]
  unfold Song.loopSlot
  rw [hfirst, Option.getD_some, hproduct]
  by_cases hlt : first * factor.toNat < pieces.length
  · rw [if_pos hlt, if_neg (by omega)]
  · rw [if_neg hlt, if_pos (by omega)]

/-- The loop labels stand before the first piece of the slot that the first jump leads to, if the
song does not end before it. -/
lemma parts_of_le (h : Cut song pieces size factor.toNat)
    (hfactor : (factor.toNat : Int) = factor)
    (hfirst : Song.firstParam pieces.effects .jump = some (first : Int))
    (hend : pieces.EndsAtJump factor last target) (hle : first ≤ last.slot / factor.toNat) :
    (∀ visit ∈ (pieces.parts factor).1, visit.slot / factor.toNat < first) ∧
      ∃ visit rest, (pieces.parts factor).2 = visit :: rest ∧
        visit.slot = first * factor.toNat := by
  have hpiece : first * factor.toNat ≤ last.slot := (Nat.le_div_iff_mul_le h.positive).mp hle
  have hdvd : factor ∣ ((first * factor.toNat : Nat) : Int) := by
    rw [Nat.cast_mul, hfactor]
    exact Dvd.intro_left _ rfl
  obtain ⟨visit, hv, hslot⟩ := firstPiece_visited hend.mem hdvd hpiece
  have hloop : pieces.loopSlot pieces.effects factor = (visit.slot : Int) := by
    rw [loopSlot_eq hfactor hfirst, ← hslot, if_pos (Song.mem_visits hv).1]
  obtain ⟨before, rest, hparts, -, hearlier⟩ := splitVisits_at (visits_pairwise pieces factor) hv
  rw [Song.parts, hloop, hparts]
  refine ⟨fun earlier he => ?_, visit, rest, rfl, hslot⟩
  rw [Nat.div_lt_iff_lt_mul h.positive, ← hslot]
  exact hearlier earlier he

/-- If the song ends before the slot that the first jump leads to, all of it is repeated. -/
lemma parts_of_lt (h : Cut song pieces size factor.toNat)
    (hfactor : (factor.toNat : Int) = factor)
    (hfirst : Song.firstParam pieces.effects .jump = some (first : Int))
    (hend : pieces.EndsAtJump factor last target) (hlt : last.slot / factor.toNat < first) :
    pieces.parts factor = ([], pieces.visits pieces.effects factor) := by
  have hpiece : last.slot < first * factor.toNat := (Nat.div_lt_iff_lt_mul h.positive).mp hlt
  have hsorted := visits_pairwise pieces factor
  have hlast : ∀ visit ∈ pieces.visits pieces.effects factor, visit.slot ≤ last.slot := by
    obtain ⟨others, hall⟩ := List.getLast?_eq_some_iff.mp hend.ends
    rw [hall] at hsorted ⊢
    intro visit hv
    rcases List.mem_append.mp hv with hv | hv
    · exact ((List.pairwise_append.mp hsorted).2.2 visit hv last (by simp)).le
    · exact (List.mem_singleton.mp hv) ▸ le_refl _
  rw [Song.parts, loopSlot_eq hfactor hfirst]
  refine splitVisits_whole ?_
  split
  · refine .inr fun visit hv => ?_
    have := hlast visit hv
    omega
  · exact .inl (le_refl 0)

lemma encode_labelsBetween {encoding : Encoding} {speedChannel : Int} {pool : PatternPool}
    {code : SongCode} (hok : song.encode encoding speedChannel factor pool = .ok code) :
    code.LabelsBetween song encoding speedChannel (song.parts factor).1 (song.parts factor).2 := by
  intro number channel hc
  have hstores := encode_stores hok
  obtain ⟨hlt, -⟩ := List.getElem?_eq_some_iff.mp hc
  have hsong := List.getElem?_eq_getElem (hstores.length ▸ hlt)
  obtain ⟨-, stream, hstream, hcarries⟩ := hstores.channel number channel hc
  rw [Song.stream, hsong] at hstream
  exact ⟨_, stream, hsong, hstream, hcarries⟩

/-- The loop labels of a song that ends at a jump stand at the start of the slot that the first jump
of the song leads to, or at the start of the channels if the song ends before that slot. The first
jump is the one that ends the song where no slot carries both a skip and a jump. -/
theorem encode_loopLabel (hsplit : song.split factor = some pieces)
    (hjumps : ∀ slot ∈ song.effects, ∀ row ∈ slot, ∀ target ∈ row.jump, 0 ≤ target)
    (hend : pieces.EndsAtJump factor last target) :
    ∃ first : Nat, song.firstJump = some (first : Int) ∧
      ((∀ slot ∈ song.effects, slot.Unmixed) → first = target) ∧
      ∃ before after, pieces.visits pieces.effects factor = before ++ after ∧
        (first ≤ last.slot / factor.toNat →
          (∀ visit ∈ before, visit.slot / factor.toNat < first) ∧
          ∃ visit rest, after = visit :: rest ∧ visit.slot = first * factor.toNat) ∧
        (last.slot / factor.toNat < first → before = []) ∧
        ∀ encoding speedChannel pool code,
          pieces.encode encoding speedChannel factor pool = .ok code →
          code.LabelsBetween pieces encoding speedChannel before after := by
  obtain ⟨size, hfactor, hcut⟩ := split_cut hsplit
  obtain ⟨first, hfirst, htarget⟩ := firstJump_of_ends hcut hfactor hjumps hend
  have hparam : Song.firstParam pieces.effects .jump = some (first : Int) := by
    rw [firstParam_cut hcut, firstParam_eq hjumps, hfirst]
  refine ⟨first, hfirst, htarget, (pieces.parts factor).1, (pieces.parts factor).2,
    (Song.splitVisits_append _ _).symm, parts_of_le hcut hfactor hparam hend, fun hlt => ?_,
    fun encoding speedChannel pool code hok => encode_labelsBetween hok⟩
  rw [parts_of_lt hcut hfactor hparam hend hlt]

end Labels

theorem windingSong_loopLabel : windingSong.split 2 = some windingPieces ∧
    (∀ slot ∈ windingSong.effects, ∀ row ∈ slot, ∀ target ∈ row.jump, 0 ≤ target) ∧
    windingPieces.EndsAtJump 2 ⟨5, 1⟩ 1 ∧
    ∃ before visit rest,
      windingPieces.visits windingPieces.effects 2 = before ++ visit :: rest ∧ visit.slot = 2 ∧
      ∀ encoding speedChannel pool code,
        windingPieces.encode encoding speedChannel 2 pool = .ok code →
        code.LabelsBetween windingPieces encoding speedChannel before (visit :: rest) := by
  have hsplit : windingSong.split 2 = some windingPieces := by decide
  have hjumps : ∀ slot ∈ windingSong.effects, ∀ row ∈ slot, ∀ target ∈ row.jump, 0 ≤ target := by
    decide +kernel
  have hend : windingPieces.EndsAtJump 2 ⟨5, 1⟩ 1 :=
    ⟨by decide +kernel, by decide +kernel, by decide +kernel, by decide +kernel⟩
  obtain ⟨first, -, htarget, before, after, hvisits, hle, -, hlabels⟩ :=
    encode_loopLabel hsplit hjumps hend
  obtain rfl : first = 1 := Int.ofNat_inj.mp (htarget (by decide +kernel))
  obtain ⟨-, visit, rest, rfl, hslot⟩ := hle (by decide)
  exact ⟨hsplit, hjumps, hend, before, visit, rest, hvisits, hslot, hlabels⟩

/-- A skip in the first slot cuts off a jump to the third one, which ends the song at a jump to the
second one. -/
def detouredSong : Song where
  id := 0
  name := "detoured"
  patternLength := 3
  length := 3
  patterns := [[{ value := 30 }, { effect := .skip }, { effect := .jump, param := 2 }],
    [{ value := 31 }, { value := 32 }, { value := 33 }],
    [{ value := 40 }, { effect := .jump, param := 1 }, {}]]
  channels := [⟨.square1, [some 0, some 1, some 2]⟩]

def detouredCode : SongCode where
  channels := [⟨some 6, [.buffer 0 [0x15], .buffer 1 [0x16, 0x17, 0x18]], [.buffer 2 [0x1f]]⟩]
  pool := ⟨#[[0x15], [0x16, 0x17, 0x18], [0x1f]]⟩

theorem detouredSong_loopLabel : detouredSong.split 1 = some detouredSong ∧
    (∀ slot ∈ detouredSong.effects, ∀ row ∈ slot, ∀ target ∈ row.jump, 0 ≤ target) ∧
    detouredSong.EndsAtJump 1 ⟨2, 1⟩ 1 ∧ detouredSong.firstJump = some 2 ∧
    detouredSong.visits detouredSong.effects 1 = [⟨0, 1⟩] ++ [⟨1, 3⟩, ⟨2, 1⟩] ∧
    detouredSong.encode soleEncoding 0 1 {} = .ok detouredCode ∧
    ¬ detouredCode.LabelsBetween detouredSong soleEncoding 0 [⟨0, 1⟩] [⟨1, 3⟩, ⟨2, 1⟩] := by
  refine ⟨by decide, by decide +kernel, ⟨by decide +kernel, by decide +kernel, by decide +kernel,
    by decide +kernel⟩, by decide +kernel, by decide +kernel, by decide +kernel, fun hlabels => ?_⟩
  obtain ⟨entry, stream, hentry, hstream, hintro, -⟩ := hlabels 0 _ rfl
  obtain rfl : _ = entry := Option.some.inj hentry
  have hone : (detouredSong.channelStream soleEncoding detouredSong.effects
      ([⟨0, 1⟩], [⟨1, 3⟩, ⟨2, 1⟩]) ⟨.square1, [some 0, some 1, some 2]⟩ true).map
        (fun stream => (coded stream.intro).length) = .ok 1 := by decide +kernel
  have hlength := congrArg (Except.map fun stream => (coded stream.intro).length) hstream
  rw [show decide (((0 : Nat) : Int) = 0) = true from rfl] at hlength
  have htwo := Except.ok.inj (hone.symm.trans hlength)
  have hcodes : 2 = (coded stream.intro).length := hintro.length_eq
  exact absurd (htwo.trans hcodes.symm) (by decide)

end Chiptune
