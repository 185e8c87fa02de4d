import Chiptune.Proofs.TrialRuns

/-!
# Exactly what a split does

When a song can be split, where each of its rows goes, and which of the new slots share a pattern. A
split of a split is the split by the product, pattern by pattern and slot by slot.
-/

namespace Chiptune

/-- The note in a row of a slot, if the slot has a pattern and the pattern has the row. -/
def Song.row? (song : Song) (channel : Channel) (slot row : Nat) : Option Note :=
  channel.slots[slot]?.join.bind fun position => (song.pattern position)[row]?

/-- One channel of a song against the same channel with `factor` slots for each of its slots. -/
structure ChannelSplit (song pieces : Song) (channel cut : Channel) (factor : Nat) : Prop where
  voice : cut.voice = channel.voice
  length : cut.slots.length = song.length * factor
  empty : ∀ slot piece, piece < factor →
    (cut.slots[slot * factor + piece]? = some none ↔ channel.slots[slot]? = some none)
  pattern : ∀ position, some position ∈ cut.slots →
    ∃ pattern, pieces.patterns[position]? = some pattern ∧ pattern.length = pieces.patternLength
  row : ∀ slot < song.length, ∀ row < song.patternLength,
    pieces.row? cut (slot * factor + row / pieces.patternLength) (row % pieces.patternLength) =
      song.row? channel slot row
  /-- The same piece of slots that shared a pattern is shared, and nothing else is. -/
  shared : ∀ i j first second, cut.slots[i]? = some (some first) →
    cut.slots[j]? = some (some second) → (first = second ↔
      i % factor = j % factor ∧ channel.slots[i / factor]? = channel.slots[j / factor]?)

/-- A song against its pieces, of which each pattern has `factor`. -/
structure SplitBy (song pieces : Song) (factor : Nat) : Prop where
  /-- Nothing but the patterns, the slots and the lengths changes. -/
  frame : pieces = { song with
    patterns := pieces.patterns, channels := pieces.channels
    patternLength := song.patternLength / factor, length := song.length * factor }
  count : pieces.channels.length = song.channels.length
  channel : ∀ (number : Nat) (channel : Channel), song.channels[number]? = some channel →
    ∃ cut, pieces.channels[number]? = some cut ∧ ChannelSplit song pieces channel cut factor

/-- All channels have as many slots as the song, and all slots patterns of full length. -/
structure Song.Full (song : Song) : Prop where
  slots : ∀ channel ∈ song.channels, channel.slots.length = song.length
  patterns : ∀ channel ∈ song.channels, ∀ position, some position ∈ channel.slots →
    ∃ pattern, song.patterns[position]? = some pattern ∧ pattern.length = song.patternLength

section Places

variable {i j k l width : Nat}

lemma mul_add_div (hk : k < width) : (i * width + k) / width = i := by
  rw [Nat.mul_comm, Nat.mul_add_div (by omega), Nat.div_eq_of_lt hk, Nat.add_zero]

lemma mul_add_mod (hk : k < width) : (i * width + k) % width = k := by
  rw [Nat.mul_comm, Nat.mul_add_mod, Nat.mod_eq_of_lt hk]

lemma mul_add_inj (hk : k < width) (hl : l < width) :
    i * width + k = j * width + l ↔ i = j ∧ k = l := by
  constructor
  · intro h
    have hdiv := congrArg (· / width) h
    have hmod := congrArg (· % width) h
    simp only [mul_add_div hk, mul_add_div hl, mul_add_mod hk, mul_add_mod hl] at hdiv hmod
    exact ⟨hdiv, hmod⟩
  · rintro ⟨rfl, rfl⟩
    rfl

end Places

section One

variable {song pieces : Song} {channel : Channel} {factor size : Nat}

lemma mem_used_of_slot {position : Nat} (h : some position ∈ channel.slots) :
    position ∈ channel.used :=
  List.mem_eraseDups.mpr (List.mem_filterMap.mpr ⟨some position, h, rfl⟩)

lemma getElem?_piece (pattern : Pattern) {size k row : Nat} (h : row < size) :
    (pattern.piece size k)[row]? = pattern[k * size + row]? := by
  rw [Pattern.piece, List.getElem?_take_of_lt h, List.getElem?_drop]

/-- New slots that share a pattern are the same piece of slots that shared one. -/
lemma splitSlots_shared (hpos : 0 < factor) (base : Nat) {i j first second : Nat}
    (hi : (channel.splitSlots base factor)[i]? = some (some first))
    (hj : (channel.splitSlots base factor)[j]? = some (some second)) : first = second ↔
      i % factor = j % factor ∧ channel.slots[i / factor]? = channel.slots[j / factor]? := by
  -- A slot that plays something is a piece of one that did.
  have hsource : ∀ i position, (channel.splitSlots base factor)[i]? = some (some position) →
      ∃ source, channel.slots[i / factor]? = some (some source) ∧
        position = base + (channel.used.idxOf source * factor + i % factor) := by
    intro i position h
    rw [← Nat.div_add_mod' i factor, getElem?_splitSlots channel base _ (Nat.mod_lt i hpos),
      Option.map_eq_some_iff] at h
    obtain ⟨source | source, hsource, h⟩ := h
    · cases h
    · refine ⟨source, hsource, ?_⟩
      rw [← Option.some.inj h, Nat.add_assoc]
  obtain ⟨p, hp, rfl⟩ := hsource i first hi
  obtain ⟨q, hq, rfl⟩ := hsource j second hj
  have hsame : channel.used.idxOf p = channel.used.idxOf q ↔ p = q :=
    List.idxOf_inj (mem_used_of_slot (List.mem_of_getElem? hp))
  rw [Nat.add_left_cancel_iff, mul_add_inj (Nat.mod_lt i hpos) (Nat.mod_lt j hpos), hsame, hp, hq,
    Option.some_inj, Option.some_inj]
  exact and_comm

/-- A channel whose pieces lie in the patterns behind those of the channels before it. -/
lemma channelSplit_of_pieces {before after : List Pattern} (h : song.Full)
    (hc : channel ∈ song.channels) (hpos : 0 < factor) (hsize : song.patternLength = factor * size)
    (hrows : pieces.patternLength = size)
    (hpieces : pieces.patterns = before ++ song.channelPieces size factor channel ++ after) :
    ChannelSplit song pieces channel
      { channel with slots := channel.splitSlots before.length factor } factor where
  voice := rfl
  length := by
    rw [splitSlots_length, h.slots channel hc]
  empty := by
    intro slot piece hpiece
    dsimp only
    rw [getElem?_splitSlots channel _ slot hpiece]
    cases channel.slots[slot]? with
    | none => simp
    | some content => cases content <;> simp
  pattern := by
    intro position hp
    obtain ⟨source, k, hs, hk, rfl⟩ := mem_splitSlots hp
    obtain ⟨pattern, hpattern, hlength⟩ := h.patterns channel hc source hs
    refine ⟨_, getElem?_pieces_placed hpieces hk hs, ?_⟩
    have hfit : k * size + size ≤ factor * size := by
      rw [← Nat.succ_mul]
      exact Nat.mul_le_mul_right size hk
    rw [Song.pattern, getD_of_getElem? hpattern, Pattern.piece, List.length_take, List.length_drop,
      hlength, hsize, hrows]
    omega
  row := by
    intro slot _ row hrow
    have hfull : 0 < size := by
      rw [hsize] at hrow
      exact Nat.pos_of_mul_pos_left (Nat.zero_lt_of_lt hrow)
    have hin : row / size < factor := by
      rwa [Nat.div_lt_iff_lt_mul hfull, ← hsize]
    rw [Song.row?, Song.row?, hrows, getElem?_splitSlots channel _ slot hin]
    cases hslot : channel.slots[slot]? with
    | none => rfl
    | some content =>
      cases content with
      | none => rfl
      | some source =>
        have hplaced : pieces.pattern
            (before.length + channel.used.idxOf source * factor + row / size) =
              (song.pattern source).piece size (row / size) :=
          getD_of_getElem? (getElem?_pieces_placed hpieces hin (List.mem_of_getElem? hslot))
        simp only [Option.map_some, Option.join_some, Option.bind_some, hplaced]
        rw [getElem?_piece _ (Nat.mod_lt row hfull), Nat.div_add_mod']
  shared := fun _ _ _ _ hi hj => splitSlots_shared hpos before.length hi hj

lemma split_frame {factor : Int} (h : song.split factor = some pieces) :
    pieces = { song with
      patterns := pieces.patterns, channels := pieces.channels
      patternLength := song.patternLength / factor.toNat
      length := song.length * factor.toNat } := by
  unfold Song.split at h
  split at h
  · exact nomatch h
  · split at h
    · next hone =>
      obtain rfl := Option.some.inj h
      simp [hone]
    · dsimp only at h
      split at h
      · exact nomatch h
      · obtain rfl := Option.some.inj h
        rfl

lemma splitBy_self (h : song.Full) : SplitBy song song 1 where
  frame := by simp
  count := rfl
  channel := by
    intro number channel hchannel
    have hc := List.mem_of_getElem? hchannel
    refine ⟨channel, hchannel, rfl, by rw [h.slots channel hc, Nat.mul_one], ?_,
      h.patterns channel hc, ?_, ?_⟩
    · intro slot piece hpiece
      obtain rfl : piece = 0 := by omega
      simp
    · intro slot _ row hrow
      rw [Nat.div_eq_of_lt hrow, Nat.mod_eq_of_lt hrow, Nat.mul_one, Nat.add_zero]
    · intro i j first second hi hj
      simp [Nat.mod_one, hi, hj]

lemma splitBy_of_split (h : song.Full) {factor : Int} (hsplit : song.split factor = some pieces) :
    SplitBy song pieces factor.toNat := by
  have hframe := split_frame hsplit
  rcases split_cases hsplit with ⟨rfl, rfl⟩ | ⟨size, hone, hsize, hrows, -, -, hcount, hcut⟩
  · exact splitBy_self h
  · refine ⟨hframe, hcount, ?_⟩
    intro number channel hchannel
    obtain ⟨before, after, hpieces, hget⟩ := hcut number channel hchannel
    exact ⟨_, hget, channelSplit_of_pieces h (List.mem_of_getElem? hchannel) (by omega) hsize hrows
      hpieces⟩

lemma split_natCast (song : Song) {count : Nat} (h : 1 < count) : song.split count =
    if count ∣ song.patternLength ∧ song.length * count ≤ Limits.slots then
      let cut := song.splitChannels (song.patternLength / count) count [] song.channels
      some { song with
        patterns := cut.1, channels := cut.2
        patternLength := song.patternLength / count, length := song.length * count }
    else none := by
  have hpos : ¬ (count : Int) < 1 := by omega
  have hone : ¬ (count : Int) = 1 := by omega
  unfold Song.split
  simp only [Int.toNat_natCast, hpos, false_or, hone, if_false]
  split
  · next hrest => rw [if_neg fun hfit => hrest (Nat.mod_eq_zero_of_dvd hfit.1)]
  · next hrest =>
    split
    · next hlong => rw [if_neg fun hfit => by omega]
    · next hlong => rw [if_pos ⟨Nat.dvd_of_mod_eq_zero (not_ne_iff.mp hrest), by omega⟩]

lemma split_isSome (song : Song) (factor : Int) : (song.split factor).isSome ↔
    1 ≤ factor ∧ factor ∣ song.patternLength ∧
      (factor = 1 ∨ song.length * factor ≤ Limits.slots) := by
  by_cases hone : factor = 1
  · simp [hone, split_one]
  by_cases hpos : 1 ≤ factor
  · obtain ⟨count, rfl⟩ := Int.eq_ofNat_of_zero_le (Int.le_trans (by decide) hpos)
    have hfit : (song.length : Int) * count ≤ Limits.slots ↔ song.length * count ≤ Limits.slots :=
      by rw [← Int.natCast_mul, Int.ofNat_le]
    rw [split_natCast song (by omega), Int.natCast_dvd_natCast, hfit]
    split
    · next h => simp [h, hpos]
    · next h => simpa [hpos, hone] using h
  · rw [Song.split, if_pos (.inl (Int.not_le.mp hpos))]
    simp [hpos]

lemma splitSong_refused {factor : Int} (h : song.split factor = none) (bench : Bench) :
    ((Work.splitSong song factor).run bench : Except Error (Bool × Song) × Bench) =
      (.ok (false, song), bench) := by
  rw [Work.splitSong, Song.splitAside, h]
  rfl

end One

/-! ### A split of a split -/

section Twice

variable {song once : Song} {channel : Channel} {a b size base : Nat}

lemma range_blocks (n width : Nat) : List.range (n * width) =
    (List.range n).flatMap fun i => (List.range width).map (i * width + ·) := by
  induction n with
  | zero => simp
  | succ n ih =>
    rw [Nat.succ_mul, List.range_add, ih, List.range_succ, List.flatMap_append,
      List.flatMap_singleton]

lemma piece_piece (pattern : Pattern) (k : Nat) {l : Nat} (hl : l < b) :
    (pattern.piece (b * size) k).piece size l = pattern.piece size (k * b + l) := by
  have hfit : l * size + size ≤ b * size := by
    rw [← Nat.succ_mul]
    exact Nat.mul_le_mul_right size hl
  have hplace : k * (b * size) + l * size = (k * b + l) * size := by ring
  rw [Pattern.piece, Pattern.piece, Pattern.piece, List.drop_take, List.drop_drop, List.take_take,
    hplace, Nat.min_eq_left (by omega)]

lemma pieces_pieces (pattern : Pattern) (size a b : Nat) :
    ((pattern.pieces (b * size) a).flatMap fun piece => piece.pieces size b) =
      pattern.pieces size (a * b) := by
  rw [Pattern.pieces, Pattern.pieces, range_blocks, List.flatMap_map, List.map_flatMap]
  refine List.flatMap_congr fun k _ => ?_
  rw [Pattern.pieces, List.map_map]
  refine List.map_congr_left fun l hl => ?_
  exact piece_piece pattern k (List.mem_range.mp hl)

lemma flatMap_ite (names : List Nat) (keep : Nat → Bool) (block : Nat → List Nat) :
    (names.flatMap fun name => if keep name = true then block name else []) =
      (names.filter keep).flatMap block := by
  induction names with
  | nil => rfl
  | cons name rest ih => cases h : keep name <;> simp [h, ih]

/-- Induction along the first uses of names. -/
lemma names_induction {motive : List Nat → Prop} (nil : motive [])
    (cons : ∀ name rest, motive (rest.filter fun other => !other == name) → motive (name :: rest))
    (names : List Nat) : motive names := by
  induction hn : names.length using Nat.strong_induction_on generalizing names with
  | _ n ih =>
    cases names with
    | nil => exact nil
    | cons name rest =>
      have hle := List.length_filter_le (fun other => !other == name) rest
      refine cons name rest (ih _ ?_ _ rfl)
      rw [← hn, List.length_cons]
      omega

lemma nodup_eraseDups (names : List Nat) : names.eraseDups.Nodup := by
  induction names using names_induction with
  | nil => exact List.nodup_nil
  | cons name rest ih =>
    rw [List.eraseDups_cons, List.nodup_cons, List.mem_eraseDups]
    exact ⟨by simp, ih⟩

lemma eraseDups_of_nodup {names : List Nat} (h : names.Nodup) : names.eraseDups = names := by
  induction names with
  | nil => rfl
  | cons name rest ih =>
    have hother : ∀ other ∈ rest, (!other == name) = true := by
      intro other ho
      have hne : other ≠ name := fun heq => h.notMem (heq ▸ ho)
      simpa using hne
    rw [List.eraseDups_cons, List.filter_eq_self.mpr hother, ih h.of_cons]

/-- Where each name stands for a block of names of its own, so do its first uses. -/
lemma eraseDups_flatMap {block : Nat → List Nat} (hnodup : ∀ p, (block p).Nodup)
    (names : List Nat)
    (hown : ∀ p ∈ names, ∀ q ∈ names, ∀ place ∈ block p, place ∈ block q → p = q) :
    (names.flatMap block).eraseDups = names.eraseDups.flatMap block := by
  induction names using names_induction with
  | nil => rfl
  | cons name rest ih =>
    have hother : (rest.flatMap block).removeAll (block name) =
        (rest.filter fun other => !other == name).flatMap block := by
      have hkeep : ∀ other ∈ rest, (block other).filter (fun place => !(block name).elem place) =
          if (!other == name) = true then block other else [] := by
        intro other ho
        by_cases hsame : other = name
        · subst hsame
          simp
        · have hkept : ∀ place ∈ block other, place ∉ block name := fun place hp hq =>
            hsame (hown other (by simp [ho]) name (by simp) place hp hq)
          simpa [hsame] using hkept
      rw [List.removeAll, List.filter_flatMap, List.flatMap_congr hkeep, flatMap_ite]
    rw [List.flatMap_cons, List.eraseDups_append, eraseDups_of_nodup (hnodup name), hother,
      List.eraseDups_cons, List.flatMap_cons]
    refine congrArg _ (ih fun p hp q hq => ?_)
    exact hown p (by simp [List.mem_of_mem_filter hp]) q (by simp [List.mem_of_mem_filter hq])

lemma map_idxOf {names : List Nat} (h : names.Nodup) :
    names.map names.idxOf = List.range names.length := by
  refine List.ext_getElem (by simp) fun i hi _ => ?_
  rw [List.getElem_map, List.getElem_range, h.idxOf_getElem i (by simpa using hi)]

/-- The positions of the pieces of a pattern that a channel plays. -/
def Channel.cutPlaces (channel : Channel) (base factor position : Nat) : List Nat :=
  (List.range factor).map fun k => base + (channel.used.idxOf position * factor + k)

lemma nodup_cutPlaces (channel : Channel) (base factor position : Nat) :
    (channel.cutPlaces base factor position).Nodup :=
  List.nodup_range.map fun k l hkl => by omega

lemma cutPlaces_own {p q place : Nat} (hp : p ∈ channel.used)
    (hplace : place ∈ channel.cutPlaces base a p) (hother : place ∈ channel.cutPlaces base a q) :
    p = q := by
  obtain ⟨k, hk, rfl⟩ := List.mem_map.mp hplace
  obtain ⟨l, hl, heq⟩ := List.mem_map.mp hother
  have hsame := (mul_add_inj (List.mem_range.mp hl) (List.mem_range.mp hk)).mp
    (Nat.add_left_cancel heq)
  exact (List.idxOf_inj hp).mp hsame.1.symm

lemma plays_cut (channel : Channel) (base a : Nat) :
    (channel.splitSlots base a).filterMap id =
      (channel.slots.filterMap id).flatMap (channel.cutPlaces base a) := by
  have hslots : ∀ slots : List (Option Nat), (slots.flatMap fun content =>
      content.elim (List.replicate a none) fun position =>
        (channel.cutPlaces base a position).map some).filterMap id =
        (slots.filterMap id).flatMap (channel.cutPlaces base a) := by
    intro slots
    induction slots with
    | nil => rfl
    | cons content rest ih => cases content <;> simp_all
  rw [← hslots, Channel.splitSlots]
  refine congrArg _ (List.flatMap_congr fun content _ => ?_)
  cases content with
  | none => rfl
  | some position => simp [Channel.cutPlaces, Nat.add_assoc]

lemma used_cut (channel : Channel) (base a : Nat) :
    Channel.used { channel with slots := channel.splitSlots base a } =
      (List.range (channel.used.length * a)).map (base + ·) := by
  have hown : ∀ p ∈ channel.slots.filterMap id, ∀ q ∈ channel.slots.filterMap id,
      ∀ place ∈ channel.cutPlaces base a p, place ∈ channel.cutPlaces base a q → p = q :=
    fun p hp _ _ _ => cutPlaces_own (List.mem_eraseDups.mpr hp)
  have hnames := map_idxOf (nodup_eraseDups (channel.slots.filterMap id))
  calc Channel.used { channel with slots := channel.splitSlots base a }
      = channel.used.flatMap (channel.cutPlaces base a) := by
        rw [Channel.used, plays_cut, eraseDups_flatMap (nodup_cutPlaces channel base a) _ hown,
          Channel.used]
    _ = (channel.used.map channel.used.idxOf).flatMap fun i =>
          (List.range a).map fun k => base + (i * a + k) := by
        rw [List.flatMap_map]
        rfl
    _ = (List.range (channel.used.length * a)).map (base + ·) := by
        rw [Channel.used, hnames, range_blocks, List.map_flatMap]
        simp only [List.map_map]
        rfl

lemma idxOf_range {n m : Nat} (h : m < n) : (List.range n).idxOf m = m := by
  have hget := List.nodup_range.idxOf_getElem m (by simpa using h)
  rwa [List.getElem_range] at hget

lemma splitSlots_cut (base top : Nat) :
    Channel.splitSlots { channel with slots := channel.splitSlots base a } top b =
      channel.splitSlots top (a * b) := by
  have hplace : ∀ position k, position ∈ channel.used → k < a →
      (Channel.used { channel with slots := channel.splitSlots base a }).idxOf
        (base + channel.used.idxOf position * a + k) = channel.used.idxOf position * a + k := by
    intro position k hp hk
    have hlt : channel.used.idxOf position * a + k < channel.used.length * a := by
      have hfit := Nat.mul_le_mul_right a (Nat.succ_le_of_lt (List.idxOf_lt_length_of_mem hp))
      rw [Nat.succ_mul] at hfit
      omega
    rw [used_cut, Nat.add_assoc, idxOf_map fun m _ hm => Nat.add_left_cancel hm, idxOf_range hlt]
  unfold Channel.splitSlots at hplace ⊢
  dsimp only
  rw [List.flatMap_assoc]
  refine List.flatMap_congr fun content hcontent => ?_
  cases content with
  | none => simp [List.flatMap_replicate]
  | some position =>
    dsimp only
    rw [List.flatMap_map, range_blocks, List.map_flatMap]
    refine List.flatMap_congr fun k hk => ?_
    dsimp only
    rw [hplace position k (mem_used_of_slot hcontent) (List.mem_range.mp hk), List.map_map]
    refine List.map_congr_left fun l _ => ?_
    exact congrArg some (by ring)

lemma channelPieces_cut {before after : List Pattern}
    (h : once.patterns = before ++ song.channelPieces (b * size) a channel ++ after) :
    once.channelPieces size b { channel with slots := channel.splitSlots before.length a } =
      song.channelPieces size (a * b) channel := by
  have hcount : (song.channelPieces (b * size) a channel).length = channel.used.length * a :=
    length_flatMap_uniform fun _ _ => pieces_length _ _ _
  have hpatterns : (List.range (channel.used.length * a)).map
      (fun m => once.pattern (before.length + m)) = song.channelPieces (b * size) a channel := by
    refine List.ext_getElem (by simp [hcount]) fun m hm hm' => ?_
    rw [List.getElem_map, List.getElem_range, Song.pattern, h]
    refine getD_of_getElem? ?_
    rw [List.append_assoc, List.getElem?_append_right (by omega), Nat.add_sub_cancel_left,
      List.getElem?_append_left hm', List.getElem?_eq_getElem hm']
  calc once.channelPieces size b { channel with slots := channel.splitSlots before.length a }
      = ((List.range (channel.used.length * a)).map
          (fun m => once.pattern (before.length + m))).flatMap fun piece =>
            piece.pieces size b := by
        rw [Song.channelPieces, used_cut, List.flatMap_map, List.flatMap_map]
    _ = channel.used.flatMap fun position =>
          (song.pattern position).pieces size (a * b) := by
        rw [hpatterns, Song.channelPieces, List.flatMap_assoc]
        exact List.flatMap_congr fun position _ => pieces_pieces _ size a b

/-- To cut the channels of a song that was cut is to cut those of the song. -/
lemma splitChannels_cut (channels : List Channel) (done top : List Pattern)
    (h : once.patterns = (song.splitChannels (b * size) a done channels).1) :
    once.splitChannels size b top (song.splitChannels (b * size) a done channels).2 =
      song.splitChannels size (a * b) top channels := by
  induction channels generalizing done top with
  | nil => rfl
  | cons channel rest ih =>
    obtain ⟨more, cut, hsplit, -, -⟩ := splitChannels_spec song (b * size) a
      (done ++ song.channelPieces (b * size) a channel) rest
    have hrest := ih (done ++ song.channelPieces (b * size) a channel)
      (top ++ song.channelPieces size (a * b) channel) h
    have hplaced : once.patterns = done ++ song.channelPieces (b * size) a channel ++ more := by
      rw [h, Song.splitChannels, hsplit]
    rw [Song.splitChannels, Song.splitChannels, Song.splitChannels, splitSlots_cut,
      channelPieces_cut hplaced, hrest]

/-- To split a song twice is to split it once by the product. -/
lemma split_split (song : Song) {first second : Int} (hfirst : 1 ≤ first) (hsecond : 1 ≤ second) :
    ((song.split first).bind fun once => once.split second) = song.split (first * second) := by
  by_cases hone : first = 1
  · rw [hone, split_one, Option.bind_some, Int.one_mul]
  by_cases hsame : second = 1
  · simp [hsame, split_one]
  obtain ⟨a, rfl⟩ := Int.eq_ofNat_of_zero_le (Int.le_trans (by decide) hfirst)
  obtain ⟨b, rfl⟩ := Int.eq_ofNat_of_zero_le (Int.le_trans (by decide) hsecond)
  have ha : 1 < a := by omega
  have hb : 1 < b := by omega
  have hab : 1 < a * b := Nat.one_lt_mul_iff.mpr (by omega)
  have hcan : a * b ∣ song.patternLength ∧ song.length * (a * b) ≤ Limits.slots ↔
      (a ∣ song.patternLength ∧ song.length * a ≤ Limits.slots) ∧
        b ∣ song.patternLength / a ∧ song.length * a * b ≤ Limits.slots := by
    rw [← Nat.mul_assoc]
    constructor
    · rintro ⟨hdvd, hfit⟩
      have hle := Nat.le_mul_of_pos_right (song.length * a) (by omega : 0 < b)
      exact ⟨⟨(Nat.dvd_mul_right a b).trans hdvd, by omega⟩, Nat.dvd_div_of_mul_dvd hdvd, hfit⟩
    · rintro ⟨⟨hdvd, -⟩, hrest, hfit⟩
      exact ⟨Nat.mul_dvd_of_dvd_div hdvd hrest, hfit⟩
  rw [← Int.natCast_mul, split_natCast song ha, split_natCast song hab]
  by_cases honce : a ∣ song.patternLength ∧ song.length * a ≤ Limits.slots
  · rw [if_pos honce]
    dsimp only
    rw [Option.bind_some, split_natCast _ hb]
    dsimp only
    by_cases htwice : b ∣ song.patternLength / a ∧ song.length * a * b ≤ Limits.slots
    · rw [if_pos htwice, if_pos (hcan.mpr ⟨honce, htwice⟩)]
      have hsize : song.patternLength / a = b * (song.patternLength / (a * b)) := by
        rw [← Nat.div_div_eq_div_mul, Nat.mul_div_cancel' htwice.1]
      rw [hsize, Nat.mul_div_cancel_left _ (by omega), splitChannels_cut _ _ _ rfl,
        Nat.mul_assoc]
    · rw [if_neg htwice, if_neg fun h => htwice (hcan.mp h).2]
  · rw [if_neg honce, if_neg fun h => honce (hcan.mp h).1, Option.bind_none]

end Twice

/-- A split takes place exactly when the factor divides the patterns and the song stays short
enough, it puts each row at its place and shares what was shared, and a split of its pieces gives
the very song that one split by the product gives. -/
theorem split_exact (song : Song) (h : song.Full) :
    (∀ factor : Int,
      ((song.split factor).isSome ↔ 1 ≤ factor ∧ factor ∣ song.patternLength ∧
        (factor = 1 ∨ song.length * factor ≤ 256)) ∧
      (song.split factor = none → ∀ bench : Bench,
        ((Work.splitSong song factor).run bench : Except Error (Bool × Song) × Bench) =
          (.ok (false, song), bench)) ∧
      ∀ pieces, song.split factor = some pieces → SplitBy song pieces factor.toNat) ∧
    ∀ first second : Int, 1 ≤ first → 1 ≤ second → first * second ∣ song.patternLength →
      song.length * (first * second) ≤ 256 →
      ∃ once twice, song.split first = some once ∧ once.split second = some twice ∧
        song.split (first * second) = some twice := by
  refine ⟨fun factor => ⟨split_isSome song factor, splitSong_refused,
    fun _ => splitBy_of_split h⟩, ?_⟩
  intro first second hfirst hsecond hdvd hfit
  have hpositive : 0 < first * second := Int.mul_pos (by omega) (by omega)
  obtain ⟨twice, htwice⟩ := Option.isSome_iff_exists.mp
    ((split_isSome song (first * second)).mpr ⟨hpositive, hdvd, .inr hfit⟩)
  obtain ⟨once, honce, hsecond⟩ := Option.bind_eq_some_iff.mp
    ((split_split song hfirst hsecond).trans htwice)
  exact ⟨once, twice, honce, hsecond, htwice⟩

/-- Two channels, one of which plays a pattern twice. -/
def echoSong : Song where
  id := 1
  name := "echo"
  patternLength := 4
  length := 3
  patterns := [[{ value := 1 }, { value := 2 }, { value := 3 }, { value := 4 }],
    [{ value := 5 }, { value := 6 }, { value := 7 }, { value := 8 }]]
  channels := [⟨.square1, [some 1, some 0, some 1]⟩, ⟨.triangle, [none, some 1, none]⟩]

theorem echoSong_split : echoSong.Full ∧
    (∃ pieces, echoSong.split 2 = some pieces ∧ SplitBy echoSong pieces 2 ∧
      (pieces.channels.map (·.slots)) = [[some 0, some 1, some 2, some 3, some 0, some 1],
        [none, none, some 4, some 5, none, none]]) ∧
    (∃ once twice, echoSong.split 2 = some once ∧ once.split 2 = some twice ∧
      echoSong.split 4 = some twice) ∧ ¬ (echoSong.split 3).isSome := by
  have hfull : echoSong.Full := by
    have hplays : ∀ channel ∈ echoSong.channels, ∀ position ∈ channel.used,
        echoSong.patterns[position]?.map List.length = some 4 := by decide
    refine ⟨by decide, fun channel hchannel position hposition => ?_⟩
    exact Option.map_eq_some_iff.mp
      (hplays channel hchannel position (mem_used_of_slot hposition))
  obtain ⟨hone, htwice⟩ := split_exact echoSong hfull
  refine ⟨hfull, ⟨_, rfl, (hone 2).2.2 _ rfl, by decide⟩,
    htwice 2 2 (by decide) (by decide) (by decide) (by decide), ?_⟩
  rw [(hone 3).1]
  decide

end Chiptune
