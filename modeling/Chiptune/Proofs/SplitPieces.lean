import Chiptune.Music.Split
import Chiptune.Proofs.SongRows

/-!
# The pieces of a split song

What `Song.split` does to a song, slot by slot: slot `i * factor + k` of a channel holds piece `k`
of the pattern that slot `i` held, and nothing else changes but the lengths.
-/

namespace Chiptune

section Uniform

variable {α β : Type} {xs : List α} {f : α → List β} {width : Nat}

lemma length_flatMap_uniform (h : ∀ x ∈ xs, (f x).length = width) :
    (xs.flatMap f).length = xs.length * width := by
  induction xs with
  | nil => simp
  | cons x rest ih =>
    rw [List.flatMap_cons, List.length_append, h x (by simp),
      ih fun y hy => h y (by simp [hy]), List.length_cons]
    ring

lemma getElem?_flatMap_uniform (h : ∀ x ∈ xs, (f x).length = width) (i : Nat) {k : Nat}
    (hk : k < width) : (xs.flatMap f)[i * width + k]? = xs[i]?.bind fun x => (f x)[k]? := by
  induction xs generalizing i with
  | nil => simp
  | cons x rest ih =>
    have hx := h x (by simp)
    rw [List.flatMap_cons]
    cases i with
    | zero =>
      rw [List.getElem?_append_left (by omega)]
      simp
    | succ i =>
      have hi : (i + 1) * width + k - width = i * width + k := by
        rw [Nat.add_mul, Nat.one_mul]
        omega
      have hle : width ≤ (i + 1) * width + k := by
        rw [Nat.add_mul, Nat.one_mul]
        omega
      rw [List.getElem?_append_right (by omega), hx, hi, ih fun y hy => h y (by simp [hy])]
      simp

end Uniform

lemma getD_of_getElem? {α : Type} {xs : List α} {index : Nat} {x default : α}
    (h : xs[index]? = some x) : xs.getD index default = x := by
  rw [List.getD_eq_getElem?_getD, h, Option.getD_some]

lemma pieces_length (pattern : Pattern) (size count : Nat) :
    (pattern.pieces size count).length = count := by
  simp [Pattern.pieces]

lemma getElem?_pieces (pattern : Pattern) (size : Nat) {count k : Nat} (hk : k < count) :
    (pattern.pieces size count)[k]? = some (pattern.piece size k) := by
  simp [Pattern.pieces, hk]

/-- Slot by slot, one channel of a song against the same channel of its pieces. -/
structure ChannelCut (song pieces : Song) (size factor : Nat) (slots cut : List (Option Nat)) :
    Prop where
  length : cut.length = slots.length * factor
  empty : ∀ i k, slots[i]? = some none → k < factor → cut[i * factor + k]? = some none
  pattern : ∀ i k position, slots[i]? = some (some position) → k < factor →
    ∃ other, cut[i * factor + k]? = some (some other) ∧
      (pieces.pattern other).take size = ((song.pattern position).drop (k * size)).take size ∧
      ∀ note ∈ pieces.pattern other, note ∈ song.pattern position

/-- What is the same and what is not in the pieces of a song. -/
structure Cut (song pieces : Song) (size factor : Nat) : Prop where
  positive : 0 < factor
  whole : song.patternLength = factor * size
  patternLength : pieces.patternLength = size
  length : pieces.length = song.length * factor
  speed : pieces.speed = song.speed
  channels : pieces.channels.length = song.channels.length
  channel : ∀ (number : Nat) (channel : Channel), song.channels[number]? = some channel →
    ∃ slots, pieces.channels[number]? = some { channel with slots } ∧
      ChannelCut song pieces size factor channel.slots slots

namespace Cut

variable {song pieces : Song} {size factor i k : Nat}

lemma rows_le (h : Cut song pieces size factor) (hk : k < factor) :
    k * size + size ≤ song.patternLength := by
  rw [h.whole, ← Nat.succ_mul]
  exact Nat.mul_le_mul_right size hk

lemma piece_lt (h : Cut song pieces size factor) (hi : i < song.length) (hk : k < factor) :
    i * factor + k < pieces.length := by
  have hfit := Nat.mul_le_mul_right factor (Nat.succ_le_of_lt hi)
  rw [Nat.succ_mul] at hfit
  rw [h.length]
  omega

end Cut

section Split

variable {song : Song} {size factor : Nat}

lemma splitSlots_length (channel : Channel) (base factor : Nat) :
    (channel.splitSlots base factor).length = channel.slots.length * factor := by
  refine length_flatMap_uniform ?_
  intro slot _
  cases slot <;> simp

lemma getElem?_splitSlots (channel : Channel) (base i : Nat) {k : Nat} (hk : k < factor) :
    (channel.splitSlots base factor)[i * factor + k]? = channel.slots[i]?.map fun
      | none => none
      | some position => some (base + channel.used.idxOf position * factor + k) := by
  rw [Channel.splitSlots, getElem?_flatMap_uniform (fun slot _ => by cases slot <;> simp) i hk]
  cases channel.slots[i]? with
  | none => rfl
  | some slot =>
    cases slot with
    | none => simp [hk]
    | some position => simp [hk]

/-- The pieces of a pattern lie where the slots look for them. -/
lemma getElem?_channelPieces (song : Song) (size : Nat) {channel : Channel} {position k : Nat}
    (hk : k < factor) (hp : some position ∈ channel.slots) :
    (song.channelPieces size factor channel)[channel.used.idxOf position * factor + k]? =
      some ((song.pattern position).piece size k) := by
  have hused : position ∈ channel.used :=
    List.mem_eraseDups.mpr (List.mem_filterMap.mpr ⟨some position, hp, rfl⟩)
  have hget : channel.used[channel.used.idxOf position]? = some position := by
    rw [List.getElem?_eq_getElem (List.idxOf_lt_length_of_mem hused), List.getElem_idxOf]
  rw [Song.channelPieces, getElem?_flatMap_uniform (fun _ _ => pieces_length _ _ _) _ hk, hget,
    Option.bind_some, getElem?_pieces _ _ hk]

/-- Where the slots and the pieces of each channel are when all channels are cut. -/
lemma splitChannels_spec (song : Song) (size factor : Nat) (done : List Pattern)
    (channels : List Channel) : ∃ more cut,
      song.splitChannels size factor done channels = (done ++ more, cut) ∧
      cut.length = channels.length ∧
      ∀ (number : Nat) (channel : Channel), channels[number]? = some channel →
        ∃ before after : List Pattern,
          done ++ more = before ++ song.channelPieces size factor channel ++ after ∧
          cut[number]? = some { channel with slots := channel.splitSlots before.length factor } := by
  induction channels generalizing done with
  | nil => exact ⟨[], [], by simp [Song.splitChannels], rfl, by simp⟩
  | cons channel rest ih =>
    obtain ⟨more, cut, hsplit, hlength, hcut⟩ := ih (done ++ song.channelPieces size factor channel)
    refine ⟨song.channelPieces size factor channel ++ more,
      { channel with slots := channel.splitSlots done.length factor } :: cut, ?_,
      by simp [hlength], ?_⟩
    · rw [Song.splitChannels, hsplit]
      simp
    · intro number other hother
      cases number with
      | zero =>
        obtain rfl : channel = other := by simpa using hother
        exact ⟨done, more, by simp, rfl⟩
      | succ number =>
        obtain ⟨before, after, hmore, hget⟩ := hcut number other (by simpa using hother)
        exact ⟨before, after, by rw [← hmore, List.append_assoc], by simpa using hget⟩

lemma piece_subset (pattern : Pattern) (size k : Nat) {note : Note}
    (h : note ∈ pattern.piece size k) : note ∈ pattern :=
  List.mem_of_mem_drop (List.mem_of_mem_take h)

/-- What a slot of a cut channel plays is a piece of what the slot played before. -/
lemma mem_splitSlots {channel : Channel} {base piece : Nat}
    (h : some piece ∈ channel.splitSlots base factor) :
    ∃ position k, some position ∈ channel.slots ∧ k < factor ∧
      piece = base + channel.used.idxOf position * factor + k := by
  obtain ⟨slot, hs, hpiece⟩ := List.mem_flatMap.mp h
  cases slot with
  | none => exact nomatch List.eq_of_mem_replicate hpiece
  | some position =>
    obtain ⟨k, hk, heq⟩ := List.mem_map.mp hpiece
    exact ⟨position, k, hs, List.mem_range.mp hk, (Option.some.inj heq).symm⟩

/-- A song that has the pieces of a channel at the right place. -/
lemma getElem?_pieces_placed {pieces : Song} {channel : Channel} {before after : List Pattern}
    (h : pieces.patterns = before ++ song.channelPieces size factor channel ++ after)
    {position k : Nat} (hk : k < factor) (hp : some position ∈ channel.slots) :
    pieces.patterns[before.length + channel.used.idxOf position * factor + k]? =
      some ((song.pattern position).piece size k) := by
  have hpiece := getElem?_channelPieces song size hk hp
  have hlt := (List.getElem?_eq_some_iff.mp hpiece).1
  rw [h, Nat.add_assoc, List.append_assoc, List.getElem?_append_right (by omega),
    Nat.add_sub_cancel_left, List.getElem?_append_left hlt, hpiece]

/-- A channel that was cut, in a song that has its pieces at the right place. -/
lemma channelCut_of_pieces {pieces : Song} {channel : Channel} {before after : List Pattern}
    (h : pieces.patterns = before ++ song.channelPieces size factor channel ++ after) :
    ChannelCut song pieces size factor channel.slots
      (channel.splitSlots before.length factor) where
  length := splitSlots_length channel before.length factor
  empty := by
    intro i k hslot hk
    rw [getElem?_splitSlots channel before.length i hk, hslot]
    rfl
  pattern := by
    intro i k position hslot hk
    have hpattern : pieces.pattern
        (before.length + channel.used.idxOf position * factor + k) =
        (song.pattern position).piece size k :=
      getD_of_getElem? (getElem?_pieces_placed h hk (List.mem_of_getElem? hslot))
    refine ⟨_, by rw [getElem?_splitSlots channel before.length i hk, hslot]; rfl, ?_, ?_⟩
    · rw [hpattern, Pattern.piece, List.take_take, Nat.min_self]
    · intro note hn
      rw [hpattern] at hn
      exact piece_subset _ _ _ hn

lemma channelCut_self (song : Song) (slots : List (Option Nat)) :
    ChannelCut song song song.patternLength 1 slots slots where
  length := by simp
  empty := by
    intro i k hslot hk
    obtain rfl : k = 0 := by omega
    simpa using hslot
  pattern := by
    intro i k position hslot hk
    obtain rfl : k = 0 := by omega
    exact ⟨position, by simpa using hslot, by simp, fun note hn => hn⟩

/-- A split leaves the song as it is, or it cuts all channels. -/
lemma split_cases {pieces : Song} {factor : Int} (h : song.split factor = some pieces) :
    factor = 1 ∧ pieces = song ∨
      ∃ size, 1 < factor ∧ song.patternLength = factor.toNat * size ∧
        pieces.patternLength = size ∧ pieces.length = song.length * factor.toNat ∧
        pieces.speed = song.speed ∧ pieces.channels.length = song.channels.length ∧
        ∀ (number : Nat) (channel : Channel), song.channels[number]? = some channel →
          ∃ before after : List Pattern,
            pieces.patterns =
              before ++ song.channelPieces size factor.toNat channel ++ after ∧
            pieces.channels[number]? =
              some { channel with slots := channel.splitSlots before.length factor.toNat } := by
  unfold Song.split at h
  split at h
  · exact nomatch h
  · next hfactor =>
    obtain ⟨hpos, hdvd⟩ : 1 ≤ factor ∧ song.patternLength % factor.toNat = 0 := by
      constructor <;> omega
    split at h
    · next hone => exact .inl ⟨hone, (Option.some.inj h).symm⟩
    · next hone =>
      dsimp only at h
      split at h
      · exact nomatch h
      · obtain ⟨more, cut, hsplit, hlength, hcut⟩ := splitChannels_spec song
          (song.patternLength / factor.toNat) factor.toNat [] song.channels
        rw [hsplit] at h
        obtain rfl := Option.some.inj h
        have hwhole := (Nat.mul_div_cancel' (Nat.dvd_of_mod_eq_zero hdvd)).symm
        exact .inr ⟨_, by omega, hwhole, rfl, rfl, rfl, hlength, hcut⟩

/-- Whatever a successful split gives are the pieces of the song. -/
theorem split_cut {pieces : Song} {factor : Int} (h : song.split factor = some pieces) :
    ∃ size, (factor.toNat : Int) = factor ∧ Cut song pieces size factor.toNat := by
  rcases split_cases h with ⟨rfl, rfl⟩ |
    ⟨size, hfactor, hwhole, hpatternLength, hlength, hspeed, hchannels, hcut⟩
  · refine ⟨pieces.patternLength, rfl, by decide, by simp, rfl, by simp, rfl, rfl, ?_⟩
    intro number channel hc
    exact ⟨channel.slots, hc, channelCut_self pieces channel.slots⟩
  · refine ⟨size, by omega, by omega, hwhole, hpatternLength, hlength, hspeed, hchannels, ?_⟩
    intro number channel hc
    obtain ⟨before, after, hmore, hget⟩ := hcut number channel hc
    exact ⟨_, hget, channelCut_of_pieces hmore⟩

end Split

end Chiptune
