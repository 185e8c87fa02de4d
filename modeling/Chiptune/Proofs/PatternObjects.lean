import Chiptune.Proofs.SplitMusic

/-!
# Songs over a common store of patterns

Songs can share patterns with one another when the patterns of all of them are the objects of one
store. A song over a store is sound if each of its slots has a pattern of the right length there,
and every change of a song keeps it sound and leaves to the other songs what they need.
-/

namespace Chiptune

/-- The instrument of the note is in the list. -/
def Note.Within (listed : List InstrumentId) (note : Note) : Prop :=
  ∀ id, note.instrument = some id → id ∈ listed

/-- The pattern has so many rows, with instruments of the list. -/
structure Pattern.Fits (listed : List InstrumentId) (length : Nat) (pattern : Pattern) : Prop where
  length : pattern.length = length
  notes : ∀ note ∈ pattern, note.Within listed

instance (listed : List InstrumentId) (note : Note) : Decidable (note.Within listed) :=
  decidable_of_iff (∀ id ∈ note.instrument, id ∈ listed) Iff.rfl

instance (listed : List InstrumentId) (length : Nat) (pattern : Pattern) :
    Decidable (pattern.Fits listed length) :=
  decidable_of_iff (pattern.length = length ∧ ∀ note ∈ pattern, note.Within listed)
    ⟨fun h => ⟨h.1, h.2⟩, fun h => ⟨h.length, h.notes⟩⟩

namespace Song

/-- The song with its slots looked up in a store. -/
def withStore (song : Song) (store : List Pattern) : Song := { song with patterns := store }

/-- Renames the patterns that the slots name. -/
def mapSlots (rename : Nat → Nat) (song : Song) : Song :=
  { song with channels := song.channels.map fun channel =>
      { channel with slots := channel.slots.map (Option.map rename) } }

/-- The song split into pieces that lie behind the patterns there are, which stay. -/
def splitAside (song : Song) (factor : Int) : Option Song :=
  (song.split factor).map fun pieces =>
    if factor = 1 then pieces
    else (pieces.mapSlots (song.patterns.length + ·)).withStore (song.patterns ++ pieces.patterns)

/-- Every slot is within the song, and what it names is a pattern that fits. -/
structure Sound (listed : List InstrumentId) (song : Song) : Prop where
  slots : ∀ channel ∈ song.channels, channel.slots.length = song.length
  patterns : ∀ object ∈ song.used, ∃ pattern, song.patterns[object]? = some pattern ∧
    Pattern.Fits listed song.patternLength pattern

end Song

/-- The objects of a store stay as long as they are, and get no note with another instrument. -/
def Retains (listed : List InstrumentId) (store after : List Pattern) : Prop :=
  ∀ (object length : Nat) (pattern : Pattern), store[object]? = some pattern →
    Pattern.Fits listed length pattern →
      ∃ kept, after[object]? = some kept ∧ Pattern.Fits listed length kept

variable {song changed : Song} {listed : List InstrumentId} {store after : List Pattern}
  {rename : Nat → Nat}

lemma retains_append (more : List Pattern) : Retains listed store (store ++ more) := by
  intro object length pattern hget hfits
  refine ⟨pattern, ?_, hfits⟩
  rw [List.getElem?_append_left (List.getElem?_eq_some_iff.mp hget).1, hget]

lemma retains_refl : Retains listed store store := fun _ _ pattern hget hfits =>
  ⟨pattern, hget, hfits⟩

lemma mem_used_mapSlots {object : Nat} :
    object ∈ (song.mapSlots rename).used ↔ ∃ source ∈ song.used, rename source = object := by
  constructor
  · intro h
    obtain ⟨_, hrenamed, hs⟩ := mem_used.mp h
    obtain ⟨channel, hc, rfl⟩ := List.mem_map.mp hrenamed
    obtain ⟨slot, hslot, heq⟩ := List.mem_map.mp hs
    obtain ⟨source, rfl, rfl⟩ := Option.map_eq_some_iff.mp heq
    exact ⟨source, mem_used.mpr ⟨channel, hc, hslot⟩, rfl⟩
  · rintro ⟨source, hsource, rfl⟩
    obtain ⟨channel, hc, hs⟩ := mem_used.mp hsource
    apply mem_used.mpr
    exact ⟨_, List.mem_map_of_mem hc, List.mem_map_of_mem hs⟩

namespace Song.Sound

/-- A song can be moved to another store that has what it needs under other names. -/
lemma mapSlots (h : song.Sound listed)
    (hstore : ∀ object ∈ song.used, ∀ pattern, song.patterns[object]? = some pattern →
      Pattern.Fits listed song.patternLength pattern →
      ∃ kept, after[rename object]? = some kept ∧ Pattern.Fits listed song.patternLength kept) :
    ((song.mapSlots rename).withStore after).Sound listed where
  slots := by
    intro channel hc
    obtain ⟨source, hs, rfl⟩ := List.mem_map.mp hc
    rw [List.length_map]
    exact h.slots source hs
  patterns := by
    intro object ho
    obtain ⟨source, hs, rfl⟩ := mem_used_mapSlots.mp ho
    obtain ⟨pattern, hget, hfits⟩ := h.patterns source hs
    exact hstore source hs pattern hget hfits

lemma withStore (h : song.Sound listed) (hretains : Retains listed song.patterns after) :
    (song.withStore after).Sound listed where
  slots := h.slots
  patterns := by
    intro object ho
    obtain ⟨pattern, hget, hfits⟩ := h.patterns object ho
    exact hretains object song.patternLength pattern hget hfits

lemma mono {more : List InstrumentId} (h : song.Sound listed)
    (hmore : ∀ note ∈ song.notes, note.Within listed → note.Within more) : song.Sound more where
  slots := h.slots
  patterns := by
    intro object ho
    obtain ⟨pattern, hget, hfits⟩ := h.patterns object ho
    refine ⟨pattern, hget, hfits.length, fun note hn => ?_⟩
    apply hmore note _ (hfits.notes note hn)
    refine List.mem_flatMap.mpr ⟨object, ho, ?_⟩
    rw [Song.pattern, getD_of_getElem? hget]
    exact hn

end Song.Sound

/-- A slot that is set names what it is set to, and the others what they named. -/
lemma setSlot_eq_ok {channel slot : Nat} {content : Option Nat}
    (h : song.setSlot channel slot content = .ok changed) :
    ∃ target, song.channels[channel]? = some target ∧ slot < target.slots.length ∧
      changed = { song with
        channels := song.channels.set channel ⟨target.voice, target.slots.set slot content⟩ } := by
  unfold Song.setSlot at h
  split at h
  · next target htarget =>
    split_ifs at h with hslot
    exact ⟨target, htarget, hslot, (Except.ok.inj h).symm⟩
  · exact nomatch h

lemma Song.Sound.setSlot {channel slot object : Nat} {pattern : Pattern} (h : song.Sound listed)
    (hget : song.patterns[object]? = some pattern)
    (hfits : Pattern.Fits listed song.patternLength pattern)
    (hset : song.setSlot channel slot (some object) = .ok changed) :
    changed.Sound listed ∧ changed.patterns = song.patterns := by
  obtain ⟨target, htarget, hslot, rfl⟩ := setSlot_eq_ok hset
  have hmem := List.mem_of_getElem? htarget
  refine ⟨⟨?_, ?_⟩, rfl⟩
  · intro other ho
    rcases List.mem_or_eq_of_mem_set ho with ho | rfl
    · exact h.slots other ho
    · rw [List.length_set]
      exact h.slots target hmem
  · intro used hused
    obtain ⟨other, ho, hs⟩ := mem_used.mp hused
    rcases List.mem_or_eq_of_mem_set ho with ho | rfl
    · exact h.patterns used (mem_used.mpr ⟨other, ho, hs⟩)
    · rcases List.mem_or_eq_of_mem_set hs with hs | heq
      · exact h.patterns used (mem_used.mpr ⟨target, hmem, hs⟩)
      · obtain rfl := Option.some.inj heq
        exact ⟨pattern, hget, hfits⟩

lemma Song.Sound.place {channel slot : Nat} {pattern : Pattern} (h : song.Sound listed)
    (hfits : Pattern.Fits listed song.patternLength pattern)
    (hplace : song.place channel slot pattern = .ok changed) :
    changed.Sound listed ∧ Retains listed song.patterns changed.patterns := by
  have hmore : (song.withStore (song.patterns ++ [pattern])).Sound listed :=
    h.withStore (retains_append _)
  have hget : (song.patterns ++ [pattern])[song.patterns.length]? = some pattern := by simp
  obtain ⟨hsound, hpatterns⟩ := hmore.setSlot hget hfits hplace
  refine ⟨hsound, ?_⟩
  rw [hpatterns]
  exact retains_append _

/-- A row is replaced in the one pattern that the slot names. -/
lemma setRow_eq_ok {channel slot row : Nat} {note : Note}
    (h : song.setRow channel slot row note = .ok changed) :
    ∃ object, song.slot? channel slot = .ok (some object) ∧
      changed = song.withStore
        (song.patterns.set object ((song.pattern object).set row note)) := by
  unfold Song.setRow at h
  obtain ⟨content, hcontent, h⟩ := (bind_eq_ok_iff _ _ _).mp h
  cases content with
  | none => exact nomatch h
  | some object =>
    dsimp only at h
    split_ifs at h with hrow
    exact ⟨object, hcontent, (Except.ok.inj h).symm⟩

lemma retains_set {object row : Nat} {note : Note} (hnote : note.Within listed) :
    Retains listed store (store.set object ((store.getD object []).set row note)) := by
  intro other length pattern hget hfits
  by_cases hother : object = other
  · subst hother
    have hpattern : store.getD object [] = pattern := getD_of_getElem? hget
    have hlt := (List.getElem?_eq_some_iff.mp hget).1
    refine ⟨pattern.set row note, ?_, ?_, ?_⟩
    · rw [List.getElem?_set_self hlt, hpattern]
    · rw [List.length_set]
      exact hfits.length
    · intro kept hkept
      rcases List.mem_or_eq_of_mem_set hkept with hkept | rfl
      · exact hfits.notes kept hkept
      · exact hnote
  · exact ⟨pattern, by rw [List.getElem?_set_ne hother, hget], hfits⟩

lemma Song.Sound.setRow {channel slot row : Nat} {note : Note} (h : song.Sound listed)
    (hnote : note.Within listed) (hset : song.setRow channel slot row note = .ok changed) :
    changed.Sound listed ∧ Retains listed song.patterns changed.patterns := by
  obtain ⟨object, -, rfl⟩ := setRow_eq_ok hset
  have hretains : Retains listed song.patterns
      (song.patterns.set object ((song.pattern object).set row note)) := retains_set hnote
  exact ⟨h.withStore hretains, hretains⟩

lemma Song.Sound.split {factor : Int} (h : song.Sound listed)
    (hsplit : song.split factor = some changed) : changed.Sound listed := by
  rcases split_cases hsplit with ⟨-, rfl⟩ |
    ⟨size, hfactor, hwhole, hpatternLength, hlength, -, hchannels, hcut⟩
  · exact h
  · have hsource : ∀ channel ∈ changed.channels, ∃ source ∈ song.channels,
        ∃ before after : List Pattern,
          changed.patterns = before ++ song.channelPieces size factor.toNat source ++ after ∧
          channel = { source with slots := source.splitSlots before.length factor.toNat } := by
      intro channel hc
      obtain ⟨number, hlt, rfl⟩ := List.mem_iff_getElem.mp hc
      have hnumber : number < song.channels.length := by omega
      obtain ⟨before, after, hmore, hget⟩ :=
        hcut number _ (List.getElem?_eq_getElem hnumber)
      exact ⟨_, List.getElem_mem hnumber, before, after, hmore,
        (List.getElem?_eq_some_iff.mp hget).2⟩
    constructor
    · intro channel hc
      obtain ⟨source, hs, before, -, -, rfl⟩ := hsource channel hc
      rw [splitSlots_length, h.slots source hs, hlength]
    · intro piece hpiece
      obtain ⟨channel, hc, hslot⟩ := mem_used.mp hpiece
      obtain ⟨source, hs, before, after, hmore, rfl⟩ := hsource channel hc
      obtain ⟨position, k, hp, hk, rfl⟩ := mem_splitSlots hslot
      refine ⟨_, getElem?_pieces_placed hmore hk hp, ?_⟩
      obtain ⟨pattern, hget, hfits⟩ := h.patterns position (mem_used.mpr ⟨source, hs, hp⟩)
      have hpattern : song.pattern position = pattern := getD_of_getElem? hget
      rw [hpattern, hpatternLength]
      refine ⟨?_, fun note hn => hfits.notes note (piece_subset _ _ _ hn)⟩
      have hend : k * size + size ≤ song.patternLength := by
        rw [hwhole, ← Nat.succ_mul]
        exact Nat.mul_le_mul_right size hk
      rw [Pattern.piece, List.length_take, List.length_drop, hfits.length]
      omega

lemma Song.Sound.splitAside {factor : Int} (h : song.Sound listed)
    (hsplit : song.splitAside factor = some changed) :
    changed.Sound listed ∧ Retains listed song.patterns changed.patterns := by
  obtain ⟨pieces, hpieces, rfl⟩ := Option.map_eq_some_iff.mp hsplit
  have hsound := h.split hpieces
  by_cases hfactor : factor = 1
  · rw [if_pos hfactor]
    rcases split_cases hpieces with ⟨-, rfl⟩ | ⟨_, hlt, -⟩
    · exact ⟨hsound, retains_refl⟩
    · omega
  · rw [if_neg hfactor]
    refine ⟨hsound.mapSlots ?_, retains_append _⟩
    intro object _ pattern hget hfits
    refine ⟨pattern, ?_, hfits⟩
    rw [List.getElem?_append_right (by omega), Nat.add_sub_cancel_left, hget]

end Chiptune
