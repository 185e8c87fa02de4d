import Chiptune.Proofs.PatternObjects

/-!
# Copies of songs

A copy of songs has one new pattern for each pattern that the songs name, so slots of the copy
share a pattern where slots of the songs do. No slot of the copy shares one with the songs, and a
row that is replaced through one of them stays what it is in the other.
-/

namespace Chiptune

/-- A slot of a channel of a song in a list. -/
structure Spot where
  song : Nat
  channel : Nat
  slot : Nat
  deriving DecidableEq, Repr

/-- What the slot names, if there is such a slot. -/
def objectAt (songs : List Song) (spot : Spot) : Option (Option Nat) :=
  songs[spot.song]?.bind fun song => (song.slot? spot.channel spot.slot).toOption

/-- The rows that the slot plays, if there is such a slot. -/
def rowsAt (store : List Pattern) (songs : List Song) (spot : Spot) : Option (Option Pattern) :=
  (objectAt songs spot).map (Option.map fun object => store.getD object [])

/-- Both slots name one object. -/
def SameObject (songs : List Song) (a b : Spot) : Prop :=
  ∃ object, objectAt songs a = some (some object) ∧ objectAt songs b = some (some object)

/-- Replacing a row through one of the songs changes no row of the others. -/
def Isolated (store : List Pattern) (songs others : List Song) : Prop :=
  ∀ song ∈ songs, ∀ channel slot row note changed,
    (song.withStore store).setRow channel slot row note = .ok changed →
    ∀ spot, rowsAt changed.patterns others spot = rowsAt store others spot

/-- All that a song is but what its slots name. -/
def Song.outline (song : Song) : Song :=
  { song with
    patterns := []
    channels := song.channels.map fun channel =>
      Channel.empty channel.slots.length channel.voice }

/-- The copies have the rows of the songs and share patterns as the songs do, but with one another
only. -/
structure Copied (store : List Pattern) (songs : List Song) (after : List Pattern)
    (copies : List Song) : Prop where
  outline : copies.map Song.outline = songs.map Song.outline
  rows : ∀ spot, rowsAt after copies spot = rowsAt store songs spot
  kept : ∀ spot, rowsAt after songs spot = rowsAt store songs spot
  shared : ∀ a b, SameObject copies a b ↔ SameObject songs a b
  fromCopies : Isolated after copies songs
  fromSongs : Isolated after songs copies

/-- The objects that the songs name, in order of first use. -/
def named (songs : List Song) : List Nat := (songs.flatMap Song.used).eraseDups

/-- The name of the copy of an object, when the copies follow `size` objects. -/
def copyName (size : Nat) (songs : List Song) (object : Nat) : Nat :=
  size + (named songs).idxOf object

/-- The store with the copies of the objects that the songs name. -/
def copiedStore (store : List Pattern) (songs : List Song) : List Pattern :=
  store ++ (named songs).map fun object => store.getD object []

def copiedSongs (store : List Pattern) (songs : List Song) : List Song :=
  songs.map fun song =>
    (song.mapSlots (copyName store.length songs)).withStore (copiedStore store songs)

section Copies

variable {store : List Pattern} {songs others : List Song} {spot : Spot} {object : Nat}

lemma mem_named : object ∈ named songs ↔ ∃ song ∈ songs, object ∈ song.used := by
  rw [named, List.mem_eraseDups, List.mem_flatMap]

lemma toOption_slot? (song : Song) (channel slot : Nat) : (song.slot? channel slot).toOption =
    song.channels[channel]?.bind fun target => target.slots[slot]? := by
  unfold Song.slot?
  cases song.channels[channel]? with
  | none => rfl
  | some target =>
    rw [Option.bind_some]
    dsimp only
    cases target.slots[slot]? with
    | none => rfl
    | some content => rfl

lemma toOption_eq_some_iff {α : Type} {x : Outcome α} {a : α} :
    x.toOption = some a ↔ x = .ok a := by
  cases x with
  | error => exact iff_of_false (fun h => nomatch h) (fun h => nomatch h)
  | ok b => exact ⟨fun h => congrArg Except.ok (Option.some.inj h),
      fun h => congrArg some (Except.ok.inj h)⟩

lemma mem_used_of_slot? {song : Song} {channel slot : Nat}
    (h : (song.slot? channel slot).toOption = some (some object)) : object ∈ song.used := by
  rw [toOption_slot?] at h
  obtain ⟨target, htarget, hslot⟩ := Option.bind_eq_some_iff.mp h
  exact mem_used.mpr ⟨target, List.mem_of_getElem? htarget, List.mem_of_getElem? hslot⟩

lemma mem_named_of_objectAt (h : objectAt songs spot = some (some object)) :
    object ∈ named songs := by
  obtain ⟨song, hs, hslot⟩ := Option.bind_eq_some_iff.mp h
  exact mem_named.mpr ⟨song, List.mem_of_getElem? hs, mem_used_of_slot? hslot⟩

lemma objectAt_map {change : Song → Song} {rename : Nat → Nat}
    (h : ∀ song ∈ songs, (change song).channels = (song.mapSlots rename).channels) :
    objectAt (songs.map change) spot = (objectAt songs spot).map (Option.map rename) := by
  unfold objectAt
  rw [List.getElem?_map]
  cases hsong : songs[spot.song]? with
  | none => rfl
  | some song =>
    rw [Option.map_some, Option.bind_some, Option.bind_some, toOption_slot?, toOption_slot?,
      h song (List.mem_of_getElem? hsong), Song.mapSlots, List.getElem?_map]
    cases song.channels[spot.channel]? with
    | none => rfl
    | some target =>
      rw [Option.map_some, Option.bind_some, Option.bind_some, List.getElem?_map]

lemma isolated_of_disjoint (h : ∀ object ∈ named songs, object ∉ named others) :
    Isolated store songs others := by
  intro song hs channel slot row note changed hset spot
  obtain ⟨object, hslot, rfl⟩ := setRow_eq_ok hset
  have hobject : object ∉ named others :=
    h object (mem_named.mpr ⟨song, hs, mem_used_of_slot? (toOption_eq_some_iff.mpr hslot)⟩)
  unfold rowsAt
  cases hother : objectAt others spot with
  | none => rfl
  | some content =>
    cases content with
    | none => rfl
    | some other =>
      have hne : object ≠ other := by
        rintro rfl
        exact hobject (mem_named_of_objectAt hother)
      rw [Option.map_some, Option.map_some, Option.map_some, Option.map_some, Song.withStore,
        List.getD_eq_getElem?_getD, List.getElem?_set_ne hne, ← List.getD_eq_getElem?_getD]
      rfl

lemma rowsAt_congr {after : List Pattern}
    (h : ∀ object ∈ named songs, after.getD object [] = store.getD object []) (spot : Spot) :
    rowsAt after songs spot = rowsAt store songs spot := by
  unfold rowsAt
  cases hcontent : objectAt songs spot with
  | none => rfl
  | some content =>
    cases content with
    | none => rfl
    | some object =>
      rw [Option.map_some, Option.map_some, Option.map_some, Option.map_some,
        h object (mem_named_of_objectAt hcontent)]

variable (store songs)

lemma objectAt_copied (spot : Spot) : objectAt (copiedSongs store songs) spot =
    (objectAt songs spot).map (Option.map (copyName store.length songs)) :=
  objectAt_map fun _ _ => rfl

lemma getElem?_copiedStore (hobject : object ∈ named songs) :
    (copiedStore store songs)[copyName store.length songs object]? =
      some (store.getD object []) := by
  have hget : (named songs)[(named songs).idxOf object]? = some object := by
    rw [List.getElem?_eq_getElem (List.idxOf_lt_length_of_mem hobject), List.getElem_idxOf]
  rw [copiedStore, copyName, List.getElem?_append_right (by omega), Nat.add_sub_cancel_left,
    List.getElem?_map, hget, Option.map_some]

lemma copyName_inj {other : Nat} (hobject : object ∈ named songs)
    (h : copyName store.length songs object = copyName store.length songs other) :
    object = other :=
  (List.idxOf_inj hobject).mp (Nat.add_left_cancel h)

lemma named_copied (h : object ∈ named (copiedSongs store songs)) : store.length ≤ object := by
  obtain ⟨copy, hcopy, hused⟩ := mem_named.mp h
  obtain ⟨song, -, rfl⟩ := List.mem_map.mp hcopy
  have hrenamed : object ∈ (song.mapSlots (copyName store.length songs)).used := hused
  obtain ⟨source, -, rfl⟩ := mem_used_mapSlots.mp hrenamed
  exact Nat.le_add_right _ _

lemma copied_spec (hstore : ∀ object ∈ named songs, object < store.length) :
    Copied store songs (copiedStore store songs) (copiedSongs store songs) where
  outline := by
    rw [copiedSongs, List.map_map]
    apply List.map_congr_left
    intro song _
    simp [Song.outline, Song.withStore, Song.mapSlots]
  rows := by
    intro spot
    unfold rowsAt
    rw [objectAt_copied]
    cases hcontent : objectAt songs spot with
    | none => rfl
    | some content =>
      cases content with
      | none => rfl
      | some object =>
        have hget := getElem?_copiedStore store songs (mem_named_of_objectAt hcontent)
        simp only [Option.map_some]
        rw [getD_of_getElem? hget]
  kept := by
    apply rowsAt_congr
    intro object ho
    rw [copiedStore, List.getD_eq_getElem?_getD, List.getElem?_append_left (hstore object ho),
      List.getD_eq_getElem?_getD]
  shared := by
    intro a b
    unfold SameObject
    rw [objectAt_copied, objectAt_copied]
    constructor
    · rintro ⟨copy, ha, hb⟩
      simp only [Option.map_eq_some_iff] at ha hb
      obtain ⟨_, ha, first, rfl, hfirst⟩ := ha
      obtain ⟨_, hb, second, rfl, hsecond⟩ := hb
      have hsame : first = second := copyName_inj store songs (mem_named_of_objectAt ha)
        (hfirst.trans hsecond.symm)
      exact ⟨first, ha, hsame ▸ hb⟩
    · rintro ⟨object, ha, hb⟩
      exact ⟨copyName store.length songs object, by rw [ha]; rfl, by rw [hb]; rfl⟩
  fromCopies := by
    apply isolated_of_disjoint
    intro object hcopy hsong
    have hle := named_copied store songs hcopy
    have hlt := hstore object hsong
    omega
  fromSongs := by
    apply isolated_of_disjoint
    intro object hsong hcopy
    have hle := named_copied store songs hcopy
    have hlt := hstore object hsong
    omega

end Copies

end Chiptune
