import Mathlib
import Chiptune.Fti

/-!
# Tracker instrument files that end too soon

A reader that succeeds takes some of the bytes and leaves the others. What it gives depends on the
bytes that it takes alone, and it fails when the last of them is missing. So a file that can be read
has a shortest part that can be read, and whatever follows that part is of no account.
-/

namespace Chiptune.Fti

variable {α β : Type}

/-- The reader takes these bytes and gives the value, whatever follows. -/
def Reads (reader : Reader α) (used : Bytes) (value : α) : Prop :=
  ∀ rest, reader (used ++ rest) = some (value, rest)

/-- The reader fails where only a part of these bytes is there. -/
def Needs (reader : Reader α) (used : Bytes) : Prop :=
  ∀ cut, cut <+: used → cut ≠ used → reader cut = none

/-- Where the reader succeeds there are bytes that it takes, and it needs all of them. -/
def Exact (reader : Reader α) : Prop :=
  ∀ bytes value rest, reader bytes = some (value, rest) →
    ∃ used, bytes = used ++ rest ∧ Reads reader used value ∧ Needs reader used

lemma bind_run (first : Reader α) (next : α → Reader β) (bytes : Bytes) :
    (first >>= next) bytes = (first bytes).bind fun result => next result.1 result.2 := rfl

section Reads

variable {first : Reader α} {next : α → Reader β} {used more : Bytes} {a : α} {b : β}

lemma reads_pure (a : α) : Reads (pure a) [] a := fun _ => rfl

lemma Reads.bind (h : Reads first used a) (hnext : Reads (next a) more b) :
    Reads (first >>= next) (used ++ more) b := by
  intro rest
  rw [bind_run, List.append_assoc, h]
  exact hnext rest

lemma reads_take {count : Nat} (h : used.length = count) : Reads (take count) used used := by
  subst h
  intro rest
  rw [take, if_pos (by simp), List.take_left, List.drop_left]

lemma reads_byte (b : UInt8) : Reads byte [b] b := fun _ => rfl

lemma reads_require {condition : Bool} (h : condition = true) :
    Reads (require condition) [] () := by
  intro rest
  rw [require, if_pos h, List.nil_append]

lemma Reads.checked {condition : Bool} {next : Unit → Reader α} (h : condition = true)
    (hnext : Reads (next ()) used a) : Reads (require condition >>= next) used a :=
  (reads_require h).bind hnext

end Reads

section Exact

variable {first : Reader α} {next : α → Reader β}

lemma needs_nil (reader : Reader α) : Needs reader [] :=
  fun _ hcut hne => absurd (List.prefix_nil.mp hcut) hne

/-- Bytes that end too soon for two readers in turn end too soon for one of them. -/
lemma Needs.bind {used more : Bytes} {a : α} (h : Needs first used)
    (hreads : Reads first used a) (hnext : Needs (next a) more) :
    Needs (first >>= next) (used ++ more) := by
  intro cut hcut hne
  rw [bind_run]
  rcases List.prefix_or_prefix_of_prefix hcut (List.prefix_append used more) with hshort | hlong
  · by_cases hall : cut = used
    · -- The first reader gets all its bytes, and the second one gets none of those it needs.
      subst hall
      have hmore : more ≠ [] := by
        rintro rfl
        exact hne (List.append_nil cut).symm
      have hfirst := hreads []
      rw [List.append_nil] at hfirst
      rw [hfirst]
      exact hnext [] List.nil_prefix hmore.symm
    · rw [h cut hshort hall]
      rfl
  · obtain ⟨part, rfl⟩ := hlong
    rw [hreads]
    refine hnext part ((List.prefix_append_right_inj used).mp hcut) ?_
    rintro rfl
    exact hne rfl

lemma exact_pure (a : α) : Exact (pure a : Reader α) := by
  intro bytes value rest h
  obtain ⟨rfl, rfl⟩ := Prod.mk.injEq .. ▸ Option.some.inj h
  exact ⟨[], rfl, reads_pure _, needs_nil _⟩

lemma Exact.bind (h : Exact first) (hnext : ∀ a, Exact (next a)) : Exact (first >>= next) := by
  intro bytes b rest hrun
  obtain ⟨⟨a, middle⟩, hfirst, hrest⟩ := Option.bind_eq_some_iff.mp hrun
  obtain ⟨used, rfl, hreads, hneeds⟩ := h bytes a middle hfirst
  obtain ⟨more, rfl, hmore, hneedsMore⟩ := hnext a middle b rest hrest
  exact ⟨used ++ more, (List.append_assoc ..).symm, hreads.bind hmore,
    hneeds.bind hreads hneedsMore⟩

lemma exact_take (count : Nat) : Exact (take count) := by
  intro bytes value rest h
  unfold take at h
  split at h
  · next hle =>
    obtain ⟨rfl, rfl⟩ := Prod.mk.injEq .. ▸ Option.some.inj h
    have hlength : (bytes.take count).length = count := List.length_take_of_le hle
    refine ⟨bytes.take count, (List.take_append_drop count bytes).symm, reads_take hlength, ?_⟩
    intro cut hcut hne
    have hshort : cut.length < count := by
      rw [← hlength]
      exact lt_of_le_of_ne hcut.length_le fun heq => hne (hcut.eq_of_length heq)
    rw [take, if_neg (by omega)]
  · cases h

lemma exact_byte : Exact byte := by
  intro bytes value rest h
  cases bytes with
  | nil => cases h
  | cons b bytes =>
    obtain ⟨rfl, rfl⟩ := Prod.mk.injEq .. ▸ Option.some.inj h
    refine ⟨[b], rfl, reads_byte b, ?_⟩
    intro cut hcut hne
    cases cut with
    | nil => rfl
    | cons c cut => exact absurd (hcut.eq_of_length_le (by simp)) hne

lemma exact_require (condition : Bool) : Exact (require condition) := by
  intro bytes value rest h
  unfold require at h
  split at h
  · next hcondition =>
    obtain ⟨-, rfl⟩ := Prod.mk.injEq .. ▸ Option.some.inj h
    exact ⟨[], rfl, reads_require hcondition, needs_nil _⟩
  · cases h

end Exact

lemma exact_int32 : Exact int32 := (exact_take 4).bind fun _ => exact_pure _

lemma exact_readSequence : Exact readSequence :=
  exact_int32.bind fun _ => (exact_require _).bind fun _ => exact_int32.bind fun _ =>
    exact_int32.bind fun _ => exact_int32.bind fun _ => (exact_take _).bind fun _ => exact_pure _

lemma exact_readSequences (kind count : Nat) (instrument : Instrument) :
    Exact (readSequences kind count instrument) := by
  induction count generalizing kind instrument with
  | zero => exact exact_pure instrument
  | succ count ih =>
    refine exact_byte.bind fun enabled => ?_
    split
    · exact exact_readSequence.bind fun content => ih _ _
    · exact ih _ _

lemma exact_readInstrument (id : InstrumentId) : Exact (readInstrument id) :=
  exact_int32.bind fun _ => (exact_require _).bind fun _ => (exact_take _).bind fun _ =>
    exact_byte.bind fun _ => exact_readSequences _ _ _

lemma exact_readFile (id : InstrumentId) : Exact (readFile id) :=
  (exact_take 3).bind fun _ => (exact_require _).bind fun _ => (exact_take 3).bind fun _ =>
    (exact_require _).bind fun _ => exact_byte.bind fun _ => (exact_require _).bind fun _ =>
      exact_readInstrument id

/-- A file that can be read has a shortest part that can be read. Whatever follows this part, the
instrument is the same. -/
theorem load_exact {id : InstrumentId} {file : Bytes} {instrument : Instrument}
    (h : load? id file = some instrument) :
    ∃ count ≤ file.length,
      (∀ cut, cut <+: file.take count → cut ≠ file.take count → load? id cut = none) ∧
      ∀ rest, load? id (file.take count ++ rest) = some instrument := by
  obtain ⟨⟨loaded, rest⟩, hread, rfl⟩ := Option.map_eq_some_iff.mp h
  obtain ⟨used, rfl, hreads, hneeds⟩ := exact_readFile id file loaded rest hread
  refine ⟨used.length, by simp, ?_, ?_⟩ <;> rw [List.take_left]
  · intro cut hcut hne
    rw [load?, hneeds cut hcut hne]
    rfl
  · intro more
    rw [load?, hreads]
    rfl

/-- An instrument with one sequence, whose file is followed by a byte. -/
def stab : Bytes :=
  [0x46, 0x54, 0x49, 0x32, 0x2e, 0x34, 1, 1, 0, 0, 0, 0x73, 1, 1, 2, 0, 0, 0, 1, 0, 0, 0,
    0xff, 0xff, 0xff, 0xff, 0, 0, 0, 0, 15, 10, 99]

theorem stab_exact :
    load? 0 stab =
        some { id := 0, name := "s", volume := some { values := [15, 10], loop := 1 } } ∧
      ∃ count ≤ stab.length,
        (∀ cut, cut <+: stab.take count → cut ≠ stab.take count → load? 0 cut = none) ∧
        ∀ rest, load? 0 (stab.take count ++ rest) =
          some { id := 0, name := "s", volume := some { values := [15, 10], loop := 1 } } := by
  have hload : load? 0 stab =
      some { id := 0, name := "s", volume := some { values := [15, 10], loop := 1 } } := by
    decide +kernel
  exact ⟨hload, load_exact hload⟩

end Chiptune.Fti
