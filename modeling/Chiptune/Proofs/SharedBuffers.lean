import Chiptune.Proofs.PatternRows

/-!
# Slots that share buffers

`Stored` relates the commands of some slots to the codes that stand for them, while the pool grows
from one state to another. It composes over slots, channels and songs, and all that is said about
references is read off it.
-/

namespace Chiptune

namespace PatternPool

variable {pool larger largest : PatternPool} {buffer : Bytes} {number : Nat}

/-- The pool with some more buffers at its end. -/
def Extends (larger pool : PatternPool) : Prop :=
  ∃ added : List Bytes, larger.buffers.toList = pool.buffers.toList ++ added

/-- No two places hold one buffer of more than four bytes. -/
def Distinct (pool : PatternPool) : Prop :=
  ∀ (first second : Nat) (buffer : Bytes), pool.buffers[first]? = some buffer →
    pool.buffers[second]? = some buffer → Song.shortestReferred ≤ buffer.length → first = second

lemma Extends.refl (pool : PatternPool) : pool.Extends pool := ⟨[], by simp⟩

lemma Extends.trans (h : larger.Extends pool) (h' : largest.Extends larger) :
    largest.Extends pool := by
  obtain ⟨added, ha⟩ := h
  obtain ⟨more, hm⟩ := h'
  exact ⟨added ++ more, by rw [hm, ha, List.append_assoc]⟩

lemma extends_add (pool : PatternPool) (buffer : Bytes) : (pool.add buffer).Extends pool :=
  ⟨[buffer], by simp [add]⟩

lemma Extends.size_le (h : larger.Extends pool) : pool.size ≤ larger.size := by
  obtain ⟨added, ha⟩ := h
  have := congrArg List.length ha
  simp only [Array.length_toList, List.length_append] at this
  simp only [size]
  omega

lemma Extends.getElem? (h : larger.Extends pool) (hb : pool.buffers[number]? = some buffer) :
    larger.buffers[number]? = some buffer := by
  obtain ⟨added, ha⟩ := h
  obtain ⟨hlt, -⟩ := Array.getElem?_eq_some_iff.mp hb
  rw [← Array.getElem?_toList] at hb ⊢
  rw [ha, List.getElem?_append_left (by simpa using hlt), hb]

lemma add_getElem? (pool : PatternPool) (buffer : Bytes) :
    (pool.add buffer).buffers[pool.size]? = some buffer := by
  simp [add, size]

lemma find?_getElem? (h : pool.find? buffer = some number) :
    pool.buffers[number]? = some buffer := by
  obtain ⟨hlt, hb, -⟩ := Array.findIdx?_eq_some_iff_getElem.mp h
  rw [Array.getElem?_eq_getElem hlt, eq_of_beq hb]

lemma find?_ne (h : pool.find? buffer = none) : pool.buffers[number]? ≠ some buffer := by
  intro hb
  obtain ⟨hlt, hv⟩ := Array.getElem?_eq_some_iff.mp hb
  have := Array.findIdx?_eq_none_iff.mp h pool.buffers[number] (Array.getElem_mem hlt)
  simp [hv] at this

lemma Distinct.add (h : pool.Distinct)
    (hnew : Song.shortestReferred ≤ buffer.length → pool.find? buffer = none) :
    (pool.add buffer).Distinct := by
  intro first second other hf hs hlen
  simp only [PatternPool.add, Array.getElem?_push] at hf hs
  by_cases hfirst : first = pool.buffers.size
  · by_cases hsecond : second = pool.buffers.size
    · omega
    · rw [if_pos hfirst] at hf
      rw [if_neg hsecond] at hs
      obtain rfl := Option.some.inj hf
      exact absurd hs (find?_ne (hnew hlen))
  · rw [if_neg hfirst] at hf
    by_cases hsecond : second = pool.buffers.size
    · rw [if_pos hsecond] at hs
      obtain rfl := Option.some.inj hs
      exact absurd hf (find?_ne (hnew hlen))
    · rw [if_neg hsecond] at hs
      exact h first second other hf hs hlen

end PatternPool

/-- How the commands of some slots are stored, one slot after the other: nothing stands for a slot
without code, and a reference only for a buffer that the pool has already. -/
inductive Stored :
    PatternPool → List (List Command) → List SlotCode → PatternPool → Prop
  | nil (pool) : Stored pool [] [] pool
  | silent {pool block blocks codes final} (hempty : commandBytes block = [])
      (rest : Stored pool blocks codes final) : Stored pool (block :: blocks) codes final
  | buffer {pool block blocks codes final} (hcode : commandBytes block ≠ [])
      (hnew : Song.shortestReferred ≤ (commandBytes block).length →
        pool.find? (commandBytes block) = none)
      (rest : Stored (pool.add (commandBytes block)) blocks codes final) :
      Stored pool (block :: blocks) (.buffer pool.size (commandBytes block) :: codes) final
  | reference {pool block blocks codes final number}
      (hlong : Song.shortestReferred ≤ (commandBytes block).length)
      (hknown : pool.find? (commandBytes block) = some number)
      (rest : Stored pool blocks codes final) :
      Stored pool (block :: blocks) (.reference number (rowCommands block) :: codes) final

/-- What a slot code is to mean under a pool. -/
def SlotCode.Represents (pool : PatternPool) (code : SlotCode) (block : List Command) : Prop :=
  match code with
  | buffer number bytes =>
    pool.buffers[number]? = some bytes ∧ bytes = commandBytes block
  | reference number rows =>
    pool.buffers[number]? = some (commandBytes block) ∧ rows = rowCommands block

namespace Stored

variable {pool mid final : PatternPool} {blocks more : List (List Command)}
  {codes others : List SlotCode}

lemma append (h : Stored pool blocks codes mid) (h' : Stored mid more others final) :
    Stored pool (blocks ++ more) (codes ++ others) final := by
  induction h with
  | nil pool => exact h'
  | silent hempty _ ih => exact .silent hempty (ih h')
  | buffer hcode hnew _ ih => exact .buffer hcode hnew (ih h')
  | reference hlong hknown _ ih => exact .reference hlong hknown (ih h')

lemma extends_pool (h : Stored pool blocks codes final) : final.Extends pool := by
  induction h with
  | nil pool => exact .refl pool
  | silent _ _ ih => exact ih
  | buffer _ _ _ ih => exact (PatternPool.extends_add _ _).trans ih
  | reference _ _ _ ih => exact ih

lemma distinct (h : Stored pool blocks codes final) (hpool : pool.Distinct) : final.Distinct := by
  induction h with
  | nil pool => exact hpool
  | silent _ _ ih => exact ih hpool
  | buffer _ hnew _ ih => exact ih (hpool.add hnew)
  | reference _ _ _ ih => exact ih hpool

end Stored

lemma SlotCode.Represents.mono {pool larger : PatternPool} {code : SlotCode}
    {block : List Command} (h : code.Represents pool block) (hl : larger.Extends pool) :
    code.Represents larger block := by
  cases code with
  | buffer number bytes => exact ⟨hl.getElem? h.1, h.2⟩
  | reference number rows => exact ⟨hl.getElem? h.1, h.2⟩

/-- The slots for which there is any code. -/
def coded (blocks : List (List Command)) : List (List Command) :=
  blocks.filter fun block => commandBytes block ≠ []

theorem Stored.represents {pool final : PatternPool} {blocks : List (List Command)}
    {codes : List SlotCode} (h : Stored pool blocks codes final) :
    List.Forall₂ (SlotCode.Represents final) codes (coded blocks) := by
  induction h with
  | nil pool => exact .nil
  | silent hempty _ ih => simpa [coded, hempty] using ih
  | @buffer pool block _ _ _ hcode hnew rest ih =>
    rw [coded, List.filter_cons_of_pos (by simpa using hcode)]
    exact .cons ⟨rest.extends_pool.getElem? (pool.add_getElem? _), rfl⟩ ih
  | @reference pool block _ _ _ number hlong hknown rest ih =>
    have hcode : commandBytes block ≠ [] := by
      intro he
      simp [he, Song.shortestReferred, SlotCode.referenceSize] at hlong
    rw [coded, List.filter_cons_of_pos (by simpa using hcode)]
    exact .cons ⟨rest.extends_pool.getElem? (PatternPool.find?_getElem? hknown), rfl⟩ ih

end Chiptune
