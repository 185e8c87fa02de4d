import Mathlib
import Chiptune.Sound.EnvelopeStream

/-!
# Playing envelope streams

The driver reads a stream frame by frame and without end. Code without jumps is played as the
samples that it spells, and code in front of a jump back to it is repeated for ever.
-/

namespace Chiptune

/-- Where the driver stands in a stream, and what it still holds. -/
structure EnvelopeHead where
  position : Nat
  value : UInt8
  /-- Frames that are left of the last count. -/
  held : Nat
  deriving DecidableEq, Repr

namespace Envelope

def IsValue (b : UInt8) : Prop := 128 ≤ b.toNat

def IsCount (b : UInt8) : Prop := 0 < b.toNat ∧ b.toNat ≤ longestHold

instance (b : UInt8) : Decidable (IsValue b) := inferInstanceAs (Decidable (_ ≤ _))

instance (b : UInt8) : Decidable (IsCount b) := inferInstanceAs (Decidable (_ ∧ _))

/-- The position that the driver reads from: a zero sends it to the position after the zero. -/
def settle? (stream : Bytes) (position : Nat) : Option Nat :=
  if stream[position]? = some 0 then stream[position + 1]?.map UInt8.toNat else some position

/-- What is played in the next frame, and where the driver stands after it. -/
def frame? (stream : Bytes) (head : EnvelopeHead) : Option (UInt8 × EnvelopeHead) :=
  match head.held with
  | left + 1 => some (head.value, { head with held := left })
  | 0 => (settle? stream head.position).bind fun position => stream[position]?.bind fun b =>
    if IsValue b then some (b, ⟨position + 1, b, 0⟩)
    else if IsCount b then some (head.value, ⟨position + 1, head.value, b.toNat - 1⟩)
    else none

/-- What is played in a later frame. -/
def heard? (stream : Bytes) : EnvelopeHead → (frame : Nat) → Option UInt8
  | head, 0 => (frame? stream head).map Prod.fst
  | head, frame + 1 => (frame? stream head).bind fun next => heard? stream next.2 frame

/-- From a position on the stream plays these levels for ever, whatever was held before. -/
def Plays (stream : Bytes) (position : Nat) (level : Nat → Int) : Prop :=
  ∀ value frame, ∃ b, heard? stream ⟨position, value, 0⟩ frame = some b ∧
    (b.toNat : Int) = level frame

/-- The driver plays some frames and then stands elsewhere. -/
inductive Passes (stream : Bytes) : EnvelopeHead → Bytes → EnvelopeHead → Prop
  | nil (head) : Passes stream head [] head
  | cons {head next last b rest} (first : frame? stream head = some (b, next))
      (later : Passes stream next rest last) : Passes stream head (b :: rest) last

section Passes

variable {stream : Bytes} {head middle last : EnvelopeHead} {samples more : Bytes}

lemma Passes.append (h : Passes stream head samples middle) (h' : Passes stream middle more last) :
    Passes stream head (samples ++ more) last := by
  induction h with
  | nil => exact h'
  | cons first _ ih => exact .cons first (ih h')

lemma Passes.heard (h : Passes stream head samples last) {frame : Nat}
    (hframe : frame < samples.length) : heard? stream head frame = samples[frame]? := by
  induction h generalizing frame with
  | nil => exact absurd hframe (Nat.not_lt_zero _)
  | cons first _ ih =>
    cases frame with
    | zero => simp [heard?, first]
    | succ frame => simpa [heard?, first] using ih (Nat.lt_of_succ_lt_succ hframe)

lemma Passes.heard_after (h : Passes stream head samples last) (frame : Nat) :
    heard? stream head (samples.length + frame) = heard? stream last frame := by
  induction h with
  | nil => rw [List.length_nil, Nat.zero_add]
  | cons first _ ih =>
    rw [List.length_cons, Nat.succ_add, heard?, first, Option.bind_some, ih]

lemma passes_held (stream : Bytes) (position : Nat) (value : UInt8) (held : Nat) :
    Passes stream ⟨position, value, held⟩ (List.replicate held value) ⟨position, value, 0⟩ := by
  induction held with
  | zero => exact .nil _
  | succ held ih => exact .cons rfl ih

end Passes

/-- Values and counts only. -/
def Plain (code : Bytes) : Prop := ∀ b ∈ code, IsValue b ∨ IsCount b

/-- The samples that code without jumps spells, after a value. -/
def spelled (value : UInt8) : Bytes → Bytes
  | [] => []
  | b :: rest => if IsValue b then b :: spelled b rest
    else List.replicate b.toNat value ++ spelled value rest

/-- The value that is held at the end of some code. -/
def heldAfter (value : UInt8) (code : Bytes) : UInt8 :=
  code.foldl (fun value b => if IsValue b then b else value) value

section Code

variable {stream code more rest : Bytes} {position : Nat} {value : UInt8}

lemma Plain.append (h : Plain code) (h' : Plain more) : Plain (code ++ more) := by
  intro b hb
  rcases List.mem_append.mp hb with hb | hb
  · exact h b hb
  · exact h' b hb

lemma spelled_append (value : UInt8) (code more : Bytes) :
    spelled value (code ++ more) = spelled value code ++ spelled (heldAfter value code) more := by
  induction code generalizing value with
  | nil => rfl
  | cons b rest ih =>
    rw [List.cons_append, spelled, spelled, heldAfter, List.foldl_cons]
    by_cases hb : IsValue b
    · rw [if_pos hb, if_pos hb, if_pos hb, ih, List.cons_append]
      rfl
    · rw [if_neg hb, if_neg hb, if_neg hb, ih, List.append_assoc]
      rfl

lemma ne_zero_of_plain {b : UInt8} (h : IsValue b ∨ IsCount b) : b ≠ 0 := by
  rintro rfl
  rcases h with h | h
  · exact absurd h (by decide)
  · exact absurd h (by decide)

lemma getElem?_of_drop {b : UInt8} (h : stream.drop position = b :: rest) :
    stream[position]? = some b ∧ stream.drop (position + 1) = rest := by
  constructor
  · rw [← List.head?_drop, h, List.head?_cons]
  · rw [← List.tail_drop, h, List.tail_cons]

/-- The driver plays what the code spells, and stands behind it then. -/
theorem passes_code (h : Plain code) (hstream : stream.drop position = code ++ rest) :
    Passes stream ⟨position, value, 0⟩ (spelled value code)
      ⟨position + code.length, heldAfter value code, 0⟩ := by
  induction code generalizing position value with
  | nil => exact .nil _
  | cons b code ih =>
    have hb := h b (by simp)
    obtain ⟨hget, hnext⟩ := getElem?_of_drop hstream
    have hsettle : settle? stream position = some position := by
      rw [settle?, hget, if_neg (by simpa using ne_zero_of_plain hb)]
    have hlength : position + (b :: code).length = position + 1 + code.length := by
      rw [List.length_cons]
      omega
    have htail := fun value =>
      @ih (position + 1) value (fun other ho => h other (by simp [ho])) hnext
    rw [spelled, heldAfter, List.foldl_cons, hlength]
    by_cases hvalue : IsValue b
    · rw [if_pos hvalue, if_pos hvalue]
      refine .cons ?_ (htail b)
      simp [frame?, hsettle, hget, hvalue]
    · have hcount := hb.resolve_left hvalue
      obtain ⟨left, hleft⟩ := Nat.exists_eq_succ_of_ne_zero hcount.1.ne'
      rw [if_neg hvalue, if_neg hvalue]
      refine Passes.append ?_ (htail value)
      rw [hleft, List.replicate_succ]
      refine .cons ?_ (passes_held stream (position + 1) value left)
      simp [frame?, hsettle, hget, hvalue, hcount, hleft]

/-- Code without jumps that spells the same samples after every value. -/
structure Spells (code samples : Bytes) : Prop where
  plain : Plain code
  spells : ∀ value, spelled value code = samples

lemma Spells.nil : Spells [] [] := ⟨nofun, fun _ => rfl⟩

lemma Spells.append {samples others : Bytes} (h : Spells code samples) (h' : Spells more others) :
    Spells (code ++ more) (samples ++ others) :=
  ⟨h.plain.append h'.plain, fun value => by rw [spelled_append, h.spells, h'.spells]⟩

/-- Such code starts with a value: a count would hold whatever was played before. -/
lemma Spells.head {samples : Bytes} (h : Spells code samples) (hne : samples ≠ []) :
    ∃ b rest, code = b :: rest ∧ IsValue b := by
  cases code with
  | nil => exact absurd (h.spells 0).symm hne
  | cons b rest =>
    by_contra hvalue
    have hcount : ¬ IsValue b := fun hb => hvalue ⟨b, rest, rfl, hb⟩
    obtain ⟨left, hleft⟩ :=
      Nat.exists_eq_succ_of_ne_zero ((h.plain b (by simp)).resolve_left hcount).1.ne'
    have hheld := fun value => h.spells value
    simp only [spelled, if_neg hcount, hleft, List.replicate_succ, List.cons_append] at hheld
    exact absurd (List.cons.inj ((hheld 0).trans (hheld 1).symm)).1 (by decide)

end Code

/-- What is played in a frame of a lead that is followed by a body again and again. -/
def cycled (lead body : Bytes) (frame : Nat) : Option UInt8 :=
  if frame < lead.length then lead[frame]? else body[(frame - lead.length) % body.length]?

section Loops

variable {stream body : Bytes} {samples : Bytes} {target finish : Nat}

/-- A jump to some code plays on like the code itself. -/
lemma frame?_jump {b : UInt8} (hjump : stream[finish]? = some 0)
    (htarget : stream[finish + 1]? = some (UInt8.ofNat target)) (hsmall : target < 256)
    (hb : stream[target]? = some b) (hplain : b ≠ 0) (value : UInt8) :
    frame? stream ⟨finish, value, 0⟩ = frame? stream ⟨target, value, 0⟩ := by
  have hfinish : settle? stream finish = some target := by
    rw [settle?, if_pos hjump, htarget, Option.map_some, UInt8.toNat_ofNat_of_lt' hsmall]
  have hhere : settle? stream target = some target := by
    rw [settle?, hb, if_neg (by simpa using hplain)]
  simp only [frame?, hfinish, hhere]

lemma heard?_congr {head other : EnvelopeHead} (h : frame? stream head = frame? stream other)
    (frame : Nat) : heard? stream head frame = heard? stream other frame := by
  cases frame with
  | zero => rw [heard?, heard?, h]
  | succ frame => rw [heard?, heard?, h]

/-- Code that ends with a jump back to its start is played again and again. -/
lemma heard?_loop (hne : samples ≠ [])
    (hpass : ∀ value, ∃ last, Passes stream ⟨target, value, 0⟩ samples ⟨finish, last, 0⟩)
    (hjump : ∀ value, frame? stream ⟨finish, value, 0⟩ = frame? stream ⟨target, value, 0⟩)
    (value : UInt8) (frame : Nat) :
    heard? stream ⟨target, value, 0⟩ frame = samples[frame % samples.length]? := by
  have hpos := List.length_pos_iff.mpr hne
  induction frame using Nat.strong_induction_on generalizing value with
  | _ frame ih =>
    obtain ⟨last, hpassed⟩ := hpass value
    by_cases hround : frame < samples.length
    · rw [hpassed.heard hround, Nat.mod_eq_of_lt hround]
    · obtain ⟨later, rfl⟩ := Nat.exists_eq_add_of_le (Nat.le_of_not_lt hround)
      rw [hpassed.heard_after, heard?_congr (hjump last), ih later (by omega),
        Nat.add_mod_left]

/-- Code in a stream whose first part is played once, and whose second part ends with a jump back to
its own start. -/
structure LoopAt (stream : Bytes) (start : Nat) (leadCode bodyCode lead body rest : Bytes) :
    Prop where
  placed : stream.drop start =
    leadCode ++ (bodyCode ++ 0 :: UInt8.ofNat (start + leadCode.length) :: rest)
  leadSpells : Spells leadCode lead
  bodySpells : Spells bodyCode body
  nonempty : body ≠ []
  small : start + leadCode.length < 256

variable {start : Nat} {leadCode bodyCode lead rest : Bytes}

lemma LoopAt.targets_value (h : LoopAt stream start leadCode bodyCode lead body rest) :
    ∃ b, stream[start + leadCode.length]? = some b ∧ IsValue b := by
  have hcode : stream.drop (start + leadCode.length) =
      bodyCode ++ 0 :: UInt8.ofNat (start + leadCode.length) :: rest := by
    rw [← List.drop_drop, h.placed, List.drop_left]
  obtain ⟨b, more, rfl, hvalue⟩ := h.bodySpells.head h.nonempty
  exact ⟨b, (getElem?_of_drop hcode).1, hvalue⟩

theorem LoopAt.heard (h : LoopAt stream start leadCode bodyCode lead body rest) (value : UInt8)
    (frame : Nat) : heard? stream ⟨start, value, 0⟩ frame = cycled lead body frame := by
  have hcode : stream.drop (start + leadCode.length) =
      bodyCode ++ 0 :: UInt8.ofNat (start + leadCode.length) :: rest := by
    rw [← List.drop_drop, h.placed, List.drop_left]
  have hfinish : stream.drop (start + leadCode.length + bodyCode.length) =
      0 :: UInt8.ofNat (start + leadCode.length) :: rest := by
    rw [← List.drop_drop, hcode, List.drop_left]
  obtain ⟨hjump, hoperand⟩ := getElem?_of_drop hfinish
  obtain ⟨b, htarget, hvalue⟩ := h.targets_value
  have hback := frame?_jump hjump (getElem?_of_drop hoperand).1 h.small htarget
    (ne_zero_of_plain (.inl hvalue))
  have hpass := fun value => h.bodySpells.spells value ▸ passes_code h.bodySpells.plain hcode
  have hfirst := h.leadSpells.spells value ▸ passes_code h.leadSpells.plain h.placed
  unfold cycled
  by_cases hframe : frame < lead.length
  · rw [if_pos hframe, hfirst.heard hframe]
  · obtain ⟨later, rfl⟩ := Nat.exists_eq_add_of_le (Nat.le_of_not_lt hframe)
    rw [if_neg hframe, Nat.add_sub_cancel_left, hfirst.heard_after,
      heard?_loop h.nonempty (fun value => ⟨_, hpass value⟩) hback]

end Loops

end Envelope

end Chiptune
