import Chiptune.Proofs.SongRows

/-!
# Playing the code of a song

`playAll?` runs the codes of some slots under a pool: buffers as they stand, and of a buffer that is
referred to as many row commands as the count byte says. A channel plays the rows of its song if
and only if every count fits its byte.
-/

namespace Chiptune

namespace SlotCode

/-- A reference runs row commands of the buffer it names until the count byte is used up. -/
def play? (kernel : Kernel) (pool : PatternPool) : SlotCode → Option (List Event)
  | buffer _ bytes => (Command.readAll? kernel bytes).map (commandEvents kernel)
  | reference number rows =>
    (pool.buffers[number]?.bind (Command.readAll? kernel)).map fun commands =>
      commandEvents kernel (takeRows (rows % 256) commands)

/-- The number of row commands is not too large for the count byte. -/
def Fits : SlotCode → Prop
  | buffer _ _ => True
  | reference _ rows => rows < 256

end SlotCode

/-- What the driver does on the codes of some slots. -/
def playAll? (kernel : Kernel) (pool : PatternPool) : List SlotCode → Option (List Event)
  | [] => some []
  | code :: rest => (code.play? kernel pool).bind fun events =>
    (playAll? kernel pool rest).map (events ++ ·)

/-- The rows that the driver spends on some events. -/
def eventRows (events : List Event) : Nat := events.countP Event.isRow

lemma eventRows_append (events more : List Event) :
    eventRows (events ++ more) = eventRows events + eventRows more :=
  List.countP_append

/-- The codes make the driver do what is wanted if their counts fit, and leave rows of it out if
some count does not. -/
def Performs (kernel : Kernel) (pool : PatternPool) (codes : List SlotCode)
    (wanted : List Event) : Prop :=
  ∃ events, playAll? kernel pool codes = some events ∧
    ((∀ code ∈ codes, code.Fits) → events = wanted) ∧
    ((¬ ∀ code ∈ codes, code.Fits) → eventRows events < eventRows wanted)

section Performed

variable {kernel : Kernel} {pool : PatternPool} {codes : List SlotCode} {wanted : List Event}

lemma Performs.eq_iff (h : Performs kernel pool codes wanted) :
    playAll? kernel pool codes = some wanted ↔ ∀ code ∈ codes, code.Fits := by
  obtain ⟨events, hevents, hfits, hfewer⟩ := h
  rw [hevents, Option.some.injEq]
  constructor
  · intro heq
    by_contra hnot
    exact absurd (congrArg eventRows heq) (hfewer hnot).ne
  · exact hfits

lemma Performs.rows_le (h : Performs kernel pool codes wanted) (events : List Event)
    (he : playAll? kernel pool codes = some events) : eventRows events ≤ eventRows wanted := by
  obtain ⟨played, hplayed, hfits, hfewer⟩ := h
  obtain rfl : played = events := Option.some.inj (hplayed.symm.trans he)
  by_cases hall : ∀ code ∈ codes, code.Fits
  · rw [hfits hall]
  · exact (hfewer hall).le

end Performed

section Represented

variable {kernel : Kernel} {pool : PatternPool} {codes : List SlotCode}
  {blocks : List (List Command)}

lemma SlotCode.Represents.play {code : SlotCode} {block : List Command}
    (h : code.Represents pool block) (hr : Readable kernel block) :
    ∃ events, code.play? kernel pool = some events ∧
      (code.Fits → events = commandEvents kernel block) ∧
      (¬ code.Fits → eventRows events < eventRows (commandEvents kernel block)) := by
  have hread := Command.readAll?_commandBytes hr.writable
  cases code with
  | buffer number bytes =>
    obtain ⟨-, rfl⟩ := h
    exact ⟨_, by simp [play?, hread], fun _ => rfl, fun hf => absurd trivial hf⟩
  | reference number rows =>
    obtain ⟨hbuffer, rfl⟩ := h
    refine ⟨commandEvents kernel (takeRows (rowCommands block % 256) block),
      by simp [play?, hbuffer, hread], ?_, ?_⟩
    · intro hf
      rw [Nat.mod_eq_of_lt hf, takeRows_rowCommands hr.closed]
    · intro hf
      refine takeRows_fewer (lt_of_lt_of_le (Nat.mod_lt _ (by omega)) ?_)
      exact Nat.le_of_not_lt hf

lemma coded_events (kernel : Kernel) (blocks : List (List Command)) :
    (coded blocks).flatMap (commandEvents kernel) = blocks.flatMap (commandEvents kernel) := by
  induction blocks with
  | nil => rfl
  | cons block rest ih =>
    by_cases hempty : commandBytes block = []
    · have hblock : block = [] := by
        cases block with
        | nil => rfl
        | cons command later =>
          have := Command.bytes_ne_nil command
          simp_all [commandBytes]
      subst hblock
      rw [coded, List.filter_cons_of_neg (by simpa using hempty)]
      exact ih
    · rw [coded, List.filter_cons_of_pos (by simpa using hempty), List.flatMap_cons,
        List.flatMap_cons, ← ih]
      rfl

lemma playAll?_performs_coded (h : List.Forall₂ (SlotCode.Represents pool) codes blocks)
    (hr : ∀ block ∈ blocks, Readable kernel block) :
    Performs kernel pool codes (blocks.flatMap (commandEvents kernel)) := by
  induction h with
  | nil => exact ⟨[], rfl, fun _ => rfl, fun hf => absurd (by simp) hf⟩
  | @cons code block codes blocks hcode _ ih =>
    obtain ⟨events, hevents, hfits, hfewer⟩ := hcode.play (hr block (by simp))
    have hmore := ih fun other ho => hr other (by simp [ho])
    have hle := hmore.rows_le
    obtain ⟨more, hplay, hmoreFits, hmoreFewer⟩ := hmore
    refine ⟨events ++ more, by simp [playAll?, hevents, hplay], ?_, ?_⟩
    · intro hall
      rw [List.flatMap_cons, hfits (hall code (by simp)),
        hmoreFits fun other ho => hall other (by simp [ho])]
    · intro hnot
      have hmoreLe := hle more hplay
      rw [List.flatMap_cons, eventRows_append, eventRows_append]
      by_cases hf : code.Fits
      · have := hmoreFewer fun hall => hnot (by simpa [hf] using hall)
        rw [hfits hf]
        omega
      · have := hfewer hf
        omega

/-- The codes of some slots perform the commands they stand for. -/
theorem playAll?_performs (h : List.Forall₂ (SlotCode.Represents pool) codes (coded blocks))
    (hr : ∀ block ∈ blocks, Readable kernel block) :
    Performs kernel pool codes (blocks.flatMap (commandEvents kernel)) := by
  rw [← coded_events]
  exact playAll?_performs_coded h fun block hb => hr block (List.mem_of_mem_filter hb)

end Represented

end Chiptune
