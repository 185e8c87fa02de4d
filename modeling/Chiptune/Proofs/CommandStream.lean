import Mathlib
import Chiptune.Sound.Command
import Chiptune.Sound.Kernel

/-!
# Reading a channel stream

`Command.read?` takes one command off a stream of bytes the way the sound driver does, and
`Command.events` says what the driver then does row by row. Every command that a kernel can hold is
read back from its bytes, so a buffer determines its commands and the number of its rows.
-/

namespace Chiptune

/-- What the driver does in one channel, in the order in which it does it. -/
inductive Event
  | speed (frames : UInt8)
  | volume (level : UInt8)
  | instrument (index : Nat)
  | note (code : UInt8)
  | rest
  deriving DecidableEq, Repr

/-- Whether the event fills a row. -/
def Event.isRow : Event → Bool
  | .note _ | .rest => true
  | _ => false

namespace Command

/-- The legacy driver takes the lowest bit of a note for one more empty row. -/
def events (kernel : Kernel) : Command → List Event
  | speed frames => [.speed frames]
  | volume level => [.volume level]
  | instrument index => [.instrument index]
  | note code => match kernel with
    | .legacy =>
      .note (UInt8.ofNat (code.toNat / 2 * 2)) :: if code.toNat % 2 = 1 then [.rest] else []
    | .extended => [.note code]
  | emptyRows more => List.replicate (more + 1) .rest

/-- The first command of a stream and the bytes after it. -/
def read? (kernel : Kernel) : Bytes → Option (Command × Bytes)
  | [] => none
  | b :: rest =>
    let n := b.toNat
    if n = speedCode.toNat then rest.head?.map fun frames => (speed frames, rest.tail)
    else if n = loopCode.toNat ∨ n = referenceCode.toNat then none
    else if n < 0x70 ∨ n < 0x80 ∧ kernel = .legacy ∨ n = 0xF7 ∧ kernel = .extended then
      some (note b, rest)
    else if n < 0x80 then some (volume (UInt8.ofNat (n - 0x70)), rest)
    else if n % 2 = 0 then some (instrument ((n - 0x80) / 2), rest)
    else some (emptyRows ((n - 0x81) / 2), rest)

/-- The commands that the bytes of a stream for the kernel can hold. -/
def Writable (kernel : Kernel) : Command → Prop
  | speed _ => True
  | volume level => kernel = .extended ∧ level.toNat < 16
  | instrument index => index < 64
  | note code =>
    code.toNat < 0x70 ∨ code.toNat < 0x80 ∧ kernel = .legacy ∨
      code.toNat = 0xF7 ∧ kernel = .extended
  | emptyRows more => more ≤ kernel.longestRun

theorem read?_bytes {kernel : Kernel} {command : Command} (h : command.Writable kernel)
    (rest : Bytes) : read? kernel (command.bytes ++ rest) = some (command, rest) := by
  have hs : speedCode.toNat = 0xFB := rfl
  have hl : loopCode.toNat = 0xFD := rfl
  have hr : referenceCode.toNat = 0xFF := rfl
  cases command with
  | speed frames => simp [read?, bytes]
  | volume level =>
    obtain ⟨rfl, hlevel⟩ := h
    have hn : (0x70 + level).toNat = 0x70 + level.toNat := by
      rw [UInt8.toNat_add]
      simp only [UInt8.reduceToNat]
      omega
    simp only [bytes, List.singleton_append, read?, hn, hs, hl, hr]
    rw [if_neg (by omega), if_neg (by omega), if_neg (by simp; omega), if_pos (by omega)]
    simp
  | instrument index =>
    have hindex : index < 64 := h
    have hn : (UInt8.ofNat (0x80 + 2 * index)).toNat = 0x80 + 2 * index :=
      UInt8.toNat_ofNat_of_lt' (show 0x80 + 2 * index < 256 by omega)
    simp only [bytes, List.singleton_append, read?, hn, hs, hl, hr]
    rw [if_neg (by omega), if_neg (by omega), if_neg (by omega), if_neg (by omega),
      if_pos (by omega)]
    simp
  | note code =>
    have hcode : code.toNat < 0x70 ∨ code.toNat < 0x80 ∧ kernel = .legacy ∨
      code.toNat = 0xF7 ∧ kernel = .extended := h
    simp only [bytes, List.singleton_append, read?, hs, hl, hr]
    rw [if_neg (by omega), if_neg (by omega), if_pos hcode]
  | emptyRows more =>
    have hmore : more ≤ kernel.longestRun := h
    have hlong : kernel.longestRun ≤ 60 ∧ (kernel = .extended → kernel.longestRun = 58) := by
      cases kernel <;> simp [Kernel.longestRun]
    have hn : (UInt8.ofNat (0x81 + 2 * more)).toNat = 0x81 + 2 * more :=
      UInt8.toNat_ofNat_of_lt' (show 0x81 + 2 * more < 256 by omega)
    have hrelease : ¬ (0x81 + 2 * more = 0xF7 ∧ kernel = .extended) := by
      rintro ⟨he, hk⟩
      have := hlong.2 hk
      omega
    simp only [bytes, List.singleton_append, read?, hn, hs, hl, hr]
    rw [if_neg (by omega), if_neg (by omega),
      if_neg (not_or.mpr ⟨by omega, not_or.mpr ⟨by omega, hrelease⟩⟩), if_neg (by omega),
      if_neg (by omega)]
    simp

theorem read?_length {kernel : Kernel} {bytes rest : Bytes} {command : Command}
    (h : read? kernel bytes = some (command, rest)) : rest.length < bytes.length := by
  cases bytes with
  | nil => simp [read?] at h
  | cons b tail =>
    simp only [read?] at h
    split at h
    · cases tail with
      | nil => simp at h
      | cons frames tail =>
        simp only [List.head?_cons, Option.map_some, List.tail_cons, Option.some.injEq,
          Prod.mk.injEq] at h
        simp [← h.2]
    · split at h
      · exact absurd h (by simp)
      · have hrest : rest = tail := by
          repeat' split at h
          all_goals simp_all
        simp [hrest]

/-- All commands of a buffer. -/
def readAll? (kernel : Kernel) (bytes : Bytes) : Option (List Command) :=
  if bytes = [] then some []
  else match _h : read? kernel bytes with
    | none => none
    | some (command, rest) => (readAll? kernel rest).map (command :: ·)
  termination_by bytes.length
  decreasing_by exact read?_length _h

theorem bytes_ne_nil (command : Command) : command.bytes ≠ [] := by
  cases command <;> simp [bytes]

theorem readAll?_commandBytes {kernel : Kernel} {commands : List Command}
    (h : ∀ command ∈ commands, command.Writable kernel) :
    readAll? kernel (commandBytes commands) = some commands := by
  induction commands with
  | nil => rw [readAll?]; simp [commandBytes]
  | cons command rest ih =>
    have hc := read?_bytes (h command (by simp)) (commandBytes rest)
    have hr := ih fun other ho => h other (by simp [ho])
    have hb : commandBytes (command :: rest) = command.bytes ++ commandBytes rest := rfl
    rw [readAll?, if_neg (by simp [hb, bytes_ne_nil]), hb]
    split
    · next hn => simp [hc] at hn
    · next c r hn =>
      rw [hc] at hn
      obtain ⟨rfl, rfl⟩ := Prod.mk.injEq .. ▸ Option.some.inj hn
      rw [hr, Option.map_some]

end Command

/-- What the driver does on a list of commands. -/
def commandEvents (kernel : Kernel) (commands : List Command) : List Event :=
  commands.flatMap (Command.events kernel)

/-- The list is empty or ends with a command that fills rows. -/
def Closed (commands : List Command) : Prop := ∀ command ∈ commands.getLast?, command.isRow = true

/-- The commands that the driver runs until `count` of them have filled rows. -/
def takeRows : (count : Nat) → List Command → List Command
  | 0, _ => []
  | _ + 1, [] => []
  | count + 1, command :: rest =>
    command :: takeRows (if command.isRow then count else count + 1) rest

lemma rowCommands_cons (command : Command) (rest : List Command) :
    rowCommands (command :: rest) = rowCommands rest + if command.isRow then 1 else 0 := by
  simp [rowCommands, List.countP_cons]

lemma Closed.tail {command next : Command} {rest : List Command}
    (h : Closed (command :: next :: rest)) : Closed (next :: rest) := by
  intro last hl
  exact h last (by simpa using hl)

lemma Closed.rowCommands_pos {command : Command} {rest : List Command}
    (h : Closed (command :: rest)) : 0 < rowCommands (command :: rest) := by
  induction rest generalizing command with
  | nil =>
    have hc : command.isRow = true := h command (by simp)
    simp [rowCommands, hc]
  | cons next rest ih =>
    have := ih h.tail
    rw [rowCommands_cons]
    omega

lemma Closed.append {commands more : List Command} (h : Closed more) (hne : more ≠ []) :
    Closed (commands ++ more) := by
  intro last hl
  rw [List.getLast?_append_of_ne_nil _ hne] at hl
  exact h last hl

/-- A reference that counts all row commands of a buffer runs the whole buffer. -/
theorem takeRows_rowCommands {commands : List Command} (h : Closed commands) :
    takeRows (rowCommands commands) commands = commands := by
  induction commands with
  | nil => simp [rowCommands, takeRows]
  | cons command rest ih =>
    cases rest with
    | nil =>
      have hc : command.isRow = true := h command (by simp)
      simp [rowCommands, hc, takeRows]
    | cons next rest =>
      obtain ⟨n, hn⟩ := Nat.exists_eq_succ_of_ne_zero h.rowCommands_pos.ne'
      have hcount := rowCommands_cons command (next :: rest)
      have hleft : (if command.isRow then n else n + 1) = rowCommands (next :: rest) := by
        by_cases hc : command.isRow = true
        · rw [if_pos hc] at hcount ⊢
          omega
        · rw [if_neg hc] at hcount ⊢
          omega
      rw [hn, takeRows, hleft, ih h.tail]

lemma commandEvents_cons (kernel : Kernel) (command : Command) (rest : List Command) :
    commandEvents kernel (command :: rest) = command.events kernel ++ commandEvents kernel rest :=
  rfl

lemma commandEvents_append (kernel : Kernel) (commands more : List Command) :
    commandEvents kernel (commands ++ more) =
      commandEvents kernel commands ++ commandEvents kernel more :=
  List.flatMap_append

lemma Command.rows_pos (kernel : Kernel) {command : Command} (h : command.isRow = true) :
    0 < (command.events kernel).countP Event.isRow := by
  cases command with
  | speed _ | volume _ | instrument _ => simp [isRow] at h
  | note code =>
    cases kernel with
    | legacy => exact List.countP_pos_iff.mpr ⟨_, List.mem_cons_self, rfl⟩
    | extended => exact List.countP_pos_iff.mpr ⟨_, List.mem_cons_self, rfl⟩
  | emptyRows more => exact List.countP_pos_iff.mpr ⟨_, List.mem_cons_self, rfl⟩

lemma rowCommands_le_rows (kernel : Kernel) (commands : List Command) :
    rowCommands commands ≤ (commandEvents kernel commands).countP Event.isRow := by
  induction commands with
  | nil => simp [rowCommands]
  | cons command rest ih =>
    rw [rowCommands_cons, commandEvents_cons, List.countP_append]
    by_cases hc : command.isRow = true
    · have := Command.rows_pos kernel hc
      rw [if_pos hc]
      omega
    · rw [if_neg hc]
      omega

/-- A reference that counts too few row commands leaves rows out. -/
theorem takeRows_fewer {kernel : Kernel} {commands : List Command} {count : Nat}
    (h : count < rowCommands commands) :
    (commandEvents kernel (takeRows count commands)).countP Event.isRow <
      (commandEvents kernel commands).countP Event.isRow := by
  induction commands generalizing count with
  | nil => simp [rowCommands] at h
  | cons command rest ih =>
    cases count with
    | zero =>
      have := rowCommands_le_rows kernel (command :: rest)
      simp only [takeRows, commandEvents, List.flatMap_nil, List.countP_nil] at this ⊢
      omega
    | succ count =>
      rw [rowCommands_cons] at h
      have hrest : (if command.isRow then count else count + 1) < rowCommands rest := by
        by_cases hc : command.isRow = true
        · rw [if_pos hc] at h ⊢
          omega
        · rw [if_neg hc] at h ⊢
          omega
      have := ih hrest
      rw [takeRows, commandEvents_cons, commandEvents_cons, List.countP_append, List.countP_append]
      omega

end Chiptune
