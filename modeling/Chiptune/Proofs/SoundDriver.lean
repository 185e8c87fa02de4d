import Chiptune.Proofs.CommandStream

/-!
# The sound driver on linked bytes

`drive?` plays one channel from bytes in memory: it runs the commands one after the other, goes for
a reference to another address and comes back after as many row commands as the reference counts,
and ends at the loop command with the address that stands there.
-/

namespace Chiptune

/-- Bytes in memory, from an address on. -/
structure Image where
  offset : Nat
  bytes : Bytes
  deriving Repr

/-- The bytes from an address on, none for an address outside. -/
def Image.at (image : Image) (address : Nat) : Bytes :=
  if address < image.offset then [] else image.bytes.drop (address - image.offset)

def word (low high : UInt8) : Nat := low.toNat + 256 * high.toNat

/-- The address that stands in some place. -/
def Image.pointer? (image : Image) (place : Nat) : Option Nat :=
  match image.bytes.drop place with
  | low :: high :: _ => some (word low high)
  | _ => none

/-- What one pass over a stream does, and where the stream goes on after it. -/
structure Pass where
  events : List Event
  next : Nat
  deriving DecidableEq, Repr

def Pass.after (events : List Event) (pass : Pass) : Pass :=
  { pass with events := events ++ pass.events }

namespace Command

/-- The commands up to the one that fills the last of `count` rows. -/
def readRows? (kernel : Kernel) : (count : Nat) → Bytes → Option (List Command)
  | 0, _ => some []
  | count + 1, bytes => match _h : read? kernel bytes with
    | none => none
    | some (command, rest) =>
      (readRows? kernel (if command.isRow then count else count + 1) rest).map (command :: ·)
  termination_by _ bytes => bytes.length
  decreasing_by exact read?_length _h

/-- The address after the loop command. -/
def loop? : Bytes → Option Nat
  | b :: low :: high :: _ => if b = loopCode then some (word low high) else none
  | _ => none

/-- The count and the address of a reference, and the bytes after it. -/
def reference? : Bytes → Option (Nat × Nat × Bytes)
  | b :: count :: low :: high :: rest =>
    if b = referenceCode then some (count.toNat, word low high, rest) else none
  | _ => none

theorem reference?_length {bytes rest : Bytes} {count address : Nat}
    (h : reference? bytes = some (count, address, rest)) : rest.length < bytes.length := by
  unfold reference? at h
  split at h
  · split at h
    · obtain ⟨-, -, rfl⟩ := by simpa using h
      simp only [List.length_cons]
      omega
    · exact nomatch h
  · exact nomatch h

end Command

open Command

/-- One pass over the stream that starts with the given bytes. -/
def drive? (kernel : Kernel) (image : Image) (bytes : Bytes) : Option Pass :=
  match loop? bytes with
  | some address => some ⟨[], address⟩
  | none => match _h : reference? bytes with
    | some (count, address, rest) => do
      let commands ← readRows? kernel count (image.at address)
      return (← drive? kernel image rest).after (commandEvents kernel commands)
    | none => match _h : read? kernel bytes with
      | some (command, rest) => do
        return (← drive? kernel image rest).after (command.events kernel)
      | none => none
  termination_by bytes.length
  decreasing_by
    · exact reference?_length _h
    · exact read?_length _h

section Driven

variable {kernel : Kernel} {image : Image} {rest : Bytes}

lemma Pass.after_after (events more : List Event) (pass : Pass) :
    (pass.after more).after events = pass.after (events ++ more) := by
  simp [after]

theorem readRows?_commandBytes {block : List Command}
    (hw : ∀ command ∈ block, command.Writable kernel) (hc : Closed block) (rest : Bytes) :
    readRows? kernel (rowCommands block) (commandBytes block ++ rest) = some block := by
  induction block with
  | nil =>
    rw [show rowCommands [] = 0 from rfl, readRows?]
  | cons command later ih =>
    obtain ⟨count, hcount⟩ := Nat.exists_eq_succ_of_ne_zero hc.rowCommands_pos.ne'
    have hread := read?_bytes (hw command (by simp)) (commandBytes later ++ rest)
    have hbytes : commandBytes (command :: later) = command.bytes ++ commandBytes later := rfl
    have hleft : (if command.isRow then count else count + 1) = rowCommands later := by
      rw [rowCommands_cons] at hcount
      by_cases hrow : command.isRow = true
      · rw [if_pos hrow] at hcount ⊢
        omega
      · rw [if_neg hrow] at hcount ⊢
        omega
    have hclosed : Closed later := by
      cases later with
      | nil => exact fun last hl => nomatch hl
      | cons next later => exact hc.tail
    have hlater := ih (fun other ho => hw other (by simp [ho])) hclosed
    rw [hcount, hbytes, List.append_assoc, readRows?]
    split
    · next hnone => simp [hread] at hnone
    · next found tail hsome =>
      rw [hread] at hsome
      obtain ⟨rfl, rfl⟩ := Prod.mk.injEq .. ▸ Option.some.inj hsome
      rw [hleft, hlater]
      rfl

lemma read?_none {b : UInt8} (h : b = loopCode ∨ b = referenceCode) (rest : Bytes) :
    read? kernel (b :: rest) = none := by
  rcases h with rfl | rfl
  · rfl
  · rfl

lemma loop?_cons {b : UInt8} (h : b ≠ loopCode) (rest : Bytes) : loop? (b :: rest) = none := by
  unfold loop?
  split
  · next heq =>
    obtain ⟨rfl, -⟩ := List.cons.inj heq
    exact if_neg h
  · rfl

lemma reference?_cons {b : UInt8} (h : b ≠ referenceCode) (rest : Bytes) :
    reference? (b :: rest) = none := by
  unfold reference?
  split
  · next heq =>
    obtain ⟨rfl, -⟩ := List.cons.inj heq
    exact if_neg h
  · rfl

theorem drive?_command {command : Command} (hw : command.Writable kernel) (rest : Bytes) :
    drive? kernel image (command.bytes ++ rest) =
      (drive? kernel image rest).map (Pass.after (command.events kernel)) := by
  have hread := read?_bytes hw rest
  obtain ⟨b, tail, hbytes⟩ := List.exists_cons_of_ne_nil (bytes_ne_nil command)
  rw [hbytes, List.cons_append] at hread ⊢
  have hhead : b ≠ loopCode ∧ b ≠ referenceCode := by
    rw [← not_or]
    intro hb
    rw [read?_none hb] at hread
    exact nomatch hread
  rw [drive?, loop?_cons hhead.1]
  dsimp only
  split
  · next hsome =>
    rw [reference?_cons hhead.2] at hsome
    exact nomatch hsome
  · split
    · next found rest' hsome =>
      rw [hread] at hsome
      obtain ⟨rfl, rfl⟩ := Prod.mk.injEq .. ▸ Option.some.inj hsome
      cases drive? kernel image rest <;> rfl
    · next hnone =>
      rw [hread] at hnone
      exact nomatch hnone

theorem drive?_commandBytes {block : List Command}
    (hw : ∀ command ∈ block, command.Writable kernel) (rest : Bytes) :
    drive? kernel image (commandBytes block ++ rest) =
      (drive? kernel image rest).map (Pass.after (commandEvents kernel block)) := by
  induction block with
  | nil =>
    cases hrest : drive? kernel image rest with
    | none => exact hrest
    | some pass => exact hrest
  | cons command later ih =>
    have hbytes : commandBytes (command :: later) = command.bytes ++ commandBytes later := rfl
    rw [hbytes, List.append_assoc, drive?_command (hw command (by simp)),
      ih fun other ho => hw other (by simp [ho]), Option.map_map]
    congr 1
    funext pass
    exact Pass.after_after _ _ pass

/-- A reference runs the rows that it counts, and the driver goes on after it. -/
theorem drive?_reference {block : List Command} {count low high : UInt8}
    (hr : readRows? kernel count.toNat (image.at (word low high)) = some block) (rest : Bytes) :
    drive? kernel image (referenceCode :: count :: low :: high :: rest) =
      (drive? kernel image rest).map (Pass.after (commandEvents kernel block)) := by
  have href : reference? (referenceCode :: count :: low :: high :: rest) =
      some (count.toNat, word low high, rest) := rfl
  rw [drive?, loop?_cons (by decide)]
  dsimp only
  split
  · next count' address rest' hsome =>
    rw [href] at hsome
    obtain ⟨rfl, rfl, rfl⟩ := by simpa using hsome
    rw [hr]
    cases drive? kernel image rest <;> rfl
  · next hnone =>
    rw [href] at hnone
    exact nomatch hnone

theorem drive?_loop (low high : UInt8) (rest : Bytes) :
    drive? kernel image (loopCode :: low :: high :: rest) = some ⟨[], word low high⟩ := by
  rw [drive?]
  rfl

end Driven

end Chiptune
