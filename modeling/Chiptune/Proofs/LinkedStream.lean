import Chiptune.Proofs.ExportSharing
import Chiptune.Proofs.LineCode
import Chiptune.Proofs.SoundDriver

/-!
# The streams of a linked document

The bytes at a label are the code of the lines after it. So the driver finds the stream of a channel
at its label, the buffers where references send it, and the loop point where the loop command does.
-/

namespace Chiptune

open Assembly

/-- A document with all labels known that lies in the first 64 kilobytes of memory. -/
structure Linked (target : Target) (lines : List Line) (image : Image) : Prop where
  sound : target.dialect.Sound
  coherent : Coherent lines
  code : code target (addresses target.dialect image.offset lines) lines = .ok image.bytes
  fits : image.offset + image.bytes.length ≤ 0x10000

/-- The address of a label in a document that lies from an address on. -/
def addressOf (offset : Nat) (lines : List Line) (l : Label) : Nat :=
  offset + total Line.size (lines.takeWhile (· ≠ .label l))

section Labels

variable {target : Target} {lines before after : List Line} {image : Image} {l : Label}

lemma addressOf_split (h : Coherent (before ++ .label l :: after)) (offset : Nat) :
    addressOf offset (before ++ .label l :: after) l = offset + total Line.size before := by
  have hbefore : ∀ line ∈ before, decide (line ≠ .label l) = true := by
    intro line hm
    rw [decide_eq_true_eq]
    rintro rfl
    have honce := h.once
    rw [labelsOf_append, List.nodup_append] at honce
    exact honce.2.2 l (mem_labelsOf.mpr hm) l (mem_labelsOf.mpr (by simp)) rfl
  rw [addressOf, List.takeWhile_append_of_pos hbefore]
  simp

lemma Linked.lookup (h : Linked target lines image) (hl : .label l ∈ lines) :
    (addresses target.dialect image.offset lines).lookup (l.text target.dialect).toList =
      some ((addressOf image.offset lines l : Nat) : Int) := by
  obtain ⟨before, after, rfl⟩ := List.append_of_mem hl
  rw [lookup_addresses h.sound h.coherent, addressOf_split h.coherent]
  push_cast
  rfl

lemma Linked.names (h : Linked target lines image) :
    ∀ entry ∈ addresses target.dialect image.offset lines, Name entry.1 :=
  fun _ he => name_of_mem_addresses h.sound h.coherent.plain he

lemma Linked.drop_lines (h : Linked target lines image) (hlines : lines = before ++ after) :
    Assembly.code target (addresses target.dialect image.offset lines) after =
      .ok (image.bytes.drop (total Line.size before)) := by
  subst hlines
  obtain ⟨x, y, hx, hy, hbytes⟩ := (code_append _ _).mp h.code
  rw [hbytes, ← code_length hx, List.drop_left, hy]

/-- The bytes at a label are the code of the lines after it. -/
theorem Linked.at_label (h : Linked target lines image)
    (hlines : lines = before ++ .label l :: after) :
    Assembly.code target (addresses target.dialect image.offset lines) after =
      .ok (image.at (addressOf image.offset lines l)) := by
  have hsplit : lines = (before ++ [Line.label l]) ++ after := by simp [hlines]
  have hat : image.at (addressOf image.offset lines l) =
      image.bytes.drop (total Line.size (before ++ [Line.label l])) := by
    have haddress := addressOf_split (hlines ▸ h.coherent) image.offset
    rw [← hlines] at haddress
    rw [haddress, Image.at, if_neg (by omega), Nat.add_sub_cancel_left, total_append]
    rfl
  rw [hat]
  exact h.drop_lines hsplit

lemma Linked.addressOf_lt (h : Linked target lines image)
    (hlines : lines = before ++ .label l :: after) (hpos : 0 < total Line.size after) :
    addressOf image.offset lines l < 0x10000 := by
  subst hlines
  have hlength := code_length h.code
  have hfits := h.fits
  rw [total_append, total] at hlength
  rw [addressOf_split h.coherent]
  omega

end Labels

/-- The bytes of the code of a slot. -/
def SlotCode.bytes (address : Label → Nat) : SlotCode → Bytes
  | buffer _ bytes => bytes
  | reference number rows =>
    [Command.referenceCode, Bytes.low rows] ++ Bytes.lowWord (address (.buffer number))

/-- Every buffer of the pool lies in memory at its address. -/
def Image.Holds (image : Image) (address : Label → Nat) (pool : PatternPool) : Prop :=
  ∀ number bytes, pool.buffers[number]? = some bytes → address (.buffer number) < 0x10000 ∧
    ∃ rest, image.at (address (.buffer number)) = bytes ++ rest

lemma lowWord_word {address : Nat} (h : address < 0x10000) : ∃ low high,
    Bytes.lowWord address = [low, high] ∧ word low high = address := by
  refine ⟨Bytes.low address, Bytes.low ((address : Int) / 256), rfl, ?_⟩
  rw [word, Bytes.low, Bytes.low, UInt8.toNat_ofNat_of_lt' (show _ < 256 by omega),
    UInt8.toNat_ofNat_of_lt' (show _ < 256 by omega)]
  omega

section Slots

variable {target : Target} {labels : Labels} {address : Label → Nat}

lemma code_label (l : Label) : code target labels [.label l] = .ok [] := rfl

lemma code_append_ok {first second : List Line} {x y : Bytes}
    (hx : code target labels first = .ok x) (hy : code target labels second = .ok y) :
    code target labels (first ++ second) = .ok (x ++ y) :=
  (code_append first second).mpr ⟨x, y, hx, hy, rfl⟩

lemma code_address {l : Label}
    (h : labels.lookup (l.text target.dialect).toList = some ((address l : Nat) : Int)) :
    code target labels [.words [.label l]] = .ok (Bytes.lowWord (address l)) := by
  have hcode : code target labels [.words ([l].map .label)] =
      .ok ([l].flatMap fun l => Bytes.lowWord (address l : Int)) := code_words (by simpa using h)
  simpa using hcode

/-- The lines of a slot stand for its bytes. -/
lemma code_slot (hl : ∀ entry ∈ labels, Name entry.1) {slot : SlotCode}
    (h : ∀ number rows, slot = .reference number rows →
      labels.lookup ((Label.buffer number).text target.dialect).toList =
        some ((address (.buffer number) : Nat) : Int)) :
    code target labels slot.lines = .ok (slot.bytes address) := by
  cases slot with
  | buffer number bytes =>
    have hlabel : code target labels [.label (.buffer number)] = .ok [] := code_label _
    have hbytes := code_append_ok hlabel (code_bytes hl (bytes.map fun b => (b.toNat : Int)) "")
    rw [map_low_toNat] at hbytes
    exact hbytes
  | reference number rows =>
    have hcount : code target labels [.bytes [Command.referenceCode.toNat, rows]] =
        .ok [Command.referenceCode, Bytes.low rows] := code_bytes hl _ ""
    exact code_append_ok hcount (code_address (h number rows rfl))

lemma code_slots (hl : ∀ entry ∈ labels, Name entry.1) {slots : List SlotCode}
    (h : ∀ number rows, .reference number rows ∈ slots →
      labels.lookup ((Label.buffer number).text target.dialect).toList =
        some ((address (.buffer number) : Nat) : Int)) :
    code target labels (slots.flatMap SlotCode.lines) =
      .ok (slots.flatMap (SlotCode.bytes address)) := by
  induction slots with
  | nil => rfl
  | cons slot rest ih =>
    rw [List.flatMap_cons, List.flatMap_cons]
    refine code_append_ok (code_slot hl ?_) (ih ?_)
    · rintro number rows rfl
      exact h number rows (by simp)
    · exact fun number rows hm => h number rows (by simp [hm])

end Slots

section Driven

variable {kernel : Kernel} {image : Image} {address : Label → Nat} {pool : PatternPool}

/-- The driver does on the bytes of a slot what its commands say. -/
lemma drive?_slot (hi : image.Holds address pool) {slot : SlotCode} {block : List Command}
    (h : slot.Represents pool block) (hr : Readable kernel block) (hb : rowCommands block ≤ 255)
    (rest : Bytes) : drive? kernel image (slot.bytes address ++ rest) =
      (drive? kernel image rest).map (Pass.after (commandEvents kernel block)) := by
  cases slot with
  | buffer number bytes =>
    obtain ⟨-, rfl⟩ := h
    exact drive?_commandBytes hr.writable rest
  | reference number rows =>
    obtain ⟨hbuffer, rfl⟩ := h
    obtain ⟨hlt, tail, hat⟩ := hi number _ hbuffer
    obtain ⟨low, high, hword, haddress⟩ := lowWord_word hlt
    have hcount : (Bytes.low (rowCommands block)).toNat = rowCommands block := by
      rw [Bytes.low, UInt8.toNat_ofNat_of_lt' (show _ < 256 by omega)]
      omega
    have hread : Command.readRows? kernel (Bytes.low (rowCommands block)).toNat
        (image.at (word low high)) = some block := by
      rw [hcount, haddress, hat]
      exact readRows?_commandBytes hr.writable hr.closed tail
    rw [SlotCode.bytes, hword]
    exact drive?_reference hread rest

lemma drive?_slots (hi : image.Holds address pool) {codes : List SlotCode}
    {blocks : List (List Command)} (h : List.Forall₂ (SlotCode.Represents pool) codes blocks)
    (hr : ∀ block ∈ blocks, Readable kernel block ∧ rowCommands block ≤ 255) (rest : Bytes) :
    drive? kernel image (codes.flatMap (SlotCode.bytes address) ++ rest) =
      (drive? kernel image rest).map
        (Pass.after (blocks.flatMap (commandEvents kernel))) := by
  induction h with
  | nil =>
    cases hrest : drive? kernel image rest with
    | none => exact hrest
    | some pass => exact hrest
  | @cons slot block codes blocks hslot _ ih =>
    obtain ⟨hread, hcount⟩ := hr block (by simp)
    rw [List.flatMap_cons, List.append_assoc, drive?_slot hi hslot hread hcount,
      ih fun other ho => hr other (by simp [ho]), Option.map_map]
    congr 1
    funext pass
    exact Pass.after_after _ _ pass

end Driven

/-- The bytes of the commands that set the speed at the start of a stream. -/
def speedCommands (speed : Option Int) : List Command :=
  speed.toList.map fun frames => .speed (Bytes.low frames)

section Channels

variable {kernel : Kernel} {target : Target} {lines before after : List Line} {image : Image}
  {pool : PatternPool} {code : ChannelCode} {song number : Nat}

lemma code_speed {labels : Labels} (hl : ∀ entry ∈ labels, Name entry.1) (speed : Option Int) :
    Assembly.code target labels
      (speed.toList.map fun frames => Line.bytes [Command.speedCode.toNat, frames]) =
      .ok (commandBytes (speedCommands speed)) := by
  cases speed with
  | none => rfl
  | some frames => exact code_bytes hl [Command.speedCode.toNat, frames] ""

/-- The lines of a channel from its loop label on. -/
def repeatedLines (code : ChannelCode) (song number : Nat) : List Line :=
  code.body.flatMap SlotCode.lines ++
    [.bytes [Command.loopCode.toNat], .words [.label (.channelLoop song number)]]

/-- A channel lies in a document with all buffers that it refers to. -/
structure ChannelIn (lines before after : List Line) (code : ChannelCode) (song number : Nat) :
    Prop where
  place : lines = before ++ code.lines song number ++ after
  references : ∀ buffer rows, .reference buffer rows ∈ code.slots → .label (.buffer buffer) ∈ lines

lemma ChannelIn.at_channel (h : ChannelIn lines before after code song number) :
    lines = (before ++ [Line.blank]) ++ Line.label (.channel song number) ::
      ((code.speed.toList.map fun frames => Line.bytes [Command.speedCode.toNat, frames]) ++
        (code.intro.flatMap SlotCode.lines ++ Line.label (.channelLoop song number) ::
          (repeatedLines code song number ++ after))) := by
  simp [h.place, ChannelCode.lines, repeatedLines]

lemma ChannelIn.at_loop (h : ChannelIn lines before after code song number) : ∃ earlier,
    lines = earlier ++ Line.label (.channelLoop song number) ::
      (repeatedLines code song number ++ after) := by
  refine ⟨(before ++ [Line.blank]) ++ Line.label (.channel song number) ::
    ((code.speed.toList.map fun frames => Line.bytes [Command.speedCode.toNat, frames]) ++
      code.intro.flatMap SlotCode.lines), ?_⟩
  rw [h.at_channel]
  simp

lemma repeatedLines_size (code : ChannelCode) (song number : Nat) (after : List Line) :
    0 < total Line.size (repeatedLines code song number ++ after) := by
  simp [repeatedLines, total_append, total, Line.size]

variable (h : Linked target lines image) (hin : ChannelIn lines before after code song number)

include h hin

lemma Linked.code_slots {slots : List SlotCode} (hs : ∀ slot ∈ slots, slot ∈ code.slots) :
    Assembly.code target (addresses target.dialect image.offset lines)
      (slots.flatMap SlotCode.lines) =
        .ok (slots.flatMap (SlotCode.bytes (addressOf image.offset lines))) :=
  Chiptune.code_slots h.names fun buffer rows hm =>
    h.lookup (hin.references buffer rows (hs _ hm))

/-- The bytes at the loop label: the slots that are repeated and the loop command. -/
lemma Linked.bytes_loop : ∃ rest,
    image.at (addressOf image.offset lines (.channelLoop song number)) =
      code.body.flatMap (SlotCode.bytes (addressOf image.offset lines)) ++
        (Command.loopCode ::
          Bytes.lowWord (addressOf image.offset lines (.channelLoop song number)) ++ rest) := by
  obtain ⟨earlier, hloop⟩ := hin.at_loop
  have hbody : ∀ slot ∈ code.body, slot ∈ code.slots := fun _ hm => List.mem_append_right _ hm
  have hslots := h.code_slots hin hbody
  have hmem : .label (.channelLoop song number) ∈ lines := by
    rw [hloop]
    simp
  have hcommand : Assembly.code target (addresses target.dialect image.offset lines)
      [.bytes [Command.loopCode.toNat]] = .ok [Command.loopCode] := code_bytes h.names _ ""
  have hend := code_append_ok hcommand (code_address (h.lookup hmem))
  obtain ⟨x, rest, hx, -, hat⟩ := (code_append _ _).mp (h.at_label hloop)
  obtain rfl := Except.ok.inj ((code_append_ok hslots hend).symm.trans hx)
  refine ⟨rest, ?_⟩
  rw [hat, List.append_assoc]
  rfl

/-- The bytes at the label of a channel: its speed, the slots before the loop label and the bytes
there. -/
lemma Linked.bytes_channel : image.at (addressOf image.offset lines (.channel song number)) =
    commandBytes (speedCommands code.speed) ++
      (code.intro.flatMap (SlotCode.bytes (addressOf image.offset lines)) ++
        image.at (addressOf image.offset lines (.channelLoop song number))) := by
  obtain ⟨earlier, hloop⟩ := hin.at_loop
  have hintro : ∀ slot ∈ code.intro, slot ∈ code.slots := fun _ hm => List.mem_append_left _ hm
  have hslots := h.code_slots hin hintro
  have hrest := code_append_ok (code_label (.channelLoop song number)) (h.at_label hloop)
  have hall := code_append_ok (code_speed h.names code.speed) (code_append_ok hslots hrest)
  exact Except.ok.inj ((h.at_label hin.at_channel).symm.trans hall)

/-- The driver plays the stream of a channel from its label, and its body from the loop label. -/
theorem Linked.drive?_channel (hi : image.Holds (addressOf image.offset lines) pool)
    {stream : ChannelStream} (hc : code.Carries pool stream)
    (hr : ∀ block ∈ stream.slots, Readable kernel block ∧ rowCommands block ≤ 255) :
    let loop := addressOf image.offset lines (.channelLoop song number)
    let body := stream.body.flatMap (commandEvents kernel)
    drive? kernel image (image.at (addressOf image.offset lines (.channel song number))) =
      some ⟨commandEvents kernel (speedCommands code.speed) ++
        (stream.intro.flatMap (commandEvents kernel) ++ body), loop⟩ ∧
    drive? kernel image (image.at loop) = some ⟨body, loop⟩ := by
  intro loop body
  have hplays : ∀ {slots : List SlotCode} {blocks : List (List Command)},
      List.Forall₂ (SlotCode.Represents pool) slots (coded blocks) →
      (∀ block ∈ blocks, block ∈ stream.slots) → ∀ rest,
      drive? kernel image (slots.flatMap (SlotCode.bytes (addressOf image.offset lines)) ++ rest) =
        (drive? kernel image rest).map
          (Pass.after (blocks.flatMap (commandEvents kernel))) := by
    intro slots blocks hforall hb rest
    rw [drive?_slots hi hforall fun block hm => hr block (hb block (List.mem_of_mem_filter hm)),
      coded_events]
  have hspeed : ∀ command ∈ speedCommands code.speed, command.Writable kernel := by
    intro command hm
    obtain ⟨frames, -, rfl⟩ := List.mem_map.mp hm
    exact trivial
  obtain ⟨earlier, hloop⟩ := hin.at_loop
  obtain ⟨low, high, hword, haddress⟩ :=
    lowWord_word (h.addressOf_lt hloop (repeatedLines_size code song number after))
  have hbody : drive? kernel image (image.at loop) = some ⟨body, loop⟩ := by
    obtain ⟨rest, hat⟩ := h.bytes_loop hin
    rw [hat, hplays hc.body fun _ hm => List.mem_append_right _ hm, hword, List.cons_append,
      List.cons_append, List.cons_append, drive?_loop, haddress]
    simp [Pass.after, body, loop]
  refine ⟨?_, hbody⟩
  rw [h.bytes_channel hin, drive?_commandBytes hspeed,
    hplays hc.intro fun _ hm => List.mem_append_left _ hm, hbody]
  rfl

end Channels

end Chiptune
