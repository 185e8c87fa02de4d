import Chiptune.Proofs.CommandStream
import Chiptune.Proofs.Outcome
import Chiptune.Sound.PatternCode

/-!
# The rows behind the code of a pattern

`Voicing.events` says row by row what a channel is to do, without runs of empty rows and without
empty rows that ride along with a note. The code that `encodeRows` writes for some rows makes the
driver do exactly that.
-/

namespace Chiptune

/-- The rows whose code can be read back. -/
structure Row.Plain (kernel : Kernel) (row : Row) : Prop where
  value : 0 ≤ row.value ∧ row.value ≤ 96 ∨ row.value = 247 ∨ row.value = 255
  volume : ∀ level, row.volume = some level → kernel = .extended ∧ level.toNat < 16
  instrument : row.isNote = false → row.instrument = none

/-- The instrument that is active after some rows. -/
def activeAfter (active : Option InstrumentId) (rows : List Row) : Option InstrumentId :=
  rows.foldl (fun active row => row.instrument <|> active) active

namespace Voicing

variable (voicing : Voicing)

/-- The number of an instrument in the table, in the six bits of its command. -/
def number (id : InstrumentId) : Nat := (voicing.index id).getD 0 % 64

/-- The code of a note without an empty row after it. -/
def code (value : Int) : UInt8 :=
  UInt8.ofNat (voicing.kernel.noteCode voicing.voice value 0).toNat

/-- An instrument is named where it is not the active one. -/
def naming (active : Option InstrumentId) : Option InstrumentId → List Event
  | none => []
  | some id => if active = some id then [] else [.instrument (voicing.number id)]

def rowEvents (active : Option InstrumentId) (row : Row) : List Event :=
  row.speed.toList.map .speed ++ row.volume.toList.map .volume ++
    voicing.naming active row.instrument ++
    [if row.isNote then .note (voicing.code row.value) else .rest]

/-- What a channel does in some rows, from the active instrument on. -/
def events : (active : Option InstrumentId) → List Row → List Event
  | _, [] => []
  | active, row :: rest => voicing.rowEvents active row ++ events (row.instrument <|> active) rest

end Voicing

lemma activeAfter_append (active : Option InstrumentId) (rows more : List Row) :
    activeAfter active (rows ++ more) = activeAfter (activeAfter active rows) more :=
  List.foldl_append

lemma Voicing.events_append (voicing : Voicing) (active : Option InstrumentId)
    (rows more : List Row) : voicing.events active (rows ++ more) =
      voicing.events active rows ++ voicing.events (activeAfter active rows) more := by
  induction rows generalizing active with
  | nil => rfl
  | cons row rest ih =>
    rw [List.cons_append, events, events, ih, List.append_assoc]
    rfl

lemma withFlags_zero (code : Nat) : Kernel.withFlags code 0 = code := by
  simp [Kernel.withFlags]

lemma withFlags_one (pitch : Nat) : Kernel.withFlags (pitch * 2) 1 = pitch * 2 + 1 := by
  have h := Nat.two_pow_add_eq_or_of_lt (i := 1) (b := 1) (by omega) pitch
  have hp : 2 ^ 1 * pitch = pitch * 2 := by omega
  rw [hp] at h
  have hf : ((1 : Int) % 128).toNat = 1 := by decide
  rw [Kernel.withFlags, hf, ← h]
  simp

lemma legacyCode_eq (voice : Voice) (value : Int) : ∃ pitch : Nat, pitch < 64 ∧
    Kernel.legacyCode voice value 0 = pitch * 2 ∧
    Kernel.legacyCode voice value 1 = pitch * 2 + 1 := by
  refine ⟨((if value = Note.stopValue ∨ voice = .noise then value else
    max 1 (value - 12)) % 64).toNat, by omega, ?_, ?_⟩
  · rw [Kernel.legacyCode, withFlags_zero]
    push_cast
    rfl
  · rw [Kernel.legacyCode, withFlags_one]

lemma extendedCode_bounds (voice : Voice) {value : Int}
    (h : 0 ≤ value ∧ value ≤ 96 ∨ value = 247) :
    0 ≤ Kernel.extendedCode voice value ∧ Kernel.extendedCode voice value < 0x70 ∨
      Kernel.extendedCode voice value = 0xF7 := by
  unfold Kernel.extendedCode
  split
  · next hv =>
    simp only [Note.releaseValue, Note.stopValue] at hv
    omega
  · next hv =>
    simp only [Note.releaseValue, Note.stopValue] at hv
    cases voice <;> simp only [Kernel.clamp] <;> omega

lemma isRow_of_note? {value : Int} {command : Command} (h : Command.note? value = .ok command) :
    command.isRow = true := by
  unfold Command.note? at h
  split at h
  · obtain rfl := Except.ok.inj h
    rfl
  · exact nomatch h

lemma note?_ofNat {code : Nat} (h : code < 256) :
    Command.note? code = .ok (.note (UInt8.ofNat code)) := by
  rw [Command.note?, if_pos (by omega), Int.toNat_natCast]
  rfl

lemma Row.Plain.value_of_isNote {kernel : Kernel} {row : Row} (h : row.Plain kernel)
    (hn : row.isNote = true) : 0 ≤ row.value ∧ row.value ≤ 96 ∨ row.value = 247 := by
  rcases h.value with hv | hv | hv
  · exact .inl hv
  · exact .inr hv
  · simp [Row.isNote, Note.emptyValue, hv] at hn

/-- The command for a note that nothing rides along with. -/
lemma note?_alone (voicing : Voicing) {row : Row} (h : row.Plain voicing.kernel)
    (hn : row.isNote = true) : ∃ command,
      Command.note? (voicing.kernel.noteCode voicing.voice row.value 0) = .ok command ∧
      command.Writable voicing.kernel ∧ command.isRow = true ∧
      command.events voicing.kernel = [.note (voicing.code row.value)] := by
  have hv := h.value_of_isNote hn
  unfold Voicing.code
  cases hk : voicing.kernel with
  | legacy =>
    obtain ⟨pitch, hp, hc, -⟩ := legacyCode_eq voicing.voice row.value
    have hb : (UInt8.ofNat (pitch * 2)).toNat = pitch * 2 :=
      UInt8.toNat_ofNat_of_lt' (show pitch * 2 < 256 by omega)
    refine ⟨.note (UInt8.ofNat (pitch * 2)), ?_, .inr (.inl ⟨by omega, rfl⟩), rfl, ?_⟩
    · rw [Kernel.noteCode, hc]
      exact_mod_cast note?_ofNat (by omega)
    · rw [Kernel.noteCode, hc, Command.events, hb, if_neg (by omega)]
      have hi : ((pitch : Int) * 2).toNat = pitch * 2 := by omega
      have hd : pitch * 2 / 2 * 2 = pitch * 2 := by omega
      simp only [hi, hd]
  | extended =>
    have hb := extendedCode_bounds voicing.voice hv
    obtain ⟨code, hc⟩ := Int.eq_ofNat_of_zero_le (a := Kernel.extendedCode voicing.voice row.value)
      (by omega)
    have ht : (UInt8.ofNat code).toNat = code :=
      UInt8.toNat_ofNat_of_lt' (show code < 256 by omega)
    refine ⟨.note (UInt8.ofNat code), ?_, ?_, rfl, ?_⟩
    · rw [Kernel.noteCode, hc]
      exact note?_ofNat (by omega)
    · rcases hb with hb | hb
      · exact .inl (by omega)
      · exact .inr (.inr ⟨by omega, rfl⟩)
    · rw [Kernel.noteCode, hc, Command.events, Int.toNat_natCast]

/-- The command for a note with an empty row that rides along. -/
lemma note?_riding (voicing : Voicing) (hk : voicing.kernel = .legacy) (value : Int) :
    ∃ command, Command.note? (voicing.kernel.noteCode voicing.voice value 1) = .ok command ∧
      command.Writable voicing.kernel ∧ command.isRow = true ∧
      command.events voicing.kernel = [.note (voicing.code value), .rest] := by
  obtain ⟨pitch, hp, hc, hr⟩ := legacyCode_eq voicing.voice value
  have hb : (UInt8.ofNat (pitch * 2 + 1)).toNat = pitch * 2 + 1 :=
    UInt8.toNat_ofNat_of_lt' (show pitch * 2 + 1 < 256 by omega)
  unfold Voicing.code
  rw [hk]
  refine ⟨.note (UInt8.ofNat (pitch * 2 + 1)), ?_, .inr (.inl ⟨by omega, rfl⟩), rfl, ?_⟩
  · rw [Kernel.noteCode, hr]
    exact_mod_cast note?_ofNat (by omega)
  · rw [Kernel.noteCode, hc, Command.events, hb, if_pos (by omega)]
    have hi : ((pitch : Int) * 2).toNat = pitch * 2 := by omega
    have hd : (pitch * 2 + 1) / 2 * 2 = pitch * 2 := by omega
    simp only [hi, hd]

lemma Row.Plain.events_of_quiet {voicing : Voicing} {row : Row} (h : row.Plain voicing.kernel)
    (hq : row.isQuiet = true) (active : Option InstrumentId) :
    voicing.rowEvents active row = [.rest] ∧ row.instrument = none := by
  simp only [Row.isQuiet, Bool.and_eq_true, Bool.not_eq_true', Option.isNone_iff_eq_none] at hq
  obtain ⟨⟨hn, hv⟩, hs⟩ := hq
  have hi := h.instrument hn
  exact ⟨by simp [Voicing.rowEvents, Voicing.naming, hn, hv, hs, hi], hi⟩

lemma Row.Plain.quiet_of_not_filled {kernel : Kernel} {row : Row} (h : row.Plain kernel)
    (hk : kernel = .legacy) (hf : row.isFilled = false) : row.isQuiet = true := by
  have hv : row.volume = none := by
    cases hv : row.volume with
    | none => rfl
    | some level => exact absurd ((h.volume level hv).1.symm.trans hk) (by simp)
  simp only [Row.isFilled, Bool.or_eq_false_iff] at hf
  simp [Row.isQuiet, hf.1, hv, Option.isSome_eq_false_iff.mp hf.2]

lemma quiet_events (voicing : Voicing) (active : Option InstrumentId) {rows : List Row}
    (h : ∀ row ∈ rows, row.Plain voicing.kernel) (hq : ∀ row ∈ rows, row.isQuiet = true) :
    voicing.events active rows = List.replicate rows.length .rest ∧
      activeAfter active rows = active := by
  induction rows with
  | nil => exact ⟨rfl, rfl⟩
  | cons row rest ih =>
    obtain ⟨he, hi⟩ := (h row (by simp)).events_of_quiet (hq row (by simp)) active
    have ht := ih (fun r hr => h r (by simp [hr])) (fun r hr => hq r (by simp [hr]))
    have ha : (row.instrument <|> active) = active := by rw [hi]; rfl
    constructor
    · rw [Voicing.events, he, ha, ht.1, List.length_cons, List.replicate_succ]
      rfl
    · rw [activeAfter, List.foldl_cons, ha]
      exact ht.2

lemma Voicing.run_le (voicing : Voicing) (rest : List Row) :
    voicing.run rest ≤ voicing.kernel.longestRun ∧ voicing.run rest ≤ rest.length := by
  have h := (List.takeWhile_prefix (l := rest.take voicing.kernel.longestRun) Row.isQuiet).length_le
  rw [List.length_take] at h
  exact ⟨le_trans h (by omega), le_trans h (by omega)⟩

lemma Voicing.run_quiet (voicing : Voicing) (rest : List Row) :
    ∀ row ∈ rest.take (voicing.run rest), row.isQuiet = true := by
  intro row hr
  have hp := List.takeWhile_prefix (l := rest.take voicing.kernel.longestRun) Row.isQuiet
  have ht : rest.take (voicing.run rest) =
      (rest.take voicing.kernel.longestRun).takeWhile Row.isQuiet := by
    rw [List.prefix_iff_eq_take.mp (hp.trans (List.take_prefix _ _))]
    rfl
  rw [ht] at hr
  exact List.mem_takeWhile_imp hr

/-- Commands that make the driver do what the rows say, and the instrument that is active then. -/
structure Renders (voicing : Voicing) (active : Option InstrumentId) (rows : List Row)
    (commands : List Command) (after : Option InstrumentId) : Prop where
  events : commandEvents voicing.kernel commands = voicing.events active rows
  after : after = activeAfter active rows
  writable : ∀ command ∈ commands, command.Writable voicing.kernel
  closed : Closed commands
  count : rowCommands commands ≤ rows.length

lemma Renders.nil (voicing : Voicing) (active : Option InstrumentId) :
    Renders voicing active [] [] active where
  events := rfl
  after := rfl
  writable := by simp
  closed := by simp [Closed]
  count := by simp [rowCommands]

/-- Commands without rows and one row command go before the code of later rows. -/
lemma Renders.before {voicing : Voicing} {active after : Option InstrumentId}
    (first : List Row) {rest : List Row} {head commands : List Command} {last : Command}
    (h : Renders voicing (activeAfter active first) rest commands after) (hfirst : first ≠ [])
    (hevents : commandEvents voicing.kernel (head ++ [last]) = voicing.events active first)
    (hhead : ∀ command ∈ head, command.Writable voicing.kernel ∧ command.isRow = false)
    (hlast : last.Writable voicing.kernel) (hrow : last.isRow = true) :
    Renders voicing active (first ++ rest) (head ++ last :: commands) after where
  events := by
    rw [List.append_cons, commandEvents_append, hevents, h.events, voicing.events_append]
  after := by rw [h.after, activeAfter_append]
  writable := by
    intro command hc
    rcases List.mem_append.mp hc with hc | hc
    · exact (hhead command hc).1
    · rcases List.mem_cons.mp hc with rfl | hc
      · exact hlast
      · exact h.writable command hc
  closed := by
    refine Closed.append ?_ (by simp)
    intro command hc
    cases commands with
    | nil => simp_all
    | cons next commands => exact h.closed command (by simpa using hc)
  count := by
    have hzero : head.countP Command.isRow = 0 := by
      rw [List.countP_eq_zero]
      intro command hc
      simp [(hhead command hc).2]
    have hcount := h.count
    have hpos := List.length_pos_iff.mpr hfirst
    simp only [rowCommands] at hcount
    simp only [rowCommands, List.countP_append, List.countP_cons, hzero, hrow, if_true,
      List.length_append]
    omega

lemma lead_spec {voicing : Voicing} {row : Row} (h : row.Plain voicing.kernel) :
    commandEvents voicing.kernel row.lead =
        row.speed.toList.map Event.speed ++ row.volume.toList.map Event.volume ∧
      ∀ command ∈ row.lead, command.Writable voicing.kernel ∧ command.isRow = false := by
  constructor
  · cases hs : row.speed <;> cases hv : row.volume <;>
      simp [Row.lead, hs, hv, commandEvents, Command.events]
  · intro command hc
    simp only [Row.lead, List.mem_append, List.mem_map, Option.mem_toList] at hc
    rcases hc with ⟨frames, -, rfl⟩ | ⟨level, hl, rfl⟩
    · exact ⟨trivial, rfl⟩
    · exact ⟨h.volume level hl, rfl⟩

lemma change_spec {voicing : Voicing} {active wanted after : Option InstrumentId}
    {change : List Command} (h : voicing.change active wanted = .ok (change, after)) :
    commandEvents voicing.kernel change = voicing.naming active wanted ∧
      after = (wanted <|> active) ∧
      ∀ command ∈ change, command.Writable voicing.kernel ∧ command.isRow = false := by
  cases wanted with
  | none =>
    simp only [Voicing.change, pure, Except.pure, Except.ok.injEq, Prod.mk.injEq] at h
    obtain ⟨rfl, rfl⟩ := h
    exact ⟨rfl, rfl, by simp⟩
  | some id =>
    by_cases ha : active = some id
    · simp only [Voicing.change, if_pos ha, pure, Except.pure, Except.ok.injEq,
        Prod.mk.injEq] at h
      obtain ⟨rfl, rfl⟩ := h
      exact ⟨by simp [Voicing.naming, ha, commandEvents], ha, by simp⟩
    · simp only [Voicing.change, if_neg ha] at h
      cases hi : voicing.index id with
      | none => simp [hi] at h
      | some index =>
        simp only [hi, Command.instrument?] at h
        split at h
        · simp only [pure, Except.pure, ok_bind, Except.ok.injEq, Prod.mk.injEq] at h
          obtain ⟨rfl, rfl⟩ := h
          refine ⟨?_, rfl, ?_⟩
          · simp [Voicing.naming, ha, commandEvents, Command.events, Voicing.number, hi]
          · simp [Command.Writable, Command.isRow, Nat.mod_lt]
        · cases h

/-- What the code of a first row consists of. -/
lemma encodeRows_cons_ok {voicing : Voicing} {short : Bool} {active after : Option InstrumentId}
    {row : Row} {rest : List Row} {commands : List Command}
    (h : encodeRows voicing short active (row :: rest) = .ok (commands, after)) :
    (row.isNote = true ∧ ∃ change named rides code tail,
      voicing.change active row.instrument = .ok (change, named) ∧
      voicing.rides short rest = .ok rides ∧
      Command.note? (voicing.kernel.noteCode voicing.voice row.value (if rides then 1 else 0)) =
        .ok code ∧
      encodeRows voicing short named (rest.drop (if rides then 1 else 0)) = .ok (tail, after) ∧
      commands = row.lead ++ change ++ code :: tail) ∨
    (row.isNote = false ∧ ∃ tail,
      encodeRows voicing short active (rest.drop (voicing.run rest)) = .ok (tail, after) ∧
      commands = row.lead ++ .emptyRows (voicing.run rest) :: tail) := by
  rw [encodeRows] at h
  by_cases hn : row.isNote = true
  · rw [if_pos hn] at h
    obtain ⟨⟨change, named⟩, hchange, h⟩ := (bind_eq_ok_iff _ _ _).mp h
    obtain ⟨rides, hrides, h⟩ := (bind_eq_ok_iff _ _ _).mp h
    obtain ⟨code, hcode, h⟩ := (bind_eq_ok_iff _ _ _).mp h
    obtain ⟨⟨tail, last⟩, htail, h⟩ := (bind_eq_ok_iff _ _ _).mp h
    obtain ⟨rfl, rfl⟩ := Prod.mk.injEq .. ▸ Except.ok.inj h
    exact .inl ⟨hn, change, named, rides, code, tail, hchange, hrides, hcode, htail, rfl⟩
  · rw [if_neg hn] at h
    obtain ⟨⟨tail, last⟩, htail, h⟩ := (bind_eq_ok_iff _ _ _).mp h
    obtain ⟨rfl, rfl⟩ := Prod.mk.injEq .. ▸ Except.ok.inj h
    exact .inr ⟨by simpa using hn, tail, htail, rfl⟩

/-- Only the legacy kernel lets a row ride along, and only one without a note and without a speed
change. -/
lemma rides_spec {voicing : Voicing} {short : Bool} {rest : List Row}
    (h : voicing.rides short rest = .ok true) :
    voicing.kernel = .legacy ∧ ∃ next later, rest = next :: later ∧ next.isFilled = false := by
  cases hk : voicing.kernel with
  | extended => simp [Voicing.rides, hk, pure, Except.pure] at h
  | legacy =>
    refine ⟨rfl, ?_⟩
    rcases rest with _ | ⟨next, _ | ⟨after, later⟩⟩
    · cases short <;> simp [Voicing.rides, hk, pure, Except.pure] at h
    · cases short <;> simp [Voicing.rides, hk, pure, Except.pure] at h
    · simp only [Voicing.rides, hk, pure, Except.pure, Except.ok.injEq, Bool.and_eq_true,
        Bool.not_eq_true'] at h
      exact ⟨next, after :: later, rfl, h.1⟩

section Steps

variable {voicing : Voicing} {active named after : Option InstrumentId} {row next : Row}
  {rest : List Row} {change tail : List Command} {code : Command}

lemma lead_change_spec (hrow : row.Plain voicing.kernel)
    (hchange : voicing.change active row.instrument = .ok (change, named)) :
    ∀ command ∈ row.lead ++ change,
      command.Writable voicing.kernel ∧ command.isRow = false := by
  intro command hc
  rcases List.mem_append.mp hc with hc | hc
  · exact (lead_spec hrow).2 command hc
  · exact (change_spec hchange).2.2 command hc

lemma Renders.note (h : Renders voicing named rest tail after) (hrow : row.Plain voicing.kernel)
    (hn : row.isNote = true)
    (hchange : voicing.change active row.instrument = .ok (change, named))
    (hcode : Command.note? (voicing.kernel.noteCode voicing.voice row.value 0) = .ok code) :
    Renders voicing active (row :: rest) (row.lead ++ change ++ code :: tail) after := by
  obtain ⟨command, hnote, hw, hi, he⟩ := note?_alone voicing hrow hn
  obtain rfl : code = command := Except.ok.inj (hcode.symm.trans hnote)
  obtain ⟨hce, rfl, -⟩ := change_spec hchange
  refine h.before [row] (by simp) ?_ (lead_change_spec hrow hchange) hw hi
  rw [commandEvents_append, commandEvents_append, (lead_spec hrow).1, hce]
  simp [commandEvents, he, Voicing.events, Voicing.rowEvents, hn]

lemma Renders.riding (h : Renders voicing named rest tail after) (hk : voicing.kernel = .legacy)
    (hrow : row.Plain voicing.kernel) (hn : row.isNote = true) (hnext : next.Plain voicing.kernel)
    (hfilled : next.isFilled = false)
    (hchange : voicing.change active row.instrument = .ok (change, named))
    (hcode : Command.note? (voicing.kernel.noteCode voicing.voice row.value 1) = .ok code) :
    Renders voicing active (row :: next :: rest) (row.lead ++ change ++ code :: tail) after := by
  obtain ⟨command, hnote, hw, hi, he⟩ := note?_riding voicing hk row.value
  obtain rfl : code = command := Except.ok.inj (hcode.symm.trans hnote)
  obtain ⟨hce, rfl, -⟩ := change_spec hchange
  obtain ⟨hne, hni⟩ := hnext.events_of_quiet (hnext.quiet_of_not_filled hk hfilled)
    (row.instrument <|> active)
  have hactive : activeAfter active [row, next] = (row.instrument <|> active) := by
    simp [activeAfter, hni]
  rw [← hactive] at h
  refine h.before [row, next] (by simp) ?_ (lead_change_spec hrow hchange) hw hi
  rw [commandEvents_append, commandEvents_append, (lead_spec hrow).1, hce, Voicing.events,
    Voicing.events, hne]
  simp [commandEvents, he, Voicing.events, Voicing.rowEvents, hn]

lemma Renders.emptyRows (h : Renders voicing active (rest.drop (voicing.run rest)) tail after)
    (hrow : row.Plain voicing.kernel) (hn : row.isNote = false)
    (hrest : ∀ r ∈ rest, r.Plain voicing.kernel) : Renders voicing active (row :: rest)
      (row.lead ++ .emptyRows (voicing.run rest) :: tail) after := by
  obtain ⟨hlong, hmore⟩ := voicing.run_le rest
  obtain ⟨hqe, hqa⟩ := quiet_events voicing active
    (fun r hr => hrest r (List.mem_of_mem_take hr)) (voicing.run_quiet rest)
  have hi := hrow.instrument hn
  have hrows : row :: rest =
      (row :: rest.take (voicing.run rest)) ++ rest.drop (voicing.run rest) := by
    rw [List.cons_append, List.take_append_drop]
  have hactive : activeAfter active (row :: rest.take (voicing.run rest)) = active := by
    rw [activeAfter, List.foldl_cons, hi]
    exact hqa
  rw [← hactive] at h
  rw [hrows]
  refine h.before _ (by simp) ?_ (lead_spec hrow).2 hlong rfl
  have hnone : ((none : Option InstrumentId) <|> active) = active := rfl
  rw [commandEvents_append, (lead_spec hrow).1, Voicing.events, Voicing.rowEvents, hi, hnone, hqe,
    List.length_take, Nat.min_eq_left hmore]
  simp [commandEvents, Command.events, Voicing.naming, hn, List.replicate_succ]

end Steps

/-- The code of some rows makes the driver do what the rows say. -/
theorem encodeRows_renders {voicing : Voicing} {short : Bool} {rows : List Row}
    (h : ∀ row ∈ rows, row.Plain voicing.kernel) {active after : Option InstrumentId}
    {commands : List Command} (hok : encodeRows voicing short active rows = .ok (commands, after)) :
    Renders voicing active rows commands after := by
  induction hlen : rows.length using Nat.strong_induction_on generalizing rows active commands with
  | _ length ih =>
    cases rows with
    | nil =>
      rw [encodeRows] at hok
      cases short with
      | true => cases hok
      | false =>
        obtain ⟨rfl, rfl⟩ := Prod.mk.injEq .. ▸ Except.ok.inj hok
        exact .nil voicing active
    | cons row rest =>
      have hrow := h row (by simp)
      have hrest : ∀ r ∈ rest, r.Plain voicing.kernel := fun r hr => h r (by simp [hr])
      have hdrop : ∀ n, ∀ r ∈ rest.drop n, r.Plain voicing.kernel :=
        fun n r hr => hrest r (List.mem_of_mem_drop hr)
      rw [List.length_cons] at hlen
      rcases encodeRows_cons_ok hok with
        ⟨hn, change, named, rides, code, tail, hchange, hrides, hcode, htail, rfl⟩ |
        ⟨hn, tail, htail, rfl⟩
      · have hr := ih _ (by rw [List.length_drop]; omega) (hdrop _) htail rfl
        cases rides with
        | false => exact hr.note hrow hn hchange hcode
        | true =>
          obtain ⟨hk, next, later, rfl, hfilled⟩ := rides_spec hrides
          exact hr.riding hk hrow hn (hrest next (by simp)) hfilled hchange hcode
      · have hr := ih _ (by rw [List.length_drop]; omega) (hdrop _) htail rfl
        exact hr.emptyRows hrow hn hrest

end Chiptune
