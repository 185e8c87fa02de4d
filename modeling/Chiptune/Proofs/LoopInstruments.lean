import Chiptune.Proofs.HeardRows

/-!
# Instruments in a loop

The encoder names instruments along one pass through the song. A driver that enters the loop again
comes with the instrument of the end of the song, so the rows of every pass are heard with their own
instruments if and only if that instrument is the one before the loop wherever the loop begins
without naming one.
-/

namespace Chiptune

/-- The rows heard in pass number `pass` through a channel, the first of which starts with the
channel, and the instrument that the driver has after it. -/
def ChannelCode.hearPass? (kernel : Kernel) (pool : PatternPool) (code : ChannelCode) :
    (pass : Nat) → Option (List Beat × Option Nat)
  | 0 => do
    let intro ← playAll? kernel pool code.intro
    let body ← playAll? kernel pool code.body
    return (hear { instrument := none } (intro ++ body), heardAfter none (intro ++ body))
  | pass + 1 => do
    let (_, heard) ← hearPass? kernel pool code pass
    let body ← playAll? kernel pool code.body
    return (hear { instrument := heard } body, heardAfter heard body)

/-- The rows of a song in a pass. -/
def passRows (intro body : List Row) : (pass : Nat) → List Row
  | 0 => intro ++ body
  | _ + 1 => body

/-- The driver hears the rows of a pass with their own instruments. -/
def Voicing.HearsPass (voicing : Voicing) (pool : PatternPool) (code : ChannelCode)
    (intro body : List Row) (pass : Nat) : Prop :=
  ∃ beats heard, code.hearPass? voicing.kernel pool pass = some (beats, heard) ∧
    List.Forall₂ voicing.Heard (passRows intro body pass) beats

/-- A loop that begins with the last instrument before it ends with that instrument. -/
def Seamless (index : InstrumentId → Option Nat) (intro body : List Row) : Prop :=
  ∀ first last, body.findSome? Row.instrument = some first → activeAfter none intro = some first →
    activeAfter none body = some last → index last = index first

section Active

variable {active : Option InstrumentId} {rows : List Row}

lemma activeAfter_eq (active : Option InstrumentId) (rows : List Row) :
    activeAfter active rows = (activeAfter none rows <|> active) := by
  induction rows using List.reverseRecOn with
  | nil => rfl
  | append_singleton rows row ih =>
    rw [activeAfter_append, activeAfter_append, ih]
    simp only [activeAfter, List.foldl_cons, List.foldl_nil]
    cases row.instrument <;> rfl

lemma mem_of_activeAfter {id : InstrumentId} (h : activeAfter none rows = some id) :
    ∃ row ∈ rows, row.instrument = some id := by
  induction rows using List.reverseRecOn with
  | nil => exact nomatch h
  | append_singleton rows row ih =>
    rw [activeAfter_append] at h
    simp only [activeAfter, List.foldl_cons, List.foldl_nil] at h
    cases hid : row.instrument with
    | none =>
      rw [hid] at h
      obtain ⟨other, ho, hi⟩ := ih h
      exact ⟨other, by simp [ho], hi⟩
    | some other =>
      rw [hid] at h
      exact ⟨row, by simp, hid.trans h⟩

lemma exists_activeAfter {first : InstrumentId} (h : rows.findSome? Row.instrument = some first) :
    ∃ last, activeAfter none rows = some last := by
  induction rows with
  | nil => simp at h
  | cons row rest ih =>
    have hhead : (row.instrument <|> none) = row.instrument := by
      cases row.instrument <;> rfl
    have hsplit : activeAfter none (row :: rest) = (activeAfter none rest <|> row.instrument) := by
      rw [← activeAfter_eq]
      exact congrArg (activeAfter · rest) hhead
    rw [hsplit]
    cases hrest : activeAfter none rest with
    | some last => exact ⟨last, rfl⟩
    | none =>
      cases hid : row.instrument with
      | some id => exact ⟨id, rfl⟩
      | none =>
        rw [List.findSome?_cons, hid] at h
        obtain ⟨last, hl⟩ := ih h
        exact absurd (hl.symm.trans hrest) (by simp)

end Active

lemma heardAfter_again (heard : Option Nat) (events : List Event) :
    heardAfter (heardAfter heard events) events = heardAfter heard events := by
  rw [heardAfter_eq (heardAfter heard events), heardAfter_eq heard]
  cases heardAfter none events <;> rfl

section Passes

variable {voicing : Voicing} {pool : PatternPool} {code : ChannelCode} {intro body : List Row}

/-- What is heard in each pass if all counts fit: from the second pass on the driver comes with the
last instrument of the song. -/
lemma hearPass?_of_fits (h : code.Plays voicing.kernel pool (voicing.events none intro)
    (voicing.events (activeAfter none intro) body)) (hfits : code.Fits) (pass : Nat) :
    let last := (activeAfter none (intro ++ body)).map voicing.number
    code.hearPass? voicing.kernel pool pass = some (match pass with
      | 0 => (voicing.beats none none (intro ++ body), last)
      | _ + 1 => (voicing.beats last (activeAfter none intro) body, last)) := by
  dsimp only
  obtain ⟨hintro, hbody⟩ := h.iff_fits.mpr hfits
  have hlast : heardAfter none (voicing.events none (intro ++ body)) =
      (activeAfter none (intro ++ body)).map voicing.number :=
    heardAfter_events (Option.map_none voicing.number).symm _
  have hbodyLast : heardAfter ((activeAfter none (intro ++ body)).map voicing.number)
      (voicing.events (activeAfter none intro) body) =
      (activeAfter none (intro ++ body)).map voicing.number := by
    rw [← hlast, voicing.events_append, heardAfter_append, heardAfter_again]
  induction pass with
  | zero =>
    simp only [ChannelCode.hearPass?, hintro, hbody, Option.bind_eq_bind, Option.bind_some,
      Option.pure_def]
    rw [← voicing.events_append, hear_events, hlast]
  | succ pass ih =>
    simp only [ChannelCode.hearPass?, ih, hbody, Option.bind_eq_bind, Option.bind_some,
      Option.pure_def]
    cases pass with
    | zero => rw [hear_events, hbodyLast]
    | succ pass => rw [hear_events, hbodyLast]

/-- A pass in which counts do not fit leaves rows out. -/
lemma fits_of_hearsPass (h : code.Plays voicing.kernel pool (voicing.events none intro)
    (voicing.events (activeAfter none intro) body))
    (hpass : voicing.HearsPass pool code intro body 0) : code.Fits := by
  obtain ⟨beats, heard, hbeats, hheard⟩ := hpass
  obtain ⟨introEvents, hintro, -, hintroFewer⟩ := h.intro
  obtain ⟨bodyEvents, hbody, -, hbodyFewer⟩ := h.body
  have hintroLe := h.intro.rows_le introEvents hintro
  have hbodyLe := h.body.rows_le bodyEvents hbody
  simp only [ChannelCode.hearPass?, hintro, hbody, Option.bind_eq_bind, Option.bind_some,
    Option.pure_def, Option.some.injEq, Prod.mk.injEq] at hbeats
  obtain ⟨rfl, -⟩ := hbeats
  have hlength := hheard.length_eq
  rw [hear_length, eventRows_append, passRows, List.length_append] at hlength
  rw [eventRows_events] at hintroLe hbodyLe hintroFewer hbodyFewer
  rw [ChannelCode.fits_iff]
  constructor
  · by_contra hnot
    have := hintroFewer hnot
    omega
  · by_contra hnot
    have := hbodyFewer hnot
    omega

/-- The body is heard again as it is if and only if the loop is seamless. -/
lemma beats_again_iff (ht : ∀ row ∈ body, voicing.Tuned row) :
    List.Forall₂ voicing.Heard body (voicing.beats
      ((activeAfter none (intro ++ body)).map voicing.number) (activeAfter none intro) body) ↔
      Seamless voicing.index intro body := by
  have hnumber : ∀ id, activeAfter none body = some id →
      voicing.index id = some (voicing.number id) := by
    intro id hid
    obtain ⟨row, hrow, hr⟩ := mem_of_activeAfter hid
    exact (ht row hrow).number hr
  have hfirst : ∀ id, body.findSome? Row.instrument = some id →
      voicing.index id = some (voicing.number id) := by
    intro id hid
    obtain ⟨row, hrow, hr⟩ := List.exists_of_findSome?_eq_some hid
    exact (ht row hrow).number hr
  rw [beats_iff ht]
  constructor
  · intro hall first last hf hintro hlast
    have hheard := hall first hf hintro
    rw [activeAfter_append, activeAfter_eq, hlast] at hheard
    rw [hnumber last hlast, hfirst first hf]
    exact hheard
  · intro hseamless id hf hintro
    obtain ⟨last, hlast⟩ := exists_activeAfter hf
    have heq := hseamless id last hf hintro hlast
    rw [hnumber last hlast, hfirst id hf] at heq
    rw [activeAfter_append, activeAfter_eq, hlast]
    exact heq

/-- All passes through a channel are heard as they are if and only if all counts fit and the loop
is seamless. -/
theorem hearsPass_iff (h : code.Plays voicing.kernel pool (voicing.events none intro)
    (voicing.events (activeAfter none intro) body))
    (ht : ∀ row ∈ intro ++ body, voicing.Tuned row) :
    (∀ pass, voicing.HearsPass pool code intro body pass) ↔
      code.Fits ∧ Seamless voicing.index intro body := by
  have hbody : ∀ row ∈ body, voicing.Tuned row := fun row hr => ht row (List.mem_append_right _ hr)
  constructor
  · intro hall
    have hfits := fits_of_hearsPass h (hall 0)
    refine ⟨hfits, ?_⟩
    obtain ⟨beats, heard, hbeats, hheard⟩ := hall 1
    rw [hearPass?_of_fits h hfits 1] at hbeats
    obtain ⟨rfl, -⟩ := Prod.mk.injEq .. ▸ Option.some.inj hbeats
    exact (beats_again_iff hbody).mp hheard
  · rintro ⟨hfits, hseamless⟩ pass
    have hpass := hearPass?_of_fits h hfits pass
    cases pass with
    | zero => exact ⟨_, _, hpass, beats_synchronised ht rfl⟩
    | succ pass => exact ⟨_, _, hpass, (beats_again_iff hbody).mpr hseamless⟩

end Passes

/-- Every note with a pitch has an instrument of the table. -/
def Song.Instrumented (song : Song) (index : InstrumentId → Option Nat) : Prop :=
  ∀ note ∈ song.notes, note.isMusical = true → ∃ id place, note.instrument = some id ∧
    index id = some place ∧ place < Limits.instruments

lemma tuned_passage {song : Song} {voicing : Voicing} {channel : Channel} {takesSpeed : Bool}
    (h : song.Instrumented voicing.index) (hc : channel ∈ song.channels)
    {effects : List SlotEffects} {visits : List Visit} :
    ∀ row ∈ song.passage voicing.kernel effects takesSpeed channel visits, voicing.Tuned row := by
  intro row hr
  obtain ⟨note, speed, hn, rfl⟩ := Song.mem_passage effects takesSpeed hc hr
  constructor
  · intro hm
    have hmusical : note.isMusical = true := hm
    rcases hn with hn | rfl
    · simpa [Row.ofNote, hmusical] using h note hn hmusical
    · exact absurd hmusical (by decide)
  · intro hm
    have hmusical : note.isMusical = false := hm
    simp [Row.ofNote, hmusical]

/-- In every pass through every channel of an encoded song each note is heard with its own
instrument, if and only if all counts fit and the loop is seamless. -/
theorem encode_hearsPass_iff {song : Song} {encoding : Encoding} {speedChannel factor : Int}
    {pool : PatternPool} {code : SongCode} (hn : ∀ note ∈ song.notes, note.InRange)
    (hi : song.Instrumented encoding.index)
    (hok : song.encode encoding speedChannel factor pool = .ok code) {number : Nat}
    {channel : Channel} (hc : song.channels[number]? = some channel) :
    let voicing : Voicing := ⟨encoding.kernel, channel.voice, encoding.index⟩
    let takesSpeed := decide ((number : Int) = speedChannel)
    let intro := song.introRows encoding.kernel factor channel takesSpeed
    let body := song.bodyRows encoding.kernel factor channel takesSpeed
    ∃ channelCode, code.channels[number]? = some channelCode ∧
      (song.patternLength ≤ 255 → channelCode.Fits) ∧
      ((∀ pass, voicing.HearsPass code.pool channelCode intro body pass) ↔
        channelCode.Fits ∧ Seamless encoding.index intro body) := by
  dsimp only
  obtain ⟨channelCode, hcode, -, hplays, hshort⟩ := encode_plays hn hok hc
  refine ⟨channelCode, hcode, hshort, hearsPass_iff hplays ?_⟩
  intro row hr
  have hmem := List.mem_of_getElem? hc
  rcases List.mem_append.mp hr with hr | hr
  · exact tuned_passage hi hmem row hr
  · exact tuned_passage hi hmem row hr

def turningChannel : Channel := ⟨.square1, [some 0, some 0, some 1, some 2]⟩

/-- The loop starts in the second slot with the instrument of the first one, and ends with another
one. -/
def turningSong : Song where
  id := 0
  name := "turning"
  patternLength := 1
  length := 4
  patterns := [[{ value := 30, instrument := some 0 }], [{ value := 40, instrument := some 1 }],
    [{ effect := .jump, param := 1 }]]
  channels := [turningChannel]

def turningEncoding : Encoding where
  kernel := .extended
  index := fun id => [0, 1].idxOf? id

def turningCode : SongCode :=
  ⟨[⟨some 6, [.buffer 0 [0x80, 21]], [.buffer 1 [21], .buffer 2 [0x82, 31]]⟩],
    ⟨#[[0x80, 21], [21], [0x82, 31]]⟩⟩

def turningIntro : List Row := turningSong.introRows .extended 1 turningChannel true

def turningBody : List Row := turningSong.bodyRows .extended 1 turningChannel true

lemma turningSong_instrumented : turningSong.Instrumented turningEncoding.index := by
  have hnotes : turningSong.notes = [{ value := 30, instrument := some 0 },
      { value := 40, instrument := some 1 }, { effect := .jump, param := 1 }] := by decide
  intro note hn hm
  rw [hnotes] at hn
  simp only [List.mem_cons, List.not_mem_nil, or_false] at hn
  rcases hn with rfl | rfl | rfl
  · exact ⟨0, 0, rfl, rfl, by decide⟩
  · exact ⟨1, 1, rfl, rfl, by decide⟩
  · exact absurd hm (by decide)

theorem turningSong_hearsPass_iff : (∀ note ∈ turningSong.notes, note.InRange) ∧
    turningSong.Instrumented turningEncoding.index ∧
    turningSong.encode turningEncoding 0 1 {} = .ok turningCode ∧
    ∃ channelCode, turningCode.channels[0]? = some channelCode ∧ channelCode.Fits ∧
      ((∀ pass, Voicing.HearsPass ⟨.extended, .square1, turningEncoding.index⟩ turningCode.pool
        channelCode turningIntro turningBody pass) ↔
        channelCode.Fits ∧ Seamless turningEncoding.index turningIntro turningBody) := by
  have hn : ∀ note ∈ turningSong.notes, note.InRange := by decide
  have hok : turningSong.encode turningEncoding 0 1 {} = .ok turningCode := by decide +kernel
  obtain ⟨channelCode, hcode, hfits, hiff⟩ :=
    encode_hearsPass_iff hn turningSong_instrumented hok
      (show turningSong.channels[0]? = some turningChannel from rfl)
  exact ⟨hn, turningSong_instrumented, hok, channelCode, hcode, hfits (by decide), hiff⟩

/-- The first row of the loop is a note of instrument 0 that is heard with instrument 1 from the
second pass on. -/
theorem turningSong_misheard : (∀ note ∈ turningSong.notes, note.InRange) ∧
    turningSong.Instrumented turningEncoding.index ∧
    turningSong.encode turningEncoding 0 1 {} = .ok turningCode ∧
    ∃ channelCode, turningCode.channels[0]? = some channelCode ∧
      channelCode.hearPass? .extended turningCode.pool 1 =
        some ([{ instrument := some 1, code := some 21 },
          { instrument := some 1, code := some 31 }], some 1) ∧
      ¬ Voicing.HearsPass ⟨.extended, .square1, turningEncoding.index⟩ turningCode.pool channelCode
        turningIntro turningBody 1 := by
  have hpass : ChannelCode.hearPass? .extended turningCode.pool
      ⟨some 6, [.buffer 0 [0x80, 21]], [.buffer 1 [21], .buffer 2 [0x82, 31]]⟩ 1 =
      some ([{ instrument := some 1, code := some 21 }, { instrument := some 1, code := some 31 }],
        some 1) := by decide +kernel
  have hrows : turningBody =
      [{ value := 30, instrument := some 0 }, { value := 40, instrument := some 1 }] := by
    decide +kernel
  refine ⟨by decide, turningSong_instrumented, by decide +kernel, _, rfl, hpass, ?_⟩
  rintro ⟨beats, heard, hbeats, hheard⟩
  obtain ⟨rfl, -⟩ := Prod.mk.injEq .. ▸ Option.some.inj (hpass.symm.trans hbeats)
  rw [passRows, hrows, List.forall₂_cons] at hheard
  obtain ⟨id, place, hid, hplace, hactive⟩ := hheard.1.instrument rfl
  obtain rfl := Option.some.inj hid
  obtain rfl := Option.some.inj hactive
  exact absurd hplace (by decide)

end Chiptune
