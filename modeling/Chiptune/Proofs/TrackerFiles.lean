import Chiptune.Proofs.ByteValues
import Chiptune.Proofs.TrackerReaders

/-!
# Tracker instrument files as they are written

A description of an instrument is written field by field, each sequence behind a byte that says
whether it is there. Reading gives back what the description says of an instrument and passes over
the rest of it and over all that follows.
-/

namespace Chiptune.Fti

/-- A sequence with all that a file says about it. -/
structure Track where
  items : List Int8
  loop : Int32 := -1
  release : Int32 := -1
  setting : Int32 := 0
  items_le : items.length ≤ 253 := by decide

/-- What a file says about an instrument. A sequence can be switched off. -/
structure Description where
  name : String
  tracks : List (Option Track)
  ascii : ∀ c ∈ name.toList, c.toNat < 128 := by simp
  name_le : name.length ≤ 255 := by decide
  tracks_le : tracks.length ≤ 255 := by decide

/-- The bytes of a text of ASCII characters. -/
def asciiBytes (text : String) : Bytes := text.toList.map fun c => UInt8.ofNat c.toNat

namespace Track

def written (track : Track) : Bytes :=
  Bytes.ofValue 4 track.items.length ++ Bytes.ofValue 4 track.loop.toInt ++
    Bytes.ofValue 4 track.release.toInt ++ Bytes.ofValue 4 track.setting.toInt ++
    track.items.flatMap fun item => Bytes.ofValue 1 item.toInt

/-- A position of an item, or -1 for all others. -/
def position (track : Track) (place : Int32) : Int :=
  if 0 ≤ place.toInt ∧ place.toInt < track.items.length then place.toInt else -1

def envelope (track : Track) : Envelope where
  values := track.items.map Int8.toInt
  loop := track.position track.loop
  release := track.position track.release

end Track

/-- A sequence behind the byte that says whether it is there. -/
def writtenTrack : Option Track → Bytes
  | none => [0]
  | some track => 1 :: track.written

namespace Description

/-- The file with a version and a type of instrument. -/
def written (description : Description) (version : Bytes) (kind : UInt8) : Bytes :=
  asciiBytes "FTI" ++ version ++ [kind] ++
    Bytes.ofValue 4 description.name.length ++ asciiBytes description.name ++
    [UInt8.ofNat description.tracks.length] ++ description.tracks.flatMap writtenTrack

def track? (description : Description) (number : Nat) : Option Track :=
  description.tracks[number]?.join

def firstDuty (description : Description) : Option Int8 :=
  (description.track? 4).bind (·.items.head?)

/-- What is taken over from a description. -/
def instrument (description : Description) (id : InstrumentId) : Instrument where
  id
  name := description.name
  duty := description.firstDuty.elim 0 (·.toInt % 4)
  volume := (description.track? 0).map Track.envelope
  arpeggio := (description.track? 1).map Track.envelope
  pitch := (description.track? 2).map Track.envelope

end Description

lemma reads_value {value : Int} (hlow : -2 ^ 31 ≤ value) (hhigh : value < 2 ^ 31) :
    Reads int32 (Bytes.ofValue 4 value) value := by
  have hsigned : Bytes.signed 32 (Bytes.ofValue 4 value).littleEndian = value :=
    Bytes.signed_ofValue (by decide : 0 < 4) hlow hhigh
  rw [← List.append_nil (Bytes.ofValue 4 value)]
  refine (reads_take (Bytes.length_ofValue 4 value)).bind ?_
  rw [hsigned]
  exact reads_pure value

lemma reads_int32 (value : Int32) : Reads int32 (Bytes.ofValue 4 value.toInt) value.toInt :=
  reads_value value.le_toInt value.toInt_lt

lemma reads_length {length : Nat} (h : length ≤ 255) :
    Reads int32 (Bytes.ofValue 4 length) length :=
  reads_value (by omega) (by omega)

lemma signed_item (item : Int8) : Bytes.signed 8 (Bytes.low item.toInt).toNat = item.toInt :=
  Bytes.signed_ofValue (by decide : 0 < 1) item.le_toInt item.toInt_lt

lemma nameChar_ascii {c : Char} (h : c.toNat < 128) : nameChar (UInt8.ofNat c.toNat) = c := by
  have hn : (UInt8.ofNat c.toNat).toNat = c.toNat :=
    UInt8.toNat_ofNat_of_lt' (show c.toNat < 256 by omega)
  have hlt : UInt8.ofNat c.toNat < 0x80 := by
    rw [UInt8.lt_iff_toNat_lt, hn]
    exact h
  rw [nameChar, if_pos hlt, hn, Char.ofNat_toNat]

lemma nameChars_ascii (description : Description) :
    (asciiBytes description.name).map nameChar = description.name.toList := by
  rw [asciiBytes, List.map_map]
  conv_rhs => rw [← List.map_id description.name.toList]
  exact List.map_congr_left fun c hc => nameChar_ascii (description.ascii c hc)

lemma reads_readSequence (track : Track) : Reads readSequence track.written track.envelope := by
  have hle := track.items_le
  have hcount : (0 ≤ (track.items.length : Int) &&
      (track.items.length : Int) ≤ longestSequence) = true := by
    simp [longestSequence, hle]
  have hitems : (track.items.flatMap fun item => Bytes.ofValue 1 item.toInt).length =
      (track.items.length : Int).toNat := by
    simp [List.length_flatMap]
  have hvalues : (track.items.flatMap fun item => Bytes.ofValue 1 item.toInt).map
      (fun b => Bytes.signed 8 b.toNat) = track.items.map Int8.toInt := by
    simp [Bytes.ofValue, signed_item, ← List.map_eq_flatMap]
  unfold Track.written
  rw [← List.append_nil (List.flatMap _ _)]
  simp only [List.append_assoc]
  refine (reads_length (by omega)).bind (.checked hcount ?_)
  refine (reads_int32 _).bind ((reads_int32 _).bind ((reads_int32 _).bind ?_))
  refine (reads_take hitems).bind ?_
  rw [hvalues]
  exact reads_pure _

/-- The instrument after a list of sequences, the first of which has the number `kind`. -/
def addTracks : (kind : Nat) → List (Option Track) → Instrument → Instrument
  | _, [], instrument => instrument
  | kind, none :: rest, instrument => addTracks (kind + 1) rest instrument
  | kind, some track :: rest, instrument =>
    addTracks (kind + 1) rest (applySequence instrument kind track.envelope)

lemma reads_readSequences (kind : Nat) (tracks : List (Option Track)) (instrument : Instrument) :
    Reads (readSequences kind tracks.length instrument) (tracks.flatMap writtenTrack)
      (addTracks kind tracks instrument) := by
  induction tracks generalizing kind instrument with
  | nil => exact reads_pure instrument
  | cons track rest ih =>
    rw [List.flatMap_cons]
    cases track with
    | none =>
      refine (reads_byte 0).bind ?_
      rw [if_neg (by decide)]
      exact ih (kind + 1) instrument
    | some track =>
      refine (reads_byte 1).bind ?_
      rw [if_pos rfl]
      exact (reads_readSequence track).bind (ih (kind + 1) _)

lemma applySequence_eq (instrument : Instrument) (kind : Nat) (content : Envelope) :
    applySequence instrument kind content = { instrument with
      duty := if kind = 4 then content.values.head?.elim instrument.duty (· % 4)
        else instrument.duty
      volume := if kind = 0 then some content else instrument.volume
      arpeggio := if kind = 1 then some content else instrument.arpeggio
      pitch := if kind = 2 then some content else instrument.pitch } := by
  match kind with
  | 0 | 1 | 2 | 3 | _ + 5 => rfl
  | 4 => cases hvalues : content.values <;> simp [applySequence, hvalues]

section Fields

variable {α : Type} (field : Instrument → α) (number : Nat) (change : Envelope → α → α)

/-- A field keeps its value behind the sequence that it belongs to. -/
lemma field_kept {kind : Nat} (h : ∀ instrument later content, kind ≤ later →
      field (applySequence instrument later content) = field instrument)
    (tracks : List (Option Track)) (instrument : Instrument) :
    field (addTracks kind tracks instrument) = field instrument := by
  induction tracks generalizing kind instrument with
  | nil => rfl
  | cons track rest ih =>
    have hrest := ih fun instrument later content (hle : kind + 1 ≤ later) =>
      h instrument later content (by omega)
    cases track with
    | none => exact hrest instrument
    | some track => exact (hrest _).trans (h instrument kind track.envelope le_rfl)

/-- A field has what the sequence that it belongs to makes of it. -/
lemma field_addTracks (h : ∀ instrument kind content,
      field (applySequence instrument kind content) =
        if kind = number then change content (field instrument) else field instrument)
    {kind offset : Nat} (hnumber : number = kind + offset) (tracks : List (Option Track))
    (instrument : Instrument) :
    field (addTracks kind tracks instrument) =
      tracks[offset]?.join.elim (field instrument)
        fun track => change track.envelope (field instrument) := by
  induction tracks generalizing kind offset instrument with
  | nil => rfl
  | cons track rest ih =>
    cases offset with
    | zero =>
      -- The first sequence is the one of the field, and no later one changes it again.
      have hkept := field_kept field (fun instrument later content (hle : kind + 1 ≤ later) =>
        (h instrument later content).trans (if_neg (by omega))) rest
      cases track with
      | none => exact hkept instrument
      | some track =>
        rw [addTracks, hkept, h, if_pos (by omega)]
        rfl
    | succ offset =>
      have hrest := ih (show number = kind + 1 + offset by omega)
      cases track with
      | none => exact hrest instrument
      | some track =>
        rw [addTracks, hrest, h, if_neg (by omega)]
        rfl

end Fields

/-- An envelope is that of the sequence that it belongs to. -/
lemma envelope_addTracks (field : Instrument → Option Envelope) (number : Nat)
    (h : ∀ instrument kind content, field (applySequence instrument kind content) =
      if kind = number then some content else field instrument)
    (description : Description) {instrument : Instrument} (hnone : field instrument = none) :
    field (addTracks 0 description.tracks instrument) =
      (description.track? number).map Track.envelope := by
  rw [field_addTracks field number (fun content _ => some content) h (Nat.zero_add number).symm,
    hnone, Description.track?]
  cases description.tracks[number]?.join <;> rfl

/-- The duty is the first item of the sequence that it belongs to. -/
lemma duty_addTracks (description : Description) {instrument : Instrument}
    (hzero : instrument.duty = 0) :
    (addTracks 0 description.tracks instrument).duty =
      description.firstDuty.elim 0 (·.toInt % 4) := by
  rw [field_addTracks Instrument.duty 4
    (fun content duty => content.values.head?.elim duty (· % 4))
    (fun _ _ _ => by rw [applySequence_eq]) (Nat.zero_add 4).symm, hzero,
    Description.firstDuty, Description.track?]
  cases description.tracks[4]?.join with
  | none => rfl
  | some track => cases hitems : track.items <;> simp [Track.envelope, hitems]

lemma addTracks_eq (description : Description) (id : InstrumentId) :
    addTracks 0 description.tracks { id, name := description.name } =
      description.instrument id := by
  let made := addTracks 0 description.tracks { id, name := description.name }
  have hid : made.id = id :=
    field_kept Instrument.id (fun _ _ _ _ => by rw [applySequence_eq]) _ _
  have hname : made.name = description.name :=
    field_kept Instrument.name (fun _ _ _ _ => by rw [applySequence_eq]) _ _
  have hduty : made.duty = description.firstDuty.elim 0 (·.toInt % 4) :=
    duty_addTracks description rfl
  have hvolume : made.volume = (description.track? 0).map Track.envelope :=
    envelope_addTracks Instrument.volume 0 (fun _ _ _ => by rw [applySequence_eq]) description rfl
  have harpeggio : made.arpeggio = (description.track? 1).map Track.envelope :=
    envelope_addTracks Instrument.arpeggio 1 (fun _ _ _ => by rw [applySequence_eq]) description rfl
  have hpitch : made.pitch = (description.track? 2).map Track.envelope :=
    envelope_addTracks Instrument.pitch 2 (fun _ _ _ => by rw [applySequence_eq]) description rfl
  have hfields : made = ⟨made.id, made.name, made.duty, made.volume, made.arpeggio, made.pitch⟩ :=
    rfl
  rw [hid, hname, hduty, hvolume, harpeggio, hpitch] at hfields
  exact hfields

lemma reads_readInstrument (description : Description) (id : InstrumentId) :
    Reads (readInstrument id)
      (Bytes.ofValue 4 description.name.length ++ (asciiBytes description.name ++
        ([UInt8.ofNat description.tracks.length] ++ description.tracks.flatMap writtenTrack)))
      (description.instrument id) := by
  have hname := description.name_le
  have htracks := description.tracks_le
  have hlength : (0 ≤ (description.name.length : Int) &&
      (description.name.length : Int) < 256) = true := by
    simp
    omega
  have hbytes : (asciiBytes description.name).length = (description.name.length : Int).toNat := by
    simp [asciiBytes, String.length_toList]
  have hcount : (UInt8.ofNat description.tracks.length).toNat = description.tracks.length :=
    UInt8.toNat_ofNat_of_lt' (show description.tracks.length < 256 by omega)
  refine (reads_length hname).bind (.checked hlength ?_)
  refine (reads_take hbytes).bind ((reads_byte _).bind ?_)
  rw [hcount, nameChars_ascii, String.ofList_toList, ← addTracks_eq]
  exact reads_readSequences 0 description.tracks _

/-- Reading a written file gives back what is taken over from its description. -/
theorem written_loads (description : Description) {version : Bytes} (hsize : version.length = 3)
    (hversion : isKnownVersion version = true) {kind : UInt8} (hkind : kind = 0 ∨ kind = 1)
    (id : InstrumentId) (trailing : Bytes) :
    load? id (description.written version kind ++ trailing) =
      some (description.instrument id) := by
  have hmagic : decide (asciiBytes "FTI" = magic) = true := by decide
  have hknown : (kind == 0 || kind == 1) = true := by simpa using hkind
  have hread : Reads (readFile id) (description.written version kind)
      (description.instrument id) := by
    unfold Description.written
    simp only [List.append_assoc]
    refine Reads.bind (reads_take (by decide)) (.checked hmagic ?_)
    refine (reads_take hsize).bind (.checked hversion ?_)
    exact (reads_byte kind).bind (.checked hknown (reads_readInstrument description id))
  rw [load?, hread]
  rfl

/-- An instrument with positions outside of its sequences, a sequence that is switched off, an empty
one, and two that no field belongs to. -/
def pluck : Description where
  name := "pluck"
  tracks := [some { items := [15, 10, 5], loop := 1, release := 3 }, none, some { items := [] },
    some { items := [-128, 127], release := 1, setting := 7 },
    some { items := [-2, 1], loop := -2147483648 }, some { items := [9] }]

def pluckTaken : Instrument where
  id := 3
  name := "pluck"
  duty := 2
  volume := some { values := [15, 10, 5], loop := 1 }
  pitch := some { values := [] }

/-- The version is any numeral up to 2.4, and what follows the file can be anything. -/
theorem pluck_loads : isKnownVersion [0x20, 0x32, 0x2e] = true ∧
    load? 3 (pluck.written [0x20, 0x32, 0x2e] 0 ++ [1, 0]) = some pluckTaken := by
  have hversion : isKnownVersion [0x20, 0x32, 0x2e] = true := by decide +kernel
  have htaken : pluck.instrument 3 = pluckTaken := by decide +kernel
  have hloads := written_loads pluck (by decide) hversion (.inl rfl) 3 [1, 0]
  exact ⟨hversion, htaken ▸ hloads⟩

end Chiptune.Fti
