import Chiptune.Proofs.DocumentSize
import Chiptune.Proofs.LinkedNames
import Chiptune.Proofs.SampleRegions

/-!
# Samples in linked data

The offset byte of an entry in the linked sample table counts from `0xC000`, where the driver can
play samples from, in steps of 64 bytes. It leads to the sample wherever the samples are linked, as
long as the sample lies below the end of memory, and one bank too low otherwise.
-/

namespace Chiptune

open Assembly

/-- A mapped sample is the one of the project that has its number. -/
def Project.TellsSamples (project : Project) : Prop :=
  ∀ entry ∈ project.mapping, ∀ mapping ∈ entry, ∀ mapped ∈ mapping.sample,
    ∀ sample ∈ project.samples, sample.id = mapped.id → sample = mapped

section Regions

variable {project : Project} {sample : Sample} {address : Nat}

/-- Where a sample with an address lies in the blob. -/
lemma region_of_address (htold : ∀ found ∈ project.samples, found.id = sample.id → found = sample)
    (h : project.sampleAddress sample = .ok address) :
    Sample.alignment ∣ address ∧ address + sample.data.length ≤ project.sampleSize ∧
      (project.sampleBlob.drop address).take sample.data.length = sample.data := by
  obtain ⟨place, found, hfound, hid, rfl⟩ := addressIn_eq_ok h
  obtain rfl := htold found (List.mem_of_getElem? hfound) hid
  obtain ⟨later, hlater⟩ := drop_blob hfound
  have hend := region_before hfound (List.getElem?_eq_some_iff.mp hfound).1
  rw [List.take_length] at hend
  exact ⟨dvd_total _, hend, by rw [Project.sampleBlob, hlater, List.take_left]⟩

lemma prepare_samples (project : Project) (wanted : Option (List Int)) (kernel : Kernel) :
    (project.prepare wanted kernel).samples = project.samples ∧
      (project.prepare wanted kernel).mapping = project.mapping := by
  unfold Project.prepare Project.select
  cases wanted with
  | none => exact ⟨rfl, rfl⟩
  | some ids => exact ⟨rfl, rfl⟩

end Regions

namespace Assembly

section Lines

variable {address : Label → Int} {page : Int} {before after : List Line} {line : Line}

lemma Line.length_code (line : Line) : (line.code address page).length = line.size := by
  cases line with
  | blank | comment _ | label _ | count _ | sample _ _ _ _ => rfl
  | bytes values remark => simp [Line.code, Line.size]
  | words operands =>
    have hword : ∀ operand ∈ operands, (Bytes.lowWord (operand.value address)).length = 2 :=
      fun _ _ => rfl
    rw [code, length_flatMap_uniform hword, size, Nat.mul_comm]

lemma length_flatMap_code (lines : List Line) :
    (lines.flatMap (Line.code address page)).length = total Line.size lines := by
  induction lines with
  | nil => rfl
  | cons line rest ih => rw [List.flatMap_cons, List.length_append, line.length_code, ih, total]

lemma drop_flatMap_code :
    ((before ++ line :: after).flatMap (Line.code address page)).drop (total Line.size before) =
      line.code address page ++ after.flatMap (Line.code address page) := by
  rw [List.flatMap_append, ← @length_flatMap_code address page, List.drop_left, List.flatMap_cons]

end Lines

end Assembly

namespace Export

/-- The place of the sample table in a document: it comes after the header and the instruments. -/
def sampleTablePlace (prepared : Project) : Nat :=
  5 + 14 * prepared.songs.length + 8 * prepared.instruments.length

section Table

variable {prepared : Project} {options : Options} {parts : Parts}

lemma size_before_samples (h : Composed prepared options parts) : ∃ before after,
    parts.lines prepared = before ++ .label .samples :: after ∧
      total Line.size before = sampleTablePlace prepared := by
  obtain ⟨samples, -, hlines⟩ := tableLines_eq_ok h.tableLines
  refine ⟨parts.comments ++ headerLines prepared parts.name ++
    (Line.label .instruments :: (instrumentTable prepared parts.tables ++ [Line.blank])),
    samples ++ envelopeLines parts.tables.streams ++ songLines parts.codes, ?_, ?_⟩
  · rw [Parts.lines, hlines]
    simp only [List.append_assoc, List.cons_append]
  · have hinstruments := size_instrumentTable (InstrumentTables.build_within h.tables).1
    rw [total_append, total_append, size_comments, size_headerLines, total, total_append,
      hinstruments, sampleTablePlace]
    simp [total, Line.size]

/-- The header holds the address of the table less three, as the first slot has no entry. -/
lemma header_samples (parts : Parts) (prepared : Project) : ∃ before after,
    parts.lines prepared = before ++ .words [.before .samples 3] :: after ∧
      total Line.size before = 3 := by
  let first : List Line := [.blank, .label (.musicData parts.name), .count prepared.songs.length,
    .words [.label .instruments]]
  obtain ⟨rest, hheader⟩ : ∃ rest, headerLines prepared parts.name =
      first ++ .words [.before .samples 3] :: rest := ⟨_, rfl⟩
  refine ⟨parts.comments ++ first, rest ++ parts.tableLines ++ songLines parts.codes, ?_, ?_⟩
  · rw [Parts.lines, hheader]
    simp only [List.append_assoc, List.cons_append]
  · rw [total_append, size_comments]
    rfl

/-- The line of a slot lies three bytes behind the line of the slot before. -/
lemma sampleLine_place (h : Composed prepared options parts)
    (hcoherent : Coherent (parts.lines prepared)) (huses : prepared.usesSamples = true)
    {slot : Nat} (hslot : 1 ≤ slot) (hlt : slot < Project.mappingSlots)
    {entry : Option SampleMapping} (hentry : prepared.mapping[slot]? = some entry) :
    ∃ before line after, parts.lines prepared = before ++ line :: after ∧
      total Line.size before = sampleTablePlace prepared + 3 * (slot - 1) ∧
      sampleLine prepared slot entry = .ok line := by
  obtain ⟨first, last, hsplit, hplace⟩ := size_before_samples h
  obtain ⟨before, entries, after, line, hlines, -, hsize, hline⟩ :=
    tableLines_entry h.tableLines huses hslot hlt hentry
  have hother : parts.lines prepared =
      (parts.comments ++ headerLines prepared parts.name ++ before) ++ .label .samples ::
        (entries ++ line :: (after ++ songLines parts.codes)) := by
    rw [Parts.lines, hlines]
    simp only [List.append_assoc, List.cons_append]
  -- The label stands only once, so both splits are the same one.
  have haddress := addressOf_split (hsplit ▸ hcoherent) 0
  rw [← hsplit, hother, addressOf_split (hother ▸ hcoherent), hplace] at haddress
  refine ⟨parts.comments ++ headerLines prepared parts.name ++ before ++
    .label .samples :: entries, line, after ++ songLines parts.codes, ?_, ?_, hline⟩
  · rw [hother]
    simp only [List.append_assoc, List.cons_append]
  · have hlabel : Line.size (.label .samples) = 0 := rfl
    rw [total_append, total, hlabel]
    omega

end Table

/-- A place in the blob from an address on that is in steps of 64 bytes. -/
lemma low_page {sampleOffset : Int} {address : Nat} (hpage : 64 ∣ sampleOffset)
    (hfirst : 0xC000 ≤ sampleOffset) (hlast : sampleOffset ≤ 0xFFC0) (haligned : 64 ∣ address)
    (hbank : address < 0x4000) :
    0xC000 + 64 * ((Bytes.low ((address / 64 : Nat) + samplePage sampleOffset)).toNat : Int) =
      if sampleOffset + address < 0x10000 then sampleOffset + address
      else sampleOffset + address - 0x4000 := by
  obtain ⟨page, rfl⟩ := hpage
  obtain ⟨place, rfl⟩ := haligned
  have hvalue : ((64 * place / 64 : Nat) : Int) + samplePage (64 * page) =
      place + page - 0x300 := by
    rw [samplePage]
    omega
  rw [hvalue, Bytes.low,
    UInt8.toNat_ofNat_of_lt' (show ((place + page - 0x300) % 256).toNat < 256 by omega)]
  split <;> omega

section Linked

variable {project : Project} {options : Options} {linked : Bytes × Option Bytes}
  {songOffset sampleOffset : Int}

/-- What is linked for a project with samples. -/
lemma link_lines (hnames : NamedOnOneLine project options)
    (h : link project options (some songOffset) (some sampleOffset) = .ok linked) :
    ∃ parts, Composed (project.prepare options.wanted options.kernel) options parts ∧
      Coherent (parts.lines (project.prepare options.wanted options.kernel)) ∧
      linked = ((parts.lines (project.prepare options.wanted options.kernel)).flatMap
        (Line.code (labelAddress songOffset
          (parts.lines (project.prepare options.wanted options.kernel)))
          (samplePage sampleOffset)),
        if project.usesSamples then some project.sampleBlob else none) := by
  obtain ⟨result, hresult, -, rfl⟩ := (link_iff hnames songOffset sampleOffset).mp h
  have hcoherent := hnames.coherent hresult
  obtain ⟨parts, hcomposed, -, rfl⟩ := document_eq_ok hresult
  obtain ⟨hsamples, hmapping⟩ := prepare_samples project options.wanted options.kernel
  refine ⟨parts, hcomposed, hcoherent, ?_⟩
  rw [Parts.document, Project.usesSamples, Project.sampleBlob, hsamples, hmapping]
  rfl

/-- The header of linked data leads to the sample table. -/
lemma link_header (hnames : NamedOnOneLine project options)
    (h : link project options (some songOffset) (some sampleOffset) = .ok linked) :
    (linked.1.drop 3).take 2 = Bytes.lowWord (songOffset +
      sampleTablePlace (project.prepare options.wanted options.kernel) - 3) := by
  obtain ⟨parts, hcomposed, hcoherent, rfl⟩ := link_lines hnames h
  obtain ⟨before, after, hsplit, hplace⟩ := size_before_samples hcomposed
  obtain ⟨header, rest, hheader, hthree⟩ :=
    header_samples parts (project.prepare options.wanted options.kernel)
  have haddress : labelAddress songOffset
      (parts.lines (project.prepare options.wanted options.kernel)) .samples =
        songOffset + sampleTablePlace (project.prepare options.wanted options.kernel) := by
    rw [labelAddress, hsplit, addressOf_split (hsplit ▸ hcoherent), hplace, Nat.zero_add]
  rw [← haddress, ← hthree]
  generalize labelAddress songOffset _ = address
  rw [hheader, drop_flatMap_code]
  rfl

/-- The first byte of the entry of a slot with a sample. -/
lemma link_entry (hnames : NamedOnOneLine project options)
    (h : link project options (some songOffset) (some sampleOffset) = .ok linked) {slot : Nat}
    (hslot : 1 ≤ slot) (hlt : slot < Project.mappingSlots) {mapping : SampleMapping}
    {sample : Sample} (hmapping : project.mapping[slot]? = some (some mapping))
    (hsample : mapping.sample = some sample) :
    linked.2 = some project.sampleBlob ∧ project.sampleSize ≤ Limits.sampleBank ∧
      ∃ address, project.sampleAddress sample = .ok address ∧
        linked.1[sampleTablePlace (project.prepare options.wanted options.kernel) +
          3 * (slot - 1)]? =
            some (Bytes.low ((address / 64 : Nat) + samplePage sampleOffset)) := by
  obtain ⟨parts, hcomposed, hcoherent, rfl⟩ := link_lines hnames h
  have hsame := prepare_samples project options.wanted options.kernel
  generalize project.prepare options.wanted options.kernel = prepared at hcomposed hcoherent hsame ⊢
  have huses := usesSamples_of_mapping hmapping hsample
  have hprepared : prepared.mapping[slot]? = some (some mapping) := by rw [hsame.2, hmapping]
  obtain ⟨before, line, after, hlines, hplace, hline⟩ := sampleLine_place hcomposed hcoherent
    (usesSamples_of_mapping hprepared hsample) hslot hlt hprepared
  have hbank := (checkSamples_of_tableLines hcomposed.tableLines
    (usesSamples_of_mapping hprepared hsample)).2
  rw [Project.sampleSize, hsame.1] at hbank
  rw [sampleLine, Option.bind_some, hsample, Option.map_some] at hline
  obtain ⟨address, haddress, hline⟩ := (bind_eq_ok_iff _ _ _).mp hline
  obtain rfl := Except.ok.inj hline
  rw [Project.sampleAddress, hsame.1] at haddress
  refine ⟨if_pos huses, hbank, address, haddress, ?_⟩
  dsimp only
  generalize labelAddress songOffset _ = places
  rw [hlines, ← hplace, ← List.head?_drop, drop_flatMap_code]
  rfl

/-- The offset byte of a mapped sample leads to the sample if that lies below the end of memory, and
is one bank too low otherwise. -/
theorem link_samples (hnames : NamedOnOneLine project options) (htold : project.TellsSamples)
    (hpage : 64 ∣ sampleOffset) (hfirst : 0xC000 ≤ sampleOffset) (hlast : sampleOffset ≤ 0xFFC0)
    (h : link project options (some songOffset) (some sampleOffset) = .ok linked) :
    let table := sampleTablePlace (project.prepare options.wanted options.kernel)
    (linked.1.drop 3).take 2 = Bytes.lowWord (songOffset + table - 3) ∧
      ∀ slot mapping sample, 1 ≤ slot → slot < Project.mappingSlots →
        project.mapping[slot]? = some (some mapping) → mapping.sample = some sample →
        sample.data ≠ [] → ∃ blob address offset, linked.2 = some blob ∧
          project.sampleAddress sample = .ok address ∧
          (blob.drop address).take sample.data.length = sample.data ∧
          linked.1[table + 3 * (slot - 1)]? = some offset ∧
          (sampleOffset + address < 0x10000 →
            0xC000 + 64 * (offset.toNat : Int) = sampleOffset + address) ∧
          (0x10000 ≤ sampleOffset + address →
            0xC000 + 64 * (offset.toNat : Int) = sampleOffset + address - 0x4000) ∧
          (sampleOffset + project.sampleSize ≤ 0x10000 → sampleOffset + address < 0x10000) := by
  refine ⟨link_header hnames h, fun slot mapping sample hslot hlt hmapping hsample hdata => ?_⟩
  obtain ⟨hblob, hbank, address, haddress, hentry⟩ :=
    link_entry hnames h hslot hlt hmapping hsample
  obtain ⟨haligned, hend, hregion⟩ := region_of_address
    (htold _ (List.mem_of_getElem? hmapping) mapping rfl sample hsample) haddress
  have hfilled := List.length_pos_iff.mpr hdata
  have hlow : address < 0x4000 := by
    simp only [Limits.sampleBank] at hbank
    omega
  have hoffset := low_page hpage hfirst hlast haligned hlow
  refine ⟨_, address, _, hblob, haddress, hregion, hentry, fun hin => ?_, fun hout => ?_,
    fun hfits => by omega⟩
  · rw [hoffset, if_pos hin]
  · rw [hoffset, if_neg (by omega)]

end Linked

/-- A project with a drum on each of two notes. -/
def drumKit : Project :=
  { nursery with
    samples := [kick, snare]
    mapping := ((List.replicate 64 none).set 3 (some ⟨some kick, 15, true⟩)).set 4
      (some ⟨some snare, 15, false⟩) }

lemma drumKit_linkable : Linkable drumKit := by
  intro song hm
  obtain rfl := List.mem_singleton.mp hm
  exact ⟨rfl, Text.oneLine_of_any (by decide)⟩

lemma drumKit_table : sampleTablePlace (drumKit.prepare none .extended) = 27 := by decide +kernel

lemma drumKit_links (songOffset sampleOffset : Int) :
    ∃ linked, link drumKit {} (some songOffset) (some sampleOffset) = .ok linked := by
  have hok : (document drumKit {}).isOk = true := by decide +kernel
  obtain ⟨result, hresult⟩ := ok_of_isOk hok
  have hsound : Dialect.asm6.Sound := Dialect.sound_of_mem (by simp [Dialect.all])
  have hcontained :=
    (assemble_document hresult drumKit_linkable hsound songOffset sampleOffset).2.1
  exact ⟨_, (link_iff (drumKit_linkable.named {}) songOffset sampleOffset).mpr
    ⟨result, hresult, hcontained, rfl⟩⟩

theorem drumKit_kick : NamedOnOneLine drumKit {} ∧ drumKit.TellsSamples ∧
    ∃ linked offset, link drumKit {} (some 0x8000) (some 0xFF80) = .ok linked ∧
      linked.1[33]? = some offset ∧ drumKit.sampleAddress kick = .ok 0 ∧
      0xC000 + 64 * (offset.toNat : Int) = 0xFF80 := by
  have hnames := drumKit_linkable.named {}
  have htold : drumKit.TellsSamples := by
    unfold Project.TellsSamples
    decide
  obtain ⟨linked, hlink⟩ := drumKit_links 0x8000 0xFF80
  obtain ⟨-, hall⟩ := link_samples hnames htold (by decide) (by decide) (by decide) hlink
  obtain ⟨blob, address, offset, -, haddress, -, hentry, hreached, -⟩ :=
    hall 3 ⟨some kick, 15, true⟩ kick (by decide) (by decide) rfl rfl (by decide)
  obtain rfl : 0 = address := Except.ok.inj haddress
  rw [drumKit_table] at hentry
  exact ⟨hnames, htold, linked, offset, hlink, hentry, rfl, hreached (by decide)⟩

/-- The snare is linked from the end of memory on, which its offset byte cannot tell. -/
theorem drumKit_snare : ∃ linked, link drumKit {} (some 0x8000) (some 0xFF80) = .ok linked ∧
    drumKit.mapping[4]? = some (some ⟨some snare, 15, false⟩) ∧ snare.data ≠ [] ∧
    drumKit.sampleAddress snare = .ok 128 ∧ linked.1[36]? = some 0 ∧
    ¬ (0xC000 + 64 * ((0 : UInt8).toNat : Int) = 0xFF80 + 128) := by
  obtain ⟨linked, hlink⟩ := drumKit_links 0x8000 0xFF80
  have hmapping : drumKit.mapping[4]? = some (some ⟨some snare, 15, false⟩) := rfl
  obtain ⟨-, -, address, haddress, hentry⟩ := link_entry (drumKit_linkable.named {}) hlink
    (by decide) (by decide) hmapping rfl
  obtain rfl : 128 = address := Except.ok.inj haddress
  rw [drumKit_table] at hentry
  exact ⟨linked, hlink, hmapping, by decide, rfl, hentry, by decide⟩

end Export

end Chiptune
