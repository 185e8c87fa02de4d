import Chiptune.Export.Document
import Chiptune.Proofs.ExportSharing
import Chiptune.Proofs.LineCode

/-!
# The lines of a document

Whatever the names in a project are, its document consists of proper lines: comments stay on one
line, and no label is defined twice.
-/

namespace Chiptune.Export

open Assembly Text

lemma isUpper_of_mem_lower {s : List Char} {c : Char} (h : c ∈ lower s) : c.isUpper = false := by
  obtain ⟨d, -, hc⟩ := List.mem_flatMap.mp h
  rw [lowerChar] at hc
  split at hc
  · rcases List.mem_cons.mp hc with rfl | hc
    · decide
    · obtain rfl := List.mem_singleton.mp hc
      decide
  · split at hc
    · obtain rfl := List.mem_singleton.mp hc
      decide
    · obtain rfl := List.mem_singleton.mp hc
      exact d.isUpper_toLower_eq_false

lemma plain_of_parts {s : List Char} (hne : s ≠ [])
    (hstart : ∀ c ∈ s.head?, c.isDigit = false)
    (hparts : ∀ c ∈ s, c.isLower = true ∨ c.isDigit = true ∨ c = '_') :
    (Label.musicData (String.ofList s)).Plain := by
  rw [Label.Plain, String.toList_ofList]
  refine ⟨⟨?_, hne, ?_⟩, ?_, ?_⟩
  · intro c hc
    rcases hparts c (List.mem_of_mem_head? hc) with h | h | rfl
    · simp [isSymbolStart, Char.isAlpha, h]
    · rw [hstart c hc] at h
      cases h
    · decide
  · intro c hc
    rcases hparts c hc with h | h | rfl
    · simp [isNamePart, h]
    · simp [isNamePart, h]
    · decide
  · intro hm
    exact absurd (hparts _ hm) (by decide)
  · intro hm
    exact absurd (hparts _ hm) (by decide)

lemma plain_labelName (name : String) : (Label.musicData (labelName name)).Plain := by
  have hparts : ∀ c ∈ (lower (trim name.toList)).map (fun c => if c.isAlphanum then c else '_'),
      c.isLower = true ∨ c.isDigit = true ∨ c = '_' := by
    intro c hc
    obtain ⟨d, hd, rfl⟩ := List.mem_map.mp hc
    by_cases halpha : d.isAlphanum = true
    · have hupper := isUpper_of_mem_lower hd
      rw [if_pos halpha]
      simp only [Char.isAlphanum, Char.isAlpha, hupper, Bool.false_or, Bool.or_eq_true] at halpha
      exact halpha.imp_right .inl
    · exact .inr (.inr (if_neg halpha))
  unfold labelName
  dsimp only
  split
  · exact plain_of_parts (by simp) (by simp) (by simp)
  · next c rest hspelled =>
    rw [hspelled] at hparts ⊢
    by_cases hdigit : c.isDigit = true
    · rw [if_pos hdigit]
      refine plain_of_parts (by simp) (by simp) fun d hd => ?_
      rcases List.mem_cons.mp hd with rfl | hd
      · exact .inr (.inr rfl)
      · exact hparts d hd
    · rw [if_neg hdigit]
      exact plain_of_parts (by simp) (by simpa using hdigit) hparts

lemma isPrintable_of_isLineBreak {c : Char} (h : isLineBreak c = true) :
    isPrintable c = false := by
  simp only [isLineBreak, Bool.or_eq_true, Bool.and_eq_true, decide_eq_true_eq, beq_iff_eq] at h
  have hall : ∀ first last : Nat, (first, last) ∈ unprintableRuns → first ≤ c.toNat →
      c.toNat ≤ last → 0x7F ≤ c.toNat → isPrintable c = false := by
    intro first last hm hfirst hlast hbig
    rw [isPrintable, if_neg (by omega), Bool.not_eq_false', List.any_eq_true]
    exact ⟨_, hm, by simp [hfirst, hlast]⟩
  by_cases hsmall : c.toNat < 0x20
  · rw [isPrintable, if_pos (by omega), decide_eq_false_iff_not]
    omega
  · have hcases : c.toNat = 0x85 ∨ 0x2028 ≤ c.toNat ∧ c.toNat ≤ 0x202F := by omega
    rcases hcases with hc | hc
    · exact hall 0x7F 0xA0 (by decide) (by omega) (by omega) (by omega)
    · exact hall 0x2028 0x202F (by decide) hc.1 hc.2 (by omega)

lemma oneLine_commentText (name : Points) : OneLine (commentText name).toList := by
  intro c hc
  rw [commentText, String.toList_ofList] at hc
  obtain ⟨point, -, rfl⟩ := List.mem_map.mp hc
  cases point with
  | half n =>
    show isLineBreak ' ' = false
    decide
  | char d =>
    by_cases hd : isPrintable d = true
    · simp only [if_pos hd]
      by_contra hbreak
      rw [isPrintable_of_isLineBreak (by simpa using hbreak)] at hd
      exact nomatch hd
    · simp only [if_neg hd]
      decide

/-- What a document is put together from. -/
structure Parts where
  name : String
  tables : InstrumentTables
  tableLines : List Line
  songs : List (Song × Choice)

namespace Parts

variable (parts : Parts)

def codes : List SongCode := parts.songs.map fun entry => entry.2.code

def summaries : List SongSummary := parts.songs.map fun entry => summary entry.1 entry.2

/-- The comments at the start. -/
def comments : List Line :=
  titleLine :: parts.summaries.zipIdx.map fun entry => summaryLine entry.1 entry.2

def lines (prepared : Project) : List Line :=
  parts.comments ++ headerLines prepared parts.name ++ parts.tableLines ++ songLines parts.codes

end Parts

/-- The parts of the document of a prepared project. -/
structure Composed (prepared : Project) (options : Options) (parts : Parts) : Prop where
  count : prepared.songs.length ≤ Limits.songs
  name : ∃ source, parts.name = labelName source
  tables : InstrumentTables.build prepared options.kernel = .ok parts.tables
  tableLines : tableLines prepared parts.tables = .ok parts.tableLines
  songs : encodeSongs ⟨options.kernel, prepared.instrumentIndex?, options.capacity⟩
    options.pieceRows {} prepared.songs = .ok parts.songs

/-- The document with the announced size. -/
def Parts.document (parts : Parts) (prepared : Project) : Document where
  lines := parts.lines prepared
  songs := parts.summaries
  samples := if prepared.usesSamples then some prepared.sampleBlob else none
  size := total Line.size (headerLines prepared parts.name ++ parts.tableLines) +
    total SongSummary.size parts.summaries

/-- The document of parts, put together as `document` does. -/
lemma Parts.document_eq (name : String) (tables : InstrumentTables) (lines : List Line)
    (songs : List (Song × Choice)) (prepared : Project) :
    Parts.document ⟨name, tables, lines, songs⟩ prepared =
      { lines := titleLine ::
          ((songs.map fun (song, choice) => summary song choice).zipIdx.map
            fun (s, number) => summaryLine s number) ++ headerLines prepared name ++ lines ++
            songs.zipIdx.flatMap fun ((_, choice), number) => choice.code.lines number
        songs := songs.map fun (song, choice) => summary song choice
        samples := if prepared.usesSamples then some prepared.sampleBlob else none
        size := total Line.size (headerLines prepared name ++ lines) +
          total SongSummary.size (songs.map fun (song, choice) => summary song choice) } := by
  have hcodes : songLines (songs.map fun entry => entry.2.code) =
      songs.zipIdx.flatMap fun entry => entry.1.2.code.lines entry.2 := by
    rw [songLines, List.zipIdx_map, List.flatMap_map]
    rfl
  rw [Parts.document, Parts.lines, Parts.codes, hcodes]
  rfl

lemma document_eq_ok {project : Project} {options : Options} {result : Document}
    (h : document project options = .ok result) :
    ∃ parts, Composed (project.prepare options.wanted options.kernel) options parts ∧
      (project.prepare options.wanted options.kernel).songs.forM checkTempo = .ok () ∧
      result = parts.document (project.prepare options.wanted options.kernel) := by
  unfold document documentOf at h
  generalize project.prepare options.wanted options.kernel = prepared at h ⊢
  dsimp only at h
  split at h
  · next first rest hsongs =>
    split at h
    · cases h
    · next hcount =>
      obtain ⟨⟨⟩, htempo, h⟩ := (bind_eq_ok_iff _ _ _).mp h
      obtain ⟨tables, htables, h⟩ := (bind_eq_ok_iff _ _ _).mp h
      obtain ⟨lines, hlines, h⟩ := (bind_eq_ok_iff _ _ _).mp h
      obtain ⟨songs, hencode, h⟩ := (bind_eq_ok_iff _ _ _).mp h
      obtain rfl := Except.ok.inj h
      refine ⟨⟨labelName (if options.nameBySong then first.name else prepared.name), tables, lines,
        songs⟩, ⟨by omega, ⟨_, rfl⟩, htables, hlines, hencode⟩, htempo, ?_⟩
      rw [Parts.document_eq]
  · cases h

/-! ### Proper lines -/

lemma oneLine_natural (n : Nat) : OneLine (toString n).toList := (word_natural n).oneLine

lemma plain_summaryLine {summary : SongSummary} (h : OneLine summary.name.toList) (number : Nat) :
    (summaryLine summary number).Plain := by
  have htext : ("song " ++ summaryText summary number).toList = "song ".toList ++
      ((toString number).toList ++ (" '".toList ++ (summary.name.toList ++
        ("': speed channel ".toList ++ ((toString summary.speedChannel).toList ++
          (", split factor ".toList ++ ((toString summary.factor).toList ++
            (", ".toList ++ ((toString summary.size).toList ++ " bytes".toList))))))))) := by
    simp [summaryText, toString]
  show OneLine ("song " ++ summaryText summary number).toList
  rw [htext]
  have hconst : ∀ s : String, s.toList.any isLineBreak = false → OneLine s.toList :=
    fun s hs => oneLine_of_any hs
  exact (hconst _ (by decide)).append ((oneLine_natural _).append ((hconst _ (by decide)).append
    (h.append ((hconst _ (by decide)).append ((oneLine_natural _).append
      ((hconst _ (by decide)).append ((oneLine_natural _).append ((hconst _ (by decide)).append
        ((oneLine_natural _).append (hconst _ (by decide)))))))))))

lemma plain_instrumentLines (number : Nat) (instrument : Instrument) (places : EnvelopePlaces) :
    ∀ line ∈ instrumentLines number instrument places, line.Plain ∧ line.label? = none := by
  intro line hm
  simp only [instrumentLines, List.mem_cons, List.not_mem_nil, or_false] at hm
  rcases hm with rfl | rfl | rfl
  · have htext : ("instrument " ++ String.ofList (hexPair number) ++ " (" ++
        commentText instrument.name ++ ")").toList = "instrument ".toList ++ (hexPair number ++
          (" (".toList ++ ((commentText instrument.name).toList ++ ")".toList))) := by
      simp
    refine ⟨?_, rfl⟩
    rw [Line.Plain, htext]
    have hconst : ∀ s : String, s.toList.any isLineBreak = false → OneLine s.toList :=
      fun s hs => oneLine_of_any hs
    exact (hconst _ (by decide)).append ((word_hexPair number).oneLine.append
      ((hconst _ (by decide)).append ((oneLine_commentText _).append (hconst _ (by decide)))))
  · refine ⟨?_, rfl⟩
    intro operand ho
    obtain ⟨n, -, rfl⟩ := List.mem_map.mp ho
    exact trivial
  · exact ⟨oneLine_of_any rfl, rfl⟩

lemma plain_sampleLine {project : Project} {slot : Nat} {entry : Option SampleMapping}
    {line : Line} (h : sampleLine project slot entry = .ok line) :
    line.Plain ∧ line.label? = none := by
  unfold sampleLine at h
  split at h
  · obtain rfl := Except.ok.inj h
    have htext : s!"{slot} ".toList = (toString slot).toList ++ " ".toList := by
      simp [toString]
    refine ⟨?_, rfl⟩
    rw [Line.Plain, htext]
    exact (oneLine_natural slot).append (oneLine_of_any (by decide))
  · next mapping sample _ =>
    obtain ⟨address, -, h⟩ := (bind_eq_ok_iff _ _ _).mp h
    obtain rfl := Except.ok.inj h
    have htext : s!"{slot} ({commentText sample.name})".toList = (toString slot).toList ++
        (" (".toList ++ ((commentText sample.name).toList ++ ")".toList)) := by
      simp [toString]
    refine ⟨?_, rfl⟩
    rw [Line.Plain, htext]
    have hconst : ∀ s : String, s.toList.any isLineBreak = false → OneLine s.toList :=
      fun s hs => oneLine_of_any hs
    exact (oneLine_natural slot).append ((hconst _ (by decide)).append
      ((oneLine_commentText sample.name).append (hconst _ (by decide))))

lemma plain_sampleTable {project : Project} {lines : List Line}
    (h : sampleTable project = .ok lines) : ∀ line ∈ lines, line.Plain ∧ line.label? = none := by
  unfold sampleTable at h
  split at h
  · obtain ⟨samples, hsamples, h⟩ := (bind_eq_ok_iff _ _ _).mp h
    obtain rfl := Except.ok.inj h
    intro line hm
    rcases List.mem_append.mp hm with hm | hm
    · obtain ⟨entry, -, hline⟩ := exists_left_of_mem ((mapM_eq_ok_iff _ _ _).mp hsamples) hm
      exact plain_sampleLine hline
    · obtain rfl := List.mem_singleton.mp hm
      exact ⟨trivial, rfl⟩
  · obtain rfl := Except.ok.inj h
    intro line hm
    exact absurd hm List.not_mem_nil

/-- The lines of the instruments, each with its places in the table of envelopes. -/
def instrumentTable (project : Project) (tables : InstrumentTables) : List Line :=
  (project.instruments.zip tables.places).zipIdx.flatMap fun entry =>
    instrumentLines entry.2 entry.1.1 entry.1.2

lemma tableLines_eq_ok {project : Project} {tables : InstrumentTables} {lines : List Line}
    (h : tableLines project tables = .ok lines) : ∃ samples, sampleTable project = .ok samples ∧
      lines = Line.label .instruments :: (instrumentTable project tables ++ [Line.blank]) ++
        Line.label .samples :: samples ++ envelopeLines tables.streams := by
  have hlines : ∀ samples, Line.label .instruments :: instrumentTable project tables ++
      [Line.blank, .label .samples] ++ samples ++ envelopeLines tables.streams =
      Line.label .instruments :: (instrumentTable project tables ++ [Line.blank]) ++
        Line.label .samples :: samples ++ envelopeLines tables.streams := by simp
  unfold tableLines at h
  dsimp only at h
  split at h
  · obtain ⟨-, -, h⟩ := (bind_eq_ok_iff _ _ _).mp h
    obtain ⟨samples, hsamples, h⟩ := (bind_eq_ok_iff _ _ _).mp h
    exact ⟨samples, hsamples, (Except.ok.inj h).symm.trans (hlines samples)⟩
  · obtain ⟨samples, hsamples, h⟩ := (bind_eq_ok_iff _ _ _).mp h
    exact ⟨samples, hsamples, (Except.ok.inj h).symm.trans (hlines samples)⟩

/-- Proper lines without labels stand between the labels of the tables and the envelopes. -/
lemma plain_tables {project : Project} {samples : List Line}
    (h : sampleTable project = .ok samples) (tables : InstrumentTables) :
    ∀ line ∈ (instrumentTable project tables ++ [Line.blank]) ++ samples,
      line.Plain ∧ line.label? = none := by
  intro line hm
  rcases List.mem_append.mp hm with hm | hm
  · rcases List.mem_append.mp hm with hm | hm
    · obtain ⟨entry, -, hm⟩ := List.mem_flatMap.mp hm
      exact plain_instrumentLines _ _ _ line hm
    · obtain rfl := List.mem_singleton.mp hm
      exact ⟨trivial, rfl⟩
  · exact plain_sampleTable h line hm

lemma plain_envelopeLines (streams : List Bytes) : ∀ line ∈ envelopeLines streams, line.Plain := by
  intro line hm
  obtain ⟨entry, -, hm⟩ := List.mem_flatMap.mp hm
  simp only [List.mem_cons, List.not_mem_nil, or_false] at hm
  rcases hm with rfl | rfl
  · exact trivial
  · exact oneLine_of_any rfl

lemma labelsOf_envelopeLines (streams : List Bytes) :
    labelsOf (envelopeLines streams) = (List.range streams.length).map .envelope := by
  have hentry : ∀ entry : Bytes × Nat, labelsOf [.label (.envelope entry.2),
      .bytes (entry.1.map fun b => (b.toNat : Int))] = [.envelope entry.2] := fun _ => rfl
  have hflat : labelsOf (envelopeLines streams) =
      streams.zipIdx.flatMap fun entry => [.envelope entry.2] := by
    rw [labelsOf, envelopeLines, List.filterMap_flatMap]
    rfl
  rw [hflat, ← List.map_eq_flatMap, List.range_eq_range', ← List.zipIdx_map_snd, List.map_map]
  rfl

lemma plain_headerLines (project : Project) (source : String) :
    ∀ line ∈ headerLines project (labelName source), line.Plain := by
  intro line hm
  rcases List.mem_append.mp hm with hm | hm
  · rcases List.mem_append.mp hm with hm | hm
    · simp only [List.mem_cons, List.not_mem_nil, or_false] at hm
      rcases hm with rfl | rfl | rfl | rfl | rfl
      · exact trivial
      · exact plain_labelName source
      · exact trivial
      · simp [Line.Plain, Operand.Plain, Label.Plain]
      · simp [Line.Plain, Operand.Plain, Label.Plain]
    · obtain ⟨entry, -, rfl⟩ := List.mem_map.mp hm
      intro operand ho
      rcases List.mem_append.mp ho with ho | ho
      · obtain ⟨channel, -, rfl⟩ := List.mem_map.mp ho
        exact trivial
      · simp only [List.mem_cons, List.not_mem_nil, or_false] at ho
        rcases ho with rfl | rfl
        · exact trivial
        · exact trivial
  · obtain rfl := List.mem_singleton.mp hm
    exact trivial

lemma labelsOf_headerLines (project : Project) (name : String) :
    labelsOf (headerLines project name) = [.musicData name] := by
  have hsongs : labelsOf (project.songs.zipIdx.map fun entry => headerLine entry.1 entry.2) =
      [] := by
    rw [labelsOf, List.filterMap_eq_nil_iff]
    intro line hm
    obtain ⟨entry, -, rfl⟩ := List.mem_map.mp hm
    rfl
  have hlines : headerLines project name = [Line.blank, .label (.musicData name),
      .count project.songs.length, .words [.label .instruments], .words [.before .samples 3]] ++
      project.songs.zipIdx.map (fun entry => headerLine entry.1 entry.2) ++ [Line.blank] := rfl
  rw [hlines, labelsOf_append, labelsOf_append, hsongs]
  rfl

lemma plain_slotLines (slot : SlotCode) : ∀ line ∈ slot.lines, line.Plain := by
  cases slot with
  | buffer number bytes => simp [SlotCode.lines, Line.Plain, Label.Plain, OneLine]
  | reference number rows =>
    simp [SlotCode.lines, Line.Plain, Operand.Plain, Label.Plain, OneLine]

lemma plain_channelLines (song channel : Nat) (code : ChannelCode) :
    ∀ line ∈ code.lines song channel, line.Plain := by
  have hslots : ∀ slots : List SlotCode, ∀ line ∈ slots.flatMap SlotCode.lines, line.Plain := by
    intro slots line hm
    obtain ⟨slot, -, hm⟩ := List.mem_flatMap.mp hm
    exact plain_slotLines slot line hm
  intro line hm
  simp only [ChannelCode.lines, List.mem_append] at hm
  rcases hm with ((((hm | hm) | hm) | hm) | hm) | hm
  · revert line
    simp [Line.Plain, Label.Plain]
  · obtain ⟨speed, -, rfl⟩ := List.mem_map.mp hm
    exact oneLine_of_any rfl
  · exact hslots _ line hm
  · obtain rfl := List.mem_singleton.mp hm
    exact trivial
  · exact hslots _ line hm
  · revert line
    simp [Line.Plain, Operand.Plain, Label.Plain, OneLine]

lemma plain_songLines (codes : List SongCode) : ∀ line ∈ songLines codes, line.Plain := by
  intro line hm
  obtain ⟨entry, -, hm⟩ := List.mem_flatMap.mp hm
  obtain ⟨lines, hl, hm⟩ := List.mem_flatten.mp hm
  obtain ⟨channel, -, rfl⟩ := List.mem_map.mp hl
  exact plain_channelLines _ _ _ line hm

lemma count_labelsOf (lines : List Line) (l : Label) :
    (labelsOf lines).count l = lines.count (.label l) := by
  induction lines with
  | nil => rfl
  | cons line rest ih =>
    rw [← List.singleton_append, labelsOf_append, List.count_append, List.count_append, ih]
    congr 1
    cases line with
    | label other => simp [labelsOf, Line.label?, List.count_singleton]
    | _ => simp [labelsOf, List.filterMap_cons, Line.label?]

section Entries

variable {α β : Type} {xs : List α} {n : Nat} {x : α}

lemma eq_take_cons_drop (h : xs[n]? = some x) : xs = xs.take n ++ x :: xs.drop (n + 1) := by
  obtain ⟨hlt, rfl⟩ := List.getElem?_eq_some_iff.mp h
  rw [← List.drop_eq_getElem_cons hlt, List.take_append_drop]

lemma flatMap_zipIdx_split (f : α × Nat → List β) (h : xs[n]? = some x) : ∃ after,
    xs.zipIdx.flatMap f = (xs.take n).zipIdx.flatMap f ++ (f (x, n) ++ after) := by
  have hlt := (List.getElem?_eq_some_iff.mp h).1
  refine ⟨((xs.drop (n + 1)).zipIdx (n + 1)).flatMap f, ?_⟩
  conv_lhs => rw [eq_take_cons_drop h]
  rw [List.zipIdx_append, List.zipIdx_cons, List.flatMap_append, List.flatMap_cons,
    List.length_take, min_eq_left hlt.le, Nat.zero_add]

end Entries

section Counts

variable {α : Type} {f : α × Nat → List Line} {y : Line} {b : Nat}

lemma count_zipIdx_eq_zero (h : ∀ x i, i ≠ b → (f (x, i)).count y = 0) (xs : List α)
    {start : Nat} (hb : b < start) : ((xs.zipIdx start).flatMap f).count y = 0 := by
  induction xs generalizing start with
  | nil => rfl
  | cons x rest ih =>
    rw [List.zipIdx_cons, List.flatMap_cons, List.count_append, h x start (by omega),
      ih (by omega)]

lemma count_zipIdx_le (h : ∀ x i, i ≠ b → (f (x, i)).count y = 0)
    (hone : ∀ x, (f (x, b)).count y ≤ 1) (xs : List α) (start : Nat) :
    ((xs.zipIdx start).flatMap f).count y ≤ 1 := by
  induction xs generalizing start with
  | nil => exact Nat.zero_le 1
  | cons x rest ih =>
    rw [List.zipIdx_cons, List.flatMap_cons, List.count_append]
    by_cases hs : start = b
    · have hrest := count_zipIdx_eq_zero h rest (show b < start + 1 by omega)
      have hx := hone x
      rw [← hs] at hx
      omega
    · have hrest := ih (start + 1)
      rw [h x start hs]
      omega

end Counts

lemma not_mem_slotLines {l : Label} (h : ∀ number, l ≠ .buffer number) (slots : List SlotCode) :
    .label l ∉ slots.flatMap SlotCode.lines := by
  intro hm
  obtain ⟨slot, -, hm⟩ := List.mem_flatMap.mp hm
  cases slot with
  | buffer number bytes =>
    have hl : l = .buffer number := by simpa [SlotCode.lines] using hm
    exact h number hl
  | reference number rows => simp [SlotCode.lines] at hm

/-- A channel defines its two labels and those of its buffers. -/
lemma count_channelLines_label {l : Label} (h : ∀ number, l ≠ .buffer number) (song channel : Nat)
    (code : ChannelCode) : (code.lines song channel).count (.label l) =
      [Label.channel song channel, .channelLoop song channel].count l := by
  have hspeed : (code.speed.toList.map fun speed =>
      Line.bytes [Command.speedCode.toNat, speed]).count (.label l) = 0 := by
    cases code.speed <;> simp
  simp only [ChannelCode.lines, List.count_append, hspeed,
    List.count_eq_zero_of_not_mem (not_mem_slotLines h _)]
  simp [List.count_cons, Nat.add_comm]

/-- The labels of the channels of all songs are defined once. -/
lemma count_songLines_label {l : Label} (song channel : Nat)
    (hb : ∀ number, l ≠ .buffer number)
    (hl : ∀ a b, a ≠ song ∨ b ≠ channel → l ≠ .channel a b ∧ l ≠ .channelLoop a b)
    (codes : List SongCode) : (songLines codes).count (.label l) ≤ 1 := by
  have hother : ∀ (code : ChannelCode) (a b : Nat), a ≠ song ∨ b ≠ channel →
      (code.lines a b).count (.label l) = 0 := by
    intro code a b hab
    rw [count_channelLines_label hb, List.count_eq_zero]
    simpa using hl a b hab
  have hone : ∀ code : ChannelCode, (code.lines song channel).count (.label l) ≤ 1 := by
    intro code
    rw [count_channelLines_label hb]
    exact List.nodup_iff_count_le_one.mp (by simp) l
  have hsong : ∀ (code : SongCode) (a : Nat), code.lines a =
      code.channels.zipIdx.flatMap fun entry => entry.1.lines a entry.2 := by
    intro code a
    rw [SongCode.lines, ← List.flatMap_def]
  refine count_zipIdx_le (b := song) (fun code a ha => ?_) (fun code => ?_) codes 0
  · dsimp only
    rw [hsong, List.count_eq_zero]
    intro hm
    obtain ⟨entry, -, hm⟩ := List.mem_flatMap.mp hm
    exact List.count_eq_zero.mp (hother entry.1 a entry.2 (.inl ha)) hm
  · dsimp only
    rw [hsong]
    exact count_zipIdx_le (fun entry b hb' => hother entry song b (.inr hb')) hone code.channels 0

lemma count_songLines_le {codes : List SongCode} {jobs : List SongJob}
    (h : encodeInTurn {} jobs = .ok codes) (l : Label) :
    (songLines codes).count (.label l) ≤ 1 := by
  cases l with
  | buffer number =>
    rw [count_bufferLabel h]
    split
    · exact le_refl 1
    · exact Nat.zero_le 1
  | channel song channel | channelLoop song channel =>
    refine count_songLines_label song channel (by simp) ?_ codes
    intro a b hab
    simp only [ne_eq, Label.channel.injEq, Label.channelLoop.injEq, reduceCtorEq,
      not_false_eq_true, true_and, and_true]
    omega
  | musicData _ | instruments | samples | envelope _ =>
    exact count_songLines_label 0 0 (by simp) (by simp) codes

lemma mem_songLines_label {codes : List SongCode} {l : Label} (h : .label l ∈ songLines codes) :
    (∃ song channel, l = .channel song channel ∨ l = .channelLoop song channel) ∨
      ∃ number, l = .buffer number := by
  by_cases hb : ∀ number, l ≠ .buffer number
  · obtain ⟨entry, -, hm⟩ := List.mem_flatMap.mp h
    obtain ⟨lines, hlines, hm⟩ := List.mem_flatten.mp hm
    obtain ⟨channel, -, rfl⟩ := List.mem_map.mp hlines
    have hcount := List.count_pos_iff.mpr hm
    rw [count_channelLines_label hb, List.count_pos_iff] at hcount
    exact .inl ⟨entry.2, channel.2, by simpa using hcount⟩
  · exact .inr (not_forall_not.mp hb)

lemma Parts.labelsOf_lines {parts : Parts} {prepared : Project} {options : Options}
    (h : Composed prepared options parts) : labelsOf (parts.lines prepared) =
      Label.musicData parts.name :: .instruments :: .samples ::
        (List.range parts.tables.streams.length).map Label.envelope ++
          labelsOf (songLines parts.codes) := by
  obtain ⟨samples, hsamples, hlines⟩ := tableLines_eq_ok h.tableLines
  have hplain := plain_tables hsamples parts.tables
  generalize instrumentTable prepared parts.tables ++ [Line.blank] = instruments at hlines hplain
  have hnone : ∀ lines : List Line, (∀ line ∈ lines, line.label? = none) → labelsOf lines = [] :=
    fun lines hl => List.filterMap_eq_nil_iff.mpr hl
  have hcomments : labelsOf parts.comments = [] := by
    refine hnone _ fun line hm => ?_
    rcases List.mem_cons.mp hm with rfl | hm
    · rfl
    · obtain ⟨entry, -, rfl⟩ := List.mem_map.mp hm
      rfl
  have htables : labelsOf parts.tableLines = Label.instruments :: .samples ::
      (List.range parts.tables.streams.length).map .envelope := by
    have hsplit : parts.tableLines = [Line.label .instruments] ++ (instruments ++
        ([Line.label .samples] ++ (samples ++ envelopeLines parts.tables.streams))) := by
      simp [hlines]
    rw [hsplit, labelsOf_append, labelsOf_append, labelsOf_append, labelsOf_append,
      hnone _ fun line hm => (hplain line (List.mem_append_left _ hm)).2,
      hnone samples fun line hm => (hplain line (List.mem_append_right _ hm)).2,
      labelsOf_envelopeLines]
    rfl
  rw [Parts.lines, labelsOf_append, labelsOf_append, labelsOf_append, hcomments,
    labelsOf_headerLines, htables]
  rfl

/-- The lines of a document are proper, and no label is defined twice. -/
theorem Parts.coherent {parts : Parts} {prepared : Project} {options : Options}
    (h : Composed prepared options parts) {jobs : List SongJob}
    (hjobs : encodeInTurn {} jobs = .ok parts.codes)
    (hnames : ∀ entry ∈ parts.songs, OneLine entry.1.name.toList) :
    Coherent (parts.lines prepared) where
  plain := by
    obtain ⟨samples, hsamples, hlines⟩ := tableLines_eq_ok h.tableLines
    have hplain := plain_tables hsamples parts.tables
    generalize instrumentTable prepared parts.tables ++ [Line.blank] = instruments at hlines hplain
    obtain ⟨source, hname⟩ := h.name
    intro line hm
    simp only [Parts.lines, List.mem_append] at hm
    rcases hm with ((hm | hm) | hm) | hm
    · rcases List.mem_cons.mp hm with rfl | hm
      · exact oneLine_of_any (by decide)
      · obtain ⟨⟨summary, number⟩, hs, rfl⟩ := List.mem_map.mp hm
        obtain ⟨entry, he, hsummary⟩ := List.mem_map.mp (List.fst_mem_of_mem_zipIdx hs)
        subst hsummary
        exact plain_summaryLine (hnames entry he) number
    · rw [hname] at hm
      exact plain_headerLines prepared source line hm
    · simp only [hlines, List.cons_append, List.mem_cons, List.mem_append] at hm
      rcases hm with rfl | (hm | rfl | hm) | hm
      · exact trivial
      · exact (hplain line (List.mem_append_left _ hm)).1
      · exact trivial
      · exact (hplain line (List.mem_append_right _ hm)).1
      · exact plain_envelopeLines _ line hm
    · exact plain_songLines _ line hm
  once := by
    rw [Parts.labelsOf_lines h, List.nodup_append]
    refine ⟨?_, ?_, ?_⟩
    · simp [List.nodup_map_iff (fun _ _ h => Label.envelope.inj h), List.nodup_range]
    · refine List.nodup_iff_count_le_one.mpr fun l => ?_
      rw [count_labelsOf]
      exact count_songLines_le hjobs l
    · rintro l hl _ hm rfl
      rcases mem_songLines_label (mem_labelsOf.mp hm) with ⟨song, channel, rfl | rfl⟩ | ⟨n, rfl⟩
      all_goals simp at hl

end Chiptune.Export
