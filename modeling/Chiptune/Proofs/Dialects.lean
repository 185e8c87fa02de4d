import Chiptune.Proofs.LinkedSongs

/-!
# Documents in every dialect

A document is assembled from its text in any dialect, to the announced number of bytes and to the
same ones from each.
-/

namespace Chiptune

namespace Assembly

open Text

/-- The labels that the operands of a statement name. -/
def Statement.used : Statement → List (List Char)
  | data _ operands => (operands.filter isSymbol).map fun operand => operand.takeWhile (· != '-')
  | nothing | label _ => []

def statementsOf (dialect : Dialect) (text : String) : List Statement :=
  (Text.lines text.toList).filterMap (Statement.ofLine? dialect)

/-- The labels that a text defines, each as often as it does. -/
def definedNames (dialect : Dialect) (text : String) : List (List Char) :=
  (statementsOf dialect text).flatMap Statement.defined

/-- The labels that stand in the operands of a text. -/
def usedNames (dialect : Dialect) (text : String) : List (List Char) :=
  (statementsOf dialect text).flatMap Statement.used

section Names

variable {dialect : Dialect} {lines : List Line}

lemma statementsOf_textOf (hd : dialect.Sound) (h : ∀ line ∈ lines, line.Plain) :
    statementsOf dialect (textOf dialect lines) = lines.map (·.statement dialect) := by
  have hstatements := statements_textOf hd h
  have hmap : statementsOf dialect (textOf dialect lines) =
      ((Text.lines (textOf dialect lines).toList).map (Statement.ofLine? dialect)).filterMap id := by
    rw [List.filterMap_map]
    rfl
  rw [hmap, hstatements, List.filterMap_map]
  exact List.filterMap_some

lemma definedNames_textOf (hd : dialect.Sound) (h : ∀ line ∈ lines, line.Plain) :
    definedNames dialect (textOf dialect lines) =
      (labelsOf lines).map fun l => (l.text dialect).toList := by
  rw [definedNames, statementsOf_textOf hd h, defined_statements]

lemma isSymbolStart_of_isSymbol {s : List Char} (h : isSymbol s = true) :
    ∀ c ∈ s.head?, isSymbolStart c = true := by
  intro c hc
  cases s with
  | nil => cases hc
  | cons d rest =>
    obtain rfl := Option.some.inj hc
    rw [isSymbol, Bool.and_eq_true] at h
    exact h.1

lemma isSymbol_dollar (s : List Char) : isSymbol ('$' :: s) = false := rfl

lemma isSymbol_integer (n : Int) : isSymbol (toString n).toList = false := by
  by_contra hsymbol
  have hstart := isSymbolStart_of_isSymbol (Bool.of_not_eq_false hsymbol)
  obtain ⟨c, rest, hs⟩ := List.exists_cons_of_ne_nil (word_integer n).nonempty
  rw [hs] at hstart
  have hc := hstart c rfl
  rcases mem_integer (hs ▸ List.mem_cons_self : c ∈ (toString n).toList) with hdigit | rfl
  · rw [isSymbolStart_of_isDigit hdigit] at hc
    cases hc
  · exact absurd hc (by decide)

lemma takeWhile_operand (hd : dialect.Sound) {operand : Operand} (h : operand.Plain)
    (hs : isSymbol (operand.text dialect).toList = true) : ∃ l ∈ operand.label?,
      (operand.text dialect).toList.takeWhile (· != '-') = (l.text dialect).toList := by
  cases operand with
  | number n =>
    have htext : (Operand.text dialect (.number n)).toList = (toString n).toList := rfl
    rw [htext, isSymbol_integer] at hs
    cases hs
  | label l =>
    have hwhole := (Label.name_text hd h).identifier.whole
    exact ⟨l, rfl, (scan_unmarked hwhole).1⟩
  | before l distance =>
    -- A name holds no minus sign, so it ends where the distance starts.
    have hwhole := (Label.name_text hd h).identifier.whole
    refine ⟨l, rfl, ?_⟩
    have htext : (Operand.text dialect (.before l distance)).toList =
        (l.text dialect).toList ++ ('-' :: (toString distance).toList) := by
      simp [Operand.text, toString]
    rw [htext]
    exact (scan_marked hwhole _).1

lemma mem_usedNames (hd : dialect.Sound) (h : ∀ line ∈ lines, line.Plain) {name : List Char}
    (hn : name ∈ usedNames dialect (textOf dialect lines)) :
    ∃ line ∈ lines, ∃ l ∈ line.uses, name = (l.text dialect).toList := by
  rw [usedNames, statementsOf_textOf hd h, List.flatMap_map] at hn
  obtain ⟨line, hm, hn⟩ := List.mem_flatMap.mp hn
  refine ⟨line, hm, ?_⟩
  cases line with
  | blank | comment _ | label _ => cases hn
  | count value =>
    have hnone : isSymbol (toString value).toList = false := isSymbol_integer value
    obtain ⟨operand, ho, rfl⟩ := List.mem_map.mp hn
    obtain ⟨ho, hsymbol⟩ := List.mem_filter.mp ho
    obtain rfl := List.mem_singleton.mp ho
    rw [hnone] at hsymbol
    cases hsymbol
  | bytes values remark =>
    obtain ⟨operand, ho, rfl⟩ := List.mem_map.mp hn
    obtain ⟨ho, hsymbol⟩ := List.mem_filter.mp ho
    obtain ⟨value, -, rfl⟩ := List.mem_map.mp ho
    rw [byteOperand, isSymbol_dollar] at hsymbol
    cases hsymbol
  | words operands =>
    obtain ⟨text, ht, rfl⟩ := List.mem_map.mp hn
    obtain ⟨ht, hsymbol⟩ := List.mem_filter.mp ht
    obtain ⟨operand, ho, rfl⟩ := List.mem_map.mp ht
    obtain ⟨l, hl, htext⟩ := takeWhile_operand hd (h _ hm operand ho) hsymbol
    exact ⟨l, List.mem_filterMap.mpr ⟨operand, ho, hl⟩, htext⟩
  | sample place units flags remark =>
    simp [Line.statement, Statement.used, samplePlace, isSymbol_dollar] at hn

end Names

end Assembly

namespace Export

open Assembly

section Document

variable {project : Project} {options : Options}

def exportText (dialect : Dialect) (project : Project) (options : Options) : Outcome String := do
  return (← document project options).text dialect

/-- Whether the songs have a channel for each voice, and names on one line. -/
def Linkable (project : Project) : Prop := ∀ song ∈ project.songs,
  song.channels.length = Voice.all.length ∧ Text.OneLine song.name.toList

/-- The songs that an export takes have names on one line. -/
def NamedOnOneLine (project : Project) (options : Options) : Prop :=
  ∀ song ∈ (project.select options.wanted).songs, Text.OneLine song.name.toList

lemma Linkable.named (h : Linkable project) (options : Options) : NamedOnOneLine project options :=
  fun song hs => (h song (Project.mem_select hs)).2

lemma exists_source {song : Song}
    (hs : song ∈ (project.prepare options.wanted options.kernel).songs) :
    ∃ source ∈ (project.select options.wanted).songs,
      song.name = source.name ∧ song.channels = source.channels := by
  rw [Project.prepare_songs] at hs
  obtain ⟨source, hsource, rfl⟩ := List.mem_map.mp hs
  rw [song_fitted]
  exact ⟨source, hsource, rfl, rfl⟩

lemma NamedOnOneLine.coherent (h : NamedOnOneLine project options) {result : Document}
    (hresult : document project options = .ok result) : Coherent result.lines := by
  refine document_coherent hresult fun song hs => ?_
  obtain ⟨source, hsource, hname, -⟩ := exists_source hs
  exact hname ▸ h source hsource

lemma uses_document {result : Document} (h : document project options = .ok result) {line : Line}
    (hm : line ∈ result.lines) : line.Writable ∧ ∀ l ∈ line.uses, l.isLocal = true := by
  obtain ⟨parts, hcomposed, htempo, rfl⟩ := document_eq_ok h
  obtain ⟨-, jobs, hjobs, -⟩ := encodeSongs_inTurn hcomposed.songs
  obtain ⟨hw, huses⟩ := Parts.uses_lines hcomposed htempo hjobs hm
  exact ⟨hw, fun l hl => (huses l hl).1⟩

/-- A document links just if it defines the labels that it uses. -/
lemma assemble_document_iff {result : Document} (h : document project options = .ok result)
    (hnames : NamedOnOneLine project options) {dialect : Dialect} (hd : dialect.Sound)
    (songOffset sampleOffset : Int) {bytes : Bytes} :
    assemble ⟨dialect, some songOffset, some sampleOffset⟩ (result.text dialect) = .ok bytes ↔
      SelfContained result.lines ∧ bytes = result.lines.flatMap
        (Line.code (labelAddress songOffset result.lines) (samplePage sampleOffset)) :=
  assemble_iff hd rfl rfl (hnames.coherent h) fun _ hm => (uses_document h hm).1

/-- What the lines of a document stand for, whichever dialect they are written in. -/
lemma assemble_document {result : Document} (h : document project options = .ok result)
    (hl : Linkable project) {dialect : Dialect} (hd : dialect.Sound)
    (songOffset sampleOffset : Int) : Coherent result.lines ∧ SelfContained result.lines ∧
      assemble ⟨dialect, some songOffset, some sampleOffset⟩ (result.text dialect) =
        .ok (result.lines.flatMap
          (Line.code (labelAddress songOffset result.lines) (samplePage sampleOffset))) := by
  have hcontained : SelfContained result.lines := by
    obtain ⟨parts, hcomposed, htempo, rfl⟩ := document_eq_ok h
    obtain ⟨hsongs, jobs, hjobs, hof⟩ := encodeSongs_inTurn hcomposed.songs
    refine Parts.selfContained hcomposed htempo hjobs hof hsongs fun song hs => ?_
    obtain ⟨source, hsource, -, hchannels⟩ := exists_source hs
    exact hchannels ▸ (hl source (Project.mem_select hsource)).1
  exact ⟨(hl.named options).coherent h, hcontained,
    (assemble_document_iff h (hl.named options) hd songOffset sampleOffset).mpr ⟨hcontained, rfl⟩⟩

/-- Every export links, in every dialect and at every address, to the size that it announces. Its
text defines each label once and all labels that it uses. -/
theorem document_links {result : Document} (h : document project options = .ok result)
    (hl : Linkable project) {dialect : Dialect} (hd : dialect ∈ Dialect.all)
    (songOffset sampleOffset : Int) :
    let prepared := project.prepare options.wanted options.kernel
    ∃ bytes tables,
      assemble ⟨dialect, some songOffset, some sampleOffset⟩ (result.text dialect) = .ok bytes ∧
      (definedNames dialect (result.text dialect)).Nodup ∧
      (∀ name ∈ usedNames dialect (result.text dialect),
        name ∈ definedNames dialect (result.text dialect)) ∧
      bytes.length = result.size ∧
      InstrumentTables.build prepared options.kernel = .ok tables ∧
      result.songs.length = prepared.songs.length ∧
      result.size = 5 + 14 * result.songs.length + tableSize prepared tables +
        total SongSummary.size result.songs := by
  intro prepared
  have hsound := Dialect.sound_of_mem hd
  obtain ⟨hcoherent, hcontained, hassemble⟩ :=
    assemble_document h hl hsound songOffset sampleOffset
  obtain ⟨parts, hcomposed, -, rfl⟩ := document_eq_ok h
  obtain ⟨hsize, hlines⟩ := Parts.size_document hcomposed
  obtain ⟨hsongs, -⟩ := encodeSongs_inTurn hcomposed.songs
  have hcount : parts.summaries.length = prepared.songs.length := by
    rw [← hsongs, Parts.summaries, List.length_map, List.length_map]
  have hdefined := definedNames_textOf hsound hcoherent.plain
  refine ⟨_, parts.tables, hassemble, ?_, ?_, ?_, hcomposed.tables, hcount, ?_⟩
  · have hnames := @nodup_addresses dialect songOffset _ hsound hcoherent
    rw [names_addresses, List.nodup_reverse] at hnames
    exact hdefined ▸ hnames
  · intro name hn
    obtain ⟨line, hm, l, hused, rfl⟩ := mem_usedNames hsound hcoherent.plain hn
    have hmem := mem_labelsOf.mpr (hcontained line hm l hused)
    exact hdefined ▸ List.mem_map_of_mem hmem
  · exact (code_length ((assemble_lines rfl hsound hcoherent).mp hassemble)).trans hlines
  · exact hcount ▸ hsize

end Document

/-- A project with a mapped sample. -/
def drummed : Project :=
  let kick : Sample := ⟨0, "kick", List.replicate 33 0x55⟩
  { nursery with
    samples := [kick]
    mapping := (List.replicate 64 none).set 3 (some ⟨some kick, 15, true⟩) }

lemma drummed_linkable : Linkable drummed := by
  intro song hm
  obtain rfl := List.mem_singleton.mp hm
  exact ⟨rfl, Text.oneLine_of_any (by decide)⟩

lemma drummed_size : (document drummed {}).toOption.map Document.size = some 268 := by
  decide +kernel

theorem drummed_links : Linkable drummed ∧ ∃ result bytes, document drummed {} = .ok result ∧
    assemble ⟨.nesasm, some 0x8000, some 0xC000⟩ (result.text .nesasm) = .ok bytes ∧
    (definedNames .nesasm (result.text .nesasm)).Nodup ∧ bytes.length = 268 := by
  have hsize := drummed_size
  cases h : document drummed {} with
  | error error =>
    rw [h] at hsize
    cases hsize
  | ok result =>
    rw [h] at hsize
    have hd : Dialect.nesasm ∈ Dialect.all := by simp [Dialect.all]
    obtain ⟨bytes, tables, hbytes, hnames, -, hlength, -⟩ :=
      document_links h drummed_linkable hd 0x8000 0xC000
    exact ⟨drummed_linkable, result, bytes, rfl, hbytes, hnames,
      hlength.trans (Option.some.inj hsize)⟩

section Texts

variable {project : Project} {options : Options}

/-- The dialects differ in what they look like only: an export succeeds in all of them or in none,
and its texts are assembled to the same bytes. -/
theorem exportText_dialects (hl : Linkable project) (songOffset sampleOffset : Int) :
    (∃ error, ∀ dialect ∈ Dialect.all, exportText dialect project options = .error error) ∨
      ∃ bytes, ∀ dialect ∈ Dialect.all, ∃ text, exportText dialect project options = .ok text ∧
        assemble ⟨dialect, some songOffset, some sampleOffset⟩ text = .ok bytes := by
  cases h : document project options with
  | error error =>
    refine .inl ⟨error, fun dialect _ => ?_⟩
    rw [exportText, h]
    rfl
  | ok result =>
    right
    refine ⟨result.lines.flatMap
      (Line.code (labelAddress songOffset result.lines) (samplePage sampleOffset)), ?_⟩
    intro dialect hd
    refine ⟨result.text dialect, ?_, ?_⟩
    · rw [exportText, h]
      rfl
    · exact (assemble_document h hl (Dialect.sound_of_mem hd) songOffset sampleOffset).2.2

end Texts

theorem drummed_dialects : Linkable drummed ∧ ∃ bytes, ∀ dialect ∈ Dialect.all, ∃ text,
    exportText dialect drummed {} = .ok text ∧
      assemble ⟨dialect, some 0x8000, some 0xC000⟩ text = .ok bytes := by
  refine ⟨drummed_linkable, (exportText_dialects drummed_linkable 0x8000 0xC000).resolve_left ?_⟩
  rintro ⟨error, herror⟩
  have hasm := herror .asm6 (by simp [Dialect.all])
  have hsize := drummed_size
  cases h : document drummed {} with
  | error error =>
    rw [h] at hsize
    cases hsize
  | ok result =>
    rw [exportText, h] at hasm
    cases hasm

end Export

end Chiptune
