import Chiptune.Proofs.Dialects
import Chiptune.Proofs.Nameless

/-!
# Names and the linked bytes

Whatever a project, its instruments and its samples are called, the linked bytes are the same, and
so they are for all names of songs on one line. What follows a line break in the name of a song ends
the comment that the name stands in, and is assembled.
-/

namespace Chiptune

namespace Assembly

open Text

section Bare

variable {lines : List Line} {l : Label} {page : Int}

lemma uses_bare (line : Line) : line.bare.uses = line.uses := by
  cases line with
  | label l => cases l <;> rfl
  | blank | comment _ | count _ | bytes _ _ | words _ | sample _ _ _ _ => rfl

lemma code_bare (address : Label → Int) (line : Line) :
    line.bare.code address page = line.code address page := by
  cases line with
  | label l => cases l <;> rfl
  | blank | comment _ | count _ | bytes _ _ | words _ | sample _ _ _ _ => rfl

lemma bare_eq_label_iff (hl : l.isLocal = true) (line : Line) :
    line.bare = .label l ↔ line = .label l := by
  cases line with
  | label other =>
    cases other with
    | musicData name =>
      refine iff_of_false ?_ ?_
      · rintro h
        cases h
        cases hl
      · rintro h
        cases h
        cases hl
    | instruments | samples | envelope _ | channel _ _ | channelLoop _ _ | buffer _ => rfl
  | blank | comment _ | count _ | bytes _ _ | words _ | sample _ _ _ _ => simp [Line.bare]

lemma mem_bare (hl : l.isLocal = true) : .label l ∈ lines.map Line.bare ↔ .label l ∈ lines := by
  rw [List.mem_map]
  simp only [bare_eq_label_iff hl, exists_eq_right]

lemma labelAddress_bare (hl : l.isLocal = true) (offset : Int) :
    labelAddress offset (lines.map Line.bare) l = labelAddress offset lines l := by
  have hsame : (fun line => decide (line ≠ .label l)) ∘ Line.bare =
      fun line => decide (line ≠ .label l) := by
    funext line
    simp only [Function.comp_apply, ne_eq, bare_eq_label_iff hl]
  unfold labelAddress addressOf
  rw [List.takeWhile_map, hsame, total_map]
  simp only [size_bare]

lemma code_congr {first second : Label → Int} {line : Line}
    (h : ∀ l ∈ line.uses, first l = second l) : line.code first page = line.code second page := by
  cases line with
  | words operands =>
    refine List.flatMap_congr fun operand ho => ?_
    cases operand with
    | number value => rfl
    | label l | before l _ =>
      have hl : first l = second l := h l (List.mem_filterMap.mpr ⟨_, ho, rfl⟩)
      simp only [Operand.value, hl]
  | blank | comment _ | label _ | count _ | bytes _ _ | sample _ _ _ _ => rfl

lemma selfContained_bare (h : ∀ line ∈ lines, ∀ l ∈ line.uses, l.isLocal = true) :
    SelfContained (lines.map Line.bare) ↔ SelfContained lines := by
  unfold SelfContained
  rw [List.forall_mem_map]
  refine forall₂_congr fun line hm => ?_
  rw [uses_bare]
  exact forall₂_congr fun l hl => mem_bare (h line hm l hl)

lemma flatMap_code_bare (h : ∀ line ∈ lines, ∀ l ∈ line.uses, l.isLocal = true) (offset : Int) :
    (lines.map Line.bare).flatMap (Line.code (labelAddress offset (lines.map Line.bare)) page) =
      lines.flatMap (Line.code (labelAddress offset lines) page) := by
  rw [List.flatMap_map]
  refine List.flatMap_congr fun line hm => ?_
  rw [code_bare]
  exact code_congr fun l hl => labelAddress_bare (h line hm l hl) offset

end Bare

end Assembly

namespace Export

open Assembly

section Linked

variable {project other : Project} {options : Options} {linked : Bytes × Option Bytes}

/-- An export links just if its document defines the labels that it uses. -/
lemma link_iff (hnames : NamedOnOneLine project options) (songOffset sampleOffset : Int) :
    link project options (some songOffset) (some sampleOffset) = .ok linked ↔
      ∃ result, document project options = .ok result ∧ SelfContained result.lines ∧
        linked = (result.lines.flatMap
          (Line.code (labelAddress songOffset result.lines) (samplePage sampleOffset)),
            result.samples) := by
  have hsound : Dialect.asm6.Sound := Dialect.sound_of_mem (by simp [Dialect.all])
  unfold link
  rw [bind_eq_ok_iff]
  refine exists_congr fun result => and_congr_right fun hresult => ?_
  rw [bind_eq_ok_iff]
  constructor
  · rintro ⟨bytes, hbytes, h⟩
    obtain ⟨hcontained, rfl⟩ :=
      (assemble_document_iff hresult hnames hsound songOffset sampleOffset).mp hbytes
    exact ⟨hcontained, (Except.ok.inj h).symm⟩
  · rintro ⟨hcontained, rfl⟩
    exact ⟨_, (assemble_document_iff hresult hnames hsound songOffset sampleOffset).mpr
      ⟨hcontained, rfl⟩, rfl⟩

/-- A document whose text is that of other lines is linked as they are. -/
lemma link_of_text {result : Document} (hresult : document project options = .ok result)
    {lines : List Line} (htext : result.text .asm6 = textOf .asm6 lines) (h : Coherent lines)
    (hw : ∀ line ∈ lines, line.Writable) (hcontained : SelfContained lines)
    (songOffset sampleOffset : Int) :
    link project options (some songOffset) (some sampleOffset) = .ok (lines.flatMap
      (Line.code (labelAddress songOffset lines) (samplePage sampleOffset)), result.samples) := by
  have hsound : Dialect.asm6.Sound := Dialect.sound_of_mem (by simp [Dialect.all])
  have hassemble : assemble ⟨.asm6, some songOffset, some sampleOffset⟩ (textOf .asm6 lines) =
      .ok (lines.flatMap (Line.code (labelAddress songOffset lines) (samplePage sampleOffset))) :=
    (assemble_iff hsound rfl rfl h hw).mpr ⟨hcontained, rfl⟩
  rw [link, hresult, ok_bind, htext, hassemble]
  rfl

lemma link_of_bare (hnames : NamedOnOneLine project options)
    (hothers : NamedOnOneLine other options) (h : project.nameless = other.nameless)
    (songOffset sampleOffset : Int)
    (hlink : link project options (some songOffset) (some sampleOffset) = .ok linked) :
    link other options (some songOffset) (some sampleOffset) = .ok linked := by
  obtain ⟨result, hresult, hcontained, rfl⟩ :=
    (link_iff hnames songOffset sampleOffset).mp hlink
  -- Both documents say what that of the nameless project says.
  obtain ⟨bare, hbare, hsame⟩ := (document_nameless project options).ok_left hresult
  rw [h] at hbare
  obtain ⟨later, hlater, hlaterSame⟩ := (document_nameless other options).ok_right hbare
  have hboth := hsame.trans hlaterSame.symm
  have hlines : result.lines.map Line.bare = later.lines.map Line.bare :=
    congrArg Document.lines hboth
  have hlocal : ∀ line ∈ result.lines, ∀ l ∈ line.uses, l.isLocal = true :=
    fun line hm => (uses_document hresult hm).2
  have hlaterLocal : ∀ line ∈ later.lines, ∀ l ∈ line.uses, l.isLocal = true :=
    fun line hm => (uses_document hlater hm).2
  apply (link_iff hothers songOffset sampleOffset).mpr
  refine ⟨later, hlater, ?_, ?_⟩
  · rw [← selfContained_bare hlaterLocal, ← hlines, selfContained_bare hlocal]
    exact hcontained
  · have hsamples : result.bare.samples = later.bare.samples := congrArg Document.samples hboth
    change result.samples = later.samples at hsamples
    rw [← flatMap_code_bare hlaterLocal, ← hlines, flatMap_code_bare hlocal, hsamples]

/-- Names never reach the bytes, as long as those of the exported songs are on one line. -/
theorem link_nameless (hnames : NamedOnOneLine project options)
    (hothers : NamedOnOneLine other options) (h : project.nameless = other.nameless)
    (songOffset sampleOffset : Int) :
    link project options (some songOffset) (some sampleOffset) = .ok linked ↔
      link other options (some songOffset) (some sampleOffset) = .ok linked :=
  ⟨link_of_bare hnames hothers h songOffset sampleOffset,
    link_of_bare hothers hnames h.symm songOffset sampleOffset⟩

end Linked

/-- The project of the nursery with a drum, under other names. -/
def renamed : Project where
  name := "9 lives\n"
  songs := drummed.songs.map fun song => { song with name := "\t; ' @song0ch0:" }
  instruments := drummed.instruments.map fun instrument => { instrument with name := "\n\tdb 1" }
  samples := drummed.samples.map fun sample => { sample with name := "\r\n" }
  mapping := drummed.mapping.map (Option.map fun mapping =>
    { mapping with sample := mapping.sample.map fun sample => { sample with name := "?" } })

theorem renamed_nameless : NamedOnOneLine drummed {} ∧ NamedOnOneLine renamed {} ∧
    drummed.nameless = renamed.nameless ∧ ∃ linked,
      link drummed {} (some 0x8000) (some 0xC000) = .ok linked ∧
      link renamed {} (some 0x8000) (some 0xC000) = .ok linked := by
  have hdrummed := drummed_linkable.named {}
  have hrenamed : NamedOnOneLine renamed {} := by
    intro song hs
    obtain rfl := List.mem_singleton.mp hs
    exact Text.oneLine_of_any (by decide)
  have hsame : drummed.nameless = renamed.nameless := by decide +kernel
  obtain ⟨result, hresult⟩ : ∃ result, document drummed {} = .ok result := by
    have hsize := drummed_size
    cases h : document drummed {} with
    | error error =>
      rw [h] at hsize
      cases hsize
    | ok result => exact ⟨result, rfl⟩
  have hsound : Dialect.asm6.Sound := Dialect.sound_of_mem (by simp [Dialect.all])
  have hcontained := (assemble_document hresult drummed_linkable hsound 0x8000 0xC000).2.1
  have hlink := (link_iff hdrummed 0x8000 0xC000).mpr ⟨result, hresult, hcontained, rfl⟩
  exact ⟨hdrummed, hrenamed, hsame, _, hlink,
    (link_nameless hdrummed hrenamed hsame 0x8000 0xC000).mp hlink⟩

lemma textOf_cons (dialect : Dialect) (line : Line) (rest : List Line) :
    textOf dialect (line :: rest) = line.text dialect ++ "\n" ++ textOf dialect rest := by
  simp only [textOf, List.map_cons, String.join_cons]

/-- A comment with a line break in it is a comment and whatever line comes after the break. -/
lemma textOf_commentBreak (dialect : Dialect) (before : String) (line : Line) (rest : List Line) :
    textOf dialect (.comment (before ++ "\n" ++ line.text dialect) :: rest) =
      textOf dialect (.comment before :: line :: rest) := by
  simp only [textOf, List.map_cons, String.join_cons, Line.text_comment, String.append_assoc]

def titled (name : String) : Project where
  name := "tune"
  songs := [.blank 0 name 150 6 1 1]

def titledHeader : List Line :=
  [.blank, .label (.musicData "tune"), .count 1, .words [.label .instruments],
    .words [.before .samples 3],
    .words [.label (.channel 0 0), .label (.channel 0 1), .label (.channel 0 2),
      .label (.channel 0 3), .label (.channel 0 4), .number 307, .number 256],
    .blank, .label .instruments, .blank, .label .samples, .label (.envelope 0),
    .bytes [0xC0, 0, 0]]

def titledChannel (speed : List Line) (place : Nat) : List Line :=
  .blank :: .label (.channel 0 place) :: speed ++
    [Line.label (.channelLoop 0 place), .label (.buffer place), .bytes [0x81], .bytes [0xFD],
      .words [.label (.channelLoop 0 place)]]

/-- What its document holds after the comments. -/
def titledLines : List Line :=
  titledHeader ++ titledChannel [.bytes [0xFB, 6]] 0 ++ [1, 2, 3, 4].flatMap (titledChannel [])

def titledComment (name : String) : Line :=
  .comment ("song 0 '" ++ name ++ "': speed channel 0, split factor 1, 22 bytes")

/-- Goes on with a statement on the next line. -/
def brokenName : String := "x\n\tdb $42\t;y"

/-- The lines that the comments are read back as. -/
def brokenComments : List Line :=
  [titleLine, .comment "song 0 'x", .bytes [0x42] "y': speed channel 0, split factor 1, 22 bytes"]

lemma titled_document : ∀ name ∈ ["x", brokenName],
    (document (titled name) {}).toOption.map (fun result => (result.lines, result.samples)) =
      some (titleLine :: titledComment name :: titledLines, none) := by
  decide +kernel

lemma titled_ok (name : String) (hname : name ∈ ["x", brokenName]) :
    ∃ result, document (titled name) {} = .ok result ∧ result.samples = none ∧
      result.lines = titleLine :: titledComment name :: titledLines := by
  have hlines := titled_document name hname
  cases hresult : document (titled name) {} with
  | error error =>
    rw [hresult] at hlines
    cases hlines
  | ok result =>
    rw [hresult] at hlines
    obtain ⟨hlines, hsamples⟩ := Prod.mk.inj (Option.some.inj hlines)
    exact ⟨result, rfl, hsamples, hlines⟩

lemma titled_names : NamedOnOneLine (titled "x") {} := by
  intro song hs
  obtain rfl := List.mem_singleton.mp hs
  exact Text.oneLine_of_any (by decide)

lemma titledLines_proper (comments : List Line)
    (h : ∀ line ∈ comments, line.Plain ∧ line.Writable ∧ line.label? = none) :
    Coherent (comments ++ titledLines) ∧ ∀ line ∈ comments ++ titledLines, line.Writable := by
  obtain ⟨result, hresult, -, hlines⟩ := titled_ok "x" (by simp)
  have hcoherent := titled_names.coherent hresult
  have hwritable : ∀ line ∈ result.lines, line.Writable :=
    fun line hm => (uses_document hresult hm).1
  rw [hlines] at hcoherent hwritable
  -- Only what `result` tells about the lines is needed, not the lines themselves.
  generalize titledLines = rest at hcoherent hwritable ⊢
  have hnone : labelsOf comments = [] :=
    List.filterMap_eq_nil_iff.mpr fun line hm => (h line hm).2.2
  refine ⟨⟨?_, ?_⟩, ?_⟩
  · exact List.forall_mem_append.mpr ⟨fun line hm => (h line hm).1,
      fun line hm => hcoherent.plain line (by simp [hm])⟩
  · rw [labelsOf_append, hnone]
    exact hcoherent.once
  · exact List.forall_mem_append.mpr ⟨fun line hm => (h line hm).2.1,
      fun line hm => hwritable line (by simp [hm])⟩

lemma brokenComments_proper :
    ∀ line ∈ brokenComments, line.Plain ∧ line.Writable ∧ line.label? = none := by
  intro line hm
  simp only [brokenComments, List.mem_cons, List.not_mem_nil, or_false] at hm
  rcases hm with rfl | rfl | rfl
  · exact ⟨Text.oneLine_of_any (by decide), trivial, rfl⟩
  · exact ⟨Text.oneLine_of_any (by decide), trivial, rfl⟩
  · exact ⟨Text.oneLine_of_any (by decide), trivial, rfl⟩

/-- The two projects differ in the name of a song only, and the bytes that they are linked to differ:
the first one of the second project stands in the name. -/
theorem titled_names_reach_bytes : (titled "x").nameless = (titled brokenName).nameless ∧
    link (titled "x") {} (some 0) (some 0) = .ok ([1, 19, 0, 16, 0, 22, 0, 28, 0, 32, 0, 36, 0,
      40, 0, 51, 1, 0, 1, 192, 0, 0, 251, 6, 129, 253, 24, 0, 129, 253, 28, 0, 129, 253, 32, 0,
      129, 253, 36, 0, 129, 253, 40, 0], none) ∧
    link (titled brokenName) {} (some 0) (some 0) = .ok ([66, 1, 20, 0, 17, 0, 23, 0, 29, 0, 33,
      0, 37, 0, 41, 0, 51, 1, 0, 1, 192, 0, 0, 251, 6, 129, 253, 25, 0, 129, 253, 29, 0, 129, 253,
      33, 0, 129, 253, 37, 0, 129, 253, 41, 0], none) := by
  refine ⟨rfl, ?_, ?_⟩
  · obtain ⟨result, hresult, hsamples, hlines⟩ := titled_ok "x" (by simp)
    rw [link_iff titled_names]
    refine ⟨result, hresult, ?_, ?_⟩
    · rw [hlines]
      decide +kernel
    · rw [hlines, hsamples]
      decide +kernel
  · obtain ⟨result, hresult, hsamples, hlines⟩ := titled_ok brokenName (by simp)
    have htext : result.text .asm6 = textOf .asm6 (brokenComments ++ titledLines) := by
      have hbroken : titledComment brokenName = .comment ("song 0 'x" ++ "\n" ++
          (Line.bytes [0x42] "y': speed channel 0, split factor 1, 22 bytes").text .asm6) := by
        decide +kernel
      have hresultText : result.text .asm6 = textOf .asm6 result.lines := rfl
      rw [hresultText, hlines, hbroken, textOf_cons, textOf_commentBreak, ← textOf_cons]
      rfl
    obtain ⟨hcoherent, hwritable⟩ := titledLines_proper brokenComments brokenComments_proper
    rw [link_of_text hresult htext hcoherent hwritable, hsamples]
    · decide +kernel
    · decide +kernel

end Export

end Chiptune
