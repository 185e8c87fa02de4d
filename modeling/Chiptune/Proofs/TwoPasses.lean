import Mathlib
import Chiptune.Assembly.Assembler
import Chiptune.Proofs.Outcome
import Chiptune.Proofs.Spelling

/-!
# Two passes of the assembler

A text in which no label is defined twice is assembled as if all labels were known from the start:
every operand has one value, whether it stands before or after the label that it mentions.
-/

namespace Chiptune.Assembly

/-- A name that stands for a label wherever it is an operand. -/
structure Identifier (name : List Char) : Prop where
  symbol : isSymbol name = true
  whole : '-' ∉ name
  plain : Text.occursIn Line.sampleAddress.toList name = false

namespace Statement

/-- The bytes that a statement stands for. -/
def size : Statement → Nat
  | nothing | label _ => 0
  | data width operands => width * operands.length

/-- The operands, each with the number of its bytes. -/
def parts : Statement → List (Nat × List Char)
  | nothing | label _ => []
  | data width operands => operands.map (width, ·)

lemma total_parts (statement : Statement) :
    total Prod.fst statement.parts = statement.size := by
  cases statement with
  | nothing | label _ => rfl
  | data width operands =>
    rw [parts, total_map, size]
    induction operands with
    | nil => rfl
    | cons operand rest ih =>
      rw [total, ih, List.length_cons]
      ring

/-- The label that a statement defines. -/
def defined : Statement → List (List Char)
  | label name => [name]
  | nothing | data _ _ => []

/-- The label that is defined if the statement lies at an address. -/
def labels (address : Int) : Statement → Labels
  | label name => [(name, address)]
  | nothing | data _ _ => []

end Statement

/-- The labels of statements that lie from an address on, the last one first. -/
def labelsFrom (address : Int) : List Statement → Labels
  | [] => []
  | statement :: rest => labelsFrom (address + statement.size) rest ++ statement.labels address

section Definitions

variable {statements before after : List Statement} {name : List Char} {offset : Int}

lemma mem_defined {statement : Statement} :
    name ∈ statement.defined ↔ statement = .label name := by
  cases statement with
  | label other => simp [Statement.defined, eq_comm]
  | nothing | data _ _ => simp [Statement.defined]

lemma mem_definitions : name ∈ statements.flatMap Statement.defined ↔ .label name ∈ statements := by
  rw [List.mem_flatMap]
  simp only [mem_defined, exists_eq_right]

lemma labelsFrom_append (address : Int) (statements more : List Statement) :
    labelsFrom address (statements ++ more) =
      labelsFrom (address + total Statement.size statements) more ++
        labelsFrom address statements := by
  induction statements generalizing address with
  | nil => simp [labelsFrom, total]
  | cons statement rest ih =>
    rw [List.cons_append, labelsFrom, ih, labelsFrom, total, List.append_assoc]
    push_cast
    rw [Int.add_assoc]

lemma names_labelsFrom (offset : Int) (statements : List Statement) :
    (labelsFrom offset statements).map Prod.fst =
      (statements.flatMap Statement.defined).reverse := by
  induction statements generalizing offset with
  | nil => rfl
  | cons statement rest ih =>
    have hone : (statement.labels offset).map Prod.fst = statement.defined.reverse := by
      cases statement <;> rfl
    rw [labelsFrom, List.map_append, ih, hone, List.flatMap_cons, List.reverse_append]

lemma mem_labelsFrom {entry : List Char × Int} (h : entry ∈ labelsFrom offset statements) :
    .label entry.1 ∈ statements := by
  rw [← mem_definitions, ← List.mem_reverse, ← names_labelsFrom offset]
  exact List.mem_map_of_mem h

/-- A label lies behind the bytes that come before its definition. -/
lemma lookup_labelsFrom (h : statements = before ++ .label name :: after)
    (hnodup : (statements.flatMap Statement.defined).Nodup) :
    (labelsFrom offset statements).lookup name =
      some (offset + total Statement.size before) := by
  subst h
  have hafter : (labelsFrom (offset + total Statement.size before) after).lookup name = none := by
    rw [List.lookup_eq_none_iff]
    intro entry he
    rw [bne_iff_ne]
    rintro rfl
    rw [List.flatMap_append, List.flatMap_cons, List.nodup_append] at hnodup
    exact (List.nodup_cons.mp hnodup.2.1).1 (mem_definitions.mpr (mem_labelsFrom he))
  have hlabel : labelsFrom (offset + total Statement.size before) (.label name :: after) =
      labelsFrom (offset + total Statement.size before) after ++
        [(name, offset + total Statement.size before)] := by
    simp [labelsFrom, Statement.size, Statement.labels]
  rw [labelsFrom_append, hlabel, List.append_assoc, List.lookup_append, hafter, Option.none_or,
    List.singleton_append, List.lookup_cons_self]

lemma lookup_missing (h : .label name ∉ statements) :
    (labelsFrom offset statements).lookup name = none := by
  rw [List.lookup_eq_none_iff]
  intro entry he
  rw [bne_iff_ne]
  rintro rfl
  exact h (mem_labelsFrom he)

end Definitions

/-- The value of an operand if all labels are known. -/
def operandValue (target : Target) (labels : Labels) (operand : List Char) : Outcome Int :=
  match labels.lookup operand with
  | some address => pure address
  | none =>
    if Text.occursIn Line.sampleAddress.toList operand then sampleOperand target operand
    else if isSymbol operand then resolve labels operand
    else number operand

def partBytes (target : Target) (labels : Labels) (part : Nat × List Char) : Outcome Bytes := do
  return valueBytes (← operandValue target labels part.2) part.1

/-- The bytes of operands if all labels are known. -/
def partsBytes (target : Target) (labels : Labels) (parts : List (Nat × List Char)) :
    Outcome Bytes := do
  return (← parts.mapM (partBytes target labels)).flatten

lemma resolve_of_lookup {labels : Labels} {name : List Char} {address : Int} (h : '-' ∉ name)
    (hl : labels.lookup name = some address) : resolve labels name = .ok address := by
  obtain ⟨htake, hdrop⟩ := Text.scan_unmarked h
  rw [resolve]
  simp only [htake, hdrop, hl, distance]
  simp [pure, Except.pure]

section Cells

variable {target : Target} {labels later : Labels} {width : Nat} {operand : List Char}

lemma lookup_later (hnodup : ((later ++ labels).map Prod.fst).Nodup) {address : Int}
    (h : labels.lookup operand = some address) :
    (later ++ labels).lookup operand = some address := by
  have hmem : operand ∈ labels.map Prod.fst := by
    obtain ⟨before, after, rfl, -⟩ := List.lookup_eq_some_iff.mp h
    simp
  have hlater : later.lookup operand = none := by
    rw [List.lookup_eq_none_iff]
    intro entry he
    rw [List.map_append, List.nodup_append] at hnodup
    have hne := hnodup.2.2 entry.1 (List.mem_map_of_mem he) operand hmem
    exact bne_iff_ne.mpr hne.symm
  rw [List.lookup_append, hlater, h]
  rfl

/-- What the first pass takes down for an operand becomes the bytes of its value. -/
lemma cell_bytes (hnodup : ((later ++ labels).map Prod.fst).Nodup)
    (hid : ∀ entry ∈ later, Identifier entry.1) {c : Cell}
    (h : cell target labels width operand = .ok c) :
    c.bytes (later ++ labels) = partBytes target (later ++ labels) (width, operand) := by
  unfold cell at h
  unfold partBytes operandValue
  cases hlabel : labels.lookup operand with
  | some address =>
    rw [hlabel] at h
    obtain rfl := Except.ok.inj h
    rw [lookup_later hnodup hlabel]
    rfl
  | none =>
    rw [hlabel] at h
    dsimp only at h ⊢
    rw [List.lookup_append, hlabel, Option.or_none]
    cases hlater : later.lookup operand with
    | some address =>
      -- the label comes later, so the first pass leaves it to the second one
      obtain ⟨before, after, hlist, -⟩ := List.lookup_eq_some_iff.mp hlater
      have hname : Identifier operand := hid (operand, address) (by simp [hlist])
      have hall : (later ++ labels).lookup operand = some address := by
        rw [List.lookup_append, hlater]
        rfl
      rw [hname.plain, if_neg (by simp), hname.symbol, if_pos rfl] at h
      obtain rfl := Except.ok.inj h
      rw [Cell.bytes, resolve_of_lookup hname.whole hall]
      rfl
    | none =>
      dsimp only
      by_cases hsample : Text.occursIn Line.sampleAddress.toList operand = true
      · rw [if_pos hsample] at h ⊢
        obtain ⟨value, hvalue, h⟩ := (bind_eq_ok_iff _ _ _).mp h
        obtain rfl := Except.ok.inj h
        rw [hvalue]
        rfl
      · rw [if_neg hsample] at h ⊢
        by_cases hsymbol : isSymbol operand = true
        · rw [if_pos hsymbol] at h ⊢
          obtain rfl := Except.ok.inj h
          rfl
        · rw [if_neg hsymbol] at h ⊢
          obtain ⟨value, hvalue, h⟩ := (bind_eq_ok_iff _ _ _).mp h
          obtain rfl := Except.ok.inj h
          rw [hvalue]
          rfl

lemma cell_ok (hid : ∀ entry ∈ later, Identifier entry.1) {bytes : Bytes}
    (h : partBytes target (later ++ labels) (width, operand) = .ok bytes) :
    ∃ c, cell target labels width operand = .ok c := by
  unfold cell
  unfold partBytes operandValue at h
  cases hlabel : labels.lookup operand with
  | some address => exact ⟨_, rfl⟩
  | none =>
    dsimp only
    rw [List.lookup_append, hlabel, Option.or_none] at h
    cases hlater : later.lookup operand with
    | some address =>
      obtain ⟨before, after, hlist, -⟩ := List.lookup_eq_some_iff.mp hlater
      have hname : Identifier operand := hid (operand, address) (by simp [hlist])
      rw [hname.plain, if_neg (by simp), hname.symbol, if_pos rfl]
      exact ⟨_, rfl⟩
    | none =>
      rw [hlater] at h
      obtain ⟨value, hvalue, -⟩ := (bind_eq_ok_iff _ _ _).mp h
      dsimp only at hvalue
      by_cases hsample : Text.occursIn Line.sampleAddress.toList operand = true
      · rw [if_pos hsample] at hvalue ⊢
        rw [hvalue]
        exact ⟨_, rfl⟩
      · rw [if_neg hsample] at hvalue ⊢
        by_cases hsymbol : isSymbol operand = true
        · rw [if_pos hsymbol]
          exact ⟨_, rfl⟩
        · rw [if_neg hsymbol] at hvalue ⊢
          rw [hvalue]
          exact ⟨_, rfl⟩

end Cells

/-- What a statement adds to the layout. -/
def addStatement (target : Target) (layout : Layout) : Statement → Outcome Layout
  | .nothing => pure layout
  | .label name => do
    let address := layout.address + (← needed target.songOffset)
    return { layout with labels := (name, address) :: layout.labels }
  | .data width operands => operands.foldlM (Layout.addCell target width) layout

lemma addLine_eq {target : Target} {line : List Char} {statement : Statement}
    (h : Statement.ofLine? target.dialect line = some statement) (layout : Layout) :
    layout.addLine target line = addStatement target layout statement := by
  unfold Layout.addLine
  rw [h]
  cases statement <;> rfl

/-- What the first pass adds to a layout, against the operands that it reads. -/
structure Reads (target : Target) (final : Labels) (layout next : Layout)
    (parts : List (Nat × List Char)) : Prop where
  address : next.address = layout.address + total Prod.fst parts
  cells : ∃ cells : List Cell, next.cells = cells.reverse ++ layout.cells ∧
    cells.mapM (Cell.bytes final) = parts.mapM (partBytes target final)

section Pass

variable {target : Target} {final : Labels} {layout mid next : Layout}
  {parts more : List (Nat × List Char)}

lemma Reads.append (h : Reads target final layout mid parts)
    (h' : Reads target final mid next more) : Reads target final layout next (parts ++ more) where
  address := by
    rw [h'.address, h.address, total_append, Nat.add_assoc]
  cells := by
    obtain ⟨cells, hcells, hmap⟩ := h.cells
    obtain ⟨others, hothers, hmap'⟩ := h'.cells
    refine ⟨cells ++ others, ?_, ?_⟩
    · rw [hothers, hcells, List.reverse_append, List.append_assoc]
    · rw [List.mapM_append, List.mapM_append, hmap, hmap']

/-- The operands of one statement. -/
lemma addCells_reads (later : Labels) (hfinal : final = later ++ layout.labels)
    (hnodup : (final.map Prod.fst).Nodup) (hid : ∀ entry ∈ later, Identifier entry.1)
    {width : Nat} {operands : List (List Char)}
    (h : operands.foldlM (Layout.addCell target width) layout = .ok next) :
    next.labels = layout.labels ∧
      Reads target final layout next (operands.map (width, ·)) := by
  induction operands generalizing layout with
  | nil =>
    obtain rfl := Except.ok.inj h
    exact ⟨rfl, rfl, [], rfl, rfl⟩
  | cons operand rest ih =>
    rw [List.foldlM_cons] at h
    obtain ⟨mid, hmid, h⟩ := (bind_eq_ok_iff _ _ _).mp h
    obtain ⟨c, hc, hmid⟩ := (bind_eq_ok_iff _ _ _).mp hmid
    have hmid := (Except.ok.inj hmid).symm
    have hmidLabels : mid.labels = layout.labels := by rw [hmid]
    have hbytes := cell_bytes (hfinal ▸ hnodup) hid hc
    have hfirst : Reads target final layout mid [(width, operand)] := by
      refine ⟨by rw [hmid]; rfl, [c], by rw [hmid]; rfl, ?_⟩
      rw [List.mapM_cons, List.mapM_cons, hfinal, hbytes]
      rfl
    rw [← hmidLabels] at hfinal
    obtain ⟨hlabels, hreads⟩ := ih hfinal h
    exact ⟨hlabels.trans hmidLabels, hfirst.append hreads⟩

/-- One statement: the label it defines and the operands it holds. -/
lemma addStatement_reads {offset : Int} (ho : target.songOffset = some offset) (later : Labels)
    {statement : Statement}
    (hfinal : final = later ++ (statement.labels (layout.address + offset) ++ layout.labels))
    (hnodup : (final.map Prod.fst).Nodup) (hid : ∀ entry ∈ later, Identifier entry.1)
    (h : addStatement target layout statement = .ok next) :
    next.labels = statement.labels (layout.address + offset) ++ layout.labels ∧
      Reads target final layout next statement.parts := by
  cases statement with
  | nothing =>
    obtain rfl := Except.ok.inj h
    exact ⟨rfl, rfl, [], rfl, rfl⟩
  | label name =>
    simp only [addStatement, ho, needed, pure, Except.pure, ok_bind, Except.ok.injEq] at h
    subst h
    exact ⟨rfl, rfl, [], rfl, rfl⟩
  | data width operands => exact addCells_reads later hfinal hnodup hid h

lemma Reads.address_statement {statement : Statement}
    (h : Reads target final layout next statement.parts) (offset : Int) :
    (next.address : Int) + offset = layout.address + offset + statement.size := by
  rw [h.address, statement.total_parts]
  push_cast
  ring

/-- The statements of a text: the labels they define and the operands they hold. -/
lemma addStatements_reads {offset : Int} (ho : target.songOffset = some offset)
    {statements : List Statement}
    (hfinal : final = labelsFrom (layout.address + offset) statements ++ layout.labels)
    (hnodup : (final.map Prod.fst).Nodup)
    (hid : ∀ entry ∈ labelsFrom (layout.address + offset) statements, Identifier entry.1)
    (h : statements.foldlM (addStatement target) layout = .ok next) :
    next.labels = final ∧ Reads target final layout next (statements.flatMap Statement.parts) := by
  induction statements generalizing layout with
  | nil =>
    obtain rfl := Except.ok.inj h
    exact ⟨by rw [hfinal]; rfl, rfl, [], rfl, rfl⟩
  | cons statement rest ih =>
    rw [List.foldlM_cons] at h
    obtain ⟨mid, hmid, h⟩ := (bind_eq_ok_iff _ _ _).mp h
    rw [labelsFrom] at hfinal hid
    rw [List.append_assoc] at hfinal
    have hrest := fun entry he => hid entry (List.mem_append_left _ he)
    obtain ⟨hlabels, hreads⟩ := addStatement_reads ho _ hfinal hnodup hrest hmid
    rw [← hreads.address_statement, ← hlabels] at hfinal
    rw [← hreads.address_statement] at hrest
    obtain ⟨hnext, hmore⟩ := ih hfinal hrest h
    exact ⟨hnext, hreads.append hmore⟩

/-- The first pass takes down the operands of a statement if all of them have values. -/
lemma addCells_ok (later : Labels) (hfinal : final = later ++ layout.labels)
    (hid : ∀ entry ∈ later, Identifier entry.1) {width : Nat} {operands : List (List Char)}
    (h : ∀ operand ∈ operands, ∃ bytes, partBytes target final (width, operand) = .ok bytes) :
    ∃ next, operands.foldlM (Layout.addCell target width) layout = .ok next := by
  induction operands generalizing layout with
  | nil => exact ⟨layout, rfl⟩
  | cons operand rest ih =>
    obtain ⟨bytes, hbytes⟩ := h operand (by simp)
    rw [hfinal] at hbytes
    obtain ⟨c, hc⟩ := cell_ok hid hbytes
    have hmid : ∃ mid, layout.addCell target width operand = .ok mid ∧
        mid.labels = layout.labels := by
      refine ⟨{ layout with cells := c :: layout.cells, address := layout.address + width }, ?_, rfl⟩
      rw [Layout.addCell, hc]
      rfl
    obtain ⟨mid, hmid, hlabels⟩ := hmid
    rw [← hlabels] at hfinal
    obtain ⟨next, hnext⟩ := ih hfinal fun other ho => h other (by simp [ho])
    exact ⟨next, by rw [List.foldlM_cons, hmid, ok_bind, hnext]⟩

lemma addStatements_ok {offset : Int} (ho : target.songOffset = some offset)
    {statements : List Statement}
    (hfinal : final = labelsFrom (layout.address + offset) statements ++ layout.labels)
    (hnodup : (final.map Prod.fst).Nodup)
    (hid : ∀ entry ∈ labelsFrom (layout.address + offset) statements, Identifier entry.1)
    (h : ∀ part ∈ statements.flatMap Statement.parts,
      ∃ bytes, partBytes target final part = .ok bytes) :
    ∃ next, statements.foldlM (addStatement target) layout = .ok next := by
  induction statements generalizing layout with
  | nil => exact ⟨layout, rfl⟩
  | cons statement rest ih =>
    rw [labelsFrom] at hfinal hid
    rw [List.append_assoc] at hfinal
    have hrest := fun entry he => hid entry (List.mem_append_left _ he)
    have hmid : ∃ mid, addStatement target layout statement = .ok mid := by
      cases statement with
      | nothing => exact ⟨layout, rfl⟩
      | label name =>
        refine ⟨{ layout with labels := (name, layout.address + offset) :: layout.labels }, ?_⟩
        simp only [addStatement, ho, needed, pure, Except.pure, ok_bind]
      | data width operands =>
        exact addCells_ok _ hfinal hrest fun operand hm =>
          h (width, operand) (List.mem_append_left _ (List.mem_map_of_mem hm))
    obtain ⟨mid, hmid⟩ := hmid
    obtain ⟨hlabels, hreads⟩ := addStatement_reads ho _ hfinal hnodup hrest hmid
    rw [← hreads.address_statement, ← hlabels] at hfinal
    rw [← hreads.address_statement] at hrest
    obtain ⟨next, hnext⟩ := ih hfinal hrest fun part hp => h part (List.mem_append_right _ hp)
    exact ⟨next, by rw [List.foldlM_cons, hmid, ok_bind, hnext]⟩

end Pass

lemma addLines_eq {target : Target} {lines : List (List Char)} {statements : List Statement}
    (h : lines.map (Statement.ofLine? target.dialect) = statements.map some) (layout : Layout) :
    lines.foldlM (Layout.addLine target) layout =
      statements.foldlM (addStatement target) layout := by
  induction statements generalizing lines layout with
  | nil =>
    obtain rfl := List.map_eq_nil_iff.mp h
    rfl
  | cons statement rest ih =>
    obtain ⟨line, lines, rfl, hline, hlines⟩ := List.map_eq_cons_iff.mp h
    rw [List.foldlM_cons, List.foldlM_cons, addLine_eq hline]
    exact congrArg _ (funext fun next => ih hlines next)

/-- A text of statements is assembled just if all operands have values, and then to the bytes of
these values in order. -/
theorem assemble_eq_ok_iff {target : Target} {offset : Int}
    (ho : target.songOffset = some offset) {text : String} {statements : List Statement}
    (hs : (Text.lines text.toList).map (Statement.ofLine? target.dialect) = statements.map some)
    (hnodup : ((labelsFrom offset statements).map Prod.fst).Nodup)
    (hid : ∀ entry ∈ labelsFrom offset statements, Identifier entry.1) (bytes : Bytes) :
    assemble target text = .ok bytes ↔
      partsBytes target (labelsFrom offset statements) (statements.flatMap Statement.parts) =
        .ok bytes := by
  have hfold : (Text.lines text.toList).foldlM (Layout.addLine target) {} =
      statements.foldlM (addStatement target) {} := addLines_eq hs {}
  have hfinal : labelsFrom offset statements =
      labelsFrom ((({} : Layout).address : Int) + offset) statements ++ ({} : Layout).labels := by
    simp
  rw [show offset = ((({} : Layout).address : Int) + offset) by simp] at hid
  constructor
  · intro h
    obtain ⟨layout, hlayout, h⟩ := (bind_eq_ok_iff _ _ _).mp h
    obtain ⟨next, hnext, hlayout⟩ := (bind_eq_ok_iff _ _ _).mp hlayout
    obtain rfl := Except.ok.inj hlayout
    obtain ⟨chunks, hchunks, h⟩ := (bind_eq_ok_iff _ _ _).mp h
    obtain rfl := Except.ok.inj h
    rw [hfold] at hnext
    obtain ⟨hlabels, -, cells, hcells, hmap⟩ := addStatements_reads ho hfinal hnodup hid hnext
    have hparts : cells.mapM (Cell.bytes (labelsFrom offset statements)) = .ok chunks := by
      rw [← hchunks, hcells, hlabels]
      simp
    rw [partsBytes, ← hmap, hparts]
    rfl
  · intro h
    obtain ⟨chunks, hchunks, h⟩ := (bind_eq_ok_iff _ _ _).mp h
    obtain rfl := Except.ok.inj h
    have hvalues : ∀ part ∈ statements.flatMap Statement.parts,
        ∃ bytes, partBytes target (labelsFrom offset statements) part = .ok bytes := by
      intro part hp
      obtain ⟨bytes, -, hb⟩ := exists_right_of_mem ((mapM_eq_ok_iff _ _ _).mp hchunks) hp
      exact ⟨bytes, hb⟩
    obtain ⟨next, hnext⟩ := addStatements_ok ho hfinal hnodup hid hvalues
    obtain ⟨hlabels, -, cells, hcells, hmap⟩ := addStatements_reads ho hfinal hnodup hid hnext
    rw [hchunks] at hmap
    rw [assemble, Layout.ofText, hfold, hnext]
    simp only [ok_bind, Layout.bytes, hcells, hlabels]
    simp [hmap, pure, Except.pure, ok_bind]

end Chiptune.Assembly
