import Chiptune.Proofs.LineText

/-!
# The bytes of lines

A document of proper lines with different labels is assembled to the bytes of its lines in order.
The address of a label is the address of the document plus the size of the lines before it.
-/

namespace Chiptune.Assembly

open Text

/-- The label that a line defines. -/
def Line.label? : Line → Option Label
  | label l => some l
  | _ => none

def labelsOf (lines : List Line) : List Label := lines.filterMap Line.label?

/-- Lines that can be told apart from their text and define no label twice. -/
structure Coherent (lines : List Line) : Prop where
  plain : ∀ line ∈ lines, line.Plain
  once : (labelsOf lines).Nodup

/-- The text of a document. -/
def textOf (dialect : Dialect) (lines : List Line) : String :=
  String.join (lines.map fun line => line.text dialect ++ "\n")

/-- The labels of a document at an address, under their names. -/
def addresses (dialect : Dialect) (offset : Int) (lines : List Line) : Labels :=
  labelsFrom offset (lines.map (·.statement dialect))

def parts (dialect : Dialect) (lines : List Line) : List (Nat × List Char) :=
  lines.flatMap fun line => (line.statement dialect).parts

/-- The bytes of lines if all labels are known. -/
def code (target : Target) (labels : Labels) (lines : List Line) : Outcome Bytes :=
  partsBytes target labels (parts target.dialect lines)

section Addresses

variable {dialect : Dialect} {offset : Int} {lines before after : List Line} {l : Label}

lemma labelsOf_append (lines more : List Line) :
    labelsOf (lines ++ more) = labelsOf lines ++ labelsOf more :=
  List.filterMap_append

lemma mem_labelsOf : l ∈ labelsOf lines ↔ .label l ∈ lines := by
  rw [labelsOf, List.mem_filterMap]
  constructor
  · rintro ⟨line, hm, hl⟩
    cases line with
    | label other =>
      obtain rfl := Option.some.inj hl
      exact hm
    | _ => exact nomatch hl
  · intro hm
    exact ⟨_, hm, rfl⟩

lemma plain_of_mem_labelsOf (h : ∀ line ∈ lines, line.Plain) (hl : l ∈ labelsOf lines) : l.Plain :=
  h _ (mem_labelsOf.mp hl)

lemma defined_statements (dialect : Dialect) (lines : List Line) :
    (lines.map (·.statement dialect)).flatMap Statement.defined =
      (labelsOf lines).map fun l => (l.text dialect).toList := by
  rw [List.flatMap_map]
  induction lines with
  | nil => rfl
  | cons line rest ih =>
    rw [List.flatMap_cons, ih, ← List.singleton_append, labelsOf_append, List.map_append]
    congr 1
    cases line <;> rfl

lemma names_addresses (dialect : Dialect) (offset : Int) (lines : List Line) :
    (addresses dialect offset lines).map Prod.fst =
      ((labelsOf lines).map fun l => (l.text dialect).toList).reverse := by
  rw [addresses, names_labelsFrom, defined_statements]

lemma nodup_addresses (hd : dialect.Sound) (h : Coherent lines) :
    ((addresses dialect offset lines).map Prod.fst).Nodup := by
  rw [names_addresses, List.nodup_reverse]
  refine List.Nodup.map_on ?_ h.once
  intro a ha b hb hab
  exact Label.text_injective hd (plain_of_mem_labelsOf h.plain ha)
    (plain_of_mem_labelsOf h.plain hb) hab

lemma name_of_mem_addresses (hd : dialect.Sound) (h : ∀ line ∈ lines, line.Plain)
    {entry : List Char × Int} (he : entry ∈ addresses dialect offset lines) : Name entry.1 := by
  have hm := List.mem_map_of_mem (f := Prod.fst) he
  rw [names_addresses, List.mem_reverse, List.mem_map] at hm
  obtain ⟨l, hl, hname⟩ := hm
  rw [← hname]
  exact Label.name_text hd (plain_of_mem_labelsOf h hl)

/-- A label lies after the lines before it. -/
theorem lookup_addresses (hd : dialect.Sound) (h : Coherent (before ++ .label l :: after)) :
    (addresses dialect offset (before ++ .label l :: after)).lookup (l.text dialect).toList =
      some (offset + total Line.size before) := by
  have hsize : total Statement.size (before.map (·.statement dialect)) =
      total Line.size before := by
    rw [total_map]
    simp only [Line.size_statement]
  have hnodup := @nodup_addresses dialect offset _ hd h
  rw [addresses, names_labelsFrom, List.nodup_reverse] at hnodup
  rw [addresses, lookup_labelsFrom (List.map_append ..) hnodup, hsize]

end Addresses

section Code

variable {target : Target} {labels : Labels} {bytes : Bytes}

lemma partsBytes_append (first second : List (Nat × List Char)) :
    partsBytes target labels (first ++ second) = .ok bytes ↔ ∃ x y,
      partsBytes target labels first = .ok x ∧ partsBytes target labels second = .ok y ∧
      bytes = x ++ y := by
  unfold partsBytes
  rw [List.mapM_append, bind_eq_ok_iff]
  constructor
  · rintro ⟨chunks, hchunks, h⟩
    obtain ⟨xs, hxs, hchunks⟩ := (bind_eq_ok_iff _ _ _).mp hchunks
    obtain ⟨ys, hys, hchunks⟩ := (bind_eq_ok_iff _ _ _).mp hchunks
    obtain rfl := Except.ok.inj hchunks
    obtain rfl := Except.ok.inj h
    refine ⟨xs.flatten, ys.flatten, ?_, ?_, List.flatten_append⟩
    · rw [hxs]
      rfl
    · rw [hys]
      rfl
  · rintro ⟨x, y, hx, hy, rfl⟩
    obtain ⟨xs, hxs, hx⟩ := (bind_eq_ok_iff _ _ _).mp hx
    obtain ⟨ys, hys, hy⟩ := (bind_eq_ok_iff _ _ _).mp hy
    obtain rfl := Except.ok.inj hx
    obtain rfl := Except.ok.inj hy
    refine ⟨xs ++ ys, ?_, ?_⟩
    · rw [hxs, hys]
      rfl
    · rw [List.flatten_append]
      rfl

lemma code_append (lines more : List Line) :
    code target labels (lines ++ more) = .ok bytes ↔ ∃ x y,
      code target labels lines = .ok x ∧ code target labels more = .ok y ∧ bytes = x ++ y := by
  unfold code
  rw [parts, List.flatMap_append]
  exact partsBytes_append _ _

lemma valueBytes_length (value : Int) {width : Nat} (h : width ≤ 2) :
    (valueBytes value width).length = width := by
  rw [valueBytes, List.length_take]
  exact min_eq_left h

lemma partBytes_length {part : Nat × List Char} (hw : part.1 ≤ 2)
    (h : partBytes target labels part = .ok bytes) : bytes.length = part.1 := by
  obtain ⟨value, -, h⟩ := (bind_eq_ok_iff _ _ _).mp h
  obtain rfl := Except.ok.inj h
  exact valueBytes_length value hw

lemma partsBytes_singleton (part : Nat × List Char) :
    partsBytes target labels [part] = .ok bytes ↔ partBytes target labels part = .ok bytes := by
  rw [partsBytes, List.mapM_cons, List.mapM_nil]
  cases partBytes target labels part with
  | error e => exact iff_of_false (fun h => by cases h) (fun h => by cases h)
  | ok chunk => simp [pure, Except.pure]

lemma partsBytes_length {list : List (Nat × List Char)} (hw : ∀ part ∈ list, part.1 ≤ 2)
    (h : partsBytes target labels list = .ok bytes) : bytes.length = total Prod.fst list := by
  induction list generalizing bytes with
  | nil =>
    obtain rfl := Except.ok.inj h
    rfl
  | cons part rest ih =>
    rw [← List.singleton_append, partsBytes_append] at h
    obtain ⟨x, y, hx, hy, rfl⟩ := h
    rw [partsBytes_singleton] at hx
    rw [List.length_append, partBytes_length (hw part (by simp)) hx,
      ih (fun other ho => hw other (by simp [ho])) hy, total]

lemma width_le (dialect : Dialect) (line : Line) :
    ∀ part ∈ (line.statement dialect).parts, part.1 ≤ 2 := by
  intro part hp
  cases line with
  | blank | comment _ | label _ => exact absurd hp List.not_mem_nil
  | count _ | bytes _ _ | words _ | sample _ _ _ _ =>
    obtain ⟨operand, -, rfl⟩ := List.mem_map.mp hp
    simp

theorem code_length {lines : List Line} (h : code target labels lines = .ok bytes) :
    bytes.length = total Line.size lines := by
  have hw : ∀ part ∈ parts target.dialect lines, part.1 ≤ 2 := by
    intro part hp
    obtain ⟨line, -, hp⟩ := List.mem_flatMap.mp hp
    exact width_le _ line part hp
  rw [partsBytes_length hw h, parts]
  clear h hw
  induction lines with
  | nil => rfl
  | cons line rest ih =>
    rw [List.flatMap_cons, total_append, ih, Statement.total_parts, Line.size_statement, total]

/-- The lines of a document are read back from its text. -/
lemma statements_textOf {dialect : Dialect} (hd : dialect.Sound) {lines : List Line}
    (h : ∀ line ∈ lines, line.Plain) :
    (Text.lines (textOf dialect lines).toList).map (Statement.ofLine? dialect) =
      (lines.map (·.statement dialect)).map some := by
  have hlines : ∀ text ∈ lines.map (·.text dialect), OneLine text.toList := by
    intro text ht
    obtain ⟨line, hm, rfl⟩ := List.mem_map.mp ht
    exact (Line.ofLine?_text hd (h line hm)).2
  have htexts := lines_join hlines
  rw [List.map_map, List.map_map] at htexts
  have hjoin : textOf dialect lines =
      String.join (lines.map ((· ++ "\n") ∘ (·.text dialect))) := rfl
  rw [hjoin, htexts, List.map_map, List.map_map]
  exact List.map_congr_left fun line hm => (Line.ofLine?_text hd (h line hm)).1

/-- A document is assembled just if the operands of its lines have values. -/
theorem assemble_lines {offset : Int} (ho : target.songOffset = some offset)
    (hd : target.dialect.Sound) {lines : List Line} (h : Coherent lines) :
    assemble target (textOf target.dialect lines) = .ok bytes ↔
      code target (addresses target.dialect offset lines) lines = .ok bytes := by
  rw [assemble_eq_ok_iff ho (statements_textOf hd h.plain) (nodup_addresses hd h) fun entry he =>
    (name_of_mem_addresses hd h.plain he).identifier]
  rw [code, parts, List.flatMap_map]
  rfl

lemma partBytes_of_lookup {name : List Char} {address : Int} (width : Nat)
    (h : labels.lookup name = some address) :
    partBytes target labels (width, name) = .ok (valueBytes address width) := by
  rw [partBytes, operandValue, h]
  rfl

lemma byteOperand_eq (value : Int) : ∃ high < 16, ∃ low < 16,
    byteOperand value = ['$', hexDigit high, hexDigit low] ∧
      value % 256 = (16 * high + low : Nat) := by
  have hlt : (value % 256).toNat < 256 := by omega
  have hdigit : hexDigit (value % 256).toNat = hexDigit ((value % 256).toNat % 16) := by
    rw [hexDigit, hexDigit, Nat.mod_mod]
  refine ⟨(value % 256).toNat / 16, by omega, (value % 256).toNat % 16, by omega, ?_, by omega⟩
  rw [byteOperand, hexPair_byte hlt, ← hdigit]

lemma number_hexDigits : ∀ high < 16, ∀ low < 16,
    let operand := ['$', hexDigit high, hexDigit low]
    occursIn Line.sampleAddress.toList operand = false ∧ isSymbol operand = false ∧
      number operand = .ok (16 * high + low : Nat) := by
  decide +kernel

/-- A byte is written as it is, as no label has a name that starts with a dollar sign. -/
lemma partBytes_byteOperand (hl : ∀ entry ∈ labels, Name entry.1) (value : Int) :
    partBytes target labels (1, byteOperand value) = .ok [Bytes.low value] := by
  have hlookup : labels.lookup (byteOperand value) = none :=
    lookup_eq_none (fun entry he => (hl entry he).named)
      fun hn => hn.not_mem (c := '$') (by decide) List.mem_cons_self
  obtain ⟨high, hhigh, low, hlow, htext, hvalue⟩ := byteOperand_eq value
  obtain ⟨hplain, hsymbol, hnumber⟩ := number_hexDigits high hhigh low hlow
  have hlow : Bytes.low (value % 256) = Bytes.low value := by
    rw [Bytes.low, Bytes.low, Int.emod_emod_of_dvd _ (dvd_refl 256)]
  rw [partBytes, operandValue, hlookup, htext]
  dsimp only
  rw [hplain, if_neg (by simp), hsymbol, if_neg (by simp), hnumber, ok_bind, ← hvalue,
    ← hlow]
  rfl

lemma partsBytes_map {α : Type} {f : α → Nat × List Char} {g : α → Bytes} {xs : List α}
    (h : ∀ x ∈ xs, partBytes target labels (f x) = .ok (g x)) :
    partsBytes target labels (xs.map f) = .ok (xs.flatMap g) := by
  induction xs with
  | nil => rfl
  | cons x rest ih =>
    rw [List.map_cons, ← List.singleton_append, partsBytes_append]
    exact ⟨g x, rest.flatMap g, (partsBytes_singleton _).mpr (h x (by simp)),
      ih fun other ho => h other (by simp [ho]), rfl⟩

lemma map_low_toNat (bytes : Bytes) :
    (bytes.map fun b => (b.toNat : Int)).map Bytes.low = bytes := by
  rw [List.map_map]
  conv_rhs => rw [← List.map_id bytes]
  apply List.map_congr_left
  intro b _
  have hb := b.toNat_lt
  simp only [Function.comp, Bytes.low, id]
  rw [show ((b.toNat : Int) % 256).toNat = b.toNat by omega]
  exact UInt8.ofNat_toNat

lemma code_bytes (hl : ∀ entry ∈ labels, Name entry.1) (values : List Int) (remark : String) :
    code target labels [.bytes values remark] = .ok (values.map Bytes.low) := by
  have hparts : parts target.dialect [.bytes values remark] =
      values.map fun value => (1, byteOperand value) := by
    simp [parts, Line.statement, Statement.parts]
  rw [code, hparts, partsBytes_map fun value _ => partBytes_byteOperand hl value,
    List.map_eq_flatMap]

/-- Words that are labels are written as their addresses. -/
lemma code_words {address : Label → Int} {ls : List Label}
    (h : ∀ l ∈ ls, labels.lookup (l.text target.dialect).toList = some (address l)) :
    code target labels [.words (ls.map .label)] =
      .ok (ls.flatMap fun l => Bytes.lowWord (address l)) := by
  have hparts : parts target.dialect [.words (ls.map .label)] =
      ls.map fun l => (2, (l.text target.dialect).toList) := by
    simp [parts, Line.statement, Statement.parts, Operand.text]
  rw [code, hparts, partsBytes_map fun l hl => partBytes_of_lookup 2 (h l hl)]
  rfl

lemma code_words_append (operands more : List Operand) :
    code target labels [.words (operands ++ more)] = .ok bytes ↔ ∃ x y,
      code target labels [.words operands] = .ok x ∧ code target labels [.words more] = .ok y ∧
      bytes = x ++ y := by
  have hparts : parts target.dialect [.words (operands ++ more)] =
      parts target.dialect [.words operands] ++ parts target.dialect [.words more] := by
    simp [parts, Line.statement, Statement.parts]
  rw [code, hparts, partsBytes_append]
  rfl

end Code

end Chiptune.Assembly
