import Chiptune.Proofs.Listings

/-!
# The text of a line

Every line of an export is read back from its text as the statement that it stands for, in each of
the dialects. Different labels have different names, and every name is a symbol.
-/

namespace Chiptune.Assembly

open Text

/-- Whether the name of a label may hold the character. -/
def isNamePart (c : Char) : Bool := c.isLower || c.isDigit || c == '_' || c == '.' || c == '@'

structure Name (s : List Char) : Prop where
  start : ∀ c ∈ s.head?, isSymbolStart c = true
  nonempty : s ≠ []
  parts : ∀ c ∈ s, isNamePart c = true

lemma isNamePart_cases {c : Char} (h : isNamePart c = true) :
    0x61 ≤ c.toNat ∧ c.toNat ≤ 0x7A ∨ 0x30 ≤ c.toNat ∧ c.toNat ≤ 0x39 ∨ c = '_' ∨ c = '.' ∨
      c = '@' := by
  simp only [isNamePart, Bool.or_eq_true, beq_iff_eq, Char.isDigit, Char.isLower, Bool.and_eq_true,
    decide_eq_true_eq] at h
  rcases h with (((h | h) | h) | h) | h
  · exact .inl h
  · exact .inr (.inl h)
  · exact .inr (.inr (.inl h))
  · exact .inr (.inr (.inr (.inl h)))
  · exact .inr (.inr (.inr (.inr h)))

lemma isNamePart_of_isDigit {c : Char} (h : c.isDigit = true) : isNamePart c = true := by
  simp [isNamePart, h]

lemma isWordPart_of_isNamePart {c : Char} (h : isNamePart c = true) : isWordPart c = true := by
  rcases isNamePart_cases h with h | h | rfl | rfl | rfl
  · apply isWordPart_of_printable (by omega) (by omega)
    · rintro rfl
      exact absurd h (by decide)
    · rintro rfl
      exact absurd h (by decide)
  · exact isWordPart_of_isDigit ((isDigit_iff c).mpr h)
  · decide
  · decide
  · decide

lemma isSymbolPart_of_isNamePart {c : Char} (h : isNamePart c = true) : isSymbolPart c = true := by
  simp only [isNamePart, Bool.or_eq_true, beq_iff_eq] at h
  simp only [isSymbolPart, isSymbolStart, Char.isAlpha, Bool.or_eq_true, beq_iff_eq]
  tauto

namespace Name

variable {s : List Char}

lemma word (h : Name s) : Word s :=
  ⟨h.nonempty, fun c hc => isWordPart_of_isNamePart (h.parts c hc)⟩

lemma not_mem (h : Name s) {c : Char} (hc : isNamePart c = false) : c ∉ s := by
  intro hm
  rw [h.parts c hm] at hc
  exact nomatch hc

lemma append {t : List Char} (h : Name s) (ht : ∀ c ∈ t, isNamePart c = true) :
    Name (s ++ t) where
  start := by
    obtain ⟨c, rest, rfl⟩ := List.exists_cons_of_ne_nil h.nonempty
    exact h.start
  nonempty := by simp [h.nonempty]
  parts := by
    intro c hc
    rcases List.mem_append.mp hc with hc | hc
    · exact h.parts c hc
    · exact ht c hc

/-- No label mentions the address of the samples, which is in capitals. -/
lemma named (h : Name s) : Named s where
  spelling := by
    obtain ⟨c, rest, rfl⟩ := List.exists_cons_of_ne_nil h.nonempty
    exact ⟨c, rest, rfl, h.start c (by simp), fun d hd =>
      isSymbolPart_of_isNamePart (h.parts d (List.mem_cons_of_mem _ hd))⟩
  plain := fun hin => h.not_mem (c := 'F') (by decide) (hin.subset (by decide))

lemma identifier (h : Name s) : Identifier s := h.named.identifier

end Name

namespace Label

/-- The name of a label without the mark of a local one. -/
def stem : Label → List Char
  | musicData name => name.toList ++ "_music_data".toList
  | instruments => ['i', 'n', 's', 't', 'r', 'u', 'm', 'e', 'n', 't', 's']
  | samples => ['s', 'a', 'm', 'p', 'l', 'e', 's']
  | envelope number => ['e', 'n', 'v'] ++ (toString number).toList
  | channel song number =>
    ['s', 'o', 'n', 'g'] ++ ((toString song).toList ++ (['c', 'h'] ++ (toString number).toList))
  | channelLoop song number =>
    ['s', 'o', 'n', 'g'] ++ ((toString song).toList ++
      (['c', 'h'] ++ ((toString number).toList ++ ['l', 'o', 'o', 'p'])))
  | buffer number => ['r', 'e', 'f'] ++ (toString number).toList

def isLocal : Label → Bool
  | musicData _ => false
  | _ => true

lemma toList_text (dialect : Dialect) (l : Label) :
    (l.text dialect).toList = (if l.isLocal then dialect.localMark.toList else []) ++ l.stem := by
  cases l with
  | musicData name => simp [text, stem, isLocal]
  | instruments | samples => simp [text, stem, isLocal]
  | envelope number | buffer number => simp [text, stem, isLocal, toString]
  | channel song number | channelLoop song number => simp [text, stem, isLocal, toString]

/-- The name in front of a label that is not local is made of letters, digits and underscores. -/
def Plain : Label → Prop
  | musicData name => Name name.toList ∧ '@' ∉ name.toList ∧ '.' ∉ name.toList
  | _ => True

section Names

variable {dialect : Dialect} {a b : Label}

lemma isNamePart_of_mem_natural {n : Nat} {c : Char} (h : c ∈ (toString n).toList) :
    isNamePart c = true :=
  isNamePart_of_isDigit (isDigit_of_mem_natural h)

lemma isNamePart_of_mem_stem (h : a.isLocal = true) {c : Char} (hc : c ∈ a.stem) :
    isNamePart c = true := by
  have hnatural : ∀ n : Nat, (toString n).toList.all isNamePart = true := fun n =>
    List.all_eq_true.mpr fun c hc => isNamePart_of_mem_natural hc
  suffices hall : a.stem.all isNamePart = true from List.all_eq_true.mp hall c hc
  cases a with
  | musicData name => exact nomatch h
  | instruments | samples => decide
  | envelope number | buffer number | channel song number | channelLoop song number =>
    simp only [stem, List.all_append, hnatural, Bool.and_eq_true, Bool.and_true, true_and]
    decide

lemma name_text (hd : dialect.Sound) (h : a.Plain) : Name (a.text dialect).toList := by
  rw [toList_text]
  by_cases hl : a.isLocal = true
  · rw [if_pos hl]
    have hmark : Name dialect.localMark.toList := by
      rcases hd.mark with hm | hm
      · rw [hm]
        exact ⟨by simp [isSymbolStart], by simp, List.all_eq_true.mp (by decide)⟩
      · rw [hm]
        exact ⟨by simp [isSymbolStart], by simp, List.all_eq_true.mp (by decide)⟩
    exact hmark.append fun c hc => isNamePart_of_mem_stem hl hc
  · rw [if_neg hl, List.nil_append]
    cases a with
    | musicData name => exact h.1.append (List.all_eq_true.mp (by decide))
    | instruments | samples | envelope _ | channel _ _ | channelLoop _ _ | buffer _ =>
      exact absurd rfl hl

lemma stem_injective (ha : a.isLocal = true) (hb : b.isLocal = true) (h : a.stem = b.stem) :
    a = b := by
  have hdigits : ∀ {m n : Nat}, (toString m).toList = (toString n).toList → m = n := by
    intro m n hmn
    exact (natural_append_inj (s := []) (t := []) (by simp) (by simp) (by simpa using hmn)).1
  cases a with
  | musicData name => exact nomatch ha
  | instruments | samples => cases b <;> simp_all [stem, isLocal]
  | envelope m =>
    cases b with
    | envelope n =>
      obtain rfl := hdigits (List.append_cancel_left h)
      rfl
    | _ => simp_all [stem, isLocal]
  | buffer m =>
    cases b with
    | buffer n =>
      obtain rfl := hdigits (List.append_cancel_left h)
      rfl
    | _ => simp_all [stem, isLocal]
  | channel song m =>
    cases b with
    | channel other n =>
      obtain ⟨rfl, hnumber⟩ := natural_append_inj (by simp) (by simp) (List.append_cancel_left h)
      obtain rfl := hdigits (List.append_cancel_left hnumber)
      rfl
    | channelLoop other n =>
      obtain ⟨rfl, hnumber⟩ := natural_append_inj (by simp) (by simp) (List.append_cancel_left h)
      have hnumber := List.append_cancel_left hnumber
      rw [← List.append_nil (toString m).toList] at hnumber
      exact nomatch (natural_append_inj (by simp) (by simp) hnumber).2
    | _ => simp_all [stem, isLocal]
  | channelLoop song m =>
    cases b with
    | channelLoop other n =>
      obtain ⟨rfl, hnumber⟩ := natural_append_inj (by simp) (by simp) (List.append_cancel_left h)
      obtain ⟨rfl, -⟩ := natural_append_inj (by simp) (by simp) (List.append_cancel_left hnumber)
      rfl
    | channel other n =>
      obtain ⟨rfl, hnumber⟩ := natural_append_inj (by simp) (by simp) (List.append_cancel_left h)
      have hnumber := List.append_cancel_left hnumber
      rw [← List.append_nil (toString n).toList] at hnumber
      exact nomatch (natural_append_inj (by simp) (by simp) hnumber).2
    | _ => simp_all [stem, isLocal]

lemma not_local_iff : a.isLocal = false ↔ ∃ name, a = musicData name := by
  cases a <;> simp [isLocal]

lemma text_ne (hd : dialect.Sound) (ha : a.isLocal = true) (hb : b.isLocal = false)
    (hp : b.Plain) : (a.text dialect).toList ≠ (b.text dialect).toList := by
  obtain ⟨name, rfl⟩ := not_local_iff.mp hb
  intro h
  obtain ⟨c, rest, hname⟩ := List.exists_cons_of_ne_nil hp.1.nonempty
  have hstem : (musicData name).stem = c :: (rest ++ "_music_data".toList) := by
    rw [stem, hname, List.cons_append]
  rw [toList_text, toList_text, if_pos ha, if_neg (by simp [hb]), List.nil_append, hstem] at h
  rcases hd.mark with hm | hm
  · rw [hm] at h
    obtain rfl : '@' = c := (List.cons.inj h).1
    exact hp.2.1 (hname ▸ List.mem_cons_self)
  · rw [hm] at h
    obtain rfl : '.' = c := (List.cons.inj h).1
    exact hp.2.2 (hname ▸ List.mem_cons_self)

theorem text_injective (hd : dialect.Sound) (ha : a.Plain) (hb : b.Plain)
    (h : (a.text dialect).toList = (b.text dialect).toList) : a = b := by
  cases hla : a.isLocal with
  | true =>
    cases hlb : b.isLocal with
    | true =>
      rw [toList_text, toList_text, if_pos hla, if_pos hlb] at h
      exact stem_injective hla hlb (List.append_cancel_left h)
    | false => exact absurd h (text_ne hd hla hlb hb)
  | false =>
    cases hlb : b.isLocal with
    | true => exact absurd h.symm (text_ne hd hlb hla ha)
    | false =>
      obtain ⟨name, rfl⟩ := not_local_iff.mp hla
      obtain ⟨other, rfl⟩ := not_local_iff.mp hlb
      have hstem : name.toList = other.toList := by simpa [text] using h
      rw [String.toList_inj.mp hstem]

end Names

end Label

/-! ### Statements of lines -/

def Operand.Plain : Operand → Prop
  | .label l | .before l _ => l.Plain
  | .number _ => True

/-- The labels of the line have proper names, and what stands in its comment is on one line. -/
def Line.Plain : Line → Prop
  | blank | count _ => True
  | comment text => OneLine text.toList
  | label l => l.Plain
  | bytes _ remark => OneLine remark.toList
  | words operands => ∀ operand ∈ operands, operand.Plain
  | sample _ _ _ remark => OneLine remark.toList

/-- The operand of the sample table that only the linked address completes. -/
def samplePlace (dialect : Dialect) (place : Nat) : List Char :=
  '$' :: hexPair (place % 256) ++
    ('+' :: dialect.lowByte.toList ++ ('(' :: Line.sampleAddress.toList ++ [')']))

def byteOperand (value : Int) : List Char := '$' :: hexPair (value % 256).toNat

/-- What a line asks of the assembler. -/
def Line.statement (dialect : Dialect) : Line → Statement
  | blank | comment _ => .nothing
  | label l => .label (l.text dialect).toList
  | count value => .data 1 [(toString value).toList]
  | bytes values _ => .data 1 (values.map byteOperand)
  | words operands => .data 2 (operands.map fun operand => (operand.text dialect).toList)
  | sample place units flags _ => .data 1
    [samplePlace dialect place, '$' :: hexPair (units % 256), '$' :: hexPairInt flags]

lemma Line.size_statement (dialect : Dialect) (line : Line) :
    (line.statement dialect).size = line.size := by
  cases line with
  | blank | comment _ | label _ | count _ => rfl
  | bytes values remark => simp [statement, Statement.size, size]
  | words operands => simp [statement, Statement.size, size]
  | sample _ _ _ _ => rfl

/-- The text of a directive with its operands. -/
def dataText (directive : List Char) (operands : List (List Char)) : List Char :=
  '\t' :: directive ++ ' ' :: [','].intercalate operands

section Statements

variable {operands : List (List Char)}

lemma operands_intercalate (ho : ∀ operand ∈ operands, Word operand) :
    Statement.operands ([','].intercalate operands) = operands := by
  by_cases hne : operands = []
  · rw [hne]
    rfl
  · rw [operands_padded (padded_words ho) hne, filter_words ho]

end Statements

section Lines

variable {dialect : Dialect}

/-- A line of data, with or without a comment, is read as its directive and its operands. -/
lemma ofLine?_dataText (hd : dialect.Sound) {width : Nat} {directive : List Char}
    (h : dialect.Directive width directive) {operands : List (List Char)}
    (ho : ∀ operand ∈ operands, Word operand) {remark : List Char}
    (hr : remark = [] ∨ ∃ rest, remark = '\t' :: ';' :: rest) :
    Statement.ofLine? dialect (dataText directive operands ++ remark) =
      some (.data width operands) := by
  have htab : Blanks ['\t'] := List.forall_mem_singleton.mpr (by decide)
  have hcode : ';' ∉ [','].intercalate operands := by
    intro hc
    rcases mem_intercalate hc with hc | ⟨operand, hm, hc⟩
    · exact absurd hc (by decide)
    · exact (ho operand hm).not_mem (by decide) hc
  rcases hr with rfl | ⟨rest, rfl⟩
  · have hline := ofLine?_data hd h htab hcode (.inl rfl)
    rw [operands_intercalate ho] at hline
    simpa [dataText] using hline
  · -- The tab before the comment is one of the blanks behind the operands.
    have hblank : ';' ∉ [','].intercalate operands ++ ['\t'] := by simp [hcode]
    have hline := ofLine?_data hd h htab hblank (.inr ⟨rest, rfl⟩)
    rw [operands_append_blanks htab, operands_intercalate ho] at hline
    simpa [dataText] using hline

lemma ofLine?_label (hd : dialect.Sound) {name : List Char} (h : Name name) :
    Statement.ofLine? dialect (name ++ [':']) = some (.label name) := by
  have hnone : Blanks [] := List.forall_mem_nil _
  simpa using ofLine?_named hd h.named hnone hnone (.inl rfl)

lemma ofLine?_comment (rest : List Char) :
    Statement.ofLine? dialect (';' :: rest) = some .nothing := rfl

lemma word_dollar {s : List Char} (h : Word s) : Word ('$' :: s) :=
  (word_of_all (s := ['$']) (by decide) (by decide)).append h.parts

lemma word_samplePlace (hd : dialect.Sound) (place : Nat) : Word (samplePlace dialect place) := by
  refine (word_dollar (word_hexPair _)).append fun c hc => ?_
  have hconst : ∀ s : List Char, s.all isWordPart = true → c ∈ s → isWordPart c = true :=
    fun s hs => List.all_eq_true.mp hs c
  rcases List.mem_append.mp hc with hc | hc
  · rcases List.mem_cons.mp hc with rfl | hc
    · decide
    · exact hd.lowByte c hc
  · exact hconst _ (by decide) hc

lemma word_operand (hd : dialect.Sound) {operand : Operand} (h : operand.Plain) :
    Word (operand.text dialect).toList := by
  cases operand with
  | label l => exact (Label.name_text hd h).word
  | before l distance =>
    have htext : (Operand.text dialect (.before l distance)).toList =
        (l.text dialect).toList ++ ('-' :: (toString distance).toList) := by
      simp [Operand.text, toString]
    rw [htext]
    refine (Label.name_text hd h).word.append fun c hc => ?_
    rcases List.mem_cons.mp hc with rfl | hc
    · decide
    · exact (word_natural distance).parts c hc
  | number value => exact word_integer value

lemma words_statement (hd : dialect.Sound) {line : Line} (h : line.Plain) :
    ∀ part ∈ (line.statement dialect).parts, Word part.2 := by
  intro part hp
  cases line with
  | blank | comment _ | label _ => simp [Line.statement, Statement.parts] at hp
  | count value =>
    obtain rfl : part = (1, (toString value).toList) := by
      simpa [Line.statement, Statement.parts] using hp
    exact word_natural value
  | bytes values remark =>
    obtain ⟨operand, ho, rfl⟩ := List.mem_map.mp hp
    obtain ⟨value, -, rfl⟩ := List.mem_map.mp ho
    exact word_dollar (word_hexPair _)
  | words operands =>
    obtain ⟨operand, ho, rfl⟩ := List.mem_map.mp hp
    obtain ⟨value, hv, rfl⟩ := List.mem_map.mp ho
    exact word_operand hd (h value hv)
  | sample place units flags remark =>
    obtain ⟨operand, ho, rfl⟩ := List.mem_map.mp hp
    simp only [List.mem_cons, List.not_mem_nil, or_false] at ho
    rcases ho with rfl | rfl | rfl
    · exact word_samplePlace hd place
    · exact word_dollar (word_hexPair _)
    · exact word_dollar (word_hexPairInt flags)

lemma toList_byteList (values : List Int) :
    (Dialect.byteList values).toList = [','].intercalate (values.map byteOperand) := by
  have hvalue : (String.toList ∘ fun v : Int =>
      "$" ++ String.ofList (hexPair (v % 256).toNat)) = byteOperand := by
    funext v
    simp [byteOperand]
  rw [Dialect.byteList, String.toList_intercalate, List.map_map, hvalue]
  rfl

lemma toList_operands (dialect : Dialect) (operands : List Operand) :
    (String.intercalate "," (operands.map (·.text dialect))).toList =
      [','].intercalate (operands.map fun operand => (operand.text dialect).toList) := by
  rw [String.toList_intercalate, List.map_map]
  rfl

namespace Line

@[simp] lemma text_comment (text : String) : (comment text).text dialect = ";" ++ text := rfl

@[simp] lemma text_label (l : Label) : (label l).text dialect = l.text dialect ++ ":" := rfl

@[simp] lemma text_count (value : Nat) : (count value).text dialect =
    "\t" ++ dialect.byteDirective ++ " " ++ toString value := rfl

@[simp] lemma text_bytes (values : List Int) (remark : String) :
    (bytes values remark).text dialect = dialect.bytesLine values remark := rfl

@[simp] lemma text_words (operands : List Operand) : (words operands).text dialect =
    dialect.wordsLine (operands.map (·.text dialect)) := rfl

@[simp] lemma text_sample (place units : Nat) (flags : Int) (remark : String) :
    (sample place units flags remark).text dialect =
      "\t" ++ dialect.byteDirective ++ " $" ++ String.ofList (hexPair (place % 256)) ++ "+" ++
        dialect.lowByte ++ "(" ++ sampleAddress ++ "),$" ++
        String.ofList (hexPair (units % 256)) ++ ",$" ++ String.ofList (hexPairInt flags) ++
        "\t;" ++ remark := rfl

end Line

/-- A line of data as text: its directive, its operands and its comment, if there is one. -/
lemma toList_dataLine {line : Line} (hp : line.Plain) {width : Nat}
    {operands : List (List Char)} (h : line.statement dialect = .data width operands) :
    ∃ directive remark, (line.text dialect).toList = dataText directive operands ++ remark ∧
      (remark = [] ∨ ∃ rest, remark = '\t' :: ';' :: rest ∧ OneLine rest) ∧
      dialect.Directive width directive := by
  cases line with
  | blank | comment _ | label _ => exact nomatch h
  | count value =>
    obtain ⟨rfl, rfl⟩ := Statement.data.inj h
    exact ⟨_, [], by simp [dataText], .inl rfl, .byte⟩
  | bytes values remark =>
    obtain ⟨rfl, rfl⟩ := Statement.data.inj h
    by_cases hr : remark.isEmpty = true
    · refine ⟨_, [], ?_, .inl rfl, .byte⟩
      simp [Dialect.bytesLine, toList_byteList, dataText, hr]
    · refine ⟨_, '\t' :: ';' :: remark.toList, ?_, .inr ⟨_, rfl, hp⟩, .byte⟩
      simp [Dialect.bytesLine, toList_byteList, dataText, hr]
  | words operands =>
    obtain ⟨rfl, rfl⟩ := Statement.data.inj h
    refine ⟨_, [], ?_, .inl rfl, .word⟩
    simp only [Line.text_words, Dialect.wordsLine, String.toList_append, toList_operands]
    simp [dataText]
  | sample place units flags remark =>
    obtain ⟨rfl, rfl⟩ := Statement.data.inj h
    refine ⟨_, '\t' :: ';' :: remark.toList, ?_, .inr ⟨_, rfl, hp⟩, .byte⟩
    simp [dataText, samplePlace]

lemma oneLine_dataText {directive : List Char} {operands : List (List Char)}
    (hd : Word directive) (ho : ∀ operand ∈ operands, Word operand) :
    OneLine (dataText directive operands) := by
  intro c hc
  rw [dataText, List.cons_append, List.mem_cons, List.mem_append, List.mem_cons] at hc
  rcases hc with rfl | hc | rfl | hc
  · decide
  · exact hd.oneLine c hc
  · decide
  · rcases mem_intercalate hc with rfl | ⟨operand, hm, hc⟩
    · decide
    · exact (ho operand hm).oneLine c hc

/-- Every line is one line of text, and it is read back from it. -/
theorem Line.ofLine?_text (hd : dialect.Sound) {line : Line} (h : line.Plain) :
    Statement.ofLine? dialect (line.text dialect).toList = some (line.statement dialect) ∧
      OneLine (line.text dialect).toList := by
  cases hs : line.statement dialect with
  | data width operands =>
    obtain ⟨directive, remark, htext, hr, hdirective⟩ := toList_dataLine h hs
    have hwords : ∀ operand ∈ operands, Word operand := by
      intro operand ho
      refine words_statement hd h (width, operand) ?_
      rw [hs]
      exact List.mem_map_of_mem ho
    have hremark : OneLine remark := by
      rcases hr with rfl | ⟨rest, rfl, hrest⟩
      · exact oneLine_of_any rfl
      · exact OneLine.append (s := ['\t', ';']) (oneLine_of_any (by decide)) hrest
    have hshort : remark = [] ∨ ∃ rest, remark = '\t' :: ';' :: rest :=
      hr.imp_right fun ⟨rest, hrest, _⟩ => ⟨rest, hrest⟩
    rw [htext]
    exact ⟨ofLine?_dataText hd hdirective hwords hshort,
      (oneLine_dataText (hdirective.word_directive hd) hwords).append hremark⟩
  | label name =>
    cases line with
    | label l =>
      obtain rfl := Statement.label.inj hs
      have htext : ((Line.label l).text dialect).toList = (l.text dialect).toList ++ [':'] := by
        simp
      have hname := Label.name_text hd h
      rw [htext]
      exact ⟨ofLine?_label hd hname, hname.word.oneLine.append (oneLine_of_any (by decide))⟩
    | _ => exact nomatch hs
  | nothing =>
    cases line with
    | blank => exact ⟨rfl, oneLine_of_any rfl⟩
    | comment text =>
      have htext : ((Line.comment text).text dialect).toList = [';'] ++ text.toList := by
        simp
      rw [htext]
      exact ⟨ofLine?_comment _, OneLine.append (oneLine_of_any (by decide)) h⟩
    | _ => exact nomatch hs

end Lines

end Chiptune.Assembly
