import Chiptune.Proofs.LinkedStream
import Chiptune.Proofs.OperandTexts

/-!
# What lines stand for

The bytes of a line depend on the addresses of labels and of the samples, but not on the dialect and
not on what its comment says. A document of proper lines is assembled just if every label that it
names is one of its own.
-/

namespace Chiptune.Assembly

open Text

namespace Operand

def label? : Operand → Option Label
  | label l | before l _ => some l
  | number _ => none

/-- Whether the number in the operand is short enough to be read back. -/
def Writable : Operand → Prop
  | label _ => True
  | before _ distance => isWritable distance = true
  | number value => isWritable value = true

def value (address : Label → Int) : Operand → Int
  | label l => address l
  | before l distance => address l - distance
  | number value => value

end Operand

namespace Line

/-- The labels that the operands of a line name. -/
def uses : Line → List Label
  | words operands => operands.filterMap Operand.label?
  | _ => []

def Writable : Line → Prop
  | count value => isWritable value = true
  | words operands => ∀ operand ∈ operands, operand.Writable
  | _ => True

/-- The bytes of a line if the labels have addresses and the samples start on a page. -/
def code (address : Label → Int) (page : Int) : Line → Bytes
  | blank | comment _ | label _ => []
  | count value => [Bytes.low value]
  | bytes values _ => values.map Bytes.low
  | words operands => operands.flatMap fun operand => Bytes.lowWord (operand.value address)
  | sample place units flags _ => [Bytes.low (place + page), Bytes.low units, Bytes.low flags]

end Line

/-- Every label that is used is defined. -/
def SelfContained (lines : List Line) : Prop := ∀ line ∈ lines, ∀ l ∈ line.uses, .label l ∈ lines

instance (lines : List Line) : Decidable (SelfContained lines) :=
  inferInstanceAs (Decidable (∀ line ∈ lines, ∀ l ∈ line.uses, .label l ∈ lines))

section Numbers

variable {target : Target} {labels : Labels} {s : List Char} {n : Int}

lemma mem_integer {c : Char} (h : c ∈ (toString n).toList) : c.isDigit = true ∨ c = '-' := by
  cases n with
  | ofNat n => exact .inl (isDigit_of_mem_natural h)
  | negSucc n =>
    have htext : (toString (Int.negSucc n)).toList = '-' :: (toString (n + 1)).toList := by
      simp [toString, Int.repr]
    rw [htext, List.mem_cons] at h
    exact h.symm.imp_left isDigit_of_mem_natural

lemma not_mem_integer {c : Char} (h : c.isDigit = false) (hminus : c ≠ '-') :
    c ∉ (toString n).toList := by
  intro hm
  rcases mem_integer hm with hc | hc
  · rw [h] at hc
    cases hc
  · exact hminus hc

lemma number?_integer (h : isWritable n = true) : number? (toString n).toList = some n := by
  unfold number?
  split
  · next digits hdigits =>
    have hdollar : '$' ∈ (toString n).toList := hdigits ▸ List.mem_cons_self
    exact absurd hdollar (not_mem_integer (by decide) (by decide))
  · exact readInt?_integer h

lemma isSymbolStart_of_isDigit {c : Char} (h : c.isDigit = true) : isSymbolStart c = false := by
  rw [isDigit_iff] at h
  by_contra hstart
  simp only [isSymbolStart, Char.isAlpha, Char.isUpper, Char.isLower, Bool.not_eq_false,
    Bool.or_eq_true, Bool.and_eq_true, decide_eq_true_eq, beq_iff_eq] at hstart
  rcases hstart with (((hc | hc) | rfl) | rfl) | rfl
  · have hletter : 65 ≤ c.toNat := hc.1
    omega
  · have hletter : 97 ≤ c.toNat := hc.1
    omega
  · exact absurd h (by decide)
  · exact absurd h (by decide)
  · exact absurd h (by decide)

lemma operandValue_integer (hl : ∀ entry ∈ labels, Name entry.1) (h : isWritable n = true) :
    operandValue target labels (toString n).toList = .ok n :=
  operandValue_of_number (fun entry he => (hl entry he).named) (number?_integer h)

lemma number?_dollar (h : Word s) (hn : readInt? .hexadecimal s = some n) :
    number? ('$' :: s) = some n := by
  rw [number?, trim_of_not_blank fun c hc => h.not_blank hc, hn]

lemma operandValue_dollar (hl : ∀ entry ∈ labels, Name entry.1) (h : Word s)
    (hn : readInt? .hexadecimal s = some n) : operandValue target labels ('$' :: s) = .ok n :=
  operandValue_of_number (fun entry he => (hl entry he).named) (number?_dollar h hn)

lemma operandValue_samplePlace (hl : ∀ entry ∈ labels, Name entry.1) {offset : Int}
    (ho : target.sampleOffset = some offset) (place : Nat) :
    operandValue target labels (samplePlace target.dialect place) =
      .ok ((place % 256 : Nat) + samplePage offset) := by
  have hword : Word ('$' :: hexPair (place % 256)) := word_dollar (word_hexPair _)
  have hnumber : number? (trim ('$' :: hexPair (place % 256))) =
      some ((place % 256 : Nat) : Int) := by
    rw [trim_of_not_blank fun c hc => hword.not_blank hc]
    exact number?_dollar (word_hexPair _) (readInt?_hexPair _)
  have hbase : '+' ∉ '$' :: hexPair (place % 256) := by
    rw [List.mem_cons, not_or]
    exact ⟨by decide, fun hm => ((hexPair_plain _).1 _ hm).other.2.2.1 rfl⟩
  refine operandValue_of_sample (fun entry he => (hl entry he).named) ho hbase ?_ hnumber
  exact ⟨'$' :: hexPair (place % 256) ++ '+' :: target.dialect.lowByte.toList ++ ['('], [')'],
    by simp⟩

end Numbers

/-- The address of a label in a document that lies from an offset on. -/
def labelAddress (offset : Int) (lines : List Line) (l : Label) : Int :=
  offset + (addressOf 0 lines l : Nat)

section Labels

variable {dialect : Dialect} {offset : Int} {lines : List Line} {l : Label}

lemma lookup_defined (hd : dialect.Sound) (h : Coherent lines) (hl : .label l ∈ lines) :
    (addresses dialect offset lines).lookup (l.text dialect).toList =
      some (labelAddress offset lines l) := by
  obtain ⟨before, after, rfl⟩ := List.append_of_mem hl
  rw [lookup_addresses hd h, labelAddress, addressOf_split h, Nat.zero_add]

lemma lookup_undefined (hd : dialect.Sound) (h : ∀ line ∈ lines, line.Plain) (hp : l.Plain)
    (hl : .label l ∉ lines) :
    (addresses dialect offset lines).lookup (l.text dialect).toList = none := by
  rw [List.lookup_eq_none_iff]
  intro entry he
  rw [bne_iff_ne]
  intro hname
  have hm := List.mem_map_of_mem (f := Prod.fst) he
  rw [names_addresses, List.mem_reverse, List.mem_map] at hm
  obtain ⟨other, ho, htext⟩ := hm
  obtain rfl := Label.text_injective hd (plain_of_mem_labelsOf h ho) hp (htext.trans hname.symm)
  exact hl (mem_labelsOf.mp ho)

lemma named_of_mem_addresses (hd : dialect.Sound) (h : ∀ line ∈ lines, line.Plain) :
    ∀ entry ∈ addresses dialect offset lines, Named entry.1 :=
  fun _ he => (name_of_mem_addresses hd h he).named

lemma operandValue_label {target : Target} (hd : target.dialect.Sound) (h : Coherent lines)
    (hp : l.Plain) {value : Int} :
    operandValue target (addresses target.dialect offset lines) (l.text target.dialect).toList =
      .ok value ↔ .label l ∈ lines ∧ value = labelAddress offset lines l := by
  have hname := Label.name_text hd hp
  by_cases hl : .label l ∈ lines
  · rw [operandValue, lookup_defined hd h hl]
    simp [hl, pure, Except.pure, eq_comm]
  · have hlookup : (addresses target.dialect offset lines).lookup
        (l.text target.dialect).toList = none := lookup_undefined hd h.plain hp hl
    rw [operandValue_undefined hlookup (named_of_mem_addresses hd h.plain) hname.named (.inl rfl)]
    simp [hl]

lemma operandValue_before {target : Target} (hd : target.dialect.Sound) (h : Coherent lines)
    (hp : l.Plain) {distance : Nat} (hw : isWritable distance = true) {value : Int} :
    operandValue target (addresses target.dialect offset lines)
        ((l.text target.dialect).toList ++ '-' :: (toString distance).toList) = .ok value ↔
      .label l ∈ lines ∧ value = labelAddress offset lines l - distance := by
  have hname := Label.name_text hd hp
  have hnamed := @named_of_mem_addresses _ offset _ hd h.plain
  have hdigits : ∀ d ∈ (toString distance).toList, d.isDigit = true :=
    fun d hm => isDigit_of_mem_natural hm
  have hne : (toString distance).toList ≠ [] := (word_natural distance).nonempty
  by_cases hl : .label l ∈ lines
  · obtain ⟨hlength, hvalue⟩ := digitsValue_natural hw
    rw [operandValue_distant hnamed hname.named (lookup_defined hd h hl) hne hdigits,
      if_pos hlength, hvalue]
    simp [hl, eq_comm]
  · rw [operandValue_undefined (lookup_undefined hd h.plain hp hl) hnamed hname.named
      (.inr ⟨_, hne, hdigits, rfl⟩)]
    simp [hl]

/-- An operand has a value just if the label that it names is defined. -/
lemma operandValue_iff {target : Target} (hd : target.dialect.Sound) (h : Coherent lines)
    {operand : Operand} (hp : operand.Plain) (hw : operand.Writable) {value : Int} :
    operandValue target (addresses target.dialect offset lines)
        (operand.text target.dialect).toList = .ok value ↔
      (∀ l ∈ operand.label?, .label l ∈ lines) ∧
        value = operand.value (labelAddress offset lines) := by
  cases operand with
  | number n =>
    have htext : (Operand.text target.dialect (.number n)).toList = (toString n).toList := rfl
    have hnames : ∀ entry ∈ addresses target.dialect offset lines, Name entry.1 :=
      fun _ he => name_of_mem_addresses hd h.plain he
    rw [htext, operandValue_integer hnames hw]
    simp [Operand.label?, Operand.value, eq_comm]
  | label l =>
    have htext : (Operand.text target.dialect (.label l)).toList =
      (l.text target.dialect).toList := rfl
    rw [htext, operandValue_label hd h hp]
    simp [Operand.label?, Operand.value]
  | before l distance =>
    have htext : (Operand.text target.dialect (.before l distance)).toList =
        (l.text target.dialect).toList ++ ('-' :: (toString distance).toList) := by
      simp [Operand.text, toString]
    rw [htext, operandValue_before hd h hp hw]
    simp [Operand.label?, Operand.value]

end Labels

section Lines

variable {target : Target} {offset sampleOffset : Int} {lines : List Line} {bytes : Bytes}

lemma partBytes_of_value {labels : Labels} {s : List Char} {value : Int} (width : Nat)
    (h : operandValue target labels s = .ok value) :
    partBytes target labels (width, s) = .ok (valueBytes value width) := by
  rw [partBytes, h]
  rfl

lemma low_eq_iff (value : Int) :
    ((Bytes.low value).toNat : Int) = value ↔ 0 ≤ value ∧ value ≤ 255 := by
  rw [Bytes.low, UInt8.toNat_ofNat_of_lt' (show (value % 256).toNat < 256 by omega)]
  omega

lemma low_toNat {n : Nat} (h : n < 256) : (Bytes.low n).toNat = n := by
  have := (low_eq_iff n).mpr (by omega)
  omega

lemma low_add_mod (a b : Int) : Bytes.low (a % 256 + b) = Bytes.low (a + b) := by
  rw [Bytes.low, Bytes.low, Int.emod_add_emod]

lemma code_operand_iff (hd : target.dialect.Sound) (h : Coherent lines) {operand : Operand}
    (hp : operand.Plain) (hw : operand.Writable) :
    code target (addresses target.dialect offset lines) [.words [operand]] = .ok bytes ↔
      (∀ l ∈ operand.label?, .label l ∈ lines) ∧
        bytes = Bytes.lowWord (operand.value (labelAddress offset lines)) := by
  have hparts : parts target.dialect [.words [operand]] =
      [(2, (operand.text target.dialect).toList)] := rfl
  rw [code, hparts, partsBytes_singleton, partBytes, bind_eq_ok_iff]
  constructor
  · rintro ⟨value, hvalue, hbytes⟩
    obtain ⟨hl, rfl⟩ := (operandValue_iff hd h hp hw).mp hvalue
    exact ⟨hl, (Except.ok.inj hbytes).symm⟩
  · rintro ⟨hl, rfl⟩
    exact ⟨_, (operandValue_iff hd h hp hw).mpr ⟨hl, rfl⟩, rfl⟩

/-- What is said of all elements and of what they stand for is said of the first and the others. -/
lemma exists_flatMap_cons_iff {α β : Type} {P : α → Prop} {f : α → List β} {x : α}
    {rest : List α} {whole : List β} :
    (∃ first later, (P x ∧ first = f x) ∧ ((∀ y ∈ rest, P y) ∧ later = rest.flatMap f) ∧
      whole = first ++ later) ↔ (∀ y ∈ x :: rest, P y) ∧ whole = (x :: rest).flatMap f := by
  constructor
  · rintro ⟨-, -, ⟨hx, rfl⟩, ⟨hrest, rfl⟩, rfl⟩
    exact ⟨List.forall_mem_cons.mpr ⟨hx, hrest⟩, rfl⟩
  · rintro ⟨h, rfl⟩
    obtain ⟨hx, hrest⟩ := List.forall_mem_cons.mp h
    exact ⟨_, _, ⟨hx, rfl⟩, ⟨hrest, rfl⟩, rfl⟩

lemma code_words_iff (hd : target.dialect.Sound) (h : Coherent lines) {operands : List Operand}
    (hp : ∀ operand ∈ operands, operand.Plain) (hw : ∀ operand ∈ operands, operand.Writable) :
    code target (addresses target.dialect offset lines) [.words operands] = .ok bytes ↔
      (∀ operand ∈ operands, ∀ l ∈ operand.label?, .label l ∈ lines) ∧
        bytes = operands.flatMap fun operand =>
          Bytes.lowWord (operand.value (labelAddress offset lines)) := by
  induction operands generalizing bytes with
  | nil =>
    have hnil : code target (addresses target.dialect offset lines) [.words []] = .ok [] := rfl
    rw [hnil]
    simp [eq_comm]
  | cons operand rest ih =>
    have hrest : ∀ later, code target (addresses target.dialect offset lines) [.words rest] =
        .ok later ↔ _ := fun later => ih (fun other ho => hp other (List.mem_cons_of_mem _ ho))
      fun other ho => hw other (List.mem_cons_of_mem _ ho)
    rw [show operand :: rest = [operand] ++ rest from rfl, code_words_append]
    simp only [code_operand_iff hd h (hp operand (by simp)) (hw operand (by simp)), hrest]
    exact exists_flatMap_cons_iff
      (P := fun operand : Operand => ∀ l ∈ operand.label?, .label l ∈ lines)
      (f := fun operand => Bytes.lowWord (operand.value (labelAddress offset lines)))

lemma code_sample {labels : Labels} (hl : ∀ entry ∈ labels, Name entry.1)
    (ho : target.sampleOffset = some sampleOffset) (place units : Nat) (flags : Int)
    (remark : String) : code target labels [.sample place units flags remark] =
      .ok [Bytes.low (place + samplePage sampleOffset), Bytes.low units, Bytes.low flags] := by
  have hparts : parts target.dialect [.sample place units flags remark] =
      [(1, samplePlace target.dialect place)] ++ ([(1, '$' :: hexPair (units % 256))] ++
        [(1, '$' :: hexPairInt flags)]) := rfl
  have hunits : operandValue target labels ('$' :: hexPair (units % 256)) =
      .ok ((units % 256 : Nat) : Int) :=
    operandValue_dollar hl (word_hexPair _) (readInt?_hexPair _)
  have hflags : operandValue target labels ('$' :: hexPairInt flags) = .ok flags :=
    operandValue_dollar hl (word_hexPairInt flags) (readInt?_hexPairInt flags)
  rw [code, hparts, partsBytes_append]
  refine ⟨_, _, (partsBytes_singleton _).mpr
    (partBytes_of_value 1 (operandValue_samplePlace hl ho place)), (partsBytes_append _ _).mpr
      ⟨_, _, (partsBytes_singleton _).mpr (partBytes_of_value 1 hunits),
        (partsBytes_singleton _).mpr (partBytes_of_value 1 hflags), rfl⟩, ?_⟩
  have hbyte : ∀ value, valueBytes value 1 = [Bytes.low value] := fun _ => rfl
  have hzero := low_add_mod units 0
  rw [add_zero, add_zero] at hzero
  -- Place and units are written modulo 256, which their low bytes do not show.
  rw [hbyte, hbyte, hbyte, Int.natCast_emod, Int.natCast_emod]
  simp only [Nat.cast_ofNat, low_add_mod, hzero, List.cons_append, List.nil_append]

/-- A line has its bytes just if all labels that it names are defined. -/
lemma code_line_iff (hd : target.dialect.Sound) (ho : target.sampleOffset = some sampleOffset)
    (h : Coherent lines) {line : Line} (hp : line.Plain) (hw : line.Writable) :
    code target (addresses target.dialect offset lines) [line] = .ok bytes ↔
      (∀ l ∈ line.uses, .label l ∈ lines) ∧
        bytes = line.code (labelAddress offset lines) (samplePage sampleOffset) := by
  have hnames : ∀ entry ∈ addresses target.dialect offset lines, Name entry.1 :=
    fun _ he => name_of_mem_addresses hd h.plain he
  have hsole : ∀ {sole : Bytes}, line.uses = [] →
      line.code (labelAddress offset lines) (samplePage sampleOffset) = sole →
      code target (addresses target.dialect offset lines) [line] = .ok sole →
      (code target (addresses target.dialect offset lines) [line] = .ok bytes ↔
        (∀ l ∈ line.uses, .label l ∈ lines) ∧
          bytes = line.code (labelAddress offset lines) (samplePage sampleOffset)) := by
    rintro sole huses rfl hcode
    rw [hcode, huses]
    simp [eq_comm]
  cases line with
  | blank | comment _ | label _ => exact hsole rfl rfl rfl
  | count value =>
    refine hsole rfl rfl ?_
    have hparts : parts target.dialect [.count value] =
        [(1, (toString (value : Int)).toList)] := rfl
    rw [code, hparts, partsBytes_singleton,
      partBytes_of_value 1 (operandValue_integer hnames hw)]
    rfl
  | bytes values remark => exact hsole rfl rfl (code_bytes hnames values remark)
  | words operands =>
    have huses : (∀ l ∈ (Line.words operands).uses, .label l ∈ lines) ↔
        ∀ operand ∈ operands, ∀ l ∈ operand.label?, .label l ∈ lines := by
      simp only [Line.uses, List.mem_filterMap]
      constructor
      · intro hall operand ho l hl
        exact hall l ⟨operand, ho, hl⟩
      · intro hall l hl
        obtain ⟨operand, ho, hl⟩ := hl
        exact hall operand ho l hl
    rw [code_words_iff hd h hp hw, huses]
    rfl
  | sample place units flags remark =>
    exact hsole rfl rfl (code_sample hnames ho place units flags remark)

lemma code_lines_iff (hd : target.dialect.Sound) (ho : target.sampleOffset = some sampleOffset)
    (h : Coherent lines) {some : List Line}
    (hs : ∀ line ∈ some, line.Plain ∧ line.Writable) :
    code target (addresses target.dialect offset lines) some = .ok bytes ↔
      (∀ line ∈ some, ∀ l ∈ line.uses, .label l ∈ lines) ∧
        bytes = some.flatMap
          (Line.code (labelAddress offset lines) (samplePage sampleOffset)) := by
  induction some generalizing bytes with
  | nil =>
    have hnil : code target (addresses target.dialect offset lines) [] = .ok [] := rfl
    rw [hnil]
    simp [eq_comm]
  | cons line rest ih =>
    have hrest : ∀ later, code target (addresses target.dialect offset lines) rest =
        .ok later ↔ _ := fun later => ih fun other ho => hs other (List.mem_cons_of_mem _ ho)
    obtain ⟨hp, hw⟩ := hs line (by simp)
    rw [← List.singleton_append, code_append]
    simp only [code_line_iff hd ho h hp hw, hrest]
    exact exists_flatMap_cons_iff (P := fun line : Line => ∀ l ∈ line.uses, .label l ∈ lines)
      (f := Line.code (labelAddress offset lines) (samplePage sampleOffset))

/-- A document is assembled, in whatever dialect, to the bytes that its lines stand for, and just if
it defines all labels that it uses. -/
theorem assemble_iff (hd : target.dialect.Sound) (hs : target.songOffset = some offset)
    (ho : target.sampleOffset = some sampleOffset) (h : Coherent lines)
    (hw : ∀ line ∈ lines, line.Writable) :
    assemble target (textOf target.dialect lines) = .ok bytes ↔ SelfContained lines ∧
      bytes = lines.flatMap (Line.code (labelAddress offset lines) (samplePage sampleOffset)) := by
  rw [assemble_lines hs hd h]
  exact code_lines_iff hd ho h fun line hm => ⟨h.plain line hm, hw line hm⟩

end Lines

end Chiptune.Assembly
