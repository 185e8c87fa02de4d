import Chiptune.Proofs.ByteValues
import Chiptune.Proofs.Dialects
import Chiptune.Proofs.OperandTexts

/-!
# The assembler against a reference

What a listing stands for is said operand by operand: a label stands for its address, which is that
of the listing plus the bytes before its definition, wherever the definition stands. The assembler
writes down these values in order, or finds an operand that it cannot make sense of.
-/

namespace Chiptune

namespace Assembly

open Text

/-- A label of a listing with a distance that has more digits than are read. -/
def Overlong (statements : List Statement) (operand : List Char) : Prop :=
  ∃ name digits, .label name ∈ statements ∧ (∀ d ∈ digits, d.isDigit = true) ∧
    maxDecimalDigits < digits.length ∧ operand = name ++ '-' :: digits

/-- What an operand stands for in a listing at an address, with samples at another one. -/
inductive Means (songOffset sampleOffset : Int) (statements : List Statement) :
    List Char → Int → Prop
  | number {operand : List Char} {n : Int} : number? operand = some n →
    Means songOffset sampleOffset statements operand n
  | sample {base rest : List Char} {n : Int} : '+' ∉ base →
    Line.sampleAddress.toList <:+: base ++ '+' :: rest → number? (trim base) = some n →
    Means songOffset sampleOffset statements (base ++ '+' :: rest)
      (n + sampleOffset % 0x4000 / 64)
  | label {before after : List Statement} {name : List Char} : Named name →
    statements = before ++ .label name :: after →
    Means songOffset sampleOffset statements name (songOffset + total Statement.size before)
  | distant {before after : List Statement} {name digits : List Char} : Named name →
    statements = before ++ .label name :: after → digits ≠ [] →
    (∀ d ∈ digits, d.isDigit = true) → Means songOffset sampleOffset statements
      (name ++ '-' :: digits) (songOffset + total Statement.size before - digitsValue digits)

/-- The bytes of operands with their values. -/
def emitted (parts : List (Nat × List Char)) (values : List Int) : Bytes :=
  (List.zipWith (fun part value => Bytes.ofValue part.1 value) parts values).flatten

section Listed

variable {statements : List Statement} {offset : Int}

/-- The assembler finds what an operand stands for. -/
lemma operandValue_means {target : Target} {sampleOffset : Int}
    (ho : target.sampleOffset = some sampleOffset)
    (hnodup : (statements.flatMap Statement.defined).Nodup)
    (hnamed : ∀ entry ∈ labelsFrom offset statements, Named entry.1) {operand : List Char}
    {value : Int} (hshort : ¬ Overlong statements operand)
    (h : Means offset sampleOffset statements operand value) :
    operandValue target (labelsFrom offset statements) operand = .ok value := by
  cases h with
  | number hn => exact operandValue_of_number hnamed hn
  | sample hbase hsample hn => exact operandValue_of_sample hnamed ho hbase hsample hn
  | label hname hdefined =>
    rw [operandValue, lookup_labelsFrom hdefined hnodup]
    rfl
  | @distant _ _ name digits hname hdefined hne hdigits =>
    have hlength : digits.length ≤ maxDecimalDigits := not_lt.mp fun hlong =>
      hshort ⟨name, digits, by rw [hdefined]; simp, hdigits, hlong, rfl⟩
    rw [operandValue_distant hnamed hname (lookup_labelsFrom hdefined hnodup) hne hdigits,
      if_pos hlength]

end Listed

/-! ### What can go wrong -/

/-- Nothing goes wrong but that the text cannot be assembled. -/
def FailsInText {α : Type} (x : Outcome α) : Prop :=
  ∀ error, x = .error error → ∃ cause, error = .assembly cause

section Failures

variable {α β : Type} {target : Target} {labels : Labels} {operand : List Char}

lemma failsInText_ok (a : α) : FailsInText (.ok a : Outcome α) := fun _ h => nomatch h

lemma failsInText_throw (cause : AssemblyError) :
    FailsInText (throw (.assembly cause) : Outcome α) :=
  fun _ h => ⟨cause, (Except.error.inj h).symm⟩

lemma FailsInText.bind {x : Outcome α} {f : α → Outcome β} (hx : FailsInText x)
    (hf : ∀ a, x = .ok a → FailsInText (f a)) : FailsInText (x >>= f) := by
  cases x with
  | error e =>
    intro error h
    obtain rfl : e = error := Except.error.inj h
    exact hx e rfl
  | ok a => exact hf a rfl

lemma failsInText_mapM {f : α → Outcome β} {xs : List α} (h : ∀ x ∈ xs, FailsInText (f x)) :
    FailsInText (xs.mapM f) := by
  induction xs with
  | nil => exact failsInText_ok _
  | cons x rest ih =>
    rw [List.mapM_cons]
    refine (h x (by simp)).bind fun y _ => ?_
    exact (ih fun other ho => h other (by simp [ho])).bind fun ys _ => failsInText_ok _

lemma failsInText_foldlM {f : β → α → Outcome β} {xs : List α}
    (h : ∀ state, ∀ x ∈ xs, FailsInText (f state x)) (state : β) :
    FailsInText (xs.foldlM f state) := by
  induction xs generalizing state with
  | nil => exact failsInText_ok _
  | cons x rest ih =>
    rw [List.foldlM_cons]
    exact (h state x (by simp)).bind fun next _ =>
      ih (fun state other ho => h state other (by simp [ho])) next

lemma failsInText_number (operand : List Char) : FailsInText (number operand) := by
  rw [number]
  split
  · exact failsInText_ok _
  · exact failsInText_throw _

lemma failsInText_sample {sampleOffset : Int} (ho : target.sampleOffset = some sampleOffset)
    (operand : List Char) : FailsInText (sampleOperand target operand) := by
  rw [sampleOperand, ho]
  exact (failsInText_number _).bind fun _ _ => failsInText_ok _

/-- Distances that are not too long are read, so a symbol can only lack its label. -/
lemma failsInText_resolve {offset : Int} {statements : List Statement}
    (hsymbol : isSymbol operand = true) (hshort : ¬ Overlong statements operand) :
    FailsInText (resolve (labelsFrom offset statements) operand) := by
  obtain ⟨c, rest, hc, hrest, hmentions⟩ := exists_of_isSymbol hsymbol
  have hminus : '-' ∉ c :: rest := by
    have hparts : ∀ d ∈ c :: rest, isSymbolPart d = true :=
      List.forall_mem_cons.mpr ⟨isSymbolPart_of_start hc, hrest⟩
    exact fun hm => absurd (hparts _ hm) (by decide)
  rw [resolve]
  split
  · exact failsInText_throw _
  · next address haddress =>
    refine FailsInText.bind ?_ fun _ _ => failsInText_ok _
    rcases hmentions with rfl | ⟨digits, hne, hdigits, rfl⟩
    · rw [(scan_unmarked hminus).2]
      exact failsInText_ok 0
    · obtain ⟨htake, hdrop⟩ := scan_marked hminus digits
      rw [htake] at haddress
      have hdefined : .label (c :: rest) ∈ statements := by
        by_contra hmissing
        rw [lookup_missing hmissing] at haddress
        cases haddress
      have hlength : digits.length ≤ maxDecimalDigits :=
        not_lt.mp fun hlong => hshort ⟨_, digits, hdefined, hdigits, hlong, rfl⟩
      rw [hdrop, List.drop_one, List.tail_cons, distance_digits hne hdigits, if_pos hlength]
      exact failsInText_ok _

lemma failsInText_operandValue {offset sampleOffset : Int} {statements : List Statement}
    (ho : target.sampleOffset = some sampleOffset) (hshort : ¬ Overlong statements operand) :
    FailsInText (operandValue target (labelsFrom offset statements) operand) := by
  rw [operandValue]
  split
  · exact failsInText_ok _
  · split
    · exact failsInText_sample ho operand
    · split
      · next hsymbol => exact failsInText_resolve hsymbol hshort
      · exact failsInText_number operand

lemma failsInText_cell {sampleOffset : Int} (ho : target.sampleOffset = some sampleOffset)
    (labels : Labels) (width : Nat) (operand : List Char) :
    FailsInText (cell target labels width operand) := by
  rw [cell]
  split
  · exact failsInText_ok _
  · split
    · exact (failsInText_sample ho operand).bind fun _ _ => failsInText_ok _
    · split
      · exact failsInText_ok _
      · exact (failsInText_number operand).bind fun _ _ => failsInText_ok _

lemma failsInText_addStatement {songOffset sampleOffset : Int}
    (hs : target.songOffset = some songOffset) (ho : target.sampleOffset = some sampleOffset)
    (layout : Layout) (statement : Statement) :
    FailsInText (addStatement target layout statement) := by
  cases statement with
  | nothing => exact failsInText_ok _
  | label name =>
    rw [addStatement, hs]
    exact failsInText_ok _
  | data width operands =>
    refine failsInText_foldlM (fun layout operand _ => ?_) layout
    exact (failsInText_cell ho _ _ _).bind fun _ _ => failsInText_ok _

end Failures

section Listing

variable {target : Target} {songOffset sampleOffset : Int} {text : String}
  {statements : List Statement}

/-- If the first pass gets through, the second one gives the operands the values that they have with
all labels known. -/
lemma assemble_of_pass (hs : target.songOffset = some songOffset)
    (hlines : (Text.lines text.toList).map (Statement.ofLine? target.dialect) =
      statements.map some)
    (hnodup : (statements.flatMap Statement.defined).Nodup)
    (hnamed : ∀ entry ∈ labelsFrom songOffset statements, Named entry.1) {next : Layout}
    (hnext : statements.foldlM (addStatement target) {} = .ok next) :
    assemble target text = partsBytes target (labelsFrom songOffset statements)
      (statements.flatMap Statement.parts) := by
  have hnames : ((labelsFrom songOffset statements).map Prod.fst).Nodup := by
    rw [names_labelsFrom, List.nodup_reverse]
    exact hnodup
  have hfinal : labelsFrom songOffset statements =
      labelsFrom ((({} : Layout).address : Int) + songOffset) statements ++
        ({} : Layout).labels := by simp
  have hid : ∀ entry ∈ labelsFrom ((({} : Layout).address : Int) + songOffset) statements,
      Identifier entry.1 := by
    intro entry he
    rw [Int.natCast_zero, Int.zero_add] at he
    exact (hnamed entry he).identifier
  obtain ⟨hlabels, -, cells, hcells, hmap⟩ := addStatements_reads hs hfinal hnames hid hnext
  have hpass : next.cells.reverse.mapM (Cell.bytes next.labels) =
      (statements.flatMap Statement.parts).mapM
        (partBytes target (labelsFrom songOffset statements)) := by
    rw [← hmap, hcells, hlabels]
    simp
  rw [assemble, Layout.ofText, addLines_eq hlines, hnext, ok_bind, pure_bind, Layout.bytes, hpass,
    partsBytes]

/-- A listing without an overlong distance fails in its text, if it does. -/
lemma failsInText_assemble (hs : target.songOffset = some songOffset)
    (ho : target.sampleOffset = some sampleOffset)
    (hlines : (Text.lines text.toList).map (Statement.ofLine? target.dialect) =
      statements.map some)
    (hnodup : (statements.flatMap Statement.defined).Nodup)
    (hnamed : ∀ entry ∈ labelsFrom songOffset statements, Named entry.1)
    (hshort : ∀ part ∈ statements.flatMap Statement.parts, ¬ Overlong statements part.2) :
    FailsInText (assemble target text) := by
  have hfirst : FailsInText (statements.foldlM (addStatement target) {}) :=
    failsInText_foldlM (fun layout statement _ => failsInText_addStatement hs ho layout statement)
      {}
  cases hpass : statements.foldlM (addStatement target) {} with
  | error error =>
    rw [hpass] at hfirst
    rw [assemble, Layout.ofText, addLines_eq hlines, hpass]
    intro other h
    obtain rfl : error = other := Except.error.inj h
    exact hfirst error rfl
  | ok next =>
    rw [assemble_of_pass hs hlines hnodup hnamed hpass, partsBytes]
    refine (failsInText_mapM fun part hp => ?_).bind fun _ _ => failsInText_ok _
    exact (failsInText_operandValue ho (hshort part hp)).bind fun _ _ => failsInText_ok _

end Listing

section Reference

variable {dialect : Dialect} {lines : List (List Char)} {statements : List Statement}

lemma ofLine?_lines (hd : dialect.Sound) (h : List.Forall₂ (Written dialect) lines statements) :
    lines.map (Statement.ofLine? dialect) = statements.map some := by
  rw [← List.forall₂_eq_eq_eq, List.forall₂_map_left_iff, List.forall₂_map_right_iff]
  exact h.imp fun line statement hw => hw.ofLine? hd

lemma named_labels (h : List.Forall₂ (Written dialect) lines statements) {offset : Int} :
    ∀ entry ∈ labelsFrom offset statements, Named entry.1 := by
  intro entry he
  obtain ⟨line, -, hw⟩ := exists_left_of_mem h (mem_labelsFrom he)
  cases hw with
  | label _ hname _ _ => exact hname

lemma width_parts (h : List.Forall₂ (Written dialect) lines statements) :
    ∀ part ∈ statements.flatMap Statement.parts, part.1 = 1 ∨ part.1 = 2 := by
  intro part hp
  obtain ⟨statement, hs, hp⟩ := List.mem_flatMap.mp hp
  obtain ⟨line, -, hw⟩ := exists_left_of_mem h hs
  cases hw with
  | nothing _ _ => exact absurd hp List.not_mem_nil
  | label _ _ _ _ => exact absurd hp List.not_mem_nil
  | bare _ _ _ _ => exact absurd hp List.not_mem_nil
  | data _ hdirective _ _ _ =>
    obtain ⟨operand, -, rfl⟩ := List.mem_map.mp hp
    cases hdirective with
    | byte => exact .inl rfl
    | word => exact .inr rfl

lemma partsBytes_emitted {target : Target} {labels : Labels} {parts : List (Nat × List Char)}
    {values : List Int} (hwidth : ∀ part ∈ parts, part.1 = 1 ∨ part.1 = 2)
    (h : List.Forall₂ (fun part value => operandValue target labels part.2 = .ok value)
      parts values) : partsBytes target labels parts = .ok (emitted parts values) := by
  have hchunks : parts.mapM (partBytes target labels) =
      .ok (List.zipWith (fun part value => Bytes.ofValue part.1 value) parts values) := by
    rw [mapM_eq_ok_iff]
    induction h with
    | nil => exact .nil
    | @cons part value parts values hvalue _ ih =>
      refine .cons ?_ (ih fun other ho => hwidth other (List.mem_cons_of_mem _ ho))
      obtain ⟨width, operand⟩ := part
      rw [partBytes, hvalue]
      rcases hwidth (width, operand) List.mem_cons_self with rfl | rfl
      · rfl
      · rfl
  rw [partsBytes, hchunks]
  rfl

/-- The assembler equals the reference: a listing whose operands all stand for something becomes the
bytes of their values, and a listing that mentions a label without a definition is refused. -/
theorem assemble_reference (hd : dialect ∈ Dialect.all) (songOffset sampleOffset : Int)
    {text : String} (hlines : List.Forall₂ (Written dialect) (Text.lines text.toList) statements)
    (hnodup : (statements.flatMap Statement.defined).Nodup)
    (hshort : ∀ part ∈ statements.flatMap Statement.parts, ¬ Overlong statements part.2) :
    (∀ values,
      List.Forall₂ (fun part value => Means songOffset sampleOffset statements part.2 value)
        (statements.flatMap Statement.parts) values →
      assemble ⟨dialect, some songOffset, some sampleOffset⟩ text =
        .ok (emitted (statements.flatMap Statement.parts) values)) ∧
    ∀ part ∈ statements.flatMap Statement.parts, ∀ name, Named name → Mentions part.2 name →
      .label name ∉ statements → ∃ cause,
        assemble ⟨dialect, some songOffset, some sampleOffset⟩ text = .error (.assembly cause) := by
  have hread := ofLine?_lines (Dialect.sound_of_mem hd) hlines
  have hnamed := @named_labels _ _ _ hlines songOffset
  have hnames : ((labelsFrom songOffset statements).map Prod.fst).Nodup := by
    rw [names_labelsFrom, List.nodup_reverse]
    exact hnodup
  have hok : ∀ bytes, assemble ⟨dialect, some songOffset, some sampleOffset⟩ text = .ok bytes ↔
      partsBytes ⟨dialect, some songOffset, some sampleOffset⟩ (labelsFrom songOffset statements)
        (statements.flatMap Statement.parts) = .ok bytes :=
    assemble_eq_ok_iff rfl hread hnames fun entry he => (hnamed entry he).identifier
  refine ⟨fun values hvalues => ?_, fun part hp name hname hmentions hmissing => ?_⟩
  · rw [hok]
    refine partsBytes_emitted (width_parts hlines) ?_
    exact ((List.forall₂_and_left _ _).mpr ⟨hshort, hvalues⟩).imp fun part value h =>
      operandValue_means rfl hnodup hnamed h.1 h.2
  · have hfails : FailsInText (assemble ⟨dialect, some songOffset, some sampleOffset⟩ text) :=
      failsInText_assemble rfl rfl hread hnodup hnamed hshort
    cases hassemble : assemble ⟨dialect, some songOffset, some sampleOffset⟩ text with
    | error error =>
      obtain ⟨cause, rfl⟩ := hfails error hassemble
      exact ⟨cause, rfl⟩
    | ok bytes =>
      obtain ⟨chunks, hchunks, -⟩ := (bind_eq_ok_iff _ _ _).mp ((hok bytes).mp hassemble)
      obtain ⟨chunk, -, hchunk⟩ := exists_right_of_mem ((mapM_eq_ok_iff _ _ _).mp hchunks) hp
      rw [partBytes, operandValue_undefined (lookup_missing hmissing) hnamed hname hmentions]
        at hchunk
      cases hchunk

end Reference

section Words

variable {dialect : Dialect} {width : Nat} {directive remark : List Char}
  {words : List (List Char)}

lemma written_words (hd : dialect.Directive width directive) (hne : words ≠ [])
    (hwords : ∀ word ∈ words, Word word) (hr : Remark remark) :
    Written dialect (dataText directive words ++ remark) (.data width words) := by
  have htab : Blanks ['\t'] := List.forall_mem_singleton.mpr (by decide)
  have hwritten := Written.data htab hd hne (padded_words hwords) hr
  rwa [filter_words hwords] at hwritten

lemma named_of_all {c : Char} {rest : List Char} (hc : isSymbolStart c = true)
    (hrest : rest.all isSymbolPart = true) (hplain : 'F' ∉ c :: rest) : Named (c :: rest) :=
  ⟨⟨c, rest, rfl, hc, List.all_eq_true.mp hrest⟩, fun hin => hplain (hin.subset (by decide))⟩

lemma written_name {name : List Char} (h : Named name) :
    Written dialect (name ++ [':']) (.label name) := by
  have hnone : Blanks [] := List.forall_mem_nil _
  have hwritten : Written dialect ([] ++ (name ++ [':']) ++ [] ++ []) (.label name) :=
    .label hnone h hnone (.inl rfl)
  simpa using hwritten

end Words

/-- A label is used before and after its definition. -/
def shortListing : String :=
  "; generated\nstart:\n\tdb $01,2,@later;trailing comment\n\tdw @later,@later-3,start\n" ++
    "@later:\n\tdb $02+<(FT_DPCM_PTR)\n"

def shortStatements : List Statement :=
  [.nothing, .label "start".toList, .data 1 ["$01".toList, "2".toList, "@later".toList],
    .data 2 ["@later".toList, "@later-3".toList, "start".toList], .label "@later".toList,
    .data 1 ["$02+<(FT_DPCM_PTR)".toList]]

lemma named_start : Named "start".toList := named_of_all (by decide) (by decide) (by decide)

lemma named_later : Named "@later".toList := named_of_all (by decide) (by decide) (by decide)

lemma shortListing_written :
    List.Forall₂ (Written .asm6) (Text.lines shortListing.toList) shortStatements := by
  have hlines : Text.lines shortListing.toList = ["; generated".toList,
      "start".toList ++ [':'],
      dataText "db".toList ["$01".toList, "2".toList, "@later".toList] ++
        ";trailing comment".toList,
      dataText "dw".toList ["@later".toList, "@later-3".toList, "start".toList] ++ [],
      "@later".toList ++ [':'],
      dataText "db".toList ["$02+<(FT_DPCM_PTR)".toList] ++ []] := by decide +kernel
  have hword : ∀ words ∈ [["$01".toList, "2".toList, "@later".toList],
      ["@later".toList, "@later-3".toList, "start".toList], ["$02+<(FT_DPCM_PTR)".toList]],
      ∀ word ∈ words, word ≠ [] ∧ word.all isWordPart = true := by decide +kernel
  rw [hlines]
  have hcomment : Written .asm6 ([] ++ "; generated".toList) .nothing :=
    .nothing (List.forall_mem_nil _) (.inr ⟨_, rfl⟩)
  refine .cons hcomment
    (.cons (written_name named_start)
    (.cons (written_words .byte (by simp) ?_ (.inr ⟨_, rfl⟩))
    (.cons (written_words .word (by simp) ?_ (.inl rfl))
    (.cons (written_name named_later)
    (.cons (written_words .byte (by simp) ?_ (.inl rfl)) .nil)))))
  all_goals
    intro word hm
    exact word_of_all (hword _ (by simp) word hm).1 (hword _ (by simp) word hm).2

lemma not_overlong {statements : List Statement} {operand : List Char}
    (h : operand.length ≤ maxDecimalDigits) : ¬ Overlong statements operand := by
  rintro ⟨name, digits, -, -, hlong, rfl⟩
  rw [List.length_append, List.length_cons] at h
  omega

theorem shortListing_assembled :
    List.Forall₂ (Written .asm6) (Text.lines shortListing.toList) shortStatements ∧
    (shortStatements.flatMap Statement.defined).Nodup ∧
    (∀ part ∈ shortStatements.flatMap Statement.parts, ¬ Overlong shortStatements part.2) ∧
    assemble ⟨.asm6, some 0x100, some 0xC080⟩ shortListing =
      .ok [1, 2, 9, 9, 1, 6, 1, 0, 1, 4] := by
  have hnodup : (shortStatements.flatMap Statement.defined).Nodup := by decide +kernel
  have hlengths : ∀ part ∈ shortStatements.flatMap Statement.parts, part.2.length ≤ 18 := by
    decide +kernel
  have hshort : ∀ part ∈ shortStatements.flatMap Statement.parts,
      ¬ Overlong shortStatements part.2 :=
    fun part hp => not_overlong ((hlengths part hp).trans (by decide))
  have hstart : Means 0x100 0xC080 shortStatements "start".toList 0x100 :=
    @Means.label _ _ _ (shortStatements.take 1) (shortStatements.drop 2) _ named_start rfl
  have hlater : Means 0x100 0xC080 shortStatements "@later".toList 0x109 :=
    @Means.label _ _ _ (shortStatements.take 4) (shortStatements.drop 5) _ named_later rfl
  have hdistant : Means 0x100 0xC080 shortStatements ("@later".toList ++ ['-', '3']) 0x106 :=
    @Means.distant _ _ _ (shortStatements.take 4) (shortStatements.drop 5) _ _ named_later rfl
      (by simp) (List.forall_mem_singleton.mpr (by decide))
  have hsample : Means 0x100 0xC080 shortStatements
      ("$02".toList ++ '+' :: "<(FT_DPCM_PTR)".toList) 4 :=
    @Means.sample _ _ _ _ _ 2 (by decide) ⟨"$02+<(".toList, [')'], by decide +kernel⟩
      (by decide +kernel)
  have hvalues : List.Forall₂
      (fun part value => Means 0x100 0xC080 shortStatements part.2 value)
      (shortStatements.flatMap Statement.parts) [1, 2, 0x109, 0x109, 0x106, 0x100, 4] :=
    .cons (.number (by decide +kernel)) (.cons (.number (by decide +kernel)) (.cons hlater
      (.cons hlater (.cons hdistant (.cons hstart (.cons hsample .nil))))))
  exact ⟨shortListing_written, hnodup, hshort, (assemble_reference (by simp [Dialect.all]) 0x100
    0xC080 shortListing_written hnodup hshort).1 _ hvalues⟩

/-- A distance in digits, and a label that is nowhere defined. -/
def farListing (digits : List Char) : String :=
  "a:\n\tdb a-" ++ String.ofList digits ++ ",nope\n"

def farStatements (digits : List Char) : List Statement :=
  [.label ['a'], .data 1 [['a'] ++ '-' :: digits, "nope".toList]]

section Far

variable {digits : List Char}

lemma named_a : Named ['a'] := named_of_all (by decide) (by decide) (by decide)

lemma named_nope : Named "nope".toList := named_of_all (by decide) (by decide) (by decide)

lemma farListing_written (hdigits : ∀ d ∈ digits, d.isDigit = true) :
    List.Forall₂ (Written .asm6) (Text.lines (farListing digits).toList)
      (farStatements digits) := by
  have hwords : ∀ word ∈ [['a'] ++ '-' :: digits, "nope".toList], Word word := by
    have hfar : Word (['a', '-'] ++ digits) := (word_of_all (by decide) (by decide)).append
      fun c hc => isWordPart_of_isDigit (hdigits c hc)
    simpa using ⟨hfar, word_of_all (by decide) (by decide)⟩
  have htext : (farListing digits).toList = (['a'] ++ [':']) ++ '\n' ::
      (dataText "db".toList [['a'] ++ '-' :: digits, "nope".toList] ++ '\n' :: []) := by
    simp [farListing, dataText]
  have hlabel : OneLine (['a'] ++ [':']) := oneLine_of_any (by decide)
  have hdata : OneLine (dataText "db".toList [['a'] ++ '-' :: digits, "nope".toList]) :=
    oneLine_dataText (word_of_all (by decide) (by decide)) hwords
  have hwritten : Written .asm6 (dataText "db".toList [['a'] ++ '-' :: digits, "nope".toList] ++ [])
      (.data 1 [['a'] ++ '-' :: digits, "nope".toList]) :=
    written_words .byte (by simp) hwords (.inl rfl)
  rw [List.append_nil] at hwritten
  rw [htext, Text.lines, linesFrom_append_break hlabel, linesFrom_append_break hdata]
  exact .cons (written_name named_a) (.cons hwritten .nil)

/-- An operand that mentions a label is left to the second pass if it is no label so far. -/
lemma addCell_mentions (target : Target) {layout : Layout} {operand name : List Char}
    (hlookup : layout.labels.lookup operand = none) (hname : Named name) (h : Mentions operand name)
    (width : Nat) : layout.addCell target width operand = .ok { layout with
      cells := .pending operand width :: layout.cells
      address := layout.address + width } := by
  obtain ⟨hplain, hsymbol⟩ := hname.mentions h
  rw [Layout.addCell, cell, hlookup]
  dsimp only
  rw [if_neg hplain, if_pos hsymbol]
  rfl

lemma farListing_pass (hfar : Mentions (['a'] ++ '-' :: digits) ['a']) :
    (farStatements digits).foldlM (addStatement ⟨.asm6, some 0, some 0⟩) {} = .ok
      ⟨[.pending "nope".toList 1, .pending (['a'] ++ '-' :: digits) 1], 2, [(['a'], 0)]⟩ := by
  have hunknown : ([(['a'], 0)] : Labels).lookup (['a'] ++ '-' :: digits) = none := by simp
  have hlabel : addStatement ⟨.asm6, some 0, some 0⟩ {} (.label ['a']) =
      .ok ⟨[], 0, [(['a'], 0)]⟩ := rfl
  have hfirst : Layout.addCell ⟨.asm6, some 0, some 0⟩ 1 ⟨[], 0, [(['a'], 0)]⟩
      (['a'] ++ '-' :: digits) =
        .ok ⟨[.pending (['a'] ++ '-' :: digits) 1], 1, [(['a'], 0)]⟩ :=
    addCell_mentions _ hunknown named_a hfar 1
  have hsecond : Layout.addCell ⟨.asm6, some 0, some 0⟩ 1
      ⟨[.pending (['a'] ++ '-' :: digits) 1], 1, [(['a'], 0)]⟩ "nope".toList =
        .ok ⟨[.pending "nope".toList 1, .pending (['a'] ++ '-' :: digits) 1], 2, [(['a'], 0)]⟩ :=
    addCell_mentions _ rfl named_nope (.inl rfl) 1
  rw [farStatements, List.foldlM_cons, hlabel, ok_bind, List.foldlM_cons, addStatement,
    List.foldlM_cons, hfirst, ok_bind, List.foldlM_cons, hsecond]
  rfl

/-- No distance of a defined label is read if it has too many digits, and what goes wrong then is
not what goes wrong with the other operands that cannot be read. -/
lemma farListing_fails (hdigits : ∀ d ∈ digits, d.isDigit = true)
    (hlong : maxDecimalDigits < digits.length) :
    assemble ⟨.asm6, some 0, some 0⟩ (farListing digits) = .error .notANumeral := by
  have hne : digits ≠ [] := List.ne_nil_of_length_pos (by omega)
  have hwritten := farListing_written hdigits
  have hread := ofLine?_lines (Dialect.sound_of_mem (by simp [Dialect.all])) hwritten
  have hnamed := @named_labels _ _ _ hwritten 0
  have hpass := farListing_pass (.inr ⟨digits, hne, hdigits, rfl⟩)
  have hdefined : farStatements digits =
      [] ++ .label ['a'] :: [.data 1 [['a'] ++ '-' :: digits, "nope".toList]] := rfl
  have hnodup : ((farStatements digits).flatMap Statement.defined).Nodup :=
    List.nodup_singleton _
  have hvalue : operandValue ⟨.asm6, some 0, some 0⟩ (labelsFrom 0 (farStatements digits))
      (['a'] ++ '-' :: digits) = .error .notANumeral := by
    rw [operandValue_distant hnamed named_a (lookup_labelsFrom hdefined hnodup) hne hdigits,
      if_neg (Nat.not_le.mpr hlong)]
  have hparts : (farStatements digits).flatMap Statement.parts =
      [(1, ['a'] ++ '-' :: digits), (1, "nope".toList)] := rfl
  have hassemble : assemble ⟨.asm6, some 0, some 0⟩ (farListing digits) =
      partsBytes ⟨.asm6, some 0, some 0⟩ (labelsFrom 0 (farStatements digits))
        ((farStatements digits).flatMap Statement.parts) :=
    assemble_of_pass rfl hread hnodup hnamed hpass
  rw [hassemble, partsBytes, hparts, List.mapM_cons, partBytes, hvalue]
  rfl

end Far

/-- A distance of zero, one digit longer than what is read. -/
def longZero : List Char := List.replicate 4301 '0'

theorem longZero_notANumeral :
    List.Forall₂ (Written .asm6) (Text.lines (farListing longZero).toList)
      (farStatements longZero) ∧
    ((farStatements longZero).flatMap Statement.defined).Nodup ∧
    (∃ part ∈ (farStatements longZero).flatMap Statement.parts, ∃ name, Named name ∧
      Mentions part.2 name ∧ .label name ∉ farStatements longZero) ∧
    assemble ⟨.asm6, some 0, some 0⟩ (farListing longZero) = .error .notANumeral ∧
    ∀ cause, Error.notANumeral ≠ .assembly cause := by
  have hdigits : ∀ d ∈ longZero, d.isDigit = true := by
    intro d hd
    rw [List.eq_of_mem_replicate hd]
    decide
  have hlong : maxDecimalDigits < longZero.length := by
    rw [longZero, List.length_replicate]
    decide
  have hmissing : .label "nope".toList ∉ farStatements longZero := by
    rw [farStatements, List.mem_pair]
    rintro (h | h)
    · exact absurd (Statement.label.inj h) (by decide)
    · cases h
  have hmentioned : (1, "nope".toList) ∈ (farStatements longZero).flatMap Statement.parts :=
    List.mem_cons_of_mem _ List.mem_cons_self
  exact ⟨farListing_written hdigits, List.nodup_singleton _,
    ⟨_, hmentioned, _, named_nope, .inl rfl, hmissing⟩, farListing_fails hdigits hlong,
    fun cause h => nomatch h⟩

end Assembly

end Chiptune
