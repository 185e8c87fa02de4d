import Chiptune.Proofs.Listings
import Chiptune.Proofs.Numerals
import Chiptune.Text.Decimal

/-!
# Texts of operands

An operand is a symbol or a number, and not both. A symbol is the name of a label, or such a name
with a distance in decimal digits, which is read if it is not too long. No number holds a `T`, so
none mentions the address of the samples.
-/

namespace Chiptune

namespace Text

section Numerals

variable {s : List Char} {c : Char}

lemma mem_dropWhile {p : Char → Bool} (hc : p c = false) (h : c ∈ s) : c ∈ s.dropWhile p := by
  rw [← List.takeWhile_append_dropWhile (l := s) (p := p), List.mem_append] at h
  refine h.resolve_left fun hm => ?_
  rw [List.mem_takeWhile_imp hm] at hc
  cases hc

lemma mem_trim (hc : isBlank c = false) (h : c ∈ s) : c ∈ trim s := by
  rw [trim, trimRight, List.mem_reverse]
  exact mem_dropWhile hc (List.mem_reverse.mpr (mem_dropWhile hc h))

lemma mem_trimNumeral (hc : isNumeralBlank c = false) (h : c ∈ s) : c ∈ trimNumeral s := by
  rw [trimNumeral, List.mem_reverse]
  exact mem_dropWhile hc (List.mem_reverse.mpr (mem_dropWhile hc h))

lemma trimNumeral_cons (hc : isNumeralBlank c = false) (rest : List Char) :
    ∃ tail, trimNumeral (c :: rest) = c :: tail := by
  have hdrop : (c :: rest).dropWhile isNumeralBlank = c :: rest :=
    List.dropWhile_cons_of_neg (by simp [hc])
  have hall : ∀ t : List Char, ∃ tail, (t ++ [c]).dropWhile isNumeralBlank = tail ++ [c] := by
    intro t
    induction t with
    | nil => exact ⟨[], List.dropWhile_cons_of_neg (by simp [hc])⟩
    | cons d t ih =>
      by_cases hd : isNumeralBlank d = true
      · rw [List.cons_append, List.dropWhile_cons_of_pos hd]
        exact ih
      · exact ⟨d :: t, List.dropWhile_cons_of_neg hd⟩
  obtain ⟨tail, htail⟩ := hall rest.reverse
  refine ⟨tail.reverse, ?_⟩
  rw [trimNumeral, hdrop, List.reverse_cons, htail, List.reverse_append]
  rfl

lemma digitRun?_no_T {base value count : Nat} (hbase : base ≤ 16) {separated : Bool}
    {result : Nat × Nat} (h : digitRun? base value count separated s = some result) : 'T' ∉ s := by
  induction s generalizing value count separated with
  | nil => exact List.not_mem_nil
  | cons c rest ih =>
    rw [digitRun?] at h
    rw [List.mem_cons, not_or]
    split at h
    · next hc =>
      subst hc
      split at h
      · cases h
      · exact ⟨by decide, ih h⟩
    · split at h
      · next d hd =>
        split at h
        · next hlt =>
          refine ⟨?_, ih h⟩
          rintro rfl
          obtain rfl : 29 = d := Option.some.inj hd
          omega
        · cases h
      · cases h

lemma mem_afterMark (hc : c ≠ '_') (h : c ∈ s) : c ∈ afterMark s := by
  unfold afterMark
  split
  · exact (List.mem_cons.mp h).resolve_left hc
  · exact h

lemma magnitude?_no_T {base : Base} {n : Nat} (h : magnitude? base s = some n)
    (hbase : base ≠ .announced) : 'T' ∉ s := by
  have hpower : ∀ t : List Char, (digitRun? 16 0 0 true t).map Prod.fst = some n → 'T' ∉ t := by
    intro t ht
    obtain ⟨result, hresult, -⟩ := Option.map_eq_some_iff.mp ht
    exact digitRun?_no_T (by decide) hresult
  unfold magnitude? at h
  dsimp only at h
  split at h
  · obtain ⟨result, hresult, -⟩ := Option.bind_eq_some_iff.mp h
    exact digitRun?_no_T (by decide) hresult
  · next c rest =>
    split at h
    · next hmark =>
      have hrest := hpower _ h
      rw [isMark, Bool.or_eq_true, beq_iff_eq, beq_iff_eq] at hmark
      simp only [List.mem_cons, not_or]
      refine ⟨by decide, ?_, fun hm => hrest (mem_afterMark (by decide) hm)⟩
      rcases hmark with rfl | rfl
      · decide
      · decide
    · exact hpower _ h
  · exact hpower _ h
  · exact absurd rfl hbase
  · exact absurd rfl hbase

lemma readInt?_no_T {base : Base} {n : Int} (h : readInt? base s = some n)
    (hbase : base ≠ .announced) : 'T' ∉ s := by
  intro hm
  have hplain : 'T' ∈ (trimNumeral s).map plainDigit :=
    List.mem_map.mpr ⟨'T', mem_trimNumeral (by decide) hm, rfl⟩
  have hread : ∀ t : List Char, magnitude? base t ≠ none → 'T' ∉ t := by
    intro t ht
    obtain ⟨k, hk⟩ := Option.ne_none_iff_exists'.mp ht
    exact magnitude?_no_T hk hbase
  unfold readInt? at h
  split at h
  · next rest heq =>
    rw [heq, List.mem_cons] at hplain
    refine hread rest (fun hnone => ?_) (hplain.resolve_left (by decide))
    rw [hnone] at h
    cases h
  · next rest heq =>
    rw [heq, List.mem_cons] at hplain
    refine hread rest (fun hnone => ?_) (hplain.resolve_left (by decide))
    rw [hnone] at h
    cases h
  · refine hread _ (fun hnone => ?_) hplain
    rw [hnone] at h
    cases h

lemma readInt?_decimal (hdigits : ∀ d ∈ s, d.isDigit = true) (hne : s ≠ []) :
    readInt? .decimal s =
      if s.length ≤ maxDecimalDigits then some (digitsValue s : Int) else none := by
  have hplain : ∀ d ∈ s, PlainDigit 10 d := fun d hd => plainDigit_of_isDigit (hdigits d hd)
  have hvalue : s.foldl (fun v c => v * 10 + digitOf c) 0 = digitsValue s := by
    refine List.foldl_ext _ _ _ fun v d hd => ?_
    rw [digitOf, digitValue?_of_isDigit (hdigits d hd), Option.getD_some]
  have hrun : digitRun? 10 0 0 true s = _ :=
    digitRun?_digits hplain 0 0 fun hnil => absurd hnil hne
  rw [readInt?_digits hplain]
  unfold magnitude?
  dsimp only
  rw [hrun, Option.bind_some, Nat.zero_add, hvalue]
  split <;> rfl

lemma digitsValue_natural {n : Nat} (h : isWritable n = true) :
    (toString n).toList.length ≤ maxDecimalDigits ∧ digitsValue (toString n).toList = n := by
  have hread := readInt?_natural h
  rw [readInt?_decimal (fun d hd => isDigit_of_mem_natural hd) (word_natural n).nonempty] at hread
  split at hread
  · next hlength => exact ⟨hlength, Int.ofNat_inj.mp (Option.some.inj hread)⟩
  · cases hread

end Numerals

end Text

namespace Assembly

open Text

/-- A name, alone or with a distance to subtract, which stands after a minus sign. -/
def Mentions (operand name : List Char) : Prop :=
  operand = name ∨ ∃ digits, digits ≠ [] ∧ (∀ d ∈ digits, d.isDigit = true) ∧
    operand = name ++ '-' :: digits

section Operands

variable {operand : List Char}

lemma isSymbolPart_of_start {c : Char} (h : isSymbolStart c = true) : isSymbolPart c = true := by
  rw [isSymbolPart, h, Bool.true_or]

lemma isSymbol_mentions {c : Char} {rest : List Char} (hc : isSymbolStart c = true)
    (hrest : ∀ d ∈ rest, isSymbolPart d = true) (h : Mentions operand (c :: rest)) :
    isSymbol operand = true := by
  rcases h with rfl | ⟨digits, hne, hdigits, rfl⟩
  · rw [isSymbol, hc, List.dropWhile_eq_nil_iff.mpr hrest]
    rfl
  · have hdrop : (rest ++ '-' :: digits).dropWhile isSymbolPart = '-' :: digits := by
      rw [List.dropWhile_append_of_pos hrest, List.dropWhile_cons_of_neg (by decide)]
    rw [List.cons_append, isSymbol, hc, hdrop, Bool.true_and]
    split
    · rfl
    · next found heq =>
      obtain rfl := (List.cons.inj heq).2
      rw [Bool.and_eq_true, Bool.not_eq_true', List.isEmpty_eq_false_iff, List.all_eq_true]
      exact ⟨hne, hdigits⟩
    · next hminus => exact absurd rfl (hminus _)

lemma exists_of_isSymbol (h : isSymbol operand = true) : ∃ c rest, isSymbolStart c = true ∧
    (∀ d ∈ rest, isSymbolPart d = true) ∧ Mentions operand (c :: rest) := by
  unfold isSymbol at h
  split at h
  · cases h
  · next c rest =>
    rw [Bool.and_eq_true] at h
    obtain ⟨hc, h⟩ := h
    have hpart : ∀ d ∈ rest.takeWhile isSymbolPart, isSymbolPart d = true :=
      fun d hd => List.mem_takeWhile_imp hd
    have hwhole := List.takeWhile_append_dropWhile (p := isSymbolPart) (l := rest)
    split at h
    · next hnil =>
      rw [hnil, List.append_nil] at hwhole
      exact ⟨c, rest, hc, hwhole ▸ hpart, .inl rfl⟩
    · next digits hminus =>
      rw [Bool.and_eq_true, Bool.not_eq_true', List.isEmpty_eq_false_iff, List.all_eq_true] at h
      refine ⟨c, rest.takeWhile isSymbolPart, hc, hpart, .inr ⟨digits, h.1, h.2, ?_⟩⟩
      rw [← hminus, List.cons_append, hwhole]
    · cases h

lemma ten_le_digitValue {c : Char} (hc : isSymbolStart c = true) {d : Nat}
    (hd : digitValue? c = some d) : 10 ≤ d := by
  rcases isSymbolStart_cases hc with h | h | rfl | rfl | rfl
  · unfold digitValue? at hd
    simp only [Bool.and_eq_true, decide_eq_true_eq] at hd
    rw [if_neg (by omega), if_neg (by omega), if_pos (by omega)] at hd
    have := Option.some.inj hd
    omega
  · unfold digitValue? at hd
    simp only [Bool.and_eq_true, decide_eq_true_eq] at hd
    rw [if_neg (by omega), if_pos (by omega)] at hd
    have := Option.some.inj hd
    omega
  · exact nomatch (show digitValue? '_' = none from rfl).symm.trans hd
  · exact nomatch (show digitValue? '.' = none from rfl).symm.trans hd
  · exact nomatch (show digitValue? '@' = none from rfl).symm.trans hd

lemma number?_of_start {c : Char} (hc : isSymbolStart c = true) (rest : List Char) :
    number? (c :: rest) = none := by
  have hword := isWordPart_of_isSymbolPart (isSymbolPart_of_start hc)
  have hcases := isSymbolStart_cases hc
  have hblank : isNumeralBlank c = false := by
    simp only [isWordPart, Bool.and_eq_true, Bool.not_eq_true'] at hword
    rw [isNumeralBlank, hword.1.1, Bool.false_and]
  have hplain : plainDigit c = c := by
    refine if_pos ?_
    rcases hcases with h | h | rfl | rfl | rfl
    · omega
    · omega
    · decide
    · decide
    · decide
  have hother : ∀ d, isSymbolStart d = false → c ≠ d := by
    rintro d hd rfl
    rw [hc] at hd
    cases hd
  obtain ⟨tail, htail⟩ := trimNumeral_cons hblank rest
  have hrun : ∀ t : List Char, digitRun? 10 0 0 true (c :: t) = none := by
    intro t
    rw [digitRun?]
    split
    · rfl
    · next hunderscore =>
      split
      · next d hd => rw [if_neg (Nat.not_lt.mpr (ten_le_digitValue hc hd))]
      · rfl
  have hread : readInt? .decimal (c :: rest) = none := by
    unfold readInt?
    rw [htail, List.map_cons, hplain]
    split
    · next heq => exact absurd (List.cons.inj heq).1 (hother _ (by decide))
    · next heq => exact absurd (List.cons.inj heq).1 (hother _ (by decide))
    · rw [magnitude?]
      dsimp only
      rw [hrun]
      rfl
  unfold number?
  split
  · next heq => exact absurd (List.cons.inj heq).1 (hother _ (by decide))
  · exact hread

lemma number?_not_symbol {n : Int} (h : number? operand = some n) : isSymbol operand = false := by
  rw [← Bool.not_eq_true]
  intro hsymbol
  obtain ⟨c, rest, hc, -, hmentions⟩ := exists_of_isSymbol hsymbol
  rcases hmentions with rfl | ⟨digits, -, -, rfl⟩
  · rw [number?_of_start hc] at h
    cases h
  · rw [List.cons_append, number?_of_start hc] at h
    cases h

lemma number?_no_T {n : Int} (h : number? operand = some n) : 'T' ∉ operand := by
  unfold number? at h
  split at h
  · next digits =>
    rw [List.mem_cons, not_or]
    exact ⟨by decide, fun hm => readInt?_no_T h (by decide) (mem_trim (by decide) hm)⟩
  · exact readInt?_no_T h (by decide)

end Operands

section Values

variable {target : Target} {labels : Labels} {operand name digits : List Char} {n : Int}

lemma operandValue_of_number (hl : ∀ entry ∈ labels, Named entry.1)
    (h : number? operand = some n) : operandValue target labels operand = .ok n := by
  have hsymbol := number?_not_symbol h
  have hnamed : ¬ Named operand := by
    intro hn
    rw [hn.identifier.symbol] at hsymbol
    cases hsymbol
  have hplain : ¬ occursIn Line.sampleAddress.toList operand = true := by
    rw [occursIn_iff]
    exact fun hin => number?_no_T h (hin.subset (by decide))
  rw [operandValue, lookup_eq_none hl hnamed]
  dsimp only
  rw [if_neg hplain, hsymbol, if_neg Bool.false_ne_true, number, h]
  rfl

lemma operandValue_of_sample (hl : ∀ entry ∈ labels, Named entry.1) {sampleOffset : Int}
    (ho : target.sampleOffset = some sampleOffset) {base rest : List Char} (hbase : '+' ∉ base)
    (hsample : Line.sampleAddress.toList <:+: base ++ '+' :: rest)
    (h : number? (trim base) = some n) :
    operandValue target labels (base ++ '+' :: rest) = .ok (n + samplePage sampleOffset) := by
  have hnamed : ¬ Named (base ++ '+' :: rest) := fun hn => hn.plain hsample
  rw [operandValue, lookup_eq_none hl hnamed]
  dsimp only
  rw [if_pos ((occursIn_iff _ _).mpr hsample), sampleOperand, (scan_marked hbase rest).1,
    number, h, ho]
  rfl

lemma resolve_undefined (h : '-' ∉ name) (hl : labels.lookup name = none)
    (hmentions : Mentions operand name) :
    resolve labels operand = .error (.assembly (.undefinedLabel (String.ofList name))) := by
  have htake : operand.takeWhile (· != '-') = name := by
    rcases hmentions with rfl | ⟨digits, -, -, rfl⟩
    · exact (scan_unmarked h).1
    · exact (scan_marked h digits).1
  rw [resolve, htake, hl]
  rfl

lemma distance_digits (hne : digits ≠ []) (hdigits : ∀ d ∈ digits, d.isDigit = true) :
    distance digits = if digits.length ≤ maxDecimalDigits then .ok (digitsValue digits : Int)
      else .error .notANumeral := by
  have hempty : ¬ digits.isEmpty = true := by simpa using hne
  rw [distance, if_neg hempty, readInt?_decimal hdigits hne]
  by_cases hlength : digits.length ≤ maxDecimalDigits
  · rw [if_pos hlength, if_pos hlength]
    rfl
  · rw [if_neg hlength, if_neg hlength]
    rfl

lemma not_infix_minus (h : ¬ Line.sampleAddress.toList <:+: name)
    (hdigits : ∀ d ∈ digits, d.isDigit = true) :
    ¬ Line.sampleAddress.toList <:+: name ++ '-' :: digits := by
  intro hin
  rcases List.infix_append_iff.mp hin with hin | hin | ⟨first, second, hword, hfirst, hsecond⟩
  · exact h hin
  · rcases List.mem_cons.mp (hin.subset (show 'F' ∈ _ by decide)) with heq | hm
    · exact absurd heq (by decide)
    · exact absurd (hdigits _ hm) (by decide)
  · cases second with
    | nil =>
      rw [List.append_nil] at hword
      exact h (hword ▸ hfirst.isInfix)
    | cons c second =>
      obtain rfl := (List.cons_prefix_cons.mp hsecond).1
      have hminus : '-' ∈ Line.sampleAddress.toList := by simp [hword]
      exact absurd hminus (by decide)

lemma Named.mentions (hname : Named name) (h : Mentions operand name) :
    ¬ occursIn Line.sampleAddress.toList operand = true ∧ isSymbol operand = true := by
  obtain ⟨c, rest, rfl, hc, hrest⟩ := hname.spelling
  refine ⟨?_, isSymbol_mentions hc hrest h⟩
  rw [occursIn_iff]
  rcases h with rfl | ⟨digits, -, hdigits, rfl⟩
  · exact hname.plain
  · exact not_infix_minus hname.plain hdigits

lemma operandValue_mentions (hlookup : labels.lookup operand = none) (hname : Named name)
    (h : Mentions operand name) : operandValue target labels operand = resolve labels operand := by
  obtain ⟨hplain, hsymbol⟩ := hname.mentions h
  rw [operandValue, hlookup]
  dsimp only
  rw [if_neg hplain, if_pos hsymbol]

lemma operandValue_undefined (hl : labels.lookup name = none)
    (hnamed : ∀ entry ∈ labels, Named entry.1) (hname : Named name) (h : Mentions operand name) :
    operandValue target labels operand =
      .error (.assembly (.undefinedLabel (String.ofList name))) := by
  have hlookup : labels.lookup operand = none := by
    rcases h with rfl | ⟨digits, -, -, rfl⟩
    · exact hl
    · exact lookup_eq_none hnamed fun hn => hn.not_mem (c := '-') (by decide) (by simp)
  rw [operandValue_mentions hlookup hname h, resolve_undefined (hname.not_mem (by decide)) hl h]

lemma operandValue_distant (hnamed : ∀ entry ∈ labels, Named entry.1) (hname : Named name)
    {address : Int} (hl : labels.lookup name = some address) (hne : digits ≠ [])
    (hdigits : ∀ d ∈ digits, d.isDigit = true) :
    operandValue target labels (name ++ '-' :: digits) =
      if digits.length ≤ maxDecimalDigits then .ok (address - (digitsValue digits : Int))
      else .error .notANumeral := by
  have hlookup : labels.lookup (name ++ '-' :: digits) = none :=
    lookup_eq_none hnamed fun hn => hn.not_mem (by decide) (show '-' ∈ _ by simp)
  obtain ⟨htake, hdrop⟩ := scan_marked (hname.not_mem (c := '-') (by decide)) digits
  rw [operandValue_mentions hlookup hname (.inr ⟨digits, hne, hdigits, rfl⟩), resolve, htake, hl,
    hdrop, List.drop_one, List.tail_cons, distance_digits hne hdigits]
  by_cases hlength : digits.length ≤ maxDecimalDigits
  · rw [if_pos hlength, if_pos hlength]
    rfl
  · rw [if_neg hlength, if_neg hlength]
    rfl

end Values

end Assembly

end Chiptune
