import Chiptune.Proofs.Spelling

/-!
# Numerals read back

Decimal numbers that are not too long and all hexadecimal numbers are read from their digits as what
they are.
-/

namespace Chiptune.Text

/-- A character that is read as a digit of a base and as nothing else. -/
structure PlainDigit (base : Nat) (c : Char) : Prop where
  value : ∃ d < base, digitValue? c = some d
  ascii : c.toNat < 0x80
  blank : isNumeralBlank c = false
  small : c.isUpper = false
  other : c ≠ '_' ∧ c ≠ '-' ∧ c ≠ '+' ∧ isMark 'x' c = false

def digitOf (c : Char) : Nat := (digitValue? c).getD 0

section Digits

variable {base : Nat} {s : List Char}

lemma digitRun?_digits (h : ∀ c ∈ s, PlainDigit base c) (value count : Nat) {separated : Bool}
    (hs : s = [] → separated = false) : digitRun? base value count separated s =
      some (s.foldl (fun v c => v * base + digitOf c) value, count + s.length) := by
  induction s generalizing value count separated with
  | nil =>
    rw [hs rfl]
    rfl
  | cons c rest ih =>
    obtain ⟨d, hlt, hd⟩ := (h c (by simp)).value
    have hdigit : digitOf c = d := by rw [digitOf, hd, Option.getD_some]
    rw [digitRun?, if_neg (h c (by simp)).other.1, hd]
    dsimp only
    rw [if_pos hlt, ih (fun other ho => h other (by simp [ho])) _ _ fun _ => rfl,
      List.foldl_cons, hdigit, List.length_cons, Nat.add_assoc, Nat.add_comm 1]

lemma trimNumeral_eq_self (h : ∀ c ∈ s, isNumeralBlank c = false) : trimNumeral s = s := by
  have hdrop : ∀ t : List Char, (∀ c ∈ t, isNumeralBlank c = false) →
      t.dropWhile isNumeralBlank = t := by
    intro t ht
    cases t with
    | nil => rfl
    | cons c rest => exact List.dropWhile_cons_of_neg (by simp [ht c (by simp)])
  rw [trimNumeral, hdrop s h, hdrop s.reverse (by simpa using h), List.reverse_reverse]

lemma map_plainDigit (h : ∀ c ∈ s, c.toNat < 0x80) : s.map plainDigit = s := by
  conv_rhs => rw [← List.map_id s]
  exact List.map_congr_left fun c hc => if_pos (h c hc)

variable {system : Base}

lemma readInt?_digits (h : ∀ c ∈ s, PlainDigit base c) :
    readInt? system s = (magnitude? system s).map Int.ofNat := by
  rw [readInt?, trimNumeral_eq_self fun c hc => (h c hc).blank,
    map_plainDigit fun c hc => (h c hc).ascii]
  cases s with
  | nil => rfl
  | cons c rest =>
    obtain ⟨-, hminus, hplus, -⟩ := (h c (by simp)).other
    split
    · next heq => exact absurd (List.cons.inj heq).1 hminus
    · next heq => exact absurd (List.cons.inj heq).1 hplus
    · rfl

lemma readInt?_minus (h : ∀ c ∈ s, PlainDigit base c) :
    readInt? system ('-' :: s) = (magnitude? system s).map fun n : Nat => -(n : Int) := by
  have hall : ∀ c ∈ '-' :: s, isNumeralBlank c = false ∧ c.toNat < 0x80 := by
    intro c hc
    rcases List.mem_cons.mp hc with rfl | hc
    · decide
    · exact ⟨(h c hc).blank, (h c hc).ascii⟩
  rw [readInt?, trimNumeral_eq_self fun c hc => (hall c hc).1,
    map_plainDigit fun c hc => (hall c hc).2]
  split
  · next rest heq =>
    obtain rfl := (List.cons.inj heq).2
    cases magnitude? system s <;> rfl
  · next heq => exact absurd (List.cons.inj heq).1 (by decide)
  · next hminus _ => exact absurd rfl (hminus s)

end Digits

lemma isNumeralBlank_of_isDigit {c : Char} (h : c.isDigit = true) : isNumeralBlank c = false := by
  rw [isDigit_iff] at h
  simp only [isNumeralBlank, isBlank, Bool.and_eq_false_iff, Bool.or_eq_false_iff,
    decide_eq_false_iff_not, beq_eq_false_iff_ne]
  exact .inl (by omega)

lemma digitValue?_of_isDigit {c : Char} (h : c.isDigit = true) :
    digitValue? c = some (c.toNat - '0'.toNat) := by
  rw [isDigit_iff] at h
  have hrange : (0x30 ≤ c.toNat && c.toNat ≤ 0x39) = true := by simp [h]
  unfold digitValue?
  dsimp only
  rw [if_pos hrange]
  rfl

lemma plainDigit_of_isDigit {c : Char} (h : c.isDigit = true) : PlainDigit 10 c where
  value := by
    have hrange := (isDigit_iff c).mp h
    have hzero : '0'.toNat = 0x30 := rfl
    exact ⟨_, by omega, digitValue?_of_isDigit h⟩
  ascii := by
    have hrange := (isDigit_iff c).mp h
    omega
  blank := isNumeralBlank_of_isDigit h
  small := by
    have hrange := (isDigit_iff c).mp h
    rw [Char.isUpper, decide_eq_false_iff_not]
    rintro ⟨hupper, -⟩
    have hletter : 65 ≤ c.toNat := hupper
    omega
  other := by
    refine ⟨?_, ?_, ?_, ?_⟩
    · rintro rfl
      exact absurd h (by decide)
    · rintro rfl
      exact absurd h (by decide)
    · rintro rfl
      exact absurd h (by decide)
    · rw [isMark, Bool.or_eq_false_iff, beq_eq_false_iff_ne, beq_eq_false_iff_ne]
      constructor
      · rintro rfl
        exact absurd h (by decide)
      · rintro rfl
        exact absurd h (by decide)

lemma plainDigit_of_mem_natural {n : Nat} {c : Char} (h : c ∈ (toString n).toList) :
    PlainDigit 10 c :=
  plainDigit_of_isDigit (isDigit_of_mem_natural h)

lemma isWritable_of_lt {n : Nat} (h : n < 100) : isWritable n = true := by
  have hpow : 10 ^ 2 ≤ 10 ^ maxDecimalDigits := Nat.pow_le_pow_right (by decide) (by decide)
  unfold isWritable
  rw [decide_eq_true_eq, Int.natAbs_natCast, Nat.pow_eq]
  omega

lemma magnitude?_natural {n : Nat} (h : isWritable n = true) :
    magnitude? .decimal (toString n).toList = some n := by
  have hne : (toString n).toList ≠ [] := (word_natural n).nonempty
  have hlength : (toString n).toList.length ≤ maxDecimalDigits := by
    unfold isWritable at h
    rw [decide_eq_true_eq, Int.natAbs_natCast, Nat.pow_eq] at h
    have hpos : 0 < maxDecimalDigits := by decide
    rw [toList_natural]
    generalize maxDecimalDigits = limit at h hpos ⊢
    exact Nat.toDigits_length 10 n limit hpos h
  have hvalue : (toString n).toList.foldl (fun v c => v * 10 + digitOf c) 0 = n := by
    have hfold : (toString n).toList.foldl (fun v c => v * 10 + digitOf c) 0 =
        Nat.ofDigitChars 10 (toString n).toList 0 := by
      apply List.foldl_ext
      intro v c hc
      rw [digitOf, digitValue?_of_isDigit (isDigit_of_mem_natural hc), Option.getD_some,
        Nat.mul_comm]
    rw [hfold, toList_natural, Nat.ofDigitChars_ten_toDigits]
  have hrun : digitRun? 10 0 0 true (toString n).toList = _ :=
    digitRun?_digits (fun c hc => plainDigit_of_mem_natural hc) 0 0 fun hnil => absurd hnil hne
  unfold magnitude?
  dsimp only
  rw [hrun, Option.bind_some, Nat.zero_add, if_pos hlength, hvalue]

lemma readInt?_natural {n : Nat} (h : isWritable n = true) :
    readInt? .decimal (toString n).toList = some (n : Int) := by
  rw [readInt?_digits fun c hc => plainDigit_of_mem_natural hc, magnitude?_natural h]
  rfl

theorem readInt?_integer {n : Int} (h : isWritable n = true) :
    readInt? .decimal (toString n).toList = some n := by
  cases n with
  | ofNat n => exact readInt?_natural h
  | negSucc n =>
    have htext : (toString (Int.negSucc n)).toList = '-' :: (toString (n + 1)).toList := by
      simp [toString, Int.repr]
    rw [htext, readInt?_minus fun c hc => plainDigit_of_mem_natural hc, magnitude?_natural h]
    rfl

lemma hexDigit_plain (n : Nat) :
    PlainDigit 16 (hexDigit n) ∧ digitOf (hexDigit n) = n % 16 := by
  have hall : ∀ k < 16, let c := "0123456789abcdef".toList.getD k '0'
      digitValue? c = some k ∧ c.toNat < 0x80 ∧ isNumeralBlank c = false ∧ c.isUpper = false ∧
        c ≠ '_' ∧ c ≠ '-' ∧ c ≠ '+' ∧ isMark 'x' c = false := by
    decide +kernel
  have hlt : n % 16 < 16 := Nat.mod_lt n (by decide)
  obtain ⟨hvalue, hascii, hblank, hsmall, hother⟩ := hall _ hlt
  refine ⟨⟨⟨_, hlt, hvalue⟩, hascii, hblank, hsmall, hother⟩, ?_⟩
  rw [digitOf, hexDigit, hvalue, Option.getD_some]

lemma hexDigits_plain (n : Nat) : (∀ c ∈ hexDigits n, PlainDigit 16 c) ∧
    (hexDigits n).foldl (fun v c => v * 16 + digitOf c) 0 = n := by
  induction n using Nat.strongRecOn with
  | ind n ih =>
    obtain ⟨hplain, hdigit⟩ := hexDigit_plain n
    rw [hexDigits]
    by_cases hn : n < 16
    · rw [if_pos hn, List.foldl_cons, hdigit]
      refine ⟨by simpa using hplain, ?_⟩
      simp only [List.foldl_nil]
      omega
    · obtain ⟨hrest, hvalue⟩ := ih (n / 16) (by omega)
      rw [if_neg hn, List.foldl_append, hvalue, List.foldl_cons, hdigit, List.foldl_nil]
      refine ⟨fun c hc => ?_, by omega⟩
      rcases List.mem_append.mp hc with hc | hc
      · exact hrest c hc
      · obtain rfl := List.mem_singleton.mp hc
        exact hplain

lemma hexPair_plain (n : Nat) : (∀ c ∈ hexPair n, PlainDigit 16 c) ∧
    (hexPair n).foldl (fun v c => v * 16 + digitOf c) 0 = n := by
  rw [hexPair]
  by_cases hn : n < 16
  · obtain ⟨hplain, hdigit⟩ := hexDigit_plain n
    rw [if_pos hn, List.foldl_cons, List.foldl_cons, hdigit, show digitOf '0' = 0 from rfl,
      List.foldl_nil]
    refine ⟨fun c hc => ?_, by omega⟩
    rcases List.mem_cons.mp hc with rfl | hc
    · exact (hexDigit_plain 0).1
    · obtain rfl := List.mem_singleton.mp hc
      exact hplain
  · rw [if_neg hn]
    exact hexDigits_plain n

lemma magnitude?_hexadecimal {s : List Char} (h : ∀ c ∈ s, PlainDigit 16 c) (hne : s ≠ []) :
    magnitude? .hexadecimal s = some (s.foldl (fun v c => v * 16 + digitOf c) 0) := by
  have hrun : digitRun? 16 0 0 true s = _ := digitRun?_digits h 0 0 fun hnil => absurd hnil hne
  have hpower : magnitude? .hexadecimal s = (digitRun? 16 0 0 true s).map Prod.fst := by
    unfold magnitude?
    cases s with
    | nil => rfl
    | cons zero rest =>
      cases rest with
      | nil => split <;> simp_all
      | cons c rest =>
        have hmark : ¬ isMark 'x' c = true := by simp [(h c (by simp)).other]
        split <;> simp_all
  rw [hpower, hrun, Option.map_some]

theorem readInt?_hexPairInt (n : Int) : readInt? .hexadecimal (hexPairInt n) = some n := by
  rw [hexPairInt]
  by_cases hn : n < 0
  · obtain ⟨hplain, hvalue⟩ := hexDigits_plain n.natAbs
    rw [if_pos hn, readInt?_minus hplain,
      magnitude?_hexadecimal hplain (word_hexDigits n.natAbs).nonempty, hvalue, Option.map_some,
      show -(n.natAbs : Int) = n by omega]
  · obtain ⟨hplain, hvalue⟩ := hexPair_plain n.toNat
    rw [if_neg hn, readInt?_digits hplain,
      magnitude?_hexadecimal hplain (word_hexPair n.toNat).nonempty, hvalue, Option.map_some,
      show Int.ofNat n.toNat = n from Int.toNat_of_nonneg (not_lt.mp hn)]

theorem readInt?_hexPair (n : Nat) : readInt? .hexadecimal (hexPair n) = some (n : Int) := by
  obtain ⟨hplain, hvalue⟩ := hexPair_plain n
  rw [readInt?_digits hplain, magnitude?_hexadecimal hplain (word_hexPair n).nonempty, hvalue]
  rfl

end Chiptune.Text
