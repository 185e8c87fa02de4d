import Mathlib
import Chiptune.Assembly.Statement
import Chiptune.Text.Lines

/-!
# Words and lines of assembly text

Names, numerals and directives are words without blanks, commas and semicolons. The words of a line
can be told apart again, and so can the lines of a text.
-/

namespace Chiptune.Text

/-- Whether a word may hold the character. -/
def isWordPart (c : Char) : Bool := !isBlank c && c != ',' && c != ';'

structure Word (s : List Char) : Prop where
  nonempty : s ≠ []
  parts : ∀ c ∈ s, isWordPart c = true

/-- No line ends inside the text. -/
def OneLine (s : List Char) : Prop := ∀ c ∈ s, isLineBreak c = false

section Marks

variable {s : List Char} {c : Char}

lemma ne_of_not_mem (h : c ∉ s) : ∀ d ∈ s, (d != c) = true := by
  intro d hd
  rw [bne_iff_ne]
  rintro rfl
  exact h hd

lemma scan_unmarked (h : c ∉ s) : s.takeWhile (· != c) = s ∧ s.dropWhile (· != c) = [] :=
  ⟨List.takeWhile_eq_self_iff.mpr (ne_of_not_mem h),
    List.dropWhile_eq_nil_iff.mpr (ne_of_not_mem h)⟩

lemma scan_marked (h : c ∉ s) (rest : List Char) :
    (s ++ c :: rest).takeWhile (· != c) = s ∧ (s ++ c :: rest).dropWhile (· != c) = c :: rest := by
  rw [List.takeWhile_append_of_pos (ne_of_not_mem h),
    List.dropWhile_append_of_pos (ne_of_not_mem h)]
  simp

end Marks

section Words

variable {s t : List Char}

lemma isBlank_of_isLineBreak {c : Char} (h : isLineBreak c = true) : isBlank c = true := by
  simp only [isLineBreak, Bool.or_eq_true, Bool.and_eq_true, decide_eq_true_eq, beq_iff_eq] at h
  simp only [isBlank, Bool.or_eq_true, Bool.and_eq_true, decide_eq_true_eq, beq_iff_eq]
  omega

lemma word_of_all (hs : s ≠ []) (h : s.all isWordPart = true) : Word s :=
  ⟨hs, List.all_eq_true.mp h⟩

lemma Word.append (hs : Word s) (ht : ∀ c ∈ t, isWordPart c = true) : Word (s ++ t) where
  nonempty := by simp [hs.nonempty]
  parts := by
    intro c hc
    rcases List.mem_append.mp hc with hc | hc
    · exact hs.parts c hc
    · exact ht c hc

lemma Word.not_blank (h : Word s) {c : Char} (hc : c ∈ s) : isBlank c = false := by
  have := h.parts c hc
  simp only [isWordPart, Bool.and_eq_true, Bool.not_eq_true'] at this
  exact this.1.1

lemma Word.not_mem (h : Word s) {c : Char} (hc : isWordPart c = false) : c ∉ s := by
  intro hm
  rw [h.parts c hm] at hc
  exact nomatch hc

lemma Word.oneLine (h : Word s) : OneLine s := by
  intro c hc
  by_contra hb
  have hblank := isBlank_of_isLineBreak (by simpa using hb)
  rw [h.not_blank hc] at hblank
  exact nomatch hblank

lemma oneLine_of_any (h : s.any isLineBreak = false) : OneLine s := by
  simpa [OneLine] using h

lemma OneLine.append (hs : OneLine s) (ht : OneLine t) : OneLine (s ++ t) := by
  intro c hc
  rcases List.mem_append.mp hc with hc | hc
  · exact hs c hc
  · exact ht c hc

/-- Blanks around a text are removed, and no more than these. -/
lemma trim_eq {before after : List Char} (hb : ∀ c ∈ before, isBlank c = true)
    (ha : ∀ c ∈ after, isBlank c = true) (hne : s ≠ [])
    (hfirst : ∀ c ∈ s.head?, isBlank c = false) (hlast : ∀ c ∈ s.getLast?, isBlank c = false) :
    trim (before ++ s ++ after) = s := by
  have hleft : trimLeft (before ++ s ++ after) = s ++ after := by
    obtain ⟨c, rest, rfl⟩ := List.exists_cons_of_ne_nil hne
    rw [trimLeft, List.append_assoc, List.dropWhile_append_of_pos hb, List.cons_append,
      List.dropWhile_cons_of_neg (by simpa using hfirst)]
  have hright : trimRight (s ++ after) = s := by
    rw [← List.head?_reverse] at hlast
    obtain ⟨c, rest, hs⟩ := List.exists_cons_of_ne_nil (show s.reverse ≠ [] by simpa using hne)
    rw [trimRight, List.reverse_append, List.dropWhile_append_of_pos (by simpa using ha), hs,
      List.dropWhile_cons_of_neg (by simpa [hs] using hlast), ← hs, List.reverse_reverse]
  rw [trim, hleft, hright]

lemma trim_of_not_blank (h : ∀ c ∈ s, isBlank c = false) : trim s = s := by
  by_cases hne : s = []
  · rw [hne]
    rfl
  · have htrim : trim ([] ++ s ++ []) = s := trim_eq (by simp) (by simp) hne
      (fun c hc => h c (List.mem_of_mem_head? hc)) (fun c hc => h c (List.mem_of_getLast? hc))
    simpa using htrim

end Words

lemma linesFrom_append_break {s : List Char} (h : OneLine s) (current : Option (List Char))
    (rest : List Char) : linesFrom current (s ++ '\n' :: rest) =
      ((current.getD []).reverse ++ s) :: linesFrom none rest := by
  induction s generalizing current with
  | nil =>
    rw [List.nil_append, List.append_nil, linesFrom, if_pos (by decide)]
    simp
  | cons c s ih =>
    have hc : isLineBreak c = false := h c (by simp)
    have hs : OneLine s := fun d hd => h d (by simp [hd])
    have hstep : linesFrom current (c :: (s ++ '\n' :: rest)) =
        linesFrom (some (c :: current.getD [])) (s ++ '\n' :: rest) := by
      rw [linesFrom, if_neg (by simp [hc])]
      rintro rest' rfl -
      exact nomatch hc
    rw [List.cons_append, hstep, ih hs]
    simp

theorem lines_join {texts : List String} (h : ∀ text ∈ texts, OneLine text.toList) :
    lines (String.join (texts.map (· ++ "\n"))).toList = texts.map String.toList := by
  induction texts with
  | nil => rfl
  | cons text rest ih =>
    have hrest := ih fun other ho => h other (by simp [ho])
    rw [String.toList_join] at hrest ⊢
    have hbreak : "\n".toList = ['\n'] := rfl
    rw [List.map_cons, List.flatMap_cons, String.toList_append, List.append_assoc, lines, hbreak,
      List.singleton_append, linesFrom_append_break (h text (by simp)), List.map_cons, ← hrest]
    rfl

lemma isWordPart_of_printable {c : Char} (h : 0x20 < c.toNat) (h' : c.toNat < 0x80)
    (hcomma : c ≠ ',') (hsemicolon : c ≠ ';') : isWordPart c = true := by
  have hblank : isBlank c = false := by
    simp only [isBlank, Bool.or_eq_false_iff, Bool.and_eq_false_iff, decide_eq_false_iff_not,
      beq_eq_false_iff_ne]
    omega
  simp [isWordPart, hblank, hcomma, hsemicolon]

lemma isDigit_iff (c : Char) : c.isDigit = true ↔ 0x30 ≤ c.toNat ∧ c.toNat ≤ 0x39 := by
  rw [Char.isDigit, Bool.and_eq_true, decide_eq_true_eq, decide_eq_true_eq]
  rfl

lemma isWordPart_of_isDigit {c : Char} (h : c.isDigit = true) : isWordPart c = true := by
  rw [isDigit_iff] at h
  apply isWordPart_of_printable
  · omega
  · omega
  · rintro rfl
    exact absurd h (by decide)
  · rintro rfl
    exact absurd h (by decide)

lemma toList_natural (n : Nat) : (toString n).toList = Nat.toDigits 10 n :=
  Nat.toList_repr

lemma isDigit_of_mem_natural {n : Nat} {c : Char} (h : c ∈ (toString n).toList) :
    c.isDigit = true := by
  rw [toList_natural] at h
  exact Nat.isDigit_of_mem_toDigits (by omega) (by omega) h

lemma word_natural (n : Nat) : Word (toString n).toList where
  nonempty := by
    rw [toList_natural]
    exact Nat.toDigits_ne_nil
  parts := fun _ hc => isWordPart_of_isDigit (isDigit_of_mem_natural hc)

lemma word_integer (n : Int) : Word (toString n).toList := by
  cases n with
  | ofNat n => exact word_natural n
  | negSucc n =>
    have hminus : Word ['-'] := word_of_all (by decide) (by decide)
    have htext : (toString (Int.negSucc n)).toList = ['-'] ++ (toString (n + 1)).toList := by
      simp [toString, Int.repr]
    rw [htext]
    exact hminus.append (word_natural (n + 1)).parts

lemma natural_append_inj {m n : Nat} {s t : List Char}
    (hs : ∀ c ∈ s.head?, c.isDigit = false) (ht : ∀ c ∈ t.head?, c.isDigit = false)
    (h : (toString m).toList ++ s = (toString n).toList ++ t) : m = n ∧ s = t := by
  have htake : ∀ (k : Nat) (u : List Char), (∀ c ∈ u.head?, c.isDigit = false) →
      ((toString k).toList ++ u).takeWhile Char.isDigit = (toString k).toList := by
    intro k u hu
    rw [List.takeWhile_append_of_pos fun c hc => isDigit_of_mem_natural hc]
    cases u with
    | nil => simp
    | cons c u => simp [hu c (by simp)]
  have hdigits : (toString m).toList = (toString n).toList := by
    rw [← htake m s hs, h, htake n t ht]
  have hmn : m = n := by
    have := congrArg (fun digits => Nat.ofDigitChars 10 digits 0) hdigits
    simpa [toList_natural] using this
  rw [hmn] at h
  exact ⟨hmn, List.append_cancel_left h⟩

lemma isWordPart_hexDigit (n : Nat) : isWordPart (hexDigit n) = true := by
  have hall : ∀ k < 16, isWordPart ("0123456789abcdef".toList.getD k '0') = true := by decide
  exact hall _ (Nat.mod_lt n (by omega))

lemma word_hexDigits (n : Nat) : Word (hexDigits n) := by
  induction n using Nat.strongRecOn with
  | ind n ih =>
    rw [hexDigits]
    by_cases hn : n < 16
    · rw [if_pos hn]
      exact ⟨by simp, by simpa using isWordPart_hexDigit n⟩
    · rw [if_neg hn]
      exact (ih (n / 16) (by omega)).append (by simpa using isWordPart_hexDigit n)

lemma word_hexPair (n : Nat) : Word (hexPair n) := by
  rw [hexPair]
  by_cases hn : n < 16
  · rw [if_pos hn]
    exact ⟨by simp, by simpa using ⟨by decide, isWordPart_hexDigit n⟩⟩
  · rw [if_neg hn]
    exact word_hexDigits n

lemma word_hexPairInt (n : Int) : Word (hexPairInt n) := by
  rw [hexPairInt]
  by_cases hn : n < 0
  · rw [if_pos hn]
    exact ⟨by simp, by simpa using ⟨by decide, (word_hexDigits n.natAbs).parts⟩⟩
  · rw [if_neg hn]
    exact word_hexPair n.toNat

lemma hexPair_byte {n : Nat} (h : n < 256) : hexPair n = [hexDigit (n / 16), hexDigit n] := by
  rw [hexPair]
  by_cases hn : n < 16
  · rw [if_pos hn, Nat.div_eq_of_lt hn]
    rfl
  · rw [if_neg hn, hexDigits, if_neg hn, hexDigits, if_pos (by omega)]
    rfl

end Chiptune.Text
