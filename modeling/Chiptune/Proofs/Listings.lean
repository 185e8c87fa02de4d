import Chiptune.Proofs.TwoPasses

/-!
# Listings

What the lines of a listing look like: labels, directives with operands, comments and blank lines,
with any blanks around them. Every such line is read as the statement that stands in it.
-/

namespace Chiptune.Assembly

open Text

/-- What the known dialects have in common. -/
structure Dialect.Sound (dialect : Dialect) : Prop where
  byte : Word dialect.byteDirective.toList
  word : Word dialect.wordDirective.toList
  distinct : dialect.wordDirective.toList ≠ dialect.byteDirective.toList
  colon : ':' ∉ dialect.byteDirective.toList ∧ ':' ∉ dialect.wordDirective.toList
  mark : dialect.localMark.toList = ['@'] ∨ dialect.localMark.toList = ['.']
  lowByte : ∀ c ∈ dialect.lowByte.toList, isWordPart c = true

lemma Dialect.sound_of_mem {dialect : Dialect} (h : dialect ∈ all) : dialect.Sound := by
  simp only [all, List.mem_cons, List.not_mem_nil, or_false] at h
  rcases h with rfl | rfl | rfl
  all_goals
    exact ⟨word_of_all (by decide) (by decide), word_of_all (by decide) (by decide), by decide,
      by decide, by decide, List.all_eq_true.mp (by decide)⟩

def Blanks (s : List Char) : Prop := ∀ c ∈ s, isBlank c = true

/-- Nothing, or a comment up to the end of the line. -/
def Remark (s : List Char) : Prop := s = [] ∨ ∃ text, s = ';' :: text

/-- What a label may be called: letters, digits, underscores, points and at signs, no digit first,
and not the address of the samples. -/
structure Named (name : List Char) : Prop where
  spelling : ∃ c rest, name = c :: rest ∧ isSymbolStart c = true ∧
    ∀ d ∈ rest, isSymbolPart d = true
  plain : ¬ Line.sampleAddress.toList <:+: name

/-- An operand, which may be missing, with blanks around it. -/
structure Padded (field operand : List Char) : Prop where
  around : ∃ before after, Blanks before ∧ Blanks after ∧ field = before ++ operand ++ after
  first : ∀ c ∈ operand.head?, isBlank c = false
  last : ∀ c ∈ operand.getLast?, isBlank c = false
  parts : ∀ c ∈ operand, c ≠ ',' ∧ c ≠ ';'

/-- The directives of a dialect, each with the number of bytes of its operands. -/
inductive Dialect.Directive (dialect : Dialect) : Nat → List Char → Prop
  | byte : dialect.Directive 1 dialect.byteDirective.toList
  | word : dialect.Directive 2 dialect.wordDirective.toList

/-- A line of a listing and what it says. -/
inductive Written (dialect : Dialect) : List Char → Statement → Prop
  | nothing {before remark : List Char} : Blanks before → Remark remark →
    Written dialect (before ++ remark) .nothing
  | label {before name after remark : List Char} : Blanks before → Named name → Blanks after →
    Remark remark → Written dialect (before ++ (name ++ [':']) ++ after ++ remark) (.label name)
  | bare {width : Nat} {before directive after remark : List Char} : Blanks before →
    dialect.Directive width directive → Blanks after → Remark remark →
    Written dialect (before ++ directive ++ after ++ remark) (.data width [])
  /-- Operands that are missing stand for nothing. -/
  | data {width : Nat} {before directive remark : List Char} {fields operands : List (List Char)} :
    Blanks before → dialect.Directive width directive → fields ≠ [] →
    List.Forall₂ Padded fields operands → Remark remark →
    Written dialect (before ++ (directive ++ ' ' :: [','].intercalate fields) ++ remark)
      (.data width (operands.filter (!·.isEmpty)))

section Names

variable {name : List Char}

lemma isSymbolStart_cases {c : Char} (h : isSymbolStart c = true) :
    0x61 ≤ c.toNat ∧ c.toNat ≤ 0x7A ∨ 0x41 ≤ c.toNat ∧ c.toNat ≤ 0x5A ∨
      c = '_' ∨ c = '.' ∨ c = '@' := by
  simp only [isSymbolStart, Char.isAlpha, Char.isUpper, Char.isLower, Bool.or_eq_true, beq_iff_eq,
    Bool.and_eq_true, decide_eq_true_eq] at h
  rcases h with (((h | h) | h) | h) | h
  · exact .inr (.inl h)
  · exact .inl h
  · exact .inr (.inr (.inl h))
  · exact .inr (.inr (.inr (.inl h)))
  · exact .inr (.inr (.inr (.inr h)))

lemma isWordPart_of_isSymbolPart {c : Char} (h : isSymbolPart c = true) : isWordPart c = true := by
  rw [isSymbolPart, Bool.or_eq_true] at h
  rcases h with h | h
  · have hother : ∀ d, isSymbolStart d = false → c ≠ d := by
      rintro d hd rfl
      rw [h] at hd
      cases hd
    rcases isSymbolStart_cases h with hc | hc | rfl | rfl | rfl
    · exact isWordPart_of_printable (by omega) (by omega) (hother _ (by decide))
        (hother _ (by decide))
    · exact isWordPart_of_printable (by omega) (by omega) (hother _ (by decide))
        (hother _ (by decide))
    · decide
    · decide
    · decide
  · exact isWordPart_of_isDigit h

lemma Named.parts (h : Named name) : ∀ c ∈ name, isSymbolPart c = true := by
  obtain ⟨c, rest, rfl, hc, hrest⟩ := h.spelling
  intro d hd
  rcases List.mem_cons.mp hd with rfl | hd
  · rw [isSymbolPart, hc, Bool.true_or]
  · exact hrest d hd

lemma Named.word (h : Named name) : Word name where
  nonempty := by
    obtain ⟨c, rest, rfl, -⟩ := h.spelling
    exact List.cons_ne_nil c rest
  parts := fun c hc => isWordPart_of_isSymbolPart (h.parts c hc)

lemma Named.not_mem (h : Named name) {c : Char} (hc : isSymbolPart c = false) : c ∉ name := by
  intro hm
  rw [h.parts c hm] at hc
  cases hc

lemma occursIn_iff (word s : List Char) : occursIn word s = true ↔ word <:+: s := by
  induction s with
  | nil => rw [occursIn, List.isEmpty_iff, List.infix_nil]
  | cons c rest ih =>
    rw [occursIn, Bool.or_eq_true, ih, List.isPrefixOf_iff_prefix, List.infix_cons_iff]

lemma Named.identifier (h : Named name) : Identifier name where
  symbol := by
    obtain ⟨c, rest, rfl, hc, hrest⟩ := h.spelling
    rw [isSymbol, hc, List.dropWhile_eq_nil_iff.mpr hrest]
    rfl
  whole := h.not_mem (by decide)
  plain := by
    rw [← Bool.not_eq_true, occursIn_iff]
    exact h.plain

lemma lookup_eq_none {labels : Labels} (hl : ∀ entry ∈ labels, Named entry.1) {s : List Char}
    (h : ¬ Named s) :
    labels.lookup s = none := by
  rw [List.lookup_eq_none_iff]
  intro entry he
  rw [bne_iff_ne]
  rintro rfl
  exact h (hl entry he)

end Names

section Blanks

variable {s t : List Char} {operands : List (List Char)}

lemma mem_intercalate {c : Char} (h : c ∈ [','].intercalate operands) :
    c = ',' ∨ ∃ operand ∈ operands, c ∈ operand := by
  induction operands with
  | nil => simp at h
  | cons operand rest ih =>
    cases rest with
    | nil => exact .inr ⟨operand, by simp, by simpa using h⟩
    | cons next rest =>
      rw [List.intercalate_cons_cons, List.append_assoc, List.mem_append, List.mem_append] at h
      rcases h with h | h | h
      · exact .inr ⟨operand, by simp, h⟩
      · exact .inl (by simpa using h)
      · rcases ih h with hc | ⟨other, ho, hc⟩
        · exact .inl hc
        · exact .inr ⟨other, by simp [ho], hc⟩

lemma Blanks.ne (h : Blanks s) {c : Char} (hc : isBlank c = false) : c ∉ s := by
  intro hm
  rw [h c hm] at hc
  cases hc

lemma withoutComment_append (h : ';' ∉ s) {remark : List Char} (hr : Remark remark) :
    Statement.withoutComment (s ++ remark) = s := by
  rw [Statement.withoutComment]
  rcases hr with rfl | ⟨text, rfl⟩
  · rw [List.append_nil]
    exact (scan_unmarked h).1
  · exact (scan_marked h text).1

lemma exists_trimmed (s : List Char) : ∃ core blanks, s = core ++ blanks ∧ Blanks blanks ∧
    ∀ c ∈ core.getLast?, isBlank c = false := by
  refine ⟨trimRight s, (s.reverse.takeWhile isBlank).reverse, ?_, ?_, ?_⟩
  · rw [trimRight, ← List.reverse_append, List.takeWhile_append_dropWhile, List.reverse_reverse]
  · intro c hc
    exact List.mem_takeWhile_imp (List.mem_reverse.mp hc)
  · intro c hc
    rw [trimRight, List.getLast?_reverse] at hc
    have := List.head?_dropWhile_not isBlank s.reverse
    rw [hc] at this
    simpa using this

lemma trim_append_blanks (h : Blanks t) : trim (s ++ t) = trim s := by
  have hright : ∀ u : List Char, trimRight (u ++ t) = trimRight u := by
    intro u
    rw [trimRight, List.reverse_append,
      List.dropWhile_append_of_pos fun c hc => h c (List.mem_reverse.mp hc), trimRight]
  rw [trim, trim, trimLeft, List.dropWhile_append]
  by_cases hs : (s.dropWhile isBlank).isEmpty = true
  · rw [if_pos hs, List.dropWhile_eq_nil_iff.mpr h, trimLeft, List.isEmpty_iff.mp hs]
  · rw [if_neg hs, hright, trimLeft]

lemma splitOn_append_blanks (h : Blanks t) (s : List Char) : ∃ fields last,
    s.splitOn ',' = fields ++ [last] ∧ (s ++ t).splitOn ',' = fields ++ [last ++ t] := by
  induction s with
  | nil => exact ⟨[], [], rfl, List.splitOn_eq_singleton (h.ne (by decide))⟩
  | cons c rest ih =>
    obtain ⟨fields, last, hs, hst⟩ := ih
    rw [List.cons_append, List.splitOn_cons_eq_if_modifyHead, List.splitOn_cons_eq_if_modifyHead,
      hs, hst]
    by_cases hc : (c == ',') = true
    · exact ⟨[] :: fields, last, by rw [if_pos hc]; rfl, by rw [if_pos hc]; rfl⟩
    · rw [if_neg hc, if_neg hc]
      cases fields with
      | nil => exact ⟨[], c :: last, rfl, rfl⟩
      | cons field fields => exact ⟨(c :: field) :: fields, last, rfl, rfl⟩

lemma operands_append_blanks (h : Blanks t) (s : List Char) :
    Statement.operands (s ++ t) = Statement.operands s := by
  obtain ⟨fields, last, hs, hst⟩ := splitOn_append_blanks h s
  rw [Statement.operands, Statement.operands, hs, hst]
  simp only [List.map_append, List.map_singleton, trim_append_blanks h]

lemma Padded.not_mem {field operand : List Char} (h : Padded field operand) :
    ',' ∉ field ∧ ';' ∉ field := by
  obtain ⟨before, after, hb, ha, rfl⟩ := h.around
  have hnone : ∀ d, isBlank d = false → d ∉ operand → d ∉ before ++ operand ++ after := by
    intro d hd hdo
    rw [List.mem_append, List.mem_append, not_or, not_or]
    exact ⟨⟨hb.ne hd, hdo⟩, ha.ne hd⟩
  exact ⟨hnone _ (by decide) fun hc => (h.parts _ hc).1 rfl,
    hnone _ (by decide) fun hc => (h.parts _ hc).2 rfl⟩

lemma Padded.trim {field operand : List Char} (h : Padded field operand) :
    Text.trim field = operand := by
  obtain ⟨before, after, hb, ha, rfl⟩ := h.around
  by_cases hne : operand = []
  · subst hne
    rw [List.append_nil, trim_append_blanks ha, ← List.nil_append before, trim_append_blanks hb]
    rfl
  · exact trim_eq hb ha hne h.first h.last

lemma operands_padded {fields operands : List (List Char)} (h : List.Forall₂ Padded fields operands)
    (hne : fields ≠ []) : Statement.operands ([','].intercalate fields) =
      operands.filter (!·.isEmpty) := by
  have hcomma : ∀ field ∈ fields, ',' ∉ field := by
    intro field hm
    obtain ⟨operand, -, hp⟩ := exists_right_of_mem h hm
    exact hp.not_mem.1
  have htrim : fields.map trim = operands := by
    rw [← List.forall₂_eq_eq_eq, List.forall₂_map_left_iff]
    exact h.imp fun field operand hp => hp.trim
  rw [Statement.operands, List.splitOn_intercalate ',' hcomma hne, htrim]

lemma padded_word {word : List Char} (h : Word word) : Padded word word where
  around := ⟨[], [], by simp [Blanks], by simp [Blanks], by simp⟩
  first := fun c hc => h.not_blank (List.mem_of_mem_head? hc)
  last := fun c hc => h.not_blank (List.mem_of_getLast? hc)
  parts := by
    intro c hc
    constructor
    · rintro rfl
      exact h.not_mem (by decide) hc
    · rintro rfl
      exact h.not_mem (by decide) hc

lemma padded_words {words : List (List Char)} (h : ∀ word ∈ words, Word word) :
    List.Forall₂ Padded words words :=
  List.forall₂_same.mpr fun word hm => padded_word (h word hm)

lemma filter_words {words : List (List Char)} (h : ∀ word ∈ words, Word word) :
    words.filter (!·.isEmpty) = words := by
  rw [List.filter_eq_self]
  intro word hm
  simpa using (h word hm).nonempty

end Blanks

section Lines

variable {dialect : Dialect} {width : Nat} {directive before remark : List Char}

lemma Dialect.Directive.word_directive (hd : dialect.Sound)
    (h : dialect.Directive width directive) : Word directive := by
  cases h with
  | byte => exact hd.byte
  | word => exact hd.word

/-- What follows a directive and a space are its operands. -/
lemma ofLine?_directive (hd : dialect.Sound) (h : dialect.Directive width directive)
    {line : List Char} (code rest : List Char) (hcode : trim (Statement.withoutComment line) = code)
    (hdirective : code.takeWhile (· != ' ') = directive)
    (hrest : (code.dropWhile (· != ' ')).drop 1 = rest) :
    Statement.ofLine? dialect line = some (.data width (Statement.operands rest)) := by
  have hne : ¬ code.isEmpty = true := by
    rw [List.isEmpty_iff]
    rintro rfl
    exact (h.word_directive hd).nonempty hdirective.symm
  unfold Statement.ofLine?
  rw [hcode]
  dsimp only
  rw [if_neg hne, hdirective, hrest]
  cases h with
  | byte => rw [if_pos rfl]
  | word => rw [if_neg hd.distinct, if_pos rfl]

/-- Whatever stands after a directive, its blanks at the end do not count. -/
lemma ofLine?_data (hd : dialect.Sound) (h : dialect.Directive width directive)
    (hb : Blanks before) {rest : List Char} (hrest : ';' ∉ rest) (hr : Remark remark) :
    Statement.ofLine? dialect (before ++ (directive ++ ' ' :: rest) ++ remark) =
      some (.data width (Statement.operands rest)) := by
  have hword := h.word_directive hd
  have hline : Statement.withoutComment (before ++ (directive ++ ' ' :: rest) ++ remark) =
      before ++ (directive ++ ' ' :: rest) := by
    refine withoutComment_append ?_ hr
    simp [hb.ne (c := ';') (by decide), hword.not_mem (c := ';') (by decide), hrest]
  have hspace : ' ' ∉ directive := hword.not_mem (by decide)
  have hfirst : ∀ c ∈ directive.head?, isBlank c = false :=
    fun c hc => hword.not_blank (List.mem_of_mem_head? hc)
  obtain ⟨core, blanks, rfl, hblanks, hlast⟩ := exists_trimmed rest
  rw [operands_append_blanks hblanks]
  by_cases hcore : core = []
  · -- Nothing but blanks follows, and the space goes as well.
    subst hcore
    have hcode : trim (before ++ directive ++ (' ' :: blanks)) = directive := by
      refine trim_eq hb ?_ hword.nonempty hfirst
        fun c hc => hword.not_blank (List.mem_of_getLast? hc)
      intro c hc
      rcases List.mem_cons.mp hc with rfl | hc
      · decide
      · exact hblanks c hc
    obtain ⟨htake, hdrop⟩ := scan_unmarked hspace
    refine ofLine?_directive hd h directive [] ?_ htake ?_
    · rw [hline]
      simpa using hcode
    · rw [hdrop]
      rfl
  · have hcode : trim (before ++ (directive ++ ' ' :: core) ++ blanks) =
        directive ++ ' ' :: core := by
      refine trim_eq hb hblanks (by simp) ?_ ?_
      · obtain ⟨c, tail, rfl⟩ := List.exists_cons_of_ne_nil hword.nonempty
        exact hfirst
      · rw [List.getLast?_append_of_ne_nil _ (by simp), List.getLast?_cons_of_ne_nil hcore]
        exact hlast
    obtain ⟨htake, hdrop⟩ := scan_marked hspace core
    refine ofLine?_directive hd h (directive ++ ' ' :: core) core ?_ htake ?_
    · rw [hline]
      simpa using hcode
    · rw [hdrop]
      rfl

/-- A directive alone has no operands. -/
lemma ofLine?_bare (hd : dialect.Sound) (h : dialect.Directive width directive)
    (hb : Blanks before) {after : List Char} (ha : Blanks after) (hr : Remark remark) :
    Statement.ofLine? dialect (before ++ directive ++ after ++ remark) = some (.data width []) := by
  have hword := h.word_directive hd
  obtain ⟨htake, hdrop⟩ := scan_unmarked (hword.not_mem (c := ' ') (by decide))
  refine ofLine?_directive hd h directive [] ?_ htake ?_
  · rw [withoutComment_append (by simp [hb.ne (c := ';') (by decide),
      hword.not_mem (c := ';') (by decide), ha.ne (c := ';') (by decide)]) hr]
    exact trim_eq hb ha hword.nonempty (fun c hc => hword.not_blank (List.mem_of_mem_head? hc))
      fun c hc => hword.not_blank (List.mem_of_getLast? hc)
  · rw [hdrop]
    rfl

lemma ofLine?_named (hd : dialect.Sound) {name after : List Char} (h : Named name)
    (hb : Blanks before) (ha : Blanks after) (hr : Remark remark) :
    Statement.ofLine? dialect (before ++ (name ++ [':']) ++ after ++ remark) =
      some (.label name) := by
  have hword : Word (name ++ [':']) := h.word.append (List.all_eq_true.mp (by decide))
  have hcode : trim (Statement.withoutComment (before ++ (name ++ [':']) ++ after ++ remark)) =
      name ++ [':'] := by
    have hsemicolon : ';' ∉ before ++ (name ++ [':']) ++ after := by
      rw [List.mem_append, List.mem_append, not_or, not_or]
      exact ⟨⟨hb.ne (by decide), hword.not_mem (by decide)⟩, ha.ne (by decide)⟩
    rw [withoutComment_append hsemicolon hr]
    exact trim_eq hb ha hword.nonempty (fun c hc => hword.not_blank (List.mem_of_mem_head? hc))
      fun c hc => hword.not_blank (List.mem_of_getLast? hc)
  have hwhole := (scan_unmarked (hword.not_mem (c := ' ') (by decide))).1
  have hcolon : ∀ directive : List Char, ':' ∉ directive → name ++ [':'] ≠ directive := by
    rintro directive hnot rfl
    exact hnot (by simp)
  rw [Statement.ofLine?, hcode, hwhole, if_neg (by simp), if_neg (hcolon _ hd.colon.1),
    if_neg (hcolon _ hd.colon.2), if_pos (by simp), List.dropLast_concat]

lemma ofLine?_nothing (dialect : Dialect) (hb : Blanks before) (hr : Remark remark) :
    Statement.ofLine? dialect (before ++ remark) = some .nothing := by
  have hcode : trim (Statement.withoutComment (before ++ remark)) = [] := by
    rw [withoutComment_append (hb.ne (by decide)) hr, ← List.nil_append before,
      trim_append_blanks hb]
    rfl
  rw [Statement.ofLine?, hcode]
  rfl

theorem Written.ofLine? (hd : dialect.Sound) {line : List Char} {statement : Statement}
    (h : Written dialect line statement) : Statement.ofLine? dialect line = some statement := by
  cases h with
  | nothing hb hr => exact ofLine?_nothing dialect hb hr
  | label hb hname ha hr => exact ofLine?_named hd hname hb ha hr
  | bare hb hdirective ha hr => exact ofLine?_bare hd hdirective hb ha hr
  | data hb hdirective hne hfields hr =>
    rw [← operands_padded hfields hne]
    refine ofLine?_data hd hdirective hb ?_ hr
    intro hm
    rcases mem_intercalate hm with hc | ⟨field, hfield, hc⟩
    · exact absurd hc (by decide)
    · obtain ⟨operand, -, hp⟩ := exists_right_of_mem hfields hfield
      exact hp.not_mem.2 hc

end Lines

end Chiptune.Assembly
