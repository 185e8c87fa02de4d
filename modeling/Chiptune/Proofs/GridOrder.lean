import Chiptune.Proofs.QuantisedNotes

/-!
# The order of rows

A number is rounded to an integer, and a quotient to a floating point number, without changing the
order: of two numbers the greater one is not rounded below the other. So a later tick lies in the
same row as an earlier one or behind it.
-/

namespace Chiptune

/-- The integer is nearest to the number, and even where another one is as near. -/
structure Nearest (q : ℚ) (n : ℤ) : Prop where
  le : q ≤ n + 1 / 2
  ge : n - 1 / 2 ≤ q
  even : q = n + 1 / 2 ∨ q = n - 1 / 2 → Even n

namespace Nearest

variable {q q' : ℚ} {n n' : ℤ}

lemma mono (h : Nearest q n) (h' : Nearest q' n') (hle : q ≤ q') : n ≤ n' := by
  by_contra hlt
  have hstep : n' + 1 ≤ n := by omega
  have hcast : (n' : ℚ) + 1 ≤ n := by exact_mod_cast hstep
  have hge := h.ge
  have hle' := h'.le
  -- Both numbers lie halfway between the same two integers, which cannot both be even.
  have heven := h.even (.inr (by linarith))
  have heven' := h'.even (.inl (by linarith))
  have hnext : n = n' + 1 := by
    have : (n : ℚ) = n' + 1 := by linarith
    exact_mod_cast this
  rw [hnext, Int.even_add_one] at heven
  exact heven heven'

lemma intCast (n : ℤ) : Nearest n n where
  le := by linarith
  ge := by linarith
  even h := by rcases h with h | h <;> linarith

lemma neg (h : Nearest q n) : Nearest (-q) (-n) where
  le := by
    have := h.ge
    push_cast
    linarith
  ge := by
    have := h.le
    push_cast
    linarith
  even htie := by
    push_cast at htie
    refine (h.even ?_).neg
    rcases htie with htie | htie
    · exact .inr (by linarith)
    · exact .inl (by linarith)

end Nearest

lemma roundHalfEven_nearest (num : Int) {den : Nat} (hden : 0 < den) :
    Nearest (num / den) (roundHalfEven num den) := by
  have hpos : (0 : ℚ) < den := by exact_mod_cast hden
  have hrest : 0 ≤ num % den := Int.emod_nonneg _ (by omega)
  have hsplit : (num : ℚ) = den * (num / den : ℤ) + (num % den : ℤ) := by
    exact_mod_cast (Int.mul_ediv_add_emod num den).symm
  have hquotient : (num : ℚ) / den = (num / den : ℤ) + (num % den : ℤ) / den := by
    rw [hsplit]
    field_simp
  have hless : (num % den : ℤ) < den := Int.emod_lt_of_pos _ (by omega)
  rw [hquotient]
  unfold roundHalfEven
  generalize (num / den : ℤ) = floor at *
  generalize (num % den : ℤ) = rest at *
  have hfraction : (0 : ℚ) ≤ rest / den := div_nonneg (by exact_mod_cast hrest) hpos.le
  have hbelow : (rest : ℚ) / den < 1 := (div_lt_one hpos).mpr (by exact_mod_cast hless)
  dsimp only
  split
  · next hlow =>
    have hlow : (rest : ℚ) / den < 1 / 2 := by
      rw [div_lt_iff₀ hpos]
      have : (2 * rest : ℚ) < den := by exact_mod_cast hlow
      linarith
    exact ⟨by linarith, by linarith, fun htie => by rcases htie with htie | htie <;> linarith⟩
  · split
    · next hhigh =>
      have hhigh : 1 / 2 < (rest : ℚ) / den := by
        rw [lt_div_iff₀ hpos]
        have : (den : ℚ) < 2 * rest := by exact_mod_cast hhigh
        linarith
      refine ⟨?_, ?_, fun htie => ?_⟩ <;> push_cast at *
      · linarith
      · linarith
      · rcases htie with htie | htie <;> linarith
    · -- Halfway between two integers the even one is taken.
      next hlow hhigh =>
      have hhalf : (rest : ℚ) / den = 1 / 2 := by
        rw [div_eq_iff hpos.ne']
        have : (2 * rest : ℚ) = den := by exact_mod_cast (show 2 * rest = den by omega)
        linarith
      rw [hhalf]
      rcases Int.emod_two_eq_zero_or_one floor with heven | hodd
      · rw [heven, add_zero]
        exact ⟨by linarith, by linarith, fun _ => Int.even_iff.mpr heven⟩
      · rw [hodd]
        refine ⟨?_, ?_, fun _ => Int.even_add_one.mpr (Int.not_even_iff.mpr hodd)⟩ <;>
          push_cast <;> linarith

namespace Binary64

def value (x : Binary64) : ℚ := x.mantissa * 2 ^ x.exponent

/-- The number is `q` with a mantissa of full length, unless it is too small for one. -/
structure Rounds (q : ℚ) (x : Binary64) : Prop where
  mantissa : Nearest (q / 2 ^ x.exponent) x.mantissa
  lowest : lowestExponent ≤ x.exponent
  below : |q| < 2 ^ significantBits * 2 ^ x.exponent
  full : q = 0 ∨ x.exponent = lowestExponent ∨
    2 ^ (significantBits - 1) * 2 ^ x.exponent ≤ |q|

section Exponents

variable {num : Int} {den : Nat} {exponent : Int}

lemma two_zpow_pos (exponent : ℤ) : (0 : ℚ) < 2 ^ exponent := zpow_pos (by norm_num) _

lemma overPower_spec (num : Int) (hden : 0 < den) (exponent : Int) :
    0 < (overPower num den exponent).2 ∧
      ((overPower num den exponent).1 : ℚ) / (overPower num den exponent).2 =
        num / den / 2 ^ exponent := by
  have hpos : (0 : ℚ) < den := by exact_mod_cast hden
  unfold overPower
  split
  · next hle =>
    lift exponent to ℕ using hle
    refine ⟨Nat.mul_pos hden (Nat.pow_pos (by decide)), ?_⟩
    simp only [Int.toNat_natCast, Nat.pow_eq, zpow_natCast]
    push_cast
    rw [div_div]
  · next hlt =>
    obtain ⟨power, rfl⟩ : ∃ power : ℕ, exponent = -power := ⟨(-exponent).toNat, by omega⟩
    refine ⟨hden, ?_⟩
    simp only [neg_neg, Int.toNat_natCast, Nat.pow_eq, zpow_neg, zpow_natCast]
    push_cast
    rw [div_inv_eq_mul]
    ring

lemma log2_bounds (hnum : num ≠ 0) (hden : 0 < den) :
    let low : Int := num.natAbs.log2 - den.log2 - significantBits
    2 ^ (significantBits - 1) * 2 ^ low < |(num : ℚ) / den| ∧
      |(num : ℚ) / den| < 2 ^ significantBits * 2 ^ (low + 1) := by
  have hpos : (0 : ℚ) < den := by exact_mod_cast hden
  have hnat : num.natAbs ≠ 0 := Int.natAbs_ne_zero.mpr hnum
  have hcast : |(num : ℚ)| = num.natAbs := by rw [Nat.cast_natAbs, Int.cast_abs]
  have hbelow : (2 ^ num.natAbs.log2 : ℚ) ≤ num.natAbs := by
    exact_mod_cast Nat.log2_self_le hnat
  have habove : (num.natAbs : ℚ) < 2 ^ (num.natAbs.log2 + 1) := by
    exact_mod_cast Nat.lt_log2_self
  have hbelow' : (2 ^ den.log2 : ℚ) ≤ den := by exact_mod_cast Nat.log2_self_le hden.ne'
  have habove' : (den : ℚ) < 2 ^ (den.log2 + 1) := by exact_mod_cast Nat.lt_log2_self
  dsimp only
  rw [abs_div, hcast, abs_of_pos hpos]
  generalize num.natAbs.log2 = m at *
  generalize den.log2 = n at *
  have hsplit : ∀ k : ℤ, (2 : ℚ) ^ (m - n - significantBits + k : ℤ) =
      2 ^ m / 2 ^ n / 2 ^ significantBits * 2 ^ k := by
    intro k
    rw [zpow_add₀ two_ne_zero, zpow_sub₀ two_ne_zero, zpow_sub₀ two_ne_zero, zpow_natCast,
      zpow_natCast, zpow_natCast]
  have hn : (0 : ℚ) < 2 ^ n := by positivity
  constructor
  · have hlow := hsplit 0
    rw [add_zero, zpow_zero, mul_one] at hlow
    rw [hlow, lt_div_iff₀ hpos]
    calc (2 : ℚ) ^ (significantBits - 1) * (2 ^ m / 2 ^ n / 2 ^ significantBits) * den
        < 2 ^ (significantBits - 1) * (2 ^ m / 2 ^ n / 2 ^ significantBits) * 2 ^ (n + 1) := by
          gcongr
      _ = 2 ^ m := by
          simp only [significantBits]
          field_simp
          ring
      _ ≤ num.natAbs := hbelow
  · rw [hsplit 1, zpow_one, div_lt_iff₀ hpos]
    calc (num.natAbs : ℚ) < 2 ^ (m + 1) := habove
      _ = 2 ^ significantBits * (2 ^ m / 2 ^ n / 2 ^ significantBits * 2) * 2 ^ n := by
          field_simp
          ring
      _ ≤ 2 ^ significantBits * (2 ^ m / 2 ^ n / 2 ^ significantBits * 2) * den := by
          gcongr

/-- The test for a mantissa that is not too long. -/
lemma overPower_lt_iff (num : Int) (hden : 0 < den) (exponent : Int) :
    (overPower num den exponent).1.natAbs <
        Nat.pow 2 significantBits * (overPower num den exponent).2 ↔
      |(num : ℚ) / den| < 2 ^ significantBits * 2 ^ exponent := by
  obtain ⟨hd, hratio⟩ := overPower_spec num hden exponent
  have hd : (0 : ℚ) < ((overPower num den exponent).2 : ℚ) := by exact_mod_cast hd
  have habs := congrArg abs hratio
  rw [abs_div, abs_div, abs_of_pos hd, abs_of_pos (two_zpow_pos exponent), div_eq_div_iff hd.ne'
    (two_zpow_pos exponent).ne'] at habs
  have hcast : |((overPower num den exponent).1 : ℚ)| = (overPower num den exponent).1.natAbs := by
    rw [Nat.cast_natAbs, Int.cast_abs]
  rw [hcast] at habs
  rw [← Nat.cast_lt (α := ℚ), ← mul_lt_mul_iff_left₀ (two_zpow_pos exponent), habs]
  push_cast [Nat.pow_eq]
  rw [mul_right_comm, mul_lt_mul_iff_left₀ hd]

lemma step_power (exponent : ℤ) : (2 : ℚ) ^ significantBits * 2 ^ exponent =
    2 ^ (significantBits - 1) * 2 ^ (exponent + 1) := by
  rw [zpow_add₀ two_ne_zero, zpow_one]
  simp only [significantBits]
  ring

/-- The exponent leaves a mantissa for the number, of full length unless it is the lowest one. -/
structure Suits (q : ℚ) (exponent : Int) : Prop where
  lowest : lowestExponent ≤ exponent
  below : |q| < 2 ^ significantBits * 2 ^ exponent
  full : exponent = lowestExponent ∨ 2 ^ (significantBits - 1) * 2 ^ exponent ≤ |q|

/-- No exponent below the lowest one is taken. -/
lemma suits_max {q : ℚ} (hbelow : |q| < 2 ^ significantBits * 2 ^ exponent)
    (hfull : 2 ^ (significantBits - 1) * 2 ^ exponent ≤ |q|) :
    Suits q (max lowestExponent exponent) where
  lowest := le_max_left _ _
  below := by
    refine hbelow.trans_le ?_
    gcongr
    · norm_num
    · exact le_max_right _ _
  full := by
    rcases le_total exponent lowestExponent with hle | hle
    · exact .inl (max_eq_left hle)
    · exact .inr (by rwa [max_eq_right hle])

lemma exponentFor_suits (hnum : num ≠ 0) (hden : 0 < den) :
    Suits ((num : ℚ) / den) (exponentFor num den) := by
  obtain ⟨hlow, hhigh⟩ := log2_bounds hnum hden
  unfold exponentFor
  dsimp only at hlow hhigh ⊢
  generalize ((num.natAbs.log2 : Int) - den.log2 - significantBits) = low at *
  have hiff := overPower_lt_iff num hden low
  split
  · next hfits => exact suits_max (hiff.mp hfits) hlow.le
  · next hover =>
    refine suits_max hhigh ?_
    rw [← step_power]
    exact not_lt.mp (mt hiff.mpr hover)

lemma nearest?_rounds {x : Binary64} (hden : 0 < den) (h : nearest? num den = some x) :
    Rounds (num / den) x := by
  unfold nearest? at h
  split at h
  · next hzero =>
    obtain rfl := Option.some.inj h
    refine ⟨?_, by decide, ?_, .inl ?_⟩
    · simpa [hzero] using Nearest.intCast 0
    · simp [hzero]
    · simp [hzero]
  · next hnum =>
    dsimp only at h
    split at h
    · cases h
    · obtain rfl := Option.some.inj h
      obtain ⟨hlowest, hbelow, hfull⟩ := exponentFor_suits hnum hden
      obtain ⟨hd, hratio⟩ := overPower_spec num hden (exponentFor num den)
      exact ⟨hratio ▸ roundHalfEven_nearest _ hd, hlowest, hbelow, .inr hfull⟩

end Exponents

namespace Rounds

variable {q q' : ℚ} {x x' : Binary64}

lemma neg (h : Rounds q x) : Rounds (-q) ⟨-x.mantissa, x.exponent⟩ where
  mantissa := by
    rw [neg_div]
    exact h.mantissa.neg
  lowest := h.lowest
  below := by
    rw [abs_neg]
    exact h.below
  full := by
    rw [abs_neg, neg_eq_zero]
    exact h.full

lemma nonneg (h : Rounds q x) (hq : 0 ≤ q) : 0 ≤ x.value := by
  have hmantissa : 0 ≤ x.mantissa :=
    (Nearest.intCast 0).mono h.mantissa (by
      rw [Int.cast_zero]
      exact div_nonneg hq (two_zpow_pos _).le)
  exact mul_nonneg (by exact_mod_cast hmantissa) (two_zpow_pos _).le

lemma value_neg (x : Binary64) : value ⟨-x.mantissa, x.exponent⟩ = -x.value := by
  simp [value]

lemma value_le (h : Rounds q x) (hq : 0 < q) :
    x.value ≤ 2 ^ significantBits * 2 ^ x.exponent := by
  have hbelow := h.below
  rw [abs_of_pos hq, ← div_lt_iff₀ (two_zpow_pos _)] at hbelow
  have hmantissa : x.mantissa ≤ 2 ^ significantBits :=
    h.mantissa.mono (Nearest.intCast _) (by exact_mod_cast hbelow.le)
  have hcast : (x.mantissa : ℚ) ≤ 2 ^ significantBits := by exact_mod_cast hmantissa
  exact mul_le_mul_of_nonneg_right hcast (two_zpow_pos _).le

lemma le_value (h : Rounds q x) (hq : 0 < q) (hlowest : lowestExponent < x.exponent) :
    2 ^ (significantBits - 1) * 2 ^ x.exponent ≤ q ∧
      2 ^ (significantBits - 1) * 2 ^ x.exponent ≤ x.value := by
  have hfull := (h.full.resolve_left hq.ne').resolve_left hlowest.ne'
  rw [abs_of_pos hq] at hfull
  refine ⟨hfull, mul_le_mul_of_nonneg_right ?_ (two_zpow_pos _).le⟩
  rw [← le_div_iff₀ (two_zpow_pos _)] at hfull
  have hmantissa : 2 ^ (significantBits - 1) ≤ x.mantissa :=
    (Nearest.intCast _).mono h.mantissa (by exact_mod_cast hfull)
  exact_mod_cast hmantissa

/-- Of two positive numbers the greater one has no smaller exponent, and where it has a greater one
its mantissa is long enough. -/
lemma mono_pos (h : Rounds q x) (h' : Rounds q' x') (hq : 0 < q) (hle : q ≤ q') :
    x.value ≤ x'.value := by
  have hq' := hq.trans_le hle
  have hstep : ∀ {e e' : ℤ}, e < e' →
      (2 : ℚ) ^ significantBits * 2 ^ e ≤ 2 ^ (significantBits - 1) * 2 ^ e' := by
    intro e e' hlt
    calc (2 : ℚ) ^ significantBits * 2 ^ e = 2 ^ (significantBits - 1) * 2 ^ (e + 1) :=
          step_power e
      _ ≤ 2 ^ (significantBits - 1) * 2 ^ e' := by
          gcongr
          · norm_num
          · exact hlt
  rcases lt_trichotomy x.exponent x'.exponent with hlt | heq | hgt
  · have hfull := h'.le_value hq' (h.lowest.trans_lt hlt)
    exact (h.value_le hq).trans ((hstep hlt).trans hfull.2)
  · have hdiv : q / 2 ^ x.exponent ≤ q' / 2 ^ x'.exponent := by
      rw [heq]
      gcongr
    have hmantissa : (x.mantissa : ℚ) ≤ x'.mantissa := by
      exact_mod_cast h.mantissa.mono h'.mantissa hdiv
    rw [value, value, heq]
    exact mul_le_mul_of_nonneg_right hmantissa (two_zpow_pos _).le
  · have hfull := h.le_value hq (h'.lowest.trans_lt hgt)
    have hbelow := h'.below
    rw [abs_of_pos hq'] at hbelow
    exact absurd (hfull.1.trans hle) (not_le.mpr (hbelow.trans_le (hstep hgt)))

lemma mono (h : Rounds q x) (h' : Rounds q' x') (hle : q ≤ q') : x.value ≤ x'.value := by
  rcases lt_or_ge 0 q with hpos | hneg
  · exact h.mono_pos h' hpos hle
  rcases lt_or_ge q' 0 with hneg' | hpos'
  · have hmirrored := h'.neg.mono_pos h.neg (neg_pos.mpr hneg') (neg_le_neg hle)
    rw [value_neg, value_neg] at hmirrored
    exact neg_le_neg_iff.mp hmirrored
  · have hmirrored := h.neg.nonneg (neg_nonneg.mpr hneg)
    rw [value_neg] at hmirrored
    exact (neg_nonneg.mp hmirrored).trans (h'.nonneg hpos')

end Rounds

section Operations

variable {x y z : Binary64}

lemma ratio_spec (x : Binary64) : 0 < x.ratio.2 ∧ (x.ratio.1 : ℚ) / x.ratio.2 = x.value := by
  obtain ⟨hpos, hratio⟩ := overPower_spec x.mantissa Nat.one_pos (-x.exponent)
  refine ⟨hpos, hratio.trans ?_⟩
  rw [Nat.cast_one, div_one, zpow_neg, div_inv_eq_mul, value]

lemma round_nearest (x : Binary64) : Nearest x.value x.round := by
  obtain ⟨hpos, hratio⟩ := x.ratio_spec
  rw [← hratio]
  exact roundHalfEven_nearest _ hpos

lemma div?_rounds (hy : 0 < y.mantissa) (h : x.div? y = some z) :
    Rounds (x.value / y.value) z := by
  obtain ⟨hb, hx⟩ := x.ratio_spec
  obtain ⟨hd, hvalue⟩ := y.ratio_spec
  have hc : 0 < y.ratio.1 := by
    have hpos : 0 < y.value := mul_pos (by exact_mod_cast hy) (two_zpow_pos _)
    rw [← hvalue, div_pos_iff_of_pos_right (by exact_mod_cast hd)] at hpos
    exact_mod_cast hpos
  have hnearest? : nearest? (x.ratio.1 * y.ratio.2 * y.ratio.1.sign)
      (x.ratio.2 * y.ratio.1.natAbs) = some z := h
  have hnearest := nearest?_rounds (Nat.mul_pos hb (Int.natAbs_pos.mpr hc.ne')) hnearest?
  have habs : (y.ratio.1.natAbs : ℚ) = y.ratio.1 := by
    rw [Nat.cast_natAbs, Int.cast_abs, abs_of_pos (by exact_mod_cast hc)]
  rw [Int.sign_eq_one_of_pos hc, mul_one] at hnearest
  push_cast at hnearest
  rwa [habs, ← div_div_div_eq, hx, hvalue] at hnearest

end Operations

end Binary64

namespace Arrangement

variable {grid : Grid} {tick later row behind : Int}

lemma Grid.row_ne_zero (h : grid.row tick = .ok row) : grid.ticksPerRow.mantissa ≠ 0 := by
  intro hzero
  rw [Grid.row, if_pos hzero] at h
  cases h

/-- The row of a tick is the nearest one to a number that does not get smaller with the tick. -/
lemma Grid.row_spec (hgrid : 0 ≤ grid.ticksPerRow.mantissa) (h : grid.row tick = .ok row) :
    ∃ x z : Binary64, Binary64.Rounds tick x ∧
      Binary64.Rounds (x.value / grid.ticksPerRow.value) z ∧ Nearest z.value row := by
  have hpos := lt_of_le_of_ne hgrid (Grid.row_ne_zero h).symm
  rw [Grid.row, if_neg hpos.ne'] at h
  obtain ⟨x, hx, h⟩ := (bind_eq_ok_iff _ _ _).mp h
  obtain ⟨z, hz, h⟩ := (bind_eq_ok_iff _ _ _).mp h
  obtain rfl := Except.ok.inj h
  have hrounds := Binary64.nearest?_rounds Nat.one_pos (finite_eq_ok hx)
  rw [Nat.cast_one, div_one] at hrounds
  exact ⟨x, z, hrounds, Binary64.div?_rounds hpos (finite_eq_ok hz), z.round_nearest⟩

/-- A later tick lies in no earlier row. -/
theorem Grid.row_mono (hgrid : 0 ≤ grid.ticksPerRow.mantissa) (h : grid.row tick = .ok row)
    (h' : grid.row later = .ok behind) (hle : tick ≤ later) : row ≤ behind := by
  obtain ⟨x, z, hx, hz, hrow⟩ := Grid.row_spec hgrid h
  obtain ⟨x', z', hx', hz', hbehind⟩ := Grid.row_spec hgrid h'
  have hvalue : 0 ≤ grid.ticksPerRow.value :=
    mul_nonneg (by exact_mod_cast hgrid) (Binary64.two_zpow_pos _).le
  have hfirst := hx.mono hx' (by exact_mod_cast hle)
  exact hrow.mono hbehind (hz.mono hz' (div_le_div_of_nonneg_right hfirst hvalue))

end Arrangement

end Chiptune
