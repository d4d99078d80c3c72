import Mathlib.Algebra.Order.Field.Power
import Mathlib.Data.Rat.Cast.Order
import Mathlib.Tactic.Positivity
import SchemaGo.Number.Binary

/-!
# Rounded significands

The first guess of the exponent is at most one too small, so that after one correction the
quotient has no more bits than the format.  Rounding up can add one bit, and then the
significand is a power of two that is halved.
-/

namespace SchemaGo.FloatFormat

theorem scaled_spec (num : Nat) {den : Nat} (hden : 0 < den) (q : ℤ) :
    0 < (scaled num den q).2 ∧
      ((scaled num den q).1 / (scaled num den q).2 : ℚ) = num / den * 2 ^ (-q) := by
  rw [scaled]
  split
  · next hq =>
      refine ⟨Nat.mul_pos hden (Nat.pow_pos (by decide)), ?_⟩
      obtain ⟨k, rfl⟩ := Int.eq_ofNat_of_zero_le hq
      rw [zpow_neg, ← div_eq_mul_inv, div_div]
      simp
  · next hq =>
      refine ⟨hden, ?_⟩
      obtain ⟨k, hk⟩ := Int.eq_ofNat_of_zero_le (show 0 ≤ -q by omega)
      rw [hk]
      simp [div_mul_eq_mul_div]

theorem quotient_lt {num den : Nat} (hden : 0 < den) {q : ℤ} {k : Nat}
    (h : (num / den * 2 ^ (-q) : ℚ) < 2 ^ k) :
    (scaled num den q).1 / (scaled num den q).2 < 2 ^ k := by
  obtain ⟨hpos, hratio⟩ := scaled_spec num hden q
  have hpos' : (0 : ℚ) < (scaled num den q).2 := by exact_mod_cast hpos
  rw [← hratio, div_lt_iff₀ hpos'] at h
  rw [Nat.div_lt_iff_lt_mul hpos]
  exact_mod_cast h

theorem div_lt_of_log2 (num : Nat) {den : Nat} (hden : 0 < den) {q : ℤ} {k : Nat}
    (hq : (num.log2 : ℤ) - den.log2 - k ≤ q) : (num / den * 2 ^ (-q) : ℚ) < 2 ^ (k + 1) := by
  have hnum : (num : ℚ) < 2 ^ (num.log2 + 1) := by exact_mod_cast Nat.lt_log2_self
  have hlog : (2 : ℚ) ^ den.log2 ≤ den := by exact_mod_cast Nat.log2_self_le hden.ne'
  have hpos : (0 : ℚ) < 2 ^ (-q) := by positivity
  calc (num / den * 2 ^ (-q) : ℚ)
      < 2 ^ (num.log2 + 1) / 2 ^ den.log2 * 2 ^ (-q) :=
        mul_lt_mul_of_pos_right (div_lt_div₀ hnum hlog (by positivity) (by positivity)) hpos
    _ = 2 ^ ((num.log2 + 1 : ℕ) - (den.log2 : ℤ) + -q) := by
        rw [zpow_add₀ (by norm_num), zpow_sub₀ (by norm_num), zpow_natCast, zpow_natCast]
    _ ≤ 2 ^ ((k + 1 : ℕ) : ℤ) := zpow_le_zpow_right₀ (by norm_num) (by omega)
    _ = 2 ^ (k + 1) := zpow_natCast 2 (k + 1)

theorem nearestEven_le (num den : Nat) : nearestEven num den ≤ num / den + 1 := by
  simp only [nearestEven]
  split
  · omega
  split
  · omega
  split <;> omega

/-! ## The steps of rounding -/

def guess (f : FloatFormat) (num den : Nat) : ℤ :=
  max f.minExponent ((num.log2 : ℤ) - den.log2 - f.precision)

def quotient (num den : Nat) (q : ℤ) : Nat := (scaled num den q).1 / (scaled num den q).2

def exponentOf (f : FloatFormat) (num den : Nat) : ℤ :=
  if Nat.pow 2 f.precision ≤ quotient num den (f.guess num den) then f.guess num den + 1
  else f.guess num den

def significandOf (f : FloatFormat) (num den : Nat) : Nat :=
  nearestEven (scaled num den (f.exponentOf num den)).1 (scaled num den (f.exponentOf num den)).2

def carried (f : FloatFormat) (m : Nat) (q : ℤ) : Nat × ℤ :=
  if m == Nat.pow 2 f.precision then (Nat.pow 2 (f.precision - 1), q + 1) else (m, q)

theorem round_eq (f : FloatFormat) (negative : Bool) {num : Nat} (hnum : num ≠ 0) (den : Nat) :
    f.round negative num den =
      if f.maxExponent < (f.carried (f.significandOf num den) (f.exponentOf num den)).2 then
        .infinite negative
      else .finite negative (f.carried (f.significandOf num den) (f.exponentOf num den)).1
        (f.carried (f.significandOf num den) (f.exponentOf num den)).2 := by
  rw [round, if_neg (by simpa using hnum)]
  rfl

section

variable (f : FloatFormat) {num den : Nat} (hden : 0 < den)

include hden

theorem quotient_exponentOf_lt : quotient num den (f.exponentOf num den) < 2 ^ f.precision := by
  rw [exponentOf]
  split
  · refine quotient_lt hden ?_
    have hguess : (num.log2 : ℤ) - den.log2 - f.precision ≤ f.guess num den := le_max_right _ _
    have hlt := div_lt_of_log2 num hden hguess
    rwa [neg_add, zpow_add₀ (by norm_num), zpow_neg_one, ← mul_assoc, ← div_eq_mul_inv,
      div_lt_iff₀ (by norm_num), ← pow_succ]
  · next hle => exact Nat.lt_of_not_le hle

theorem significandOf_le : f.significandOf num den ≤ 2 ^ f.precision :=
  (nearestEven_le _ _).trans (f.quotient_exponentOf_lt hden)

end

theorem carried_lt {f : FloatFormat} (hprecision : 0 < f.precision) {m : Nat}
    (hm : m ≤ 2 ^ f.precision) (q : ℤ) : (f.carried m q).1 < 2 ^ f.precision := by
  rw [carried]
  split
  · exact Nat.pow_lt_pow_right (by decide) (by omega)
  · next hne =>
      rw [beq_iff_eq] at hne
      exact lt_of_le_of_ne hm hne

theorem round_eq_finite {f : FloatFormat} (hprecision : 0 < f.precision) {negative : Bool}
    {num den : Nat} (hden : 0 < den) {sign : Bool} {m : Nat} {q : ℤ}
    (h : f.round negative num den = .finite sign m q) :
    sign = negative ∧ m < 2 ^ f.precision := by
  by_cases hnum : num = 0
  · subst hnum
    cases h
    exact ⟨rfl, Nat.pow_pos (by decide)⟩
  · rw [f.round_eq negative hnum] at h
    split at h
    · cases h
    · cases h
      exact ⟨rfl, carried_lt hprecision (f.significandOf_le hden) _⟩

theorem convert_eq_finite {f : FloatFormat} (hprecision : 0 < f.precision) {value : FloatValue}
    {negative : Bool} {m : Nat} {q : ℤ} (h : f.convert value = .finite negative m q) :
    (∃ m q, value = .finite negative m q) ∧ m < 2 ^ f.precision := by
  cases value with
  | nan => cases h
  | infinite sign => cases h
  | finite sign m' q' =>
      rw [convert] at h
      have hround : negative = sign ∧ m < 2 ^ f.precision := by
        split at h
        · exact round_eq_finite hprecision Nat.one_pos h
        · exact round_eq_finite hprecision (Nat.pow_pos (by decide)) h
      obtain ⟨rfl, hlt⟩ := hround
      exact ⟨⟨m', q', rfl⟩, hlt⟩

end SchemaGo.FloatFormat
