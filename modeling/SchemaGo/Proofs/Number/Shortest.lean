import Mathlib.Algebra.Order.Field.Power
import Mathlib.Data.Rat.Cast.Order
import Mathlib.Tactic.Positivity
import SchemaGo.Number.Decimal

/-!
# Digits of a binary value

The search for the shortest numeral starts at the decimal exponent of the value, so each of
its candidates has exactly as many digits as were asked for and never starts with a zero.
It ends before its fuel does: on a grid of seventeen digits the places are so close that
one of the two neighbours of a value with at most 53 bits rounds to that value.
-/

namespace SchemaGo

namespace Decimal

/-! ## Numbers of digits -/

theorem exists_length_natDigits {n : Nat} (h : 0 < n) :
    ∃ k, (natDigits n).length = k + 1 ∧ 10 ^ k ≤ n ∧ n < 10 ^ (k + 1) := by
  obtain ⟨k, hk⟩ := Nat.exists_eq_succ_of_ne_zero (Nat.length_toDigits_pos (b := 10) (n := n)).ne'
  refine ⟨k, hk, ?_, ?_⟩
  · rcases Nat.eq_zero_or_pos k with rfl | hpos
    · exact h
    · by_contra hlt
      have hle := (Nat.length_toDigits_le_iff (by decide) hpos).mpr (Nat.lt_of_not_le hlt)
      omega
  · exact (Nat.length_toDigits_le_iff (by decide) k.succ_pos).mp hk.le

theorem head?_natDigits {n : Nat} (h : 0 < n) : (natDigits n).head? ≠ some '0' := by
  induction n using Nat.strong_induction_on with
  | _ n ih =>
      rw [natDigits, Nat.toDigits_eq_if (by decide)]
      split
      · next hlt =>
          have hall : ∀ d : Fin 10, 0 < d.val → Nat.digitChar d.val ≠ '0' := by decide
          simpa using hall ⟨n, hlt⟩ h
      · next hge =>
          have hne : Nat.toDigits 10 (n / 10) ≠ [] := Nat.toDigits_ne_nil
          rw [List.head?_append_of_ne_nil _ hne]
          exact ih (n / 10) (by omega) (by omega)

/-! ## The decimal exponent -/

theorem zpow_neg_mul_le_iff (k num den : Nat) :
    (10 : ℚ) ^ (-(k : ℤ)) * den ≤ num ↔ den ≤ 10 ^ k * num := by
  rw [zpow_neg, zpow_natCast, inv_mul_le_iff₀ (by positivity)]
  exact_mod_cast Iff.rfl

theorem lt_zpow_neg_mul_iff (k num den : Nat) :
    (num : ℚ) < 10 ^ (-(k : ℤ)) * den ↔ 10 ^ k * num < den := by
  rw [← not_le, zpow_neg_mul_le_iff, not_le]

theorem floorLog10_spec {num den : Nat} (hnum : 0 < num) (hden : 0 < den) :
    (10 : ℚ) ^ floorLog10 num den ≤ num / den ∧
      (num / den : ℚ) < 10 ^ (floorLog10 num den + 1) := by
  have hden' : (0 : ℚ) < den := by exact_mod_cast hden
  rw [floorLog10]
  split
  · next hle =>
      obtain ⟨k, hlength, hlow, hhigh⟩ := exists_length_natDigits (Nat.div_pos hle hden)
      have hexponent : ((natDigits (num / den)).length : ℤ) - 1 = k := by omega
      rw [hexponent, le_div_iff₀ hden', div_lt_iff₀ hden', ← Nat.cast_succ, zpow_natCast,
        zpow_natCast]
      constructor
      · exact_mod_cast (Nat.le_div_iff_mul_le hden).mp hlow
      · exact_mod_cast (Nat.div_lt_iff_lt_mul hden).mp hhigh
  · next hlt =>
      obtain ⟨k, hlength, hlow, hhigh⟩ :=
        exists_length_natDigits (Nat.div_pos (Nat.le_of_not_le hlt) hnum)
      have hbelow : 10 ^ k * num ≤ den := (Nat.le_div_iff_mul_le hnum).mp hlow
      have habove : den < 10 ^ (k + 1) * num := (Nat.div_lt_iff_lt_mul hnum).mp hhigh
      dsimp only
      rw [hlength, le_div_iff₀ hden', div_lt_iff₀ hden']
      split
      · next hcond =>
          have hexponent : -(((k + 1 : ℕ) : ℤ) - 1) = -(k : ℤ) := by omega
          rw [hexponent]
          refine ⟨(zpow_neg_mul_le_iff k num den).mpr (by rwa [mul_comm]), ?_⟩
          have hlt := (lt_zpow_neg_mul_iff k num (10 * den)).mpr (by omega)
          rwa [Nat.cast_mul, Nat.cast_ofNat, ← mul_assoc, ← zpow_add_one₀ (by norm_num)] at hlt
      · next hcond =>
          have hexponent : -((k + 1 : ℕ) : ℤ) + 1 = -(k : ℤ) := by omega
          refine ⟨(zpow_neg_mul_le_iff (k + 1) num den).mpr habove.le, ?_⟩
          rw [hexponent, lt_zpow_neg_mul_iff]
          simp only [Nat.pow_eq, Nat.add_sub_cancel, not_le] at hcond
          rwa [mul_comm]

/-! ## Candidates -/

structure Interval.InDecade (i : Interval) (e : ℤ) : Prop where
  den_pos : 0 < i.den
  low : (10 : ℚ) ^ e ≤ i.mid / i.den
  high : (i.mid / i.den : ℚ) < 10 ^ (e + 1)

theorem Interval.InDecade.scaleBy {i : Interval} {e : ℤ} (h : i.InDecade e) (power : ℤ) :
    (i.scaleBy power).InDecade (e - power) := by
  have hten : (10 : ℚ) ^ (-power).toNat / 10 ^ power.toNat = 10 ^ (-power) := by
    rw [← zpow_natCast, ← zpow_natCast, ← zpow_sub₀ (by norm_num)]
    congr 1
    omega
  have hmid : ((i.scaleBy power).mid / (i.scaleBy power).den : ℚ) =
      i.mid / i.den * 10 ^ (-power) := by
    rw [← hten, div_mul_div_comm]
    simp [Interval.scaleBy]
  have hpos : (0 : ℚ) < 10 ^ (-power) := by positivity
  refine ⟨Nat.mul_pos h.den_pos (Nat.pow_pos (by decide)), ?_, ?_⟩
  · rw [hmid, sub_eq_add_neg, zpow_add₀ (by norm_num)]
    exact mul_le_mul_of_nonneg_right h.low hpos.le
  · have hexponent : e - power + 1 = e + 1 + -power := by omega
    rw [hmid, hexponent, zpow_add₀ (by norm_num)]
    exact mul_lt_mul_of_pos_right h.high hpos

theorem Interval.InDecade.div_bounds {i : Interval} {k : Nat} (h : i.InDecade k) :
    10 ^ k ≤ i.mid / i.den ∧ i.mid / i.den < 10 ^ (k + 1) := by
  have hden : (0 : ℚ) < i.den := by exact_mod_cast h.den_pos
  have hlow := h.low
  have hhigh := h.high
  rw [zpow_natCast, le_div_iff₀ hden] at hlow
  rw [← Nat.cast_succ, zpow_natCast, div_lt_iff₀ hden] at hhigh
  rw [Nat.le_div_iff_mul_le h.den_pos, Nat.div_lt_iff_lt_mul h.den_pos]
  exact ⟨by exact_mod_cast hlow, by exact_mod_cast hhigh⟩

theorem nearest?_eq {i : Interval} {n : Nat} (h : i.nearest? = some n) :
    n = i.mid / i.den ∨ n = i.mid / i.den + 1 := by
  rw [Interval.nearest?] at h
  split at h
  · cases h
    split
    · exact .inr rfl
    · exact .inl rfl
  · cases h
    exact .inl rfl
  · cases h
    exact .inr rfl
  · cases h

/-! ## The search -/

theorem pos_of_nearest? {i : Interval} {e : ℤ} (hdecade : i.InDecade e) {count n : Nat}
    (hcount : 1 ≤ count) (h : (i.scaleBy (e - (count - 1))).nearest? = some n) : 0 < n := by
  have hscaled := hdecade.scaleBy (e - (count - 1))
  have hexponent : e - (e - ((count : ℤ) - 1)) = ((count - 1 : ℕ) : ℤ) := by omega
  rw [hexponent] at hscaled
  have hlow := hscaled.div_bounds.1
  have hpow : 0 < 10 ^ (count - 1) := by positivity
  have heq := nearest?_eq h
  omega

theorem exists_digits_of_nearest? {i : Interval} {e : ℤ} (hdecade : i.InDecade e)
    {fuel count n : Nat} (hcount : 1 ≤ count)
    (h : (i.scaleBy (e - (count - 1))).nearest? = some n) :
    ∃ n, 0 < n ∧ (shortestFrom i e (fuel + 1) count).digits = natDigits n := by
  rw [shortestFrom, h]
  dsimp only
  split
  · exact ⟨1, Nat.one_pos, rfl⟩
  · exact ⟨n, pos_of_nearest? hdecade hcount h, rfl⟩

/-- If seventeen digits are enough, the search ends with the digits of a positive number. -/
theorem exists_digits_shortestFrom {i : Interval} {e : ℤ} (hdecade : i.InDecade e)
    (henough : ((i.scaleBy (e - 16)).nearest?).isSome) {fuel count : Nat} (hcount : 1 ≤ count)
    (hfuel : count + fuel = 17) :
    ∃ n, 0 < n ∧ (shortestFrom i e (fuel + 1) count).digits = natDigits n := by
  induction fuel generalizing count with
  | zero =>
      obtain rfl : count = 17 := by omega
      obtain ⟨n, hn⟩ := Option.isSome_iff_exists.mp henough
      exact exists_digits_of_nearest? hdecade hcount hn
  | succ fuel ih =>
      cases hnearest : (i.scaleBy (e - (count - 1))).nearest? with
      | some n => exact exists_digits_of_nearest? hdecade hcount hnearest
      | none =>
          rw [shortestFrom, hnearest]
          exact ih (by omega) (by omega)

/-! ## Seventeen digits -/

theorem inDecade_roundingInterval {f : FloatFormat} {m : Nat} (hm : 0 < m) (q : ℤ) :
    let i := roundingInterval f m q
    i.InDecade (floorLog10 i.mid i.den) := by
  intro i
  have hmid : 0 < i.mid := by
    change 0 < 4 * m * Nat.pow 2 (q - 2).toNat
    exact Nat.mul_pos (by omega) (Nat.pow_pos (by decide))
  have hden : 0 < i.den := Nat.pow_pos (by decide)
  obtain ⟨hlow, hhigh⟩ := floorLog10_spec hmid hden
  exact ⟨hden, hlow, hhigh⟩

theorem contains_of_lt {i : Interval} {k : Nat} (hlow : i.low < k * i.den)
    (hhigh : k * i.den < i.high) : i.contains k := by
  simp [Interval.contains, hlow, hhigh]

theorem isSome_nearest? {i : Interval} (hden : 0 < i.den) (hlow : i.low < i.mid)
    (hhigh : i.mid < i.high) (hwide : i.low + i.den < i.high) : i.nearest?.isSome := by
  have hbelow : i.mid / i.den * i.den ≤ i.mid := Nat.div_mul_le_self i.mid i.den
  have habove : i.mid < i.mid / i.den * i.den + i.den := Nat.lt_div_mul_add hden
  have hinside : i.contains (i.mid / i.den) ∨ i.contains (i.mid / i.den + 1) := by
    by_cases hdown : i.low < i.mid / i.den * i.den
    · exact .inl (contains_of_lt hdown (by omega))
    · refine .inr (contains_of_lt ?_ ?_) <;> rw [Nat.succ_mul] <;> omega
  rw [Interval.nearest?]
  split
  · rfl
  · rfl
  · rfl
  · next hdown hup => simp [hdown, hup] at hinside

/-- The interval is counted in quarters of the last binary place.  It is three or four of
them wide, and seventeen digits put the places of the grid closer together than that. -/
theorem isSome_nearest?_of_unit {i : Interval} {m unit below : Nat} (hden : 0 < i.den)
    (hpos : 0 < m) (hunit : 0 < unit) (hbelow : below = 2 ∧ m ≤ 2 ^ 53 ∨ below = 1 ∧ m ≤ 2 ^ 52)
    (hlow : i.low = (4 * m - below) * unit) (hmid : i.mid = 4 * m * unit)
    (hhigh : i.high = (4 * m + 2) * unit) (hgrid : 10 ^ 16 * i.den ≤ i.mid) :
    i.nearest?.isSome := by
  have hone : unit ≤ m * unit := Nat.le_mul_of_pos_left unit hpos
  rw [Nat.sub_mul, Nat.mul_assoc] at hlow
  rw [Nat.mul_assoc] at hmid
  rw [Nat.add_mul, Nat.mul_assoc] at hhigh
  rcases hbelow with ⟨rfl, hle⟩ | ⟨rfl, hle⟩
  · have hproduct := Nat.mul_le_mul_right unit hle
    exact isSome_nearest? hden (by omega) (by omega) (by omega)
  · have hproduct := Nat.mul_le_mul_right unit hle
    exact isSome_nearest? hden (by omega) (by omega) (by omega)

theorem exists_unit {f : FloatFormat} (hprecision : f.precision ≤ 53) {m : Nat}
    (hlt : m < 2 ^ 53) (q power : ℤ) :
    ∃ unit below, 0 < unit ∧ (below = 2 ∧ m ≤ 2 ^ 53 ∨ below = 1 ∧ m ≤ 2 ^ 52) ∧
      ((roundingInterval f m q).scaleBy power).low = (4 * m - below) * unit ∧
      ((roundingInterval f m q).scaleBy power).mid = 4 * m * unit ∧
      ((roundingInterval f m q).scaleBy power).high = (4 * m + 2) * unit := by
  refine ⟨Nat.pow 2 (q - 2).toNat * Nat.pow 10 (-power).toNat,
    if m == Nat.pow 2 (f.precision - 1) && f.minExponent < q then 1 else 2, ?_, ?_,
    Nat.mul_assoc _ _ _, Nat.mul_assoc _ _ _, Nat.mul_assoc _ _ _⟩
  · exact Nat.mul_pos (Nat.pow_pos (by decide)) (Nat.pow_pos (by decide))
  · split
    · next h =>
        rw [Bool.and_eq_true, beq_iff_eq] at h
        exact .inr ⟨rfl, h.1.trans_le (Nat.pow_le_pow_right (by decide) (by omega))⟩
    · exact .inl ⟨rfl, hlt.le⟩

theorem isSome_nearest?_seventeen {f : FloatFormat} (hprecision : f.precision ≤ 53) {m : Nat}
    (hpos : 0 < m) (hlt : m < 2 ^ 53) (q : ℤ) {e : ℤ} (h : (roundingInterval f m q).InDecade e) :
    (((roundingInterval f m q).scaleBy (e - 16)).nearest?).isSome := by
  have hscaled := h.scaleBy (e - 16)
  have hexponent : e - (e - 16) = ((16 : ℕ) : ℤ) := by omega
  rw [hexponent] at hscaled
  have hgrid := (Nat.le_div_iff_mul_le hscaled.den_pos).mp hscaled.div_bounds.1
  obtain ⟨unit, below, hunit, hbelow, hlow, hmid, hhigh⟩ := exists_unit hprecision hlt q (e - 16)
  exact isSome_nearest?_of_unit hscaled.den_pos hpos hunit hbelow hlow hmid hhigh hgrid

theorem exists_digits_shortest {f : FloatFormat} (hprecision : f.precision ≤ 53) {m : Nat}
    (hpos : 0 < m) (hlt : m < 2 ^ 53) (q : ℤ) :
    ∃ n, 0 < n ∧ (shortest f m q).digits = natDigits n := by
  have hdecade := inDecade_roundingInterval (f := f) hpos q
  rw [shortest, if_neg (by simpa using hpos.ne')]
  exact exists_digits_shortestFrom hdecade
    (isSome_nearest?_seventeen hprecision hpos hlt q hdecade) le_rfl rfl

end Decimal

end SchemaGo
