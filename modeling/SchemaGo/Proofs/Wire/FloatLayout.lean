import SchemaGo.Proofs.Number.Numeral
import SchemaGo.Proofs.Number.Rounding
import SchemaGo.Proofs.Number.Shortest
import SchemaGo.Wire.Default

/-!
# Layout of floating point numbers

The digits of a number and its exponent are laid out in one of four ways, by comparing the
exponent with fixed bounds and with the number of digits.  Each of them is the text of a
proper numeral, whose exact value is that of the digits.
-/

namespace SchemaGo

/-! ## Digits -/

namespace Scientific

structure IsNormal (s : Scientific) : Prop where
  digits_ne : s.digits ≠ []
  isDigit : ∀ c ∈ s.digits, c.isDigit
  zero : s.digits.head? = some '0' → s.digits = ['0']

def IsZero (s : Scientific) : Prop := s.digits = ['0']

def value (s : Scientific) : ℚ :=
  Decimal.valueOfDigits s.digits / 10 ^ (s.digits.length - 1) * 10 ^ s.exponent

theorem value_eq {s : Scientific} (h : s.digits ≠ []) :
    s.value = Decimal.valueOfDigits s.digits * 10 ^ (s.exponent + 1 - s.digits.length) := by
  have hlength : 0 < s.digits.length := List.length_pos_iff.mpr h
  have hexponent : s.exponent + 1 - s.digits.length =
      s.exponent - ((s.digits.length - 1 : ℕ) : ℤ) := by omega
  rw [value, hexponent, zpow_sub₀ (by norm_num), zpow_natCast, div_mul_eq_mul_div, mul_div_assoc]

theorem IsNormal.all_zero_iff {s : Scientific} (h : s.IsNormal) :
    s.digits.all (· == '0') ↔ s.IsZero := by
  constructor
  · intro hall
    obtain ⟨c, digits, hdigits⟩ := List.exists_cons_of_ne_nil h.digits_ne
    refine h.zero ?_
    rw [List.all_eq_true] at hall
    have hzero := hall c (by simp [hdigits])
    rw [hdigits, List.head?_cons, beq_iff_eq.mp hzero]
  · intro hzero
    rw [IsZero] at hzero
    rw [hzero]
    rfl

end Scientific

namespace Decimal

theorem isNormal_of_natDigits {s : Scientific} {n : Nat} (h : s.digits = natDigits n) :
    s.IsNormal ∧ (s.IsZero ↔ n = 0) := by
  rcases Nat.eq_zero_or_pos n with rfl | hpos
  · have hzero : s.digits = ['0'] := h
    refine ⟨⟨by simp [hzero], fun c hc => ?_, fun _ => hzero⟩, iff_of_true hzero rfl⟩
    exact isDigit_of_mem_natDigits (h ▸ hc)
  · have hhead := head?_natDigits hpos
    refine ⟨⟨?_, fun c hc => ?_, fun hzero => ?_⟩, iff_of_false (fun hzero => ?_) hpos.ne'⟩
    · rw [h]
      exact Nat.toDigits_ne_nil
    · exact isDigit_of_mem_natDigits (h ▸ hc)
    · exact absurd (h ▸ hzero) hhead
    · rw [Scientific.IsZero] at hzero
      rw [← h, hzero] at hhead
      exact hhead rfl

end Decimal

/-! ## The four layouts -/

structure Scientific.Spelled (s : Scientific) (cs : List Char) (n : Numeral) : Prop where
  chars_eq : n.chars = cs
  proper : n.IsProper
  magnitude_eq : n.magnitude = s.value

namespace Scientific

variable {s : Scientific} (h : s.IsNormal) (negative : Bool)

include h

theorem magnitude_eq_value {n : Numeral} (k : Nat)
    (hcoefficient : n.coefficient = Decimal.valueOfDigits s.digits * 10 ^ k)
    (hpower : n.power + k = s.exponent + 1 - s.digits.length) : n.magnitude = s.value := by
  rw [value_eq h.digits_ne, Numeral.magnitude, hcoefficient, ← hpower, zpow_add₀ (by norm_num),
    zpow_natCast, mul_comm (10 ^ n.power), ← mul_assoc]
  push_cast
  rfl

theorem isProper_take_drop {k : Nat} (hk : 0 < k) {exponent : Option (Bool × List Char)}
    (hexponent : ∀ e ∈ exponent, 2 ≤ e.2.length ∧ ∀ c ∈ e.2, c.isDigit) :
    Numeral.IsProper ⟨negative, s.digits.take k, s.digits.drop k, exponent⟩ where
  whole_ne := by simp [h.digits_ne, hk.ne']
  whole_isDigit c hc := h.isDigit c (List.mem_of_mem_take hc)
  whole_zero hhead := by
    rw [List.head?_take, if_neg hk.ne'] at hhead
    rw [h.zero hhead]
    exact List.take_of_length_le hk
  fraction_isDigit c hc := h.isDigit c (List.mem_of_mem_drop hc)
  exponent_isDigit := hexponent

theorem spelled_point_before (hpoint : s.exponent + 1 ≤ 0) :
    s.Spelled (Decimal.positional s.digits (s.exponent + 1))
      ⟨negative, ['0'], Decimal.zeros (-(s.exponent + 1)).toNat ++ s.digits, none⟩ := by
  refine ⟨?_, ⟨by simp, by simp, fun _ => rfl, ?_, by simp⟩, ?_⟩
  · rw [Decimal.positional, if_pos hpoint]
    simp [Numeral.chars, Numeral.fractionChars, Numeral.exponentChars, h.digits_ne]
  · intro c hc
    rcases List.mem_append.mp hc with hzero | hdigit
    · exact Decimal.isDigit_of_mem_zeros hzero
    · exact h.isDigit c hdigit
  · refine magnitude_eq_value h 0 ?_ ?_
    · change Decimal.valueOfDigits (Decimal.zeros 1 ++ (_ ++ _)) = _
      rw [Decimal.valueOfDigits_append, Decimal.valueOfDigits_append, Decimal.valueOfDigits_zeros,
        Decimal.valueOfDigits_zeros]
      omega
    · simp only [Numeral.power, Numeral.exponentValue, List.length_append, Decimal.zeros,
        List.length_replicate]
      omega

theorem spelled_point_behind (hnonzero : ¬ s.IsZero) (hpoint : 0 < s.exponent + 1)
    (hlength : s.digits.length ≤ (s.exponent + 1).toNat) :
    s.Spelled (Decimal.positional s.digits (s.exponent + 1))
      ⟨negative, s.digits ++ Decimal.zeros ((s.exponent + 1).toNat - s.digits.length), [],
        none⟩ := by
  refine ⟨?_, ⟨by simp [h.digits_ne], ?_, ?_, by simp, by simp⟩, ?_⟩
  · rw [Decimal.positional, if_neg hpoint.not_ge, if_pos hlength]
    simp [Numeral.chars, Numeral.fractionChars, Numeral.exponentChars]
  · intro c hc
    rcases List.mem_append.mp hc with hdigit | hzero
    · exact h.isDigit c hdigit
    · exact Decimal.isDigit_of_mem_zeros hzero
  · intro hhead
    rw [List.head?_append_of_ne_nil _ h.digits_ne] at hhead
    exact absurd (h.zero hhead) hnonzero
  · refine magnitude_eq_value h ((s.exponent + 1).toNat - s.digits.length) ?_ ?_
    · rw [Numeral.coefficient, List.append_nil, Decimal.valueOfDigits_append,
        Decimal.valueOfDigits_zeros, Decimal.zeros, List.length_replicate, Nat.add_zero]
    · simp only [Numeral.power, Numeral.exponentValue, List.length_nil]
      omega

theorem spelled_point_among (hpoint : 0 < s.exponent + 1)
    (hlength : (s.exponent + 1).toNat < s.digits.length) :
    s.Spelled (Decimal.positional s.digits (s.exponent + 1))
      ⟨negative, s.digits.take (s.exponent + 1).toNat, s.digits.drop (s.exponent + 1).toNat,
        none⟩ := by
  have hfraction : s.digits.drop (s.exponent + 1).toNat ≠ [] := by simpa using hlength
  refine ⟨?_, isProper_take_drop h negative (by omega) (by simp), ?_⟩
  · rw [Decimal.positional, if_neg hpoint.not_ge, if_neg hlength.not_ge, Numeral.chars,
      Numeral.fractionChars, if_neg (by simpa using hfraction), Numeral.exponentChars,
      List.append_nil]
  · refine magnitude_eq_value h 0 ?_ ?_
    · rw [Numeral.coefficient, List.take_append_drop, pow_zero, Nat.mul_one]
    · simp only [Numeral.power, Numeral.exponentValue, List.length_drop]
      omega

theorem spelled_exponential :
    s.Spelled (Decimal.exponential s.digits s.exponent)
      ⟨negative, s.digits.take 1, s.digits.drop 1,
        some (s.exponent < 0, Decimal.zeros (2 - (Decimal.natDigits s.exponent.natAbs).length) ++
          Decimal.natDigits s.exponent.natAbs)⟩ := by
  have hlength : 0 < s.digits.length := List.length_pos_iff.mpr h.digits_ne
  refine ⟨?_, isProper_take_drop h negative Nat.one_pos ?_, ?_⟩
  · simp [Decimal.exponential, Numeral.chars, Numeral.fractionChars, Numeral.exponentChars]
  · rintro e ⟨⟩
    refine ⟨?_, fun c hc => ?_⟩
    · simp only [List.length_append, Decimal.zeros, List.length_replicate]
      omega
    · rcases List.mem_append.mp hc with hzero | hdigit
      · exact Decimal.isDigit_of_mem_zeros hzero
      · exact Decimal.isDigit_of_mem_natDigits hdigit
  · refine magnitude_eq_value h 0 ?_ ?_
    · rw [Numeral.coefficient, List.take_append_drop, pow_zero, Nat.mul_one]
    · simp only [Numeral.power, Numeral.exponentValue, List.length_drop,
        Decimal.valueOfDigits_append, Decimal.valueOfDigits_zeros,
        Decimal.valueOfDigits_natDigits, decide_eq_true_eq]
      split <;> omega

theorem exists_spelled_positional (hnonzero : ¬ s.IsZero) :
    ∃ n : Numeral, n.negative = negative ∧ n.exponent = none ∧
      s.Spelled (Decimal.positional s.digits (s.exponent + 1)) n := by
  by_cases hpoint : s.exponent + 1 ≤ 0
  · exact ⟨_, rfl, rfl, spelled_point_before h negative hpoint⟩
  · rw [not_le] at hpoint
    by_cases hlength : s.digits.length ≤ (s.exponent + 1).toNat
    · exact ⟨_, rfl, rfl, spelled_point_behind h negative hnonzero hpoint hlength⟩
    · exact ⟨_, rfl, rfl, spelled_point_among h negative hpoint (not_le.mp hlength)⟩

theorem spelled_zero (hzero : s.IsZero) : s.Spelled ['0'] ⟨negative, ['0'], [], none⟩ := by
  refine ⟨rfl, ⟨by simp, by simp, fun _ => rfl, by simp, by simp⟩, ?_⟩
  rw [value_eq h.digits_ne, hzero]
  simp [Numeral.magnitude, Numeral.coefficient, Decimal.valueOfDigits, Decimal.digitValue]

theorem exists_spelled_general :
    ∃ n : Numeral, n.negative = negative ∧ s.Spelled (Decimal.general s) n ∧
      (n.exponent.isSome ↔ ¬ s.IsZero ∧ (s.exponent < -4 ∨ 6 ≤ s.exponent)) := by
  rw [Decimal.general]
  split
  · next hall =>
      have hzero := h.all_zero_iff.mp hall
      exact ⟨_, rfl, spelled_zero h negative hzero, by simp [hzero]⟩
  · next hall =>
      have hnonzero : ¬ s.IsZero := mt h.all_zero_iff.mpr hall
      split
      · next hrange =>
          rw [Bool.or_eq_true, decide_eq_true_eq, decide_eq_true_eq] at hrange
          exact ⟨_, rfl, spelled_exponential h negative, by simp [hnonzero, hrange]⟩
      · next hrange =>
          rw [Bool.or_eq_true, decide_eq_true_eq, decide_eq_true_eq] at hrange
          obtain ⟨n, hnegative, hexponent, hspelled⟩ :=
            exists_spelled_positional h negative hnonzero
          exact ⟨n, hnegative, hspelled, by simp [hexponent, hrange]⟩

/-- The text is a proper numeral for the signed number of the digits.  It has an exponent if
that number is below `10 ^ -4` or from `10 ^ 6` on, and reading it gives the number back,
rounded to the format. -/
structure LaidOut (s : Scientific) (negative : Bool) (text : String) (n : Numeral) : Prop where
  negative_eq : n.negative = negative
  text_eq : n.text = text
  proper : n.IsProper
  value_eq : n.value = if negative then -s.value else s.value
  exponent_iff : n.exponent.isSome ↔ ¬ s.IsZero ∧ (s.exponent < -4 ∨ 6 ≤ s.exponent)
  letter_iff : 'e' ∈ text.toList ↔ n.exponent.isSome
  zero : s.IsZero → text = if negative then "-0" else "0"
  reads : ∀ f, Decimal.readFloat? f text =
    some (Decimal.roundDecimal f negative n.coefficient n.power)

theorem exists_laidOut :
    ∃ n, s.LaidOut negative (Decimal.signed negative (Decimal.general s)) n := by
  obtain ⟨n, rfl, hspelled, hexponent⟩ := exists_spelled_general h negative
  have htext : n.text = Decimal.signed n.negative (Decimal.general s) := by
    rw [Numeral.text, hspelled.chars_eq]
  rw [← htext]
  refine ⟨n, rfl, rfl, hspelled.proper, ?_, hexponent, Numeral.mem_text_iff hspelled.proper, ?_,
    Numeral.readFloat?_text hspelled.proper⟩
  · rw [Numeral.value, hspelled.magnitude_eq]
  · intro hzero
    rw [htext, Decimal.general, if_pos (h.all_zero_iff.mpr hzero)]
    cases n.negative <;> rfl

end Scientific

/-! ## Values -/

theorem Decimal.isNormal_shortest {f : FloatFormat} (hprecision : f.precision ≤ 53) {m : Nat}
    (hlt : m < 2 ^ 53) (q : ℤ) :
    (shortest f m q).IsNormal ∧ ((shortest f m q).IsZero ↔ m = 0) := by
  rcases Nat.eq_zero_or_pos m with rfl | hpos
  · exact isNormal_of_natDigits (n := 0) rfl
  · obtain ⟨n, hn, hdigits⟩ := exists_digits_shortest hprecision hpos hlt q
    obtain ⟨hnormal, hzero⟩ := isNormal_of_natDigits hdigits
    exact ⟨hnormal, hzero.trans (iff_of_false hn.ne' hpos.ne')⟩

namespace Wire

def floatFormat (single : Bool) : FloatFormat := if single then .single else .double

theorem floatFormat_precision (single : Bool) :
    0 < (floatFormat single).precision ∧ (floatFormat single).precision ≤ 53 := by
  cases single <;> decide

theorem formatFloat_eq {value : FloatValue} {single negative : Bool} {m : Nat} {q : ℤ}
    (h : (floatFormat single).convert value = .finite negative m q) :
    formatFloat value single =
      Decimal.signed negative (Decimal.general (Decimal.shortest (floatFormat single) m q)) := by
  obtain ⟨⟨m', q', rfl⟩, -⟩ :=
    FloatFormat.convert_eq_finite (floatFormat_precision single).1 h
  rw [floatFormat] at h
  rw [formatFloat, h]
  rfl

/-- The layout of every digit sequence keeps its number, and a value that is still finite in
its format is laid out from normal digits, those of zero only for zero. -/
theorem formatFloat_layout :
    (∀ s : Scientific, s.IsNormal → ∀ negative, ∃ n,
      s.LaidOut negative (Decimal.signed negative (Decimal.general s)) n) ∧
    ∀ (value : FloatValue) (single negative : Bool) (m : Nat) (q : ℤ),
      (floatFormat single).convert value = .finite negative m q →
      (Decimal.shortest (floatFormat single) m q).IsNormal ∧
      ((Decimal.shortest (floatFormat single) m q).IsZero ↔ m = 0) ∧
      ∃ n, (Decimal.shortest (floatFormat single) m q).LaidOut negative
        (formatFloat value single) n := by
  refine ⟨fun s hs negative => s.exists_laidOut hs negative, ?_⟩
  intro value single negative m q h
  obtain ⟨hpos, hprecision⟩ := floatFormat_precision single
  have hlt : m < 2 ^ 53 := (FloatFormat.convert_eq_finite hpos h).2.trans_le
    (Nat.pow_le_pow_right (by decide) hprecision)
  obtain ⟨hnormal, hzero⟩ := Decimal.isNormal_shortest hprecision hlt q
  refine ⟨hnormal, hzero, ?_⟩
  rw [formatFloat_eq h]
  exact Scientific.exists_laidOut hnormal negative

theorem formatFloat_layout_minus_one_and_half :
    (∃ n, Scientific.LaidOut ⟨['1', '2', '5'], -5⟩ true "-1.25e-05" n) ∧
    FloatFormat.single.convert (.finite true 3 (-1)) = .finite true (3 * 2 ^ 22) (-23) ∧
    (∃ n, Scientific.LaidOut ⟨['1', '5'], 0⟩ true "-1.5" n) := by
  have hvalue : FloatFormat.single.convert (.finite true 3 (-1)) =
      .finite true (3 * 2 ^ 22) (-23) := by decide +kernel
  have hdigits : Decimal.shortest .single (3 * 2 ^ 22) (-23) = ⟨['1', '5'], 0⟩ := by
    decide +kernel
  have htext : formatFloat (.finite true 3 (-1)) true = "-1.5" := by decide +kernel
  refine ⟨?_, hvalue, ?_⟩
  · exact formatFloat_layout.1 ⟨['1', '2', '5'], -5⟩ ⟨by simp, by simp, by simp⟩ true
  · have hlayout := (formatFloat_layout.2 (.finite true 3 (-1)) true true _ _ hvalue).2.2
    rw [floatFormat, if_pos rfl, hdigits, htext] at hlayout
    exact hlayout

end Wire

end SchemaGo
