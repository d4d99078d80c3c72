import Mathlib.Algebra.Field.Rat
import SchemaGo.Proofs.Wire.TagReading

/-!
# Numerals in parts

A numeral is written from its digits before and behind the point and those of its exponent.
The reader finds these parts again because each of them ends at a character that is no digit,
so that a proper numeral is read as the number that its parts stand for.
-/

namespace SchemaGo

/-! ## Digits -/

namespace Decimal

theorem valueOfDigits_append (digits more : List Char) :
    valueOfDigits (digits ++ more) =
      valueOfDigits digits * 10 ^ more.length + valueOfDigits more := by
  rw [valueOfDigits_eq, Nat.ofDigitChars_append, Nat.ofDigitChars_eq_ofDigitChars_zero,
    ← valueOfDigits_eq, ← valueOfDigits_eq, Nat.mul_comm]

theorem valueOfDigits_zeros (n : Nat) : valueOfDigits (zeros n) = 0 := by
  rw [valueOfDigits_eq, zeros, Nat.ofDigitChars_replicate_zero, Nat.mul_zero]

theorem valueOfDigits_natDigits (n : Nat) : valueOfDigits (natDigits n) = n := by
  rw [valueOfDigits_eq, natDigits, Nat.ofDigitChars_ten_toDigits]

theorem isDigit_of_mem_natDigits {n : Nat} {c : Char} (h : c ∈ natDigits n) : c.isDigit :=
  Nat.isDigit_of_mem_toDigits (by decide) (by decide) h

theorem isDigit_of_mem_zeros {n : Nat} {c : Char} (h : c ∈ zeros n) : c.isDigit := by
  rw [List.eq_of_mem_replicate h]
  decide

end Decimal

/-! ## Numerals -/

/-- A numeral in its parts.  The exponent is a sign, true for minus, and its digits. -/
structure Numeral where
  negative : Bool
  whole : List Char
  fraction : List Char
  exponent : Option (Bool × List Char)
deriving DecidableEq, Repr

namespace Numeral

def fractionChars (fraction : List Char) : List Char :=
  if fraction.isEmpty then [] else '.' :: fraction

def exponentChars : Option (Bool × List Char) → List Char
  | none => []
  | some (minus, digits) => 'e' :: (if minus then '-' else '+') :: digits

def chars (n : Numeral) : List Char :=
  n.whole ++ (fractionChars n.fraction ++ exponentChars n.exponent)

def text (n : Numeral) : String := Decimal.signed n.negative n.chars

def exponentValue : Option (Bool × List Char) → ℤ
  | none => 0
  | some (minus, digits) =>
    if minus then -(Decimal.valueOfDigits digits : ℤ) else Decimal.valueOfDigits digits

def coefficient (n : Numeral) : Nat := Decimal.valueOfDigits (n.whole ++ n.fraction)

def power (n : Numeral) : ℤ := exponentValue n.exponent - n.fraction.length

def magnitude (n : Numeral) : ℚ := n.coefficient * 10 ^ n.power

def value (n : Numeral) : ℚ := if n.negative then -n.magnitude else n.magnitude

/-- Nothing but digits in each part, no leading zero but that of a zero before the point, and
at least two digits in an exponent. -/
structure IsProper (n : Numeral) : Prop where
  whole_ne : n.whole ≠ []
  whole_isDigit : ∀ c ∈ n.whole, c.isDigit
  whole_zero : n.whole.head? = some '0' → n.whole = ['0']
  fraction_isDigit : ∀ c ∈ n.fraction, c.isDigit
  exponent_isDigit : ∀ e ∈ n.exponent, 2 ≤ e.2.length ∧ ∀ c ∈ e.2, c.isDigit

/-! ## Reading a numeral -/

theorem takeWhile_isDigit {digits rest : List Char} (hdigits : ∀ c ∈ digits, c.isDigit)
    (hrest : rest.head?.all fun c => !c.isDigit) :
    (digits ++ rest).takeWhile Char.isDigit = digits ∧
      (digits ++ rest).dropWhile Char.isDigit = rest := by
  rw [List.takeWhile_append_of_pos hdigits, List.dropWhile_append_of_pos hdigits]
  cases rest with
  | nil => simp
  | cons c rest =>
      rw [List.head?_cons, Option.all_some, Bool.not_eq_true'] at hrest
      simp [hrest]

theorem head?_exponentChars (exponent : Option (Bool × List Char)) :
    (exponentChars exponent).head?.all fun c => !c.isDigit := by
  cases exponent <;> rfl

theorem readNat?_digits {digits : List Char} (hne : digits ≠ [])
    (h : ∀ c ∈ digits, c.isDigit) :
    Decimal.readNat? digits = some (Decimal.valueOfDigits digits) := by
  rw [Decimal.readNat?, if_pos (by simpa [hne] using h)]

def splitFraction (cs : List Char) : List Char × List Char :=
  match cs with
  | '.' :: rest => (rest.takeWhile Char.isDigit, rest.dropWhile Char.isDigit)
  | _ => ([], cs)

def readParts (f : FloatFormat) (negative : Bool) (whole : List Char)
    (parts : List Char × List Char) : Option FloatValue :=
  let build := fun (e : ℤ) =>
    Decimal.roundDecimal f negative (Decimal.valueOfDigits (whole ++ parts.1)) (e - parts.1.length)
  if (whole ++ parts.1).isEmpty then none
  else match parts.2 with
    | [] => some (build 0)
    | c :: rest => if c == 'e' || c == 'E' then (Decimal.readExponent? rest).map build else none

theorem readNumeral?_eq (f : FloatFormat) (negative : Bool) (cs : List Char) :
    Decimal.readNumeral? f negative cs =
      readParts f negative (cs.takeWhile Char.isDigit)
        (splitFraction (cs.dropWhile Char.isDigit)) := rfl

theorem splitFraction_chars {fraction : List Char} (h : ∀ c ∈ fraction, c.isDigit)
    (exponent : Option (Bool × List Char)) :
    splitFraction (fractionChars fraction ++ exponentChars exponent) =
      (fraction, exponentChars exponent) := by
  cases fraction with
  | nil => cases exponent <;> rfl
  | cons d fraction =>
      obtain ⟨htake, hdrop⟩ := takeWhile_isDigit h (head?_exponentChars exponent)
      change (((d :: fraction ++ exponentChars exponent).takeWhile Char.isDigit),
        (d :: fraction ++ exponentChars exponent).dropWhile Char.isDigit) = _
      rw [htake, hdrop]

theorem readExponent?_signed (minus : Bool) {digits : List Char} (hne : digits ≠ [])
    (h : ∀ c ∈ digits, c.isDigit) :
    Decimal.readExponent? ((if minus then '-' else '+') :: digits) =
      some (exponentValue (some (minus, digits))) := by
  cases minus <;>
    simp [Decimal.readExponent?, Decimal.splitSign, readNat?_digits hne h, exponentValue]

theorem readParts_exponentChars (f : FloatFormat) (negative : Bool) {whole : List Char}
    (hne : whole ≠ []) (fraction : List Char) {exponent : Option (Bool × List Char)}
    (h : ∀ e ∈ exponent, 2 ≤ e.2.length ∧ ∀ c ∈ e.2, c.isDigit) :
    readParts f negative whole (fraction, exponentChars exponent) =
      some (Decimal.roundDecimal f negative (Decimal.valueOfDigits (whole ++ fraction))
        (exponentValue exponent - fraction.length)) := by
  rw [readParts, if_neg (by simp [hne])]
  rcases exponent with _ | ⟨minus, digits⟩
  · rfl
  · obtain ⟨hlength, hdigits⟩ : 2 ≤ digits.length ∧ ∀ c ∈ digits, c.isDigit := h _ rfl
    have hdigits_ne : digits ≠ [] := List.length_pos_iff.mp (by omega)
    simp only [exponentChars, readExponent?_signed minus hdigits_ne hdigits, Option.map_some]
    rfl

theorem toLower_of_isDigit {c : Char} (h : c.isDigit) : c.toLower = c := by
  have hsmall : c.toNat ≤ '9'.toNat := (Char.isDigit_iff_toNat.mp h).2
  unfold Char.toLower
  rw [dif_neg]
  rintro ⟨hlow, -⟩
  have hcapital : 'A'.toNat ≤ c.toNat := UInt32.le_iff_toNat_le.mp hlow
  exact absurd (hcapital.trans hsmall) (by decide)

section

variable {n : Numeral} (h : n.IsProper)

include h

theorem readNumeral?_chars (f : FloatFormat) (negative : Bool) :
    Decimal.readNumeral? f negative n.chars =
      some (Decimal.roundDecimal f negative n.coefficient n.power) := by
  have hstop : (fractionChars n.fraction ++ exponentChars n.exponent).head?.all
      fun c => !c.isDigit := by
    cases hfraction : n.fraction with
    | nil => exact head?_exponentChars n.exponent
    | cons d fraction => rfl
  obtain ⟨htake, hdrop⟩ := takeWhile_isDigit h.whole_isDigit hstop
  rw [readNumeral?_eq, chars, htake, hdrop, splitFraction_chars h.fraction_isDigit,
    readParts_exponentChars f negative h.whole_ne n.fraction h.exponent_isDigit]
  rfl

theorem exists_digit_cons : ∃ c cs, c.isDigit ∧ n.chars = c :: cs := by
  obtain ⟨c, whole, hwhole⟩ := List.exists_cons_of_ne_nil h.whole_ne
  rw [chars, hwhole, List.cons_append]
  exact ⟨c, _, h.whole_isDigit c (by simp [hwhole]), rfl⟩

theorem splitSign_text : Decimal.splitSign n.text.toList = (n.negative, n.chars) := by
  obtain ⟨c, cs, hdigit, hchars⟩ := exists_digit_cons h
  rw [text, Decimal.signed, String.toList_ofList]
  split
  · next hnegative => rw [Decimal.splitSign, hnegative]
  · next hpositive =>
      rw [Bool.not_eq_true] at hpositive
      rw [hchars, hpositive, Decimal.splitSign]
      · rintro rest ⟨⟩
        exact absurd hdigit (by decide)
      · rintro rest ⟨⟩
        exact absurd hdigit (by decide)

theorem readFloat?_text (f : FloatFormat) :
    Decimal.readFloat? f n.text =
      some (Decimal.roundDecimal f n.negative n.coefficient n.power) := by
  obtain ⟨c, cs, hdigit, hchars⟩ := exists_digit_cons h
  have hhead : (n.chars.map Char.toLower).head?.any Char.isDigit := by
    rw [hchars, List.map_cons, List.head?_cons, Option.any_some, toLower_of_isDigit hdigit]
    exact hdigit
  have hword : ∀ word : String, word.toList.head?.any Char.isDigit = false →
      (String.ofList (n.chars.map Char.toLower) == word) = false := by
    intro word hletter
    rw [beq_eq_false_iff_ne]
    rintro rfl
    rw [String.toList_ofList, hhead] at hletter
    cases hletter
  rw [Decimal.readFloat?, splitSign_text h]
  dsimp only
  rw [hword "inf" rfl, hword "infinity" rfl, hword "nan" rfl]
  exact readNumeral?_chars h f n.negative

theorem mem_text_iff : 'e' ∈ n.text.toList ↔ n.exponent.isSome := by
  have hwhole : 'e' ∉ n.whole := fun hmem => absurd (h.whole_isDigit _ hmem) (by decide)
  have hfraction : 'e' ∉ fractionChars n.fraction := by
    rw [fractionChars]
    split
    · simp
    · rw [List.mem_cons, not_or]
      exact ⟨by decide, fun hmem => absurd (h.fraction_isDigit _ hmem) (by decide)⟩
  have hchars : 'e' ∈ n.chars ↔ n.exponent.isSome := by
    rw [chars, List.mem_append, List.mem_append]
    simp only [hwhole, hfraction, false_or]
    cases n.exponent <;> simp [exponentChars]
  rw [text, Decimal.signed, String.toList_ofList, ← hchars]
  split
  · rw [List.mem_cons, or_iff_right (by decide)]
  · rfl

end

end Numeral

end SchemaGo
