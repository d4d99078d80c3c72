import SchemaGo.Proofs.Go.StructTag
import SchemaGo.Wire.Default

/-!
# Plain defaults

The text of a number needs no escapes in a struct tag.  A default can need them if
its field is a string, or if it is a byte string some of whose bytes are themselves
written with a backslash.
-/

namespace SchemaGo

open StructTag

/-! ## Numerals -/

namespace Decimal

theorem isPlainChar_of_isDigit {c : Char} (h : c.isDigit) : isPlainChar c := by
  simp only [isPlainChar, needsEscape, isLiteral, isInline, backquote, Bool.and_eq_true,
    Bool.not_eq_true', Bool.or_eq_false_iff, beq_eq_false_iff_ne, bne_iff_ne]
  refine ⟨⟨?_, ?_⟩, ?_, ?_, ?_⟩ <;>
    · rintro rfl
      exact absurd h (by decide)

theorem natDigits_isPlain (n : Nat) : (natDigits n).all isPlainChar := by
  refine List.all_eq_true.mpr fun c hc => isPlainChar_of_isDigit ?_
  exact Nat.isDigit_of_mem_toDigits (by decide) (by decide) hc

theorem zeros_isPlain (n : Nat) : (zeros n).all isPlainChar := by
  simp only [zeros, List.all_replicate]
  split <;> decide

theorem shortestFrom_isPlain (i : Interval) (exponent : Int) (fuel count : Nat) :
    (shortestFrom i exponent fuel count).digits.all isPlainChar := by
  induction fuel generalizing count with
  | zero => exact natDigits_isPlain _
  | succ fuel ih =>
      rw [shortestFrom]
      split
      · split
        · rfl
        · exact natDigits_isPlain _
      · exact ih (count + 1)

theorem shortest_isPlain (f : FloatFormat) (m : Nat) (q : Int) :
    (shortest f m q).digits.all isPlainChar := by
  rw [shortest]
  split
  · decide
  · exact shortestFrom_isPlain _ _ _ _

section

variable {digits : List Char} (h : digits.all isPlainChar)

include h

theorem take_isPlain (n : Nat) : (digits.take n).all isPlainChar :=
  List.all_eq_true.mpr fun c hc => List.all_eq_true.mp h c (List.mem_of_mem_take hc)

theorem drop_isPlain (n : Nat) : (digits.drop n).all isPlainChar :=
  List.all_eq_true.mpr fun c hc => List.all_eq_true.mp h c (List.mem_of_mem_drop hc)

theorem positional_isPlain (point : Int) : (positional digits point).all isPlainChar := by
  have hpoint : isPlainChar '.' = true := by decide
  have hzero : isPlainChar '0' = true := by decide
  rw [positional]
  split
  · simp only [List.all_append, List.all_cons, List.all_nil, hpoint, hzero, zeros_isPlain, h,
      Bool.and_self]
  split
  · rw [List.all_append, h, zeros_isPlain, Bool.and_self]
  · simp only [List.all_append, List.all_cons, hpoint, take_isPlain h, drop_isPlain h,
      Bool.and_self]

theorem exponential_isPlain (exponent : Int) :
    (exponential digits exponent).all isPlainChar := by
  have hfraction : (if (digits.drop 1).isEmpty then []
      else '.' :: digits.drop 1).all isPlainChar = true := by
    split
    · rfl
    · rw [List.all_cons, drop_isPlain h]
      decide
  have hsign : isPlainChar (if exponent < 0 then '-' else '+') = true := by
    split <;> decide
  have hmark : isPlainChar 'e' = true := by decide
  simp only [exponential, List.all_append, List.all_cons, take_isPlain h, hfraction, hsign, hmark,
    zeros_isPlain, natDigits_isPlain, Bool.and_self]

end

theorem general_isPlain {s : Scientific} (h : s.digits.all isPlainChar) :
    (general s).all isPlainChar := by
  rw [general]
  split
  · decide
  split
  · exact exponential_isPlain h s.exponent
  · exact positional_isPlain h (s.exponent + 1)

theorem signed_isPlain (negative : Bool) {numeral : List Char} (h : numeral.all isPlainChar) :
    isPlain (signed negative numeral) := by
  rw [isPlain, signed, String.toList_ofList]
  cases negative with
  | false => exact h
  | true =>
      rw [if_pos rfl, List.all_cons, h]
      decide

theorem plain_isPlain (f : FloatFormat) (value : FloatValue) : isPlain (plain f value) := by
  cases value with
  | nan => exact (by decide : isPlain "NaN")
  | infinite negative => exact signed_isPlain negative (by decide)
  | finite negative m q =>
      refine signed_isPlain negative ?_
      split
      · decide
      · exact positional_isPlain (shortest_isPlain f m q) _

theorem toString_nat_isPlain (n : Nat) : isPlain (toString n) := by
  have hdigits : (toString n).toList = natDigits n := by simp [natDigits]
  rw [isPlain, hdigits]
  exact natDigits_isPlain n

theorem toList_toString_negSucc (n : Nat) :
    (toString (Int.negSucc n)).toList = '-' :: (toString (n + 1)).toList := by
  simp [toString, Int.repr]

theorem toString_int_isPlain (n : Int) : isPlain (toString n) := by
  cases n with
  | ofNat n => exact toString_nat_isPlain n
  | negSucc n =>
      rw [isPlain, toList_toString_negSucc, List.all_cons, ← isPlain, toString_nat_isPlain]
      decide

end Decimal

/-! ## Defaults -/

namespace Wire

theorem formatFloat_isPlain (value : FloatValue) (single : Bool) :
    isPlain (formatFloat value single) := by
  cases value with
  | nan => exact (by decide : isPlain "nan")
  | infinite negative => exact Decimal.signed_isPlain negative (by decide)
  | finite negative m q =>
      simp only [formatFloat]
      split
      · refine Decimal.signed_isPlain negative ?_
        exact Decimal.general_isPlain (Decimal.shortest_isPlain _ _ _)
      · exact Decimal.signed_isPlain negative (by decide)

def isPlainByte (b : UInt8) : Bool :=
  0x20 ≤ b && b ≤ 0x7E && !([0x22, 0x27, 0x5C, 0x60] : List UInt8).contains b

theorem escapeByte_isPlain (b : UInt8) : (escapeByte b).all isPlainChar = isPlainByte b := by
  have hall : ∀ n : Fin 256, (escapeByte (UInt8.ofFin n)).all isPlainChar =
      isPlainByte (UInt8.ofFin n) := by
    decide +kernel
  exact hall b.toFin

theorem escape_isPlain (bytes : Bytes) : isPlain (escape bytes) = bytes.all isPlainByte := by
  simp only [isPlain, escape, String.toList_ofList, List.all_flatMap, escapeByte_isPlain]

def isPlainDefault (raw : String) : DefaultKind → Bool
  | .scalar .string => isPlain raw
  | .scalar .bytes => (unescape raw).all isPlainByte
  | _ => true

theorem formatScalar_isPlain {raw text : String} {kind : ScalarKind}
    (h : formatScalar raw kind = .ok text) : isPlain text = isPlainDefault raw (.scalar kind) := by
  unfold formatScalar at h
  cases kind with
  | bool =>
      dsimp only at h
      split at h
      · cases h
        exact (by decide : isPlain "1")
      split at h
      · cases h
        exact (by decide : isPlain "0")
      · cases h
  | int32 | sint32 | sfixed32 | int64 | sint64 | sfixed64 =>
      dsimp only at h
      split at h
      · cases h
        exact Decimal.toString_int_isPlain _
      · cases h
  | uint32 | fixed32 | uint64 | fixed64 =>
      dsimp only at h
      split at h
      · cases h
        exact Decimal.toString_nat_isPlain _
      · cases h
  | float | double =>
      dsimp only at h
      split at h
      · cases h
        exact formatFloat_isPlain _ _
      · cases h
  | string =>
      cases h
      rfl
  | bytes =>
      cases h
      exact escape_isPlain (unescape raw)

theorem formatDefault_isPlain {raw text : String} {kind : DefaultKind}
    (h : formatDefault raw kind = .ok text) : isPlain text = isPlainDefault raw kind := by
  cases kind with
  | scalar kind => exact formatScalar_isPlain h
  | enum values =>
      rw [formatDefault] at h
      split at h
      · cases h
        exact Decimal.toString_int_isPlain _
      · cases h
  | message => cases h

end Wire

end SchemaGo
