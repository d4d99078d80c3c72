/-!
# Binary floating point

Values of the interchange formats `binary32` and `binary64`, as bit patterns and as exact numbers.
A finite value is an integer significand times a power of two, and every operation here is exact
integer arithmetic followed by one rounding to the nearest value, ties to the even significand.
-/

namespace SchemaGo

/-- A format with `precision` bits of significand whose finite values are
`significand * 2 ^ exponent` with `minExponent ≤ exponent ≤ maxExponent`. -/
structure FloatFormat where
  precision : Nat
  exponentBits : Nat
  minExponent : Int
  maxExponent : Int
deriving DecidableEq, Repr

def FloatFormat.single : FloatFormat := ⟨24, 8, -149, 104⟩

def FloatFormat.double : FloatFormat := ⟨53, 11, -1074, 971⟩

inductive FloatValue where
  | nan
  | infinite (negative : Bool)
  | finite (negative : Bool) (significand : Nat) (exponent : Int)
deriving DecidableEq, Repr

namespace FloatFormat

/-! ## Bit patterns -/

/-- Sign, biased exponent and fraction, from the most significant bit down. -/
def decode (f : FloatFormat) (bits : Nat) : FloatValue :=
  let fractionBits := f.precision - 1
  let fraction := bits % Nat.pow 2 fractionBits
  let biased := bits / Nat.pow 2 fractionBits % Nat.pow 2 f.exponentBits
  let negative := bits / Nat.pow 2 (fractionBits + f.exponentBits) % 2 == 1
  if biased == Nat.pow 2 f.exponentBits - 1 then
    if fraction == 0 then .infinite negative else .nan
  else if biased == 0 then .finite negative fraction f.minExponent
  else .finite negative (fraction + Nat.pow 2 fractionBits) (f.minExponent + (biased - 1))

def encode (f : FloatFormat) (value : FloatValue) : Nat :=
  let fractionBits := f.precision - 1
  let sign := fun (negative : Bool) =>
    if negative then Nat.pow 2 (fractionBits + f.exponentBits) else 0
  let top := (Nat.pow 2 f.exponentBits - 1) * Nat.pow 2 fractionBits
  match value with
  | .nan => top + Nat.pow 2 (fractionBits - 1)
  | .infinite negative => sign negative + top
  | .finite negative m q =>
    if m < Nat.pow 2 fractionBits then sign negative + m
    else
      sign negative + ((q - f.minExponent).toNat + 1) * Nat.pow 2 fractionBits +
        m % Nat.pow 2 fractionBits

/-! ## Rounding -/

def scaled (num den : Nat) (q : Int) : Nat × Nat :=
  if 0 ≤ q then (num, den * Nat.pow 2 q.toNat) else (num * Nat.pow 2 (-q).toNat, den)

def nearestEven (num den : Nat) : Nat :=
  let down := num / den
  let rest := num % den
  if 2 * rest < den then down
  else if den < 2 * rest then down + 1
  else if down % 2 == 0 then down else down + 1

def round (f : FloatFormat) (negative : Bool) (num den : Nat) : FloatValue :=
  if num == 0 then .finite negative 0 f.minExponent
  else
    let guess := max f.minExponent ((num.log2 : Int) - den.log2 - f.precision)
    let (n, d) := scaled num den guess
    let q := if Nat.pow 2 f.precision ≤ n / d then guess + 1 else guess
    let (n, d) := scaled num den q
    let m := nearestEven n d
    let (m, q) :=
      if m == Nat.pow 2 f.precision then (Nat.pow 2 (f.precision - 1), q + 1) else (m, q)
    if f.maxExponent < q then .infinite negative else .finite negative m q

def convert (f : FloatFormat) : FloatValue → FloatValue
  | .nan => .nan
  | .infinite negative => .infinite negative
  | .finite negative m q =>
    if 0 ≤ q then f.round negative (m * Nat.pow 2 q.toNat) 1
    else f.round negative m (Nat.pow 2 (-q).toNat)

end FloatFormat

namespace FloatValue

def isNegative : FloatValue → Bool
  | .nan => false
  | .infinite negative => negative
  | .finite negative _ _ => negative

def negate : FloatValue → FloatValue
  | .nan => .nan
  | .infinite negative => .infinite !negative
  | .finite negative m q => .finite (!negative) m q

def isZero : FloatValue → Bool
  | .finite _ 0 _ => true
  | _ => false

end FloatValue

/-! ## The two formats -/

structure Binary64 where
  bits : UInt64
deriving DecidableEq, Repr

structure Binary32 where
  bits : UInt32
deriving DecidableEq, Repr

def Binary64.value (x : Binary64) : FloatValue := FloatFormat.double.decode x.bits.toNat

def Binary64.ofValue (v : FloatValue) : Binary64 :=
  ⟨(FloatFormat.double.encode (FloatFormat.double.convert v)).toUInt64⟩

def Binary32.value (x : Binary32) : FloatValue := FloatFormat.single.decode x.bits.toNat

def Binary32.ofValue (v : FloatValue) : Binary32 :=
  ⟨(FloatFormat.single.encode (FloatFormat.single.convert v)).toUInt32⟩

def Binary32.toBinary64 (x : Binary32) : Binary64 := Binary64.ofValue x.value

def Binary64.ofInt (n : Int) : Binary64 :=
  Binary64.ofValue (FloatFormat.double.round (n < 0) n.natAbs 1)

end SchemaGo
