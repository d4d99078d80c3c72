import SchemaGo.Number.Binary

/-!
# Floating point arithmetic

The basic operations on doubles: the exact result as a fraction, rounded once.  Only division by
zero and operations on infinities and NaN need rules of their own.  Powers are those of the machine.
-/

namespace SchemaGo.FloatValue

def numerator (negative : Bool) (m : Nat) (q : Int) : Int :=
  let n : Int := m * Int.pow 2 q.toNat
  if negative then -n else n

def denominator (q : Int) : Nat := Nat.pow 2 (-q).toNat

def roundFraction (negativeZero : Bool) (num : Int) (den : Nat) : FloatValue :=
  FloatFormat.double.round (if num == 0 then negativeZero else num < 0) num.natAbs den

/-- Opposite infinities have no sum, and a sum that vanishes is positive unless both terms are
negative. -/
def add : FloatValue → FloatValue → FloatValue
  | .nan, _ | _, .nan => .nan
  | .infinite a, .infinite b => if a == b then .infinite a else .nan
  | .infinite a, _ => .infinite a
  | _, .infinite b => .infinite b
  | .finite a m q, .finite b n r =>
    let num := numerator a m q * denominator r + numerator b n r * denominator q
    roundFraction (a && b) num (denominator q * denominator r)

def sub (x y : FloatValue) : FloatValue := add x y.negate

def mul : FloatValue → FloatValue → FloatValue
  | .nan, _ | _, .nan => .nan
  | .infinite a, .infinite b => .infinite (a != b)
  | .infinite a, .finite b n _ => if n == 0 then .nan else .infinite (a != b)
  | .finite a m _, .infinite b => if m == 0 then .nan else .infinite (a != b)
  | .finite a m q, .finite b n r =>
    roundFraction (a != b) (numerator a m q * numerator b n r) (denominator q * denominator r)

def div : FloatValue → FloatValue → FloatValue
  | .nan, _ | _, .nan => .nan
  | .infinite _, .infinite _ => .nan
  | .infinite a, .finite b _ _ => .infinite (a != b)
  | .finite a _ _, .infinite b => .finite (a != b) 0 FloatFormat.double.minExponent
  | .finite a m q, .finite b n r =>
    if n == 0 then if m == 0 then .nan else .infinite (a != b)
    else
      let num := (numerator false m q).toNat * denominator r
      FloatFormat.double.round (a != b) num ((numerator false n r).toNat * denominator q)

/-! ## Whole parts -/

def zero (negative : Bool) : FloatValue := .finite negative 0 FloatFormat.double.minExponent

def wholePart (m : Nat) (q : Int) : Nat := m * Nat.pow 2 q.toNat / denominator q

def truncate : FloatValue → FloatValue
  | .finite negative m q => FloatFormat.double.round negative (wholePart m q) 1
  | value => value

def roundAway : FloatValue → FloatValue
  | .finite negative m q =>
    FloatFormat.double.round negative ((2 * (m * Nat.pow 2 q.toNat) / denominator q + 1) / 2) 1
  | value => value

def remainder : FloatValue → FloatValue → FloatValue
  | .nan, _ | _, .nan | .infinite _, _ => .nan
  | .finite a m q, .infinite _ => .finite a m q
  | .finite a m q, .finite _ n r =>
    if n == 0 then .nan
    else
      let left := (numerator false m q).toNat * denominator r
      let right := (numerator false n r).toNat * denominator q
      FloatFormat.double.round a (left % right) (denominator q * denominator r)

def isBelowZero : FloatValue → Bool
  | .infinite negative => negative
  | .finite negative m _ => negative && m != 0
  | .nan => false

/-- The whole quotient that leaves over nothing negative. -/
def floorDiv (x y : FloatValue) : FloatValue :=
  let quotient := truncate (div x y)
  let one := FloatFormat.double.round false 1 1
  if (remainder x y).isBelowZero then
    if y.isBelowZero then add quotient one else sub quotient one
  else quotient

def toBoundedInt (low high : Int) : FloatValue → Int
  | .nan => 0
  | .infinite negative => if negative then low else high
  | .finite negative m q =>
    let n : Int := wholePart m q
    max low (min high (if negative then -n else n))

def toInt? : FloatValue → Option Int
  | .finite negative m q =>
    if m * Nat.pow 2 q.toNat % denominator q == 0 then
      some (if negative then -(wholePart m q : Int) else wholePart m q)
    else none
  | _ => none

/-! ## Powers -/

def powerFrom : Nat → FloatValue → FloatValue → Nat → FloatValue
  | 0, result, _, _ => result
  | fuel + 1, result, base, n =>
    let result := if n % 2 == 1 then mul result base else result
    if n / 2 == 0 then result else powerFrom fuel result (mul base base) (n / 2)

def powerOfTen (n : Int) : FloatValue :=
  let one := FloatFormat.double.round false 1 1
  let power := powerFrom 64 one (FloatFormat.double.round false 10 1) n.natAbs
  if n < 0 then div one power else power

def pow (x y : FloatValue) : FloatValue :=
  let float := fun (v : FloatValue) => Float.ofBits (Binary64.ofValue v).bits
  (Binary64.mk (Float.pow (float x) (float y)).toBits).value

/-! ## Order -/

def compare? : FloatValue → FloatValue → Option Ordering
  | .nan, _ | _, .nan => none
  | .infinite a, .infinite b => some (compare b.toNat a.toNat)
  | .infinite a, _ => some (if a then .lt else .gt)
  | _, .infinite b => some (if b then .gt else .lt)
  | .finite a m q, .finite b n r =>
    some (compare (numerator a m q * denominator r) (numerator b n r * denominator q))

def totalOrder (x y : FloatValue) : Ordering :=
  match compare? x y with
  | some .eq => if x.isZero && y.isZero then compare y.isNegative.toNat x.isNegative.toNat else .eq
  | some order => order
  | none => compare (x == .nan).toNat (y == .nan).toNat

end SchemaGo.FloatValue
