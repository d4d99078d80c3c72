import SchemaGo.Number.Binary

/-!
# Decimal numerals of binary values

A finite value is written with the fewest digits that read back as the same value; of two such
numerals the nearer one is taken, and of two equally near ones the larger.  The digits `d₁d₂…dₙ`
and the exponent `e` stand for `d₁.d₂…dₙ × 10 ^ e`.
-/

namespace SchemaGo

structure Scientific where
  digits : List Char
  exponent : Int
deriving DecidableEq, Repr

namespace Decimal

def natDigits (n : Nat) : List Char := Nat.toDigits 10 n

/-! ## Shortest digits -/

/-- The numbers that round to a value, as multiples of a quarter of its last binary place: they lie
between `low` and `high` over `den`, the ends included when `closed`. -/
structure Interval where
  low : Nat
  mid : Nat
  high : Nat
  den : Nat
  closed : Bool
deriving DecidableEq, Repr

def roundingInterval (f : FloatFormat) (m : Nat) (q : Int) : Interval :=
  let below := if m == Nat.pow 2 (f.precision - 1) && f.minExponent < q then 1 else 2
  let unit := Nat.pow 2 (q - 2).toNat
  { low := (4 * m - below) * unit
    mid := 4 * m * unit
    high := (4 * m + 2) * unit
    den := Nat.pow 2 (2 - q).toNat
    closed := m % 2 == 0 }

def floorLog10 (num den : Nat) : Int :=
  if den ≤ num then (natDigits (num / den)).length - 1
  else
    let k := (natDigits (den / num)).length
    if den ≤ num * Nat.pow 10 (k - 1) then -((k : Int) - 1) else -(k : Int)

def Interval.scaleBy (i : Interval) (power : Int) : Interval :=
  let up := Nat.pow 10 (-power).toNat
  { i with low := i.low * up, mid := i.mid * up, high := i.high * up
           den := i.den * Nat.pow 10 power.toNat }

def Interval.contains (i : Interval) (k : Nat) : Bool :=
  let x := k * i.den
  (i.low < x || (i.closed && i.low == x)) && (x < i.high || (i.closed && x == i.high))

/-- The neighbour of the middle on the integer grid that lies in the interval, the nearer one of
two, and the upper one when both are equally near. -/
def Interval.nearest? (i : Interval) : Option Nat :=
  let down := i.mid / i.den
  match i.contains down, i.contains (down + 1) with
  | true, true => some (if i.den ≤ 2 * (i.mid - down * i.den) then down + 1 else down)
  | true, false => some down
  | false, true => some (down + 1)
  | false, false => none

def shortestFrom (i : Interval) (exponent : Int) : Nat → Nat → Scientific
  | 0, _ => ⟨natDigits (i.mid / i.den), exponent⟩
  | fuel + 1, count =>
    match (i.scaleBy (exponent - (count - 1))).nearest? with
    | some n => if n == Nat.pow 10 count then ⟨['1'], exponent + 1⟩ else ⟨natDigits n, exponent⟩
    | none => shortestFrom i exponent fuel (count + 1)

def shortest (f : FloatFormat) (m : Nat) (q : Int) : Scientific :=
  if m == 0 then ⟨['0'], 0⟩
  else
    let i := roundingInterval f m q
    shortestFrom i (floorLog10 i.mid i.den) 17 1

/-! ## Layout -/

def zeros (n : Nat) : List Char := List.replicate n '0'

def positional (digits : List Char) (point : Int) : List Char :=
  if point ≤ 0 then ['0', '.'] ++ zeros (-point).toNat ++ digits
  else if digits.length ≤ point.toNat then digits ++ zeros (point.toNat - digits.length)
  else digits.take point.toNat ++ '.' :: digits.drop point.toNat

def exponential (digits : List Char) (exponent : Int) : List Char :=
  let fraction := digits.drop 1
  let power := natDigits exponent.natAbs
  digits.take 1 ++ (if fraction.isEmpty then [] else '.' :: fraction) ++
    'e' :: (if exponent < 0 then '-' else '+') :: (zeros (2 - power.length) ++ power)

/-- Positional from `10 ^ -4` up to, not including, `10 ^ 6`; exponential outside. -/
def general (s : Scientific) : List Char :=
  if s.digits.all (· == '0') then ['0']
  else if s.exponent < -4 || 6 ≤ s.exponent then exponential s.digits s.exponent
  else positional s.digits (s.exponent + 1)

def signed (negative : Bool) (numeral : List Char) : String :=
  String.ofList (if negative then '-' :: numeral else numeral)

def plain (f : FloatFormat) : FloatValue → String
  | .nan => "NaN"
  | .infinite negative => signed negative "inf".toList
  | .finite negative m q =>
    let s := shortest f m q
    signed negative (if m == 0 then ['0'] else positional s.digits (s.exponent + 1))

end Decimal

end SchemaGo
