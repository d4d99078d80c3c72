import SchemaGo.Number.Decimal

/-!
# Reading numbers

Decimal integers and floating point numerals as they occur in default values.  Nothing may stand
around the number, a sign is optional, and a numeral needs at least one digit.
-/

namespace SchemaGo.Decimal

def digitValue (c : Char) : Nat := c.toNat - '0'.toNat

def valueOfDigits (digits : List Char) : Nat :=
  digits.foldl (fun n c => 10 * n + digitValue c) 0

def splitSign : List Char → Bool × List Char
  | '-' :: rest => (true, rest)
  | '+' :: rest => (false, rest)
  | cs => (false, cs)

def readNat? (cs : List Char) : Option Nat :=
  if !cs.isEmpty && cs.all Char.isDigit then some (valueOfDigits cs) else none

def readInt? (low high : Int) (s : String) : Option Int :=
  let (negative, cs) := splitSign s.toList
  match readNat? cs with
  | none => none
  | some n =>
    let value := if negative then -(n : Int) else n
    if low ≤ value && value ≤ high then some value else none

def readInt64? (s : String) : Option Int := readInt? (-Int.pow 2 63) (Int.pow 2 63 - 1) s

/-- A minus sign is refused even before a zero. -/
def readUInt64? (s : String) : Option Nat :=
  match s.toList with
  | '-' :: _ => none
  | _ => (readInt? 0 (Int.pow 2 64 - 1) s).map Int.toNat

/-! ## Floating point numerals -/

/-- The value nearest to `n * 10 ^ power`.  Powers beyond every format are cut off first. -/
def roundDecimal (f : FloatFormat) (negative : Bool) (n : Nat) (power : Int) : FloatValue :=
  let magnitude := power + (natDigits n).length
  if n == 0 then .finite negative 0 f.minExponent
  else if 400 < magnitude then .infinite negative
  else if magnitude < -400 then .finite negative 0 f.minExponent
  else if 0 ≤ power then f.round negative (n * Nat.pow 10 power.toNat) 1
  else f.round negative n (Nat.pow 10 (-power).toNat)

def readExponent? (cs : List Char) : Option Int :=
  let (negative, digits) := splitSign cs
  (readNat? digits).map fun n => if negative then -(n : Int) else n

def readNumeral? (f : FloatFormat) (negative : Bool) (cs : List Char) : Option FloatValue :=
  let whole := cs.takeWhile Char.isDigit
  let rest := cs.dropWhile Char.isDigit
  let (fraction, rest) := match rest with
    | '.' :: rest => (rest.takeWhile Char.isDigit, rest.dropWhile Char.isDigit)
    | _ => ([], rest)
  let digits := whole ++ fraction
  if digits.isEmpty then none
  else
    let build := fun (e : Int) =>
      roundDecimal f negative (valueOfDigits digits) (e - fraction.length)
    match rest with
    | [] => some (build 0)
    | c :: rest => if c == 'e' || c == 'E' then (readExponent? rest).map build else none

def readFloat? (f : FloatFormat) (s : String) : Option FloatValue :=
  let (negative, cs) := splitSign s.toList
  let word := String.ofList (cs.map Char.toLower)
  if word == "inf" || word == "infinity" then some (.infinite negative)
  else if word == "nan" then some .nan
  else readNumeral? f negative cs

end SchemaGo.Decimal
