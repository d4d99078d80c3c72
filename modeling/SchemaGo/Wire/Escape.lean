import SchemaGo.Text.Utf8

/-!
# Escaped bytes

Byte strings as printable ASCII text, and the reader for escaped texts.  The reader takes more
escapes than the writer produces.
-/

namespace SchemaGo.Wire

def octalDigit (n : Nat) : Char := Char.ofNat ('0'.toNat + n % 8)

def escapeByte (b : UInt8) : List Char :=
  if b == 0x0A then ['\\', 'n']
  else if b == 0x0D then ['\\', 'r']
  else if b == 0x09 then ['\\', 't']
  else if b == 0x22 then ['\\', '"']
  else if b == 0x27 then ['\\', '\'']
  else if b == 0x5C then ['\\', '\\']
  else if 0x20 ≤ b && b ≤ 0x7E then [Char.ofNat b.toNat]
  else
    let n := b.toNat
    ['\\', octalDigit (n / 64), octalDigit (n / 8), octalDigit n]

def escape (bytes : Bytes) : String := String.ofList (bytes.flatMap escapeByte)

/-! ## Reading back -/

def octalValue? (b : UInt8) : Option Nat :=
  if 0x30 ≤ b && b ≤ 0x37 then some (b.toNat - 0x30) else none

def hexValue? (b : UInt8) : Option Nat :=
  if 0x30 ≤ b && b ≤ 0x39 then some (b.toNat - 0x30)
  else if 0x41 ≤ b && b ≤ 0x46 then some (b.toNat - 0x41 + 10)
  else if 0x61 ≤ b && b ≤ 0x66 then some (b.toNat - 0x61 + 10)
  else none

def readDigits (digit? : UInt8 → Option Nat) (base : Nat) : Nat → Nat → Bytes → Nat × Bytes
  | 0, value, rest => (value, rest)
  | _ + 1, value, [] => (value, [])
  | most + 1, value, b :: rest =>
    match digit? b with
    | some d => readDigits digit? base most (value * base + d) rest
    | none => (value, b :: rest)

def letterEscape? (b : UInt8) : Option UInt8 :=
  match Char.ofNat b.toNat with
  | 'n' => some 0x0A
  | 'r' => some 0x0D
  | 't' => some 0x09
  | 'a' => some 0x07
  | 'b' => some 0x08
  | 'f' => some 0x0C
  | 'v' => some 0x0B
  | _ => none

/-- What follows a backslash: up to three octal digits, `x` with up to two hexadecimal ones, a
letter escape, or any other byte, which stands for itself. -/
def readEscape (b : UInt8) (rest : Bytes) : UInt8 × Bytes :=
  match octalValue? b with
  | some d =>
    let (value, rest) := readDigits octalValue? 8 2 d rest
    (value.toUInt8, rest)
  | none =>
    if b == 0x78 || b == 0x58 then
      let (value, rest) := readDigits hexValue? 16 2 0 rest
      (value.toUInt8, rest)
    else ((letterEscape? b).getD b, rest)

def unescapeFrom : Nat → Bytes → Bytes
  | 0, rest => rest
  | _ + 1, [] => []
  | fuel + 1, b :: rest =>
    match rest with
    | [] => [b]
    | e :: rest =>
      if b == 0x5C then
        let (value, rest) := readEscape e rest
        value :: unescapeFrom fuel rest
      else b :: unescapeFrom fuel (e :: rest)

def unescape (text : String) : Bytes :=
  let bytes := Text.Utf8.encode text
  unescapeFrom bytes.length bytes

end SchemaGo.Wire
