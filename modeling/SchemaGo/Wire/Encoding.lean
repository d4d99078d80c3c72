import SchemaGo.Text.Utf8
import SchemaGo.Wire.Kind

/-!
# Encodings of numbers

How numbers are laid out in encoded messages: seven bits a byte with the least significant first, or
a fixed count of bytes, and the keys that lead the fields.
-/

namespace SchemaGo.Wire

/-! ## Variable length -/

/-- The groups of seven bits of a number, at most `count` of them.  All bytes but the last have
their top bit set. -/
def varintFrom : Nat → Nat → Bytes
  | 0, _ => []
  | count + 1, n =>
    if n < 128 then [n.toUInt8] else (n % 128 + 128).toUInt8 :: varintFrom count (n / 128)

def varint (n : Nat) : Bytes := varintFrom 10 n

def pattern64 (n : Int) : Nat := (n % Int.pow 2 64).toNat

def zigzag (n : Int) : Nat := if 0 ≤ n then 2 * n.natAbs else 2 * n.natAbs - 1

/-! ## Fixed length -/

def fixed : Nat → Nat → Bytes
  | 0, _ => []
  | count + 1, n => (n % 256).toUInt8 :: fixed count (n / 256)

def fixedInt (count : Nat) (n : Int) : Bytes := fixed count (n % (Nat.pow 256 count : Nat)).toNat

/-! ## Keys -/

def WireClass.layout : WireClass → Nat
  | .varint | .zigzag32 | .zigzag64 => 0
  | .fixed64 => 1
  | .bytes => 2
  | .group => 3
  | .fixed32 => 5

def key (number layout : Nat) : Bytes := varint (number * 8 + layout)

def counted (bytes : Bytes) : Bytes := varint bytes.length ++ bytes

end SchemaGo.Wire
