/-!
# UTF-8

Reading bytes as UTF-8 text.  A failure says where the first character that cannot be read starts,
and how many bytes of it were recognised before the reader gave up, unless the bytes end in the
middle of a character.
-/

namespace SchemaGo

abbrev Bytes := List UInt8

namespace Text.Utf8

structure Fault where
  index : Nat
  length : Option Nat
deriving DecidableEq, Repr

def Fault.message (fault : Fault) : String :=
  match fault.length with
  | some n => s!"invalid utf-8 sequence of {n} bytes from index {fault.index}"
  | none => s!"incomplete utf-8 byte sequence from index {fault.index}"

def leading (b : Nat) : Option (Nat × Nat × Nat) :=
  if b < 0x80 then some (1, 0, 0)
  else if 0xC2 ≤ b && b ≤ 0xDF then some (2, 0x80, 0xBF)
  else if b == 0xE0 then some (3, 0xA0, 0xBF)
  else if b == 0xED then some (3, 0x80, 0x9F)
  else if 0xE1 ≤ b && b ≤ 0xEF then some (3, 0x80, 0xBF)
  else if b == 0xF0 then some (4, 0x90, 0xBF)
  else if 0xF1 ≤ b && b ≤ 0xF3 then some (4, 0x80, 0xBF)
  else if b == 0xF4 then some (4, 0x80, 0x8F)
  else none

/-- Reads `missing` continuation bytes, the first of them between `low` and `high`.  `taken` counts
the bytes of the character so far and `code` holds its bits. -/
def continuation (index : Nat) (missing low high taken code : Nat) (bytes : Bytes) :
    Except Fault (Char × Bytes) :=
  match missing, bytes with
  | 0, rest => .ok (Char.ofNat code, rest)
  | _ + 1, [] => .error ⟨index, none⟩
  | missing + 1, b :: rest =>
    if low ≤ b.toNat && b.toNat ≤ high then
      continuation index missing 0x80 0xBF (taken + 1) (code * 64 + b.toNat % 64) rest
    else .error ⟨index, some taken⟩

def firstBits (length b : Nat) : Nat :=
  if length == 1 then b else if length == 2 then b % 32 else if length == 3 then b % 16 else b % 8

def decodeFrom : Nat → Nat → Bytes → Except Fault (List Char)
  | 0, _, _ => .ok []
  | _ + 1, _, [] => .ok []
  | fuel + 1, index, b :: rest =>
    match leading b.toNat with
    | none => .error ⟨index, some 1⟩
    | some (length, low, high) =>
      match continuation index (length - 1) low high 1 (firstBits length b.toNat) rest with
      | .error fault => .error fault
      | .ok (c, rest) => (decodeFrom fuel (index + length) rest).map (c :: ·)

def decode (bytes : Bytes) : Except Fault String :=
  (decodeFrom bytes.length 0 bytes).map String.ofList

def encode (s : String) : Bytes := s.toUTF8.toList

end Text.Utf8

end SchemaGo
