import SchemaGo.Text.Utf8

/-!
# Byte literals

The contents of an embedded file as a Go byte slice literal, sixteen bytes to a line.
-/

namespace SchemaGo

def hexDigit (n : Nat) : Char :=
  if n % 16 < 10 then Char.ofNat ('0'.toNat + n % 16) else Char.ofNat ('a'.toNat + (n % 16 - 10))

def byteElement (b : UInt8) : List Char :=
  ['0', 'x', hexDigit (b.toNat / 16), hexDigit b.toNat, ',']

def chunksFrom {α : Type} (size : Nat) : Nat → List α → List (List α)
  | 0, _ => []
  | fuel + 1, items =>
    if items.isEmpty then [] else items.take size :: chunksFrom size fuel (items.drop size)

def chunks {α : Type} (size : Nat) (items : List α) : List (List α) :=
  chunksFrom size items.length items

def literalWidth : Nat := 16

def literalLine (bytes : Bytes) : List Char :=
  '\t' :: List.intercalate [' '] (bytes.map byteElement) ++ ['\n']

def byteLiteralChars (bytes : Bytes) : List Char :=
  if bytes.isEmpty then "[]byte\x7b\x7d".toList
  else "[]byte\x7b\n".toList ++ (chunks literalWidth bytes).flatMap literalLine ++ ['\x7d']

def byteLiteral (bytes : Bytes) : String := String.ofList (byteLiteralChars bytes)

end SchemaGo
