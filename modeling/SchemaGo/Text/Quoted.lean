import SchemaGo.Text.Case
import SchemaGo.Text.PrintableTable

/-!
# Quoted text

The quoted form of a text in a message: double quotes around it, short escapes for the common
control characters, and `\u` followed by the code point in braces for everything that has no glyph
of its own.
-/

namespace SchemaGo.Text

def hexDigits (n : Nat) : List Char := Nat.toDigits 16 n

def isShown (c : Char) : Bool :=
  if c.toNat < 128 then 0x20 ≤ c.toNat && c.toNat < 0x7F
  else !inRanges extendingRanges c && !inRanges unprintableRanges c

def quoteChar (c : Char) : List Char :=
  if c = '"' then ['\\', '"']
  else if c = '\\' then ['\\', '\\']
  else if c = '\t' then ['\\', 't']
  else if c = '\r' then ['\\', 'r']
  else if c = '\n' then ['\\', 'n']
  else if c.toNat = 0 then ['\\', '0']
  else if isShown c then [c]
  else ['\\', 'u', '\x7b'] ++ hexDigits c.toNat ++ ['\x7d']

def quote (s : String) : String :=
  String.ofList ('"' :: s.toList.flatMap quoteChar ++ ['"'])

end SchemaGo.Text
