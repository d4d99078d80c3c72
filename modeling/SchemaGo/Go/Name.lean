import SchemaGo.Text.Case
import SchemaGo.Text.Split

/-!
# Go names

Identifiers of the generated sources.  A schema name is exported by raising the first letter of each
of its words; a struct field must not take the name of a method that every message has.
-/

namespace SchemaGo.Go

def keywords : List String :=
  ["break", "case", "chan", "const", "continue", "default", "defer", "else", "fallthrough", "for",
    "func", "go", "goto", "if", "import", "interface", "map", "package", "range", "return",
    "select", "struct", "switch", "type", "var"]

def messageMethods : List String := ["New", "Type", "Descriptor", "Encode", "Decode", "IsZero"]

def isLowerLetter (c : Char) : Bool := 'a' ≤ c && c ≤ 'z'

def startsLower : List Char → Bool
  | [] => false
  | c :: _ => isLowerLetter c

/-- `raise` says whether the next letter starts a word.  An underscore before a small letter only
marks the start of a word, and a digit ends one. -/
def exportFrom : Bool → List Char → List Char
  | _, [] => []
  | raise, c :: rest =>
    if c = '_' then
      if startsLower rest then exportFrom true rest else '_' :: exportFrom raise rest
    else if c.isDigit then c :: exportFrom true rest
    else if raise then Text.upperChar c ++ exportFrom false rest
    else c :: exportFrom false rest

/-- A leading underscore becomes an `X`, so that the result starts with a capital. -/
def exportChars : List Char → List Char
  | [] => []
  | c :: rest => if c = '_' then 'X' :: exportFrom true rest else exportFrom true (c :: rest)

def exported (name : String) : String := String.ofList (exportChars name.toList)

def fieldName (name : String) : String :=
  let goName := exported name
  if goName ∈ messageMethods then goName ++ "_" else goName

def capitalizeChars : List Char → List Char
  | [] => []
  | c :: rest => Text.upperChar c ++ rest

def capitalize (name : String) : String := String.ofList (capitalizeChars name.toList)

def localName (name : String) : String :=
  if name ∈ keywords then name ++ "_" else name

def isSeparator (c : Char) : Bool := c == '/' || c == '\\'

def baseName (cs : List Char) : List Char :=
  (cs.reverse.takeWhile fun c => !isSeparator c).reverse

def fileStem (source : String) : String :=
  Text.lower (String.ofList (Text.dropExtension (baseName source.toList)))

/-- Splits a package option into import path and package name.  The name follows a semicolon, or
else is the last segment of the path. -/
def splitPackage (option : String) : String × String :=
  match Text.cutFirst? ';' option.toList with
  | some (path, name) => (String.ofList path, String.ofList name)
  | none => (option, Text.afterLast '/' option)

end SchemaGo.Go
