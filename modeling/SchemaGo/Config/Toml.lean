import SchemaGo.Text.Quoted

/-!
# Settings files

The part of TOML that a settings file needs: texts in all their forms, tables in all theirs, and
lists without items.  No setting takes a number, a truth value, a date or a list with items, so a
file that holds one is refused here already.
-/

namespace SchemaGo.Toml

/-! ## Characters -/

def isControl (c : Char) : Bool := (c.toNat < 0x20 && c != '\t') || c.toNat == 0x7F

def isBareKeyChar (c : Char) : Bool := c.isAlphanum || c == '_' || c == '-'

def isSpace (c : Char) : Bool := c == ' ' || c == '\t'

def skipSpaces (cs : List Char) : List Char := cs.dropWhile isSpace

def lineEnd? : List Char → Option (List Char)
  | '\n' :: rest => some rest
  | '\r' :: '\n' :: rest => some rest
  | _ => none

def finishLine? (cs : List Char) : Option (List Char) :=
  let cs := skipSpaces cs
  let cs := match cs with
    | '#' :: rest => rest.dropWhile fun c => !isControl c
    | _ => cs
  if cs.isEmpty then some [] else lineEnd? cs

def skipGaps : Nat → List Char → List Char
  | 0, cs => cs
  | fuel + 1, cs =>
    match finishLine? cs with
    | some [] | none => skipSpaces cs
    | some rest => skipGaps fuel rest

def dropGaps (cs : List Char) : List Char := skipGaps cs.length cs

/-! ## Escapes -/

def hexValue? (c : Char) : Option Nat :=
  if c.isDigit then some (c.toNat - '0'.toNat)
  else if 'a' ≤ c && c ≤ 'f' then some (c.toNat - 'a'.toNat + 10)
  else if 'A' ≤ c && c ≤ 'F' then some (c.toNat - 'A'.toNat + 10)
  else none

def readHex? : Nat → Nat → List Char → Option (Nat × List Char)
  | 0, value, rest => some (value, rest)
  | _ + 1, _, [] => none
  | count + 1, value, c :: rest =>
    match hexValue? c with
    | some d => readHex? count (value * 16 + d) rest
    | none => none

def scalarValue? (n : Nat) : Option Char := if n.isValidChar then some (Char.ofNat n) else none

def readEscape? : List Char → Option (Char × List Char)
  | 'b' :: rest => some ('\x08', rest)
  | 't' :: rest => some ('\t', rest)
  | 'n' :: rest => some ('\n', rest)
  | 'f' :: rest => some ('\x0c', rest)
  | 'r' :: rest => some ('\r', rest)
  | 'e' :: rest => some ('\x1b', rest)
  | '"' :: rest => some ('"', rest)
  | '\\' :: rest => some ('\\', rest)
  | 'x' :: rest => (readHex? 2 0 rest).bind fun (n, rest) => (scalarValue? n).map (·, rest)
  | 'u' :: rest => (readHex? 4 0 rest).bind fun (n, rest) => (scalarValue? n).map (·, rest)
  | 'U' :: rest => (readHex? 8 0 rest).bind fun (n, rest) => (scalarValue? n).map (·, rest)
  | _ => none

/-! ## Strings -/

def readLineString? (quote : Char) : Nat → List Char → List Char → Option (List Char × List Char)
  | 0, _, _ => none
  | _ + 1, _, [] => none
  | fuel + 1, done, c :: rest =>
    if c = quote then some (done.reverse, rest)
    else if c = '\\' && quote = '"' then
      match readEscape? rest with
      | some (e, rest) => readLineString? quote fuel (e :: done) rest
      | none => none
    else if isControl c then none
    else readLineString? quote fuel (c :: done) rest

def skipFolds : List Char → List Char
  | '\r' :: '\n' :: rest => skipFolds rest
  | c :: rest => if isSpace c || c == '\n' then skipFolds rest else c :: rest
  | [] => []

/-- A backslash at a line end drops everything up to the next character that is no space and no
line end. -/
def skipFolded? (cs : List Char) : Option (List Char) := (lineEnd? (skipSpaces cs)).map skipFolds

def extraQuotes (quote : Char) (cs : List Char) : Nat :=
  min 2 (cs.takeWhile (· == quote)).length

def readBlockString? (quote : Char) : Nat → List Char → List Char → Option (List Char × List Char)
  | 0, _, _ => none
  | _ + 1, _, [] => none
  | fuel + 1, done, c :: rest =>
    if c = quote && rest.take 2 == [quote, quote] then
      let rest := rest.drop 2
      let extra := extraQuotes quote rest
      some (done.reverse ++ List.replicate extra quote, rest.drop extra)
    else if c = '\\' && quote = '"' then
      match skipFolded? rest with
      | some rest => readBlockString? quote fuel done rest
      | none =>
        match readEscape? rest with
        | some (e, rest) => readBlockString? quote fuel (e :: done) rest
        | none => none
    else
      let endsLine := c == '\n' || (c == '\r' && rest.head? == some '\n')
      if isControl c && !endsLine then none else readBlockString? quote fuel (c :: done) rest

def readString? (cs : List Char) : Option (List Char × List Char) :=
  match cs with
  | [] => none
  | quote :: rest =>
    if quote != '"' && quote != '\'' then none
    else if rest.take 2 == [quote, quote] then
      let body := rest.drop 2
      readBlockString? quote (cs.length + 1) [] ((lineEnd? body).getD body)
    else readLineString? quote (cs.length + 1) [] rest

/-! ## Tables -/

/-- How a table came about: by a header of its own, by a header of a table inside it, by a dotted
key, or in braces. -/
inductive Origin where
  | header
  | innerHeader
  | dottedKey
  | braces
deriving DecidableEq, Repr

inductive Value where
  | text (text : String)
  | emptyList
  | table (origin : Origin) (entries : List (String × Value))
deriving Repr

abbrev Entries := List (String × Value)

def replace (key : String) (value : Value) (entries : Entries) : Entries :=
  entries.map fun (other, old) => if other == key then (other, value) else (other, old)

/-- Adds a value under a dotted key.  The tables on the way are made of dotted keys alone. -/
def add? (value : Value) : List String → Entries → Option Entries
  | [], _ => none
  | [key], entries => if (entries.lookup key).isSome then none else some (entries ++ [(key, value)])
  | key :: rest, entries =>
    match entries.lookup key with
    | none => (add? value rest []).map fun inner => entries ++ [(key, .table .dottedKey inner)]
    | some (.table .dottedKey inner) =>
      (add? value rest inner).map fun inner => replace key (.table .dottedKey inner) entries
    | some _ => none

/-- Opens the table of a header, which may be there because of a table inside it only. -/
def open? : List String → Entries → Option Entries
  | [], _ => none
  | [key], entries =>
    match entries.lookup key with
    | none => some (entries ++ [(key, .table .header [])])
    | some (.table .innerHeader inner) => some (replace key (.table .header inner) entries)
    | some _ => none
  | key :: rest, entries =>
    match entries.lookup key with
    | none => (open? rest []).map fun inner => entries ++ [(key, .table .innerHeader inner)]
    | some (.table .braces _) => none
    | some (.table origin inner) =>
      (open? rest inner).map fun inner => replace key (.table origin inner) entries
    | some _ => none

def addBelow? (value : Value) (key : List String) : List String → Entries → Option Entries
  | [], entries => add? value key entries
  | first :: rest, entries =>
    match entries.lookup first with
    | some (.table origin inner) =>
      (addBelow? value key rest inner).map fun inner => replace first (.table origin inner) entries
    | _ => none

/-! ## Keys -/

def readKeyPart? (cs : List Char) : Option (String × List Char) :=
  match cs with
  | [] => none
  | c :: rest =>
    if c == '"' || c == '\'' then
      (readLineString? c (cs.length + 1) [] rest).map fun (key, rest) => (String.ofList key, rest)
    else
      let key := cs.takeWhile isBareKeyChar
      if key.isEmpty then none else some (String.ofList key, cs.dropWhile isBareKeyChar)

def readKey? : Nat → List Char → Option (List String × List Char)
  | 0, _ => none
  | fuel + 1, cs =>
    match readKeyPart? (skipSpaces cs) with
    | none => none
    | some (part, rest) =>
      match skipSpaces rest with
      | '.' :: rest => (readKey? fuel rest).map fun (parts, rest) => (part :: parts, rest)
      | rest => some ([part], rest)

/-! ## Values -/

def readEmptyList? (cs : List Char) : Option (Value × List Char) :=
  match dropGaps cs with
  | ']' :: rest => some (.emptyList, rest)
  | _ => none

mutual

def readValue? : Nat → List Char → Option (Value × List Char)
  | 0, _ => none
  | fuel + 1, cs =>
    match skipSpaces cs with
    | '\x7b' :: rest =>
      (readEntries? fuel [] rest).map fun (entries, rest) => (.table .braces entries, rest)
    | '[' :: rest => readEmptyList? rest
    | cs => (readString? cs).map fun (text, rest) => (.text (String.ofList text), rest)

/-- The entries of a table up to its closing brace.  A comma may stand behind the last one. -/
def readEntries? : Nat → Entries → List Char → Option (Entries × List Char)
  | 0, _, _ => none
  | fuel + 1, entries, cs =>
    match dropGaps cs with
    | '\x7d' :: rest => some (entries, rest)
    | cs =>
      match readEntry? fuel cs with
      | none => none
      | some ((key, value), rest) =>
        match add? value key entries, dropGaps rest with
        | some entries, ',' :: rest => readEntries? fuel entries rest
        | some entries, '\x7d' :: rest => some (entries, rest)
        | _, _ => none

def readEntry? : Nat → List Char → Option ((List String × Value) × List Char)
  | 0, _ => none
  | fuel + 1, cs =>
    match readKey? (cs.length + 1) cs with
    | some (key, '=' :: rest) =>
      (readValue? fuel rest).map fun (value, rest) => ((key, value), rest)
    | _ => none

end

/-! ## Files -/

def readHeader? (cs : List Char) : Option (List String × List Char) :=
  match readKey? (cs.length + 1) cs with
  | some (key, ']' :: rest) => some (key, rest)
  | _ => none

def readLines? : Nat → List String → Entries → List Char → Option Entries
  | 0, _, _, _ => none
  | fuel + 1, header, entries, cs =>
    match skipSpaces cs with
    | [] => some entries
    | '[' :: rest =>
      match readHeader? rest with
      | none => none
      | some (key, rest) =>
        match open? key entries, finishLine? rest with
        | some entries, some rest => readLines? fuel key entries rest
        | _, _ => none
    | cs =>
      match finishLine? cs with
      | some rest => readLines? fuel header entries rest
      | none =>
        match readEntry? (cs.length + 1) cs with
        | none => none
        | some ((key, value), rest) =>
          match addBelow? value key header entries, finishLine? rest with
          | some entries, some rest => readLines? fuel header entries rest
          | _, _ => none

def parse? (source : String) : Option Entries :=
  let cs := source.toList
  let cs := if cs.head? == some (Char.ofNat 0xFEFF) then cs.drop 1 else cs
  readLines? (source.length + 1) [] [] cs

end SchemaGo.Toml
