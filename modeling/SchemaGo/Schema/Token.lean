import SchemaGo.Number.Reading
import SchemaGo.Text.Blank
import SchemaGo.Text.Utf8

/-!
# Tokens of a schema

A schema source is cut into tokens.  Every token keeps the comments and newlines in front of it,
because comments that stand before a statement belong to what it declares.
-/

namespace SchemaGo.Schema

inductive Trivia where
  | newline
  | lineComment (text : String)
  | blockComment (text : String)
deriving DecidableEq, Repr

inductive Lexeme where
  | word (text : String)
  | integer (value : Nat)
  | float (value : FloatValue)
  | text (bytes : Bytes)
  | mark (mark : Char)
deriving DecidableEq, Repr

structure Token where
  lexeme : Lexeme
  trivia : List Trivia
deriving DecidableEq, Repr

/-! ## Leading comments -/

inductive Pending where
  | none
  | lines (text : String)
  | block (text : String)
deriving DecidableEq, Repr

def Pending.text? : Pending → Option String
  | .none => Option.none
  | .lines text => some text
  | .block text => some text

/-- Line comments in a row make one comment.  A blank line, and every comment of another kind,
separates a comment from the statement. -/
def leadingFrom : Pending → List Trivia → Option String
  | pending, [] => pending.text?
  | .lines text, .lineComment more :: rest => leadingFrom (.lines (text ++ more)) rest
  | _, .lineComment text :: rest => leadingFrom (.lines text) rest
  | _, .blockComment text :: .newline :: rest => leadingFrom (.block text) rest
  | _, .blockComment text :: rest => leadingFrom (.block text) rest
  | _, .newline :: rest => leadingFrom .none rest

/-- The comment that leads a statement, from what stands in front of its first token.  What follows
the previous token on its own line belongs there. -/
def leadingComment : List Trivia → Option String
  | [] => none
  | .lineComment _ :: rest => leadingFrom .none rest
  | .blockComment text :: .newline :: rest => leadingFrom (.block text) rest
  | .blockComment _ :: _ => none
  | .newline :: rest => leadingFrom .none rest

/-! ## Comments -/

def isSpace (c : Char) : Bool := c == ' ' || c == '\t' || c == '\r' || c == '\x0b' || c == '\x0c'

def readLine : List Char → List Char × List Char
  | [] => ([], [])
  | '\r' :: '\n' :: rest => (['\n'], rest)
  | '\n' :: rest => (['\n'], rest)
  | c :: rest =>
    let (line, rest) := readLine rest
    (c :: line, rest)

def readBlock : List Char → Option (List Char × List Char)
  | '*' :: '/' :: rest => some ([], rest)
  | '/' :: '*' :: _ => none
  | c :: rest => (readBlock rest).map fun (inside, rest) => (c :: inside, rest)
  | [] => none

def dropMargins (inMargin : Bool) : List Char → List Char
  | [] => []
  | '\r' :: '\n' :: rest =>
    if inMargin then dropMargins true rest else '\n' :: dropMargins true rest
  | c :: rest =>
    if inMargin then
      if Text.isBlank c then dropMargins true rest
      else if c = '*' then dropMargins false rest
      else c :: dropMargins false rest
    else c :: dropMargins (c == '\n') rest

/-! ## Numbers -/

def digitOf? (base : Nat) (c : Char) : Option Nat :=
  let value := if c.isDigit then some (c.toNat - '0'.toNat)
    else if 'a' ≤ c && c ≤ 'f' then some (c.toNat - 'a'.toNat + 10)
    else if 'A' ≤ c && c ≤ 'F' then some (c.toNat - 'A'.toNat + 10)
    else none
  value.filter (· < base)

def readDigits? (base : Nat) (cs : List Char) : Option Nat :=
  if cs.isEmpty then none
  else cs.foldlM (fun n c => (digitOf? base c).map (base * n + ·)) 0

def integerOf? (digits : List Char) : Option Nat :=
  let value := match digits with
    | '0' :: 'x' :: rest | '0' :: 'X' :: rest => readDigits? 16 rest
    | '0' :: d :: rest => readDigits? 8 (d :: rest)
    | digits => readDigits? 10 digits
  value.filter (· < Nat.pow 2 64)

def isWordStart (c : Char) : Bool := c.isAlpha || c == '_'

def isWordChar (c : Char) : Bool := c.isAlphanum || c == '_'

def isHexMark (c : Char) : Bool := c == 'x' || c == 'X'

def isFloatMark (c : Char) : Bool := c == 'f' || c == 'F'

/-- The digits of an integer at the front: after a zero only octal digits, or hexadecimal ones
behind their mark. -/
def integerDigits (cs : List Char) : List Char :=
  match cs with
  | '0' :: c :: rest =>
    let hexadecimal := rest.takeWhile fun c => (digitOf? 16 c).isSome
    if isHexMark c && !hexadecimal.isEmpty then '0' :: c :: hexadecimal
    else '0' :: (c :: rest).takeWhile fun c => (digitOf? 8 c).isSome
  | cs => cs.takeWhile Char.isDigit

def readInteger (cs : List Char) : Option (Lexeme × List Char) :=
  let digits := integerDigits cs
  let rest := cs.drop digits.length
  if digits != ['0'] && rest.head?.any isWordStart then none
  else (integerOf? digits).map fun n => (.integer n, rest)

def exponentPart (cs : List Char) : List Char × List Char :=
  match cs with
  | c :: rest =>
    let (sign, digits) := match rest with
      | '+' :: digits => (['+'], digits)
      | '-' :: digits => (['-'], digits)
      | digits => ([], digits)
    if (c == 'e' || c == 'E') && (digits.head?.any Char.isDigit) then
      ('e' :: sign ++ digits.takeWhile Char.isDigit, digits.dropWhile Char.isDigit)
    else ([], cs)
  | [] => ([], [])

def takesFloatMark (whole : List Char) : Bool := whole == ['0'] || whole.head? != some '0'

def readNumber (aggregate : Bool) (cs : List Char) : Option (Lexeme × List Char) :=
  let whole := cs.takeWhile Char.isDigit
  let rest := cs.dropWhile Char.isDigit
  let (fraction, rest) := match rest with
    | '.' :: rest => ('.' :: rest.takeWhile Char.isDigit, rest.dropWhile Char.isDigit)
    | rest => ([], rest)
  let (power, rest) := exponentPart rest
  let plain := fraction.isEmpty && power.isEmpty
  let marked := rest.head?.any isFloatMark
  if plain && !(marked && takesFloatMark whole) then readInteger cs
  else if marked && !aggregate then none
  else
    (Decimal.readNumeral? .double false (whole ++ fraction ++ power)).map fun value =>
      (.float value, if marked then rest.tail else rest)

/-! ## Quoted texts -/

def letterEscape? : Char → Option UInt8
  | 'a' => some 7
  | 'b' => some 8
  | 'f' => some 12
  | 'n' => some 10
  | 'r' => some 13
  | 't' => some 9
  | 'v' => some 11
  | '?' => some 63
  | '\\' => some 92
  | '\'' => some 39
  | '"' => some 34
  | _ => none

def takeDigits (base count : Nat) (cs : List Char) : List Char :=
  (cs.take count).takeWhile fun c => (digitOf? base c).isSome

def readCodePoint (count : Nat) (cs : List Char) : Option (Bytes × List Char) :=
  let digits := takeDigits 16 count cs
  if digits.length = count then
    (readDigits? 16 digits).bind fun n =>
      if n.isValidChar then
        some (Text.Utf8.encode (String.ofList [Char.ofNat n]), cs.drop count)
      else none
  else none

def readEscape (cs : List Char) : Option (Bytes × List Char) :=
  match cs with
  | [] => none
  | c :: rest =>
    match letterEscape? c with
    | some b => some ([b], rest)
    | none =>
      if c == 'x' || c == 'X' then
        let digits := takeDigits 16 2 rest
        (readDigits? 16 digits).map fun n => ([n.toUInt8], rest.drop digits.length)
      else if c == 'u' then readCodePoint 4 rest
      else if c == 'U' then readCodePoint 8 rest
      else
        let digits := takeDigits 8 3 cs
        (readDigits? 8 digits).bind fun n =>
          if n < 256 then some ([n.toUInt8], cs.drop digits.length) else none

def readQuoted (quote : Char) : Nat → List Char → Option (Bytes × List Char)
  | 0, _ => none
  | _ + 1, [] => none
  | fuel + 1, c :: rest =>
    if c = quote then some ([], rest)
    else if c = '\n' || c = '\x00' then none
    else if c = '\\' then
      (readEscape rest).bind fun (bytes, rest) =>
        (readQuoted quote fuel rest).map fun (more, rest) => (bytes ++ more, rest)
    else
      (readQuoted quote fuel rest).map fun (more, rest) =>
        (Text.Utf8.encode (String.ofList [c]) ++ more, rest)

/-! ## Tokens -/

def marks : List Char :=
  ['.', ',', ':', ';', '=', '-', '+', '/', '(', ')', '[', ']', '<', '>', '\x7b', '\x7d']

def readLexeme (aggregate : Bool) (cs : List Char) : Option (Lexeme × List Char) :=
  match cs with
  | [] => none
  | c :: rest =>
    if isWordStart c then
      some (.word (String.ofList (cs.takeWhile isWordChar)), cs.dropWhile isWordChar)
    else if c.isDigit || (c = '.' && rest.head?.any Char.isDigit) then readNumber aggregate cs
    else if c = '"' || c = '\'' then
      (readQuoted c (cs.length + 1) rest).map fun (bytes, rest) => (.text bytes, rest)
    else if c ∈ marks then some (.mark c, rest)
    else none

/-- How deep the reader is inside an aggregate value, which starts with a brace right after an
equals sign. -/
def aggregateDepth (depth : Nat) (previous : Option Lexeme) (lexeme : Lexeme) : Nat :=
  match lexeme with
  | .mark '\x7b' => if 0 < depth || previous == some (.mark '=') then depth + 1 else 0
  | .mark '\x7d' => depth - 1
  | _ => depth

def tokensFrom : Nat → Nat → Option Lexeme → List Trivia → List Char →
    Option (List Token × List Trivia)
  | 0, _, _, _, _ => none
  | fuel + 1, depth, previous, trivia, cs =>
    let skip := fun (item : Trivia) (rest : List Char) =>
      tokensFrom fuel depth previous (item :: trivia) rest
    match cs with
    | [] => some ([], trivia.reverse)
    | '\n' :: rest => skip .newline rest
    | '/' :: '/' :: rest =>
      let (line, rest) := readLine rest
      skip (.lineComment (String.ofList line)) rest
    | '/' :: '*' :: rest =>
      match readBlock rest with
      | some (inside, rest) =>
        skip (.blockComment (String.ofList (dropMargins false inside))) rest
      | none => none
    | c :: rest =>
      if isSpace c then tokensFrom fuel depth previous trivia rest
      else if c = '#' && 0 < depth then
        let (line, rest) := readLine rest
        skip (.lineComment (String.ofList line)) rest
      else
        match readLexeme (0 < depth) (c :: rest) with
        | none => none
        | some (lexeme, rest) =>
          match tokensFrom fuel (aggregateDepth depth previous lexeme) (some lexeme) [] rest with
          | some (tokens, final) => some (⟨lexeme, trivia.reverse⟩ :: tokens, final)
          | none => none

def tokens? (source : String) : Option (List Token) :=
  (tokensFrom (source.length + 1) 0 none [.newline] source.toList).map (·.1)

end SchemaGo.Schema
