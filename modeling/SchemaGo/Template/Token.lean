import SchemaGo.Number.Reading
import SchemaGo.Template.Basic
import SchemaGo.Text.Blank

/-!
# Tokens of a template

A template is cut into segments: plain text, printed expressions and statement tags.  The marks
around expressions and tags may carry a `-`, which removes the white space of the text on that side,
or a `+`, which changes nothing.  Comments disappear, and raw blocks are plain text.
-/

namespace SchemaGo.Template

inductive Token where
  | name (text : String)
  | integer (value : Nat)
  | float (value : Binary64)
  | text (value : String)
  | symbol (mark : String)
deriving DecidableEq, Repr

inductive Segment where
  | text (text : String)
  | print (tokens : List Token)
  | tag (tokens : List Token)
deriving DecidableEq, Repr

/-! ## Tokens -/

def isNameStart (c : Char) : Bool := c.isAlpha || c == '_'

def isNameChar (c : Char) : Bool := c.isAlphanum || c == '_'

def isSpace (c : Char) : Bool := c == ' ' || ('\t' ≤ c && c ≤ '\r' && c != '\x0b')

/-! ### Numbers -/

def digitOf? (base : Nat) (c : Char) : Option Nat :=
  let value := if c.isDigit then some (c.toNat - '0'.toNat)
    else if 'a' ≤ c && c ≤ 'f' then some (c.toNat - 'a'.toNat + 10)
    else if 'A' ≤ c && c ≤ 'F' then some (c.toNat - 'A'.toNat + 10)
    else none
  value.filter (· < base)

def withoutGaps? (digits : List Char) : Option (List Char) :=
  if digits.getLast? == some '_' then none else some (digits.filter (· != '_'))

def integerOf? (base : Nat) (digits : List Char) : Option Nat :=
  (withoutGaps? digits).bind fun digits =>
    let value := if digits.isEmpty then none
      else digits.foldlM (fun n c => (digitOf? base c).map (base * n + ·)) 0
    value.filter (· < Nat.pow 2 128)

def baseMark? : Char → Option Nat
  | 'x' | 'X' => some 16
  | 'o' | 'O' => some 8
  | 'b' | 'B' => some 2
  | _ => none

def readBased (base : Nat) (cs : List Char) : Option (Token × List Char) :=
  let isDigit := fun (c : Char) => (digitOf? base c).isSome || c == '_'
  (integerOf? base (cs.takeWhile isDigit)).map fun n => (.integer n, cs.dropWhile isDigit)

def isDecimalDigit (c : Char) : Bool := c.isDigit || c == '_'

def exponentAt : List Char → Option (List Char × List Char)
  | c :: rest =>
    let (sign, digits) := match rest with
      | '+' :: digits => (['+'], digits)
      | '-' :: digits => (['-'], digits)
      | digits => ([], digits)
    if c == 'e' || c == 'E' then
      some ('e' :: sign ++ digits.takeWhile isDecimalDigit, digits.dropWhile isDecimalDigit)
    else none
  | [] => none

def hasDigit (exponent : List Char) : Bool := exponent.any Char.isDigit

/-- The point and the digits behind it.  A point that leads to a name belongs to an attribute. -/
def fractionAt (cs : List Char) : List Char × List Char :=
  match cs with
  | '.' :: rest =>
    let startsName := rest.head?.any isNameStart &&
      !(exponentAt rest).any fun (exponent, _) => hasDigit exponent
    if startsName then ([], cs)
    else ('.' :: rest.takeWhile isDecimalDigit, rest.dropWhile isDecimalDigit)
  | _ => ([], cs)

def readDecimal (cs : List Char) : Option (Token × List Char) :=
  let whole := cs.takeWhile isDecimalDigit
  let (fraction, rest) := fractionAt (cs.dropWhile isDecimalDigit)
  let (power, rest) := (exponentAt rest).getD ([], rest)
  if fraction.isEmpty && power.isEmpty then
    (integerOf? 10 whole).map fun n => (.integer n, rest)
  else
    (withoutGaps? (whole ++ fraction ++ power)).bind fun numeral =>
      (Decimal.readNumeral? .double false numeral).map fun value =>
        (.float (Binary64.ofValue value), rest)

def readNumber (cs : List Char) : Option (Token × List Char) :=
  match cs with
  | '0' :: c :: rest =>
    match baseMark? c with
    | some base => readBased base rest
    | none => readDecimal cs
  | _ => readDecimal cs

/-- Behind a point only whole numbers stand. -/
def readPosition (cs : List Char) : Option (Token × List Char) :=
  (integerOf? 10 (cs.takeWhile isDecimalDigit)).map fun n =>
    (.integer n, cs.dropWhile isDecimalDigit)

/-! ### Quoted texts -/

def escapedChar? : Char → Option Char
  | '"' => some '"'
  | '\'' => some '\''
  | '\\' => some '\\'
  | '/' => some '/'
  | 'b' => some '\x08'
  | 'f' => some '\x0c'
  | 'n' => some '\n'
  | 'r' => some '\r'
  | 't' => some '\t'
  | _ => none

def readHex (count : Nat) (cs : List Char) : Option (Nat × List Char) :=
  let digits := cs.take count
  if digits.length = count then
    (digits.foldlM (fun n c => (digitOf? 16 c).map (16 * n + ·)) 0).map (·, cs.drop count)
  else none

def isHighHalf (n : Nat) : Bool := 0xD800 ≤ n && n < 0xDC00

def isLowHalf (n : Nat) : Bool := 0xDC00 ≤ n && n < 0xE000

def readCodePoint (cs : List Char) : Option (Char × List Char) :=
  match readHex 4 cs with
  | none => none
  | some (high, rest) =>
    if isHighHalf high then
      match rest with
      | '\\' :: 'u' :: rest =>
        match readHex 4 rest with
        | some (low, rest) =>
          if isLowHalf low then
            some (Char.ofNat (0x10000 + (high - 0xD800) * 0x400 + (low - 0xDC00)), rest)
          else none
        | none => none
      | _ => none
    else if isLowHalf high then none
    else some (Char.ofNat high, rest)

def readOctal (cs : List Char) : Option (Char × List Char) :=
  let digits := (cs.take 3).takeWhile fun c => (digitOf? 8 c).isSome
  if digits.isEmpty then none
  else
    (digits.foldlM (fun n c => (digitOf? 8 c).map (8 * n + ·)) 0).bind fun n =>
      if n < 256 then some (Char.ofNat n, cs.drop digits.length) else none

def readEscape (cs : List Char) : Option (Char × List Char) :=
  match cs with
  | [] => none
  | c :: rest =>
    match escapedChar? c with
    | some e => some (e, rest)
    | none =>
      if c == 'u' then readCodePoint rest
      else if c == 'x' then (readHex 2 rest).map fun (n, rest) => (Char.ofNat n, rest)
      else readOctal cs

def readQuoted (quote : Char) : Nat → List Char → List Char → Option (String × List Char)
  | 0, _, _ => none
  | _ + 1, _, [] => none
  | fuel + 1, done, c :: rest =>
    if c = quote then some (String.ofList done.reverse, rest)
    else if c = '\\' then
      (readEscape rest).bind fun (e, rest) => readQuoted quote fuel (e :: done) rest
    else readQuoted quote fuel (c :: done) rest

/-! ### Marks -/

def longMarks : List String := ["//", "**", "==", "!=", ">=", "<="]

def shortMarks : List Char :=
  ['+', '-', '*', '/', '%', '.', ',', ':', '~', '|', '=', '>', '<', '(', ')', '[', ']',
    '\x7b', '\x7d']

def readMark : List Char → Option (String × List Char)
  | c :: d :: rest =>
    if String.ofList [c, d] ∈ longMarks then some (String.ofList [c, d], rest)
    else if c ∈ shortMarks then some (String.ofList [c], d :: rest)
    else none
  | [c] => if c ∈ shortMarks then some (String.ofList [c], []) else none
  | [] => none

def readToken (previous : Option Token) (cs : List Char) : Option (Token × List Char) :=
  match cs with
  | [] => none
  | c :: rest =>
    if isNameStart c then
      some (.name (String.ofList (cs.takeWhile isNameChar)), cs.dropWhile isNameChar)
    else if c.isDigit then
      if previous == some (.symbol ".") then readPosition cs else readNumber cs
    else if c == '"' || c == '\'' then
      (readQuoted c cs.length [] rest).map fun (text, rest) => (.text text, rest)
    else (readMark cs).map fun (mark, rest) => (.symbol mark, rest)

def depthAfter (depth : Nat) : Token → Nat
  | .symbol mark =>
    if mark ∈ ["(", "[", "\x7b"] then depth + 1
    else if mark ∈ [")", "]", "\x7d"] then depth - 1
    else depth
  | _ => depth

/-- Signs that may stand before a closing mark: tags have two, printed expressions have one. -/
def isClosingSign (first c : Char) : Bool := c == '-' || (c == '+' && first == '%')

def closing? (first : Char) : List Char → Option (Bool × List Char)
  | a :: b :: c :: rest =>
    if a = first && b = '\x7d' then some (false, c :: rest)
    else if isClosingSign first a && b = first && c = '\x7d' then some (a == '-', rest)
    else none
  | [a, b] => if a = first && b = '\x7d' then some (false, []) else none
  | _ => none

def readTokens (first : Char) : Nat → Nat → Option Token → List Char →
    Option (List Token × Bool × List Char)
  | 0, _, _, _ => none
  | fuel + 1, depth, previous, cs =>
    let cs := cs.dropWhile isSpace
    match if depth == 0 then closing? first cs else none with
    | some (trims, rest) => some ([], trims, rest)
    | none =>
      match readToken previous cs with
      | none => none
      | some (token, rest) =>
        (readTokens first fuel (depthAfter depth token) (some token) rest).map
          fun (tokens, trims, rest) => (token :: tokens, trims, rest)

/-! ## Segments -/

def cutAt (mark : List Char) : List Char → Option (List Char × List Char)
  | [] => none
  | c :: rest =>
    if mark.isPrefixOf (c :: rest) then some ([], (c :: rest).drop mark.length)
    else (cutAt mark rest).map fun (before, after) => (c :: before, after)

inductive Opening where
  | print
  | tag
  | comment
deriving DecidableEq, Repr

def opening? : Char → Option Opening
  | '\x7b' => some .print
  | '%' => some .tag
  | '#' => some .comment
  | _ => none

def cutOpening : List Char → List Char × Option (Opening × List Char)
  | [] => ([], none)
  | [c] => ([c], none)
  | c :: d :: rest =>
    match if c = '\x7b' then opening? d else none with
    | some opening => ([], some (opening, rest))
    | none =>
      let (text, found) := cutOpening (d :: rest)
      (c :: text, found)

def openingSign : List Char → Bool × List Char
  | '-' :: rest => (true, rest)
  | '+' :: rest => (false, rest)
  | rest => (false, rest)

def textSegment (trimsStart trimsEnd : Bool) (text : List Char) : List Segment :=
  let text := if trimsStart then Text.trimStart text else text
  let text := if trimsEnd then Text.trimEnd text else text
  if text.isEmpty then [] else [.text (String.ofList text)]

def wordTag? (word : String) (cs : List Char) : Option (Bool × List Char) :=
  let cs := cs.dropWhile isSpace
  if word.toList.isPrefixOf cs then closing? '%' ((cs.drop word.length).dropWhile isSpace)
  else none

/-- The text of a raw block up to its end tag, whether the two signs of that tag remove white space
before and after it, and the rest. -/
def readRaw : List Char → Option (List Char × Bool × Bool × List Char)
  | [] => none
  | [_] => none
  | c :: d :: rest =>
    let found := if c = '\x7b' && d = '%' then
        let (trimsBefore, inner) := openingSign rest
        (wordTag? "endraw" inner).map fun (trimsAfter, rest) => (trimsBefore, trimsAfter, rest)
      else none
    match found with
    | some (trimsBefore, trimsAfter, rest) => some ([], trimsBefore, trimsAfter, rest)
    | none => (readRaw (d :: rest)).map fun (text, tail) => (c :: text, tail)

def segmentsFrom : Nat → Bool → List Char → Option (List Segment)
  | 0, _, _ => none
  | fuel + 1, trims, cs =>
    match cutOpening cs with
    | (text, none) => some (textSegment trims false text)
    | (text, some (opening, rest)) =>
      let (trimsText, inner) := openingSign rest
      let before := textSegment trims trimsText text
      match opening with
      | .comment =>
        (cutAt ['#', '\x7d'] inner).bind fun (comment, rest) =>
          (segmentsFrom fuel (comment.getLast? == some '-') rest).map (before ++ ·)
      | .print =>
        (readTokens '\x7d' (inner.length + 1) 0 none inner).bind fun (tokens, trims, rest) =>
          (segmentsFrom fuel trims rest).map (before ++ .print tokens :: ·)
      | .tag =>
        match wordTag? "raw" inner with
        | some (trimsRaw, raw) =>
          (readRaw raw).bind fun (text, trimsEnd, trims, rest) =>
            (segmentsFrom fuel trims rest).map
              (before ++ textSegment trimsRaw trimsEnd text ++ ·)
        | none =>
          (readTokens '%' (inner.length + 1) 0 none inner).bind fun (tokens, trims, rest) =>
            (segmentsFrom fuel trims rest).map (before ++ .tag tokens :: ·)

def segments (source : String) : Except Fault (List Segment) :=
  match segmentsFrom (source.length + 1) false source.toList with
  | some segments => .ok segments
  | none => .error .malformed

end SchemaGo.Template
