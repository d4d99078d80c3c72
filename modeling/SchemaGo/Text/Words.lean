import SchemaGo.Text.Blank
import SchemaGo.Text.Case
import SchemaGo.Text.Split

/-!
# Words and passages

Cutting a text into words or at a longer separator, replacing passages of it, and setting its words
and lines.
-/

namespace SchemaGo.Text

/-! ## Replacing -/

def replaceFrom (old new : List Char) : Nat → List Char → List Char
  | _, [] => []
  | skip + 1, _ :: rest => replaceFrom old new skip rest
  | 0, c :: rest =>
    if old.isPrefixOf (c :: rest) then new ++ replaceFrom old new (old.length - 1) rest
    else c :: replaceFrom old new 0 rest

/-- An empty passage stands before every character and at the end. -/
def replaceAll (old new cs : List Char) : List Char :=
  if old.isEmpty then cs.flatMap (fun c => new ++ [c]) ++ new else replaceFrom old new 0 cs

/-! ## Cutting -/

def piecesFrom (sep : List Char) :
    Nat → Option Nat → List Char → List Char → List (List Char)
  | _, _, piece, [] => [piece.reverse]
  | skip + 1, cuts, piece, _ :: rest => piecesFrom sep skip cuts piece rest
  | 0, cuts, piece, c :: rest =>
    if cuts != some 0 && sep.isPrefixOf (c :: rest) then
      piece.reverse :: piecesFrom sep (sep.length - 1) (cuts.map (· - 1)) [] rest
    else piecesFrom sep 0 cuts (c :: piece) rest

def piecesBetweenChars (cuts : Option Nat) (cs : List Char) : List (List Char) :=
  match min (cuts.getD (cs.length + 1)) (cs.length + 1) with
  | 0 => [cs]
  | more + 1 => [] :: (cs.take more).map (fun c => [c]) ++ [cs.drop more]

def pieces (sep : List Char) (cuts : Option Nat) (cs : List Char) : List (List Char) :=
  if sep.isEmpty then piecesBetweenChars cuts cs else piecesFrom sep 0 cuts [] cs

/-- The words between white space.  The last of so many words has all that is left.  `word` holds
the characters of the current word, last one first. -/
def wordsFrom : Option Nat → List Char → List Char → List (List Char)
  | _, word, [] => if word.isEmpty then [] else [word.reverse]
  | limit, word, c :: rest =>
    if isBlank c && word.isEmpty then wordsFrom limit [] rest
    else if isBlank c && limit != some 1 then
      word.reverse :: wordsFrom (limit.map (· - 1)) [] rest
    else wordsFrom limit (c :: word) rest

def words (limit : Option Nat) (cs : List Char) : List (List Char) := wordsFrom limit [] cs

def trimChars (chars cs : List Char) : List Char :=
  let trimFront := List.dropWhile fun c => chars.contains c
  (trimFront (trimFront cs).reverse).reverse

/-! ## Words in title case -/

def isPunctuation (c : Char) : Bool :=
  c.toNat < 128 && !c.isAlphanum && ' ' < c && c != '\x7f'

def titleFrom : Bool → List Char → List Char
  | _, [] => []
  | starts, c :: rest =>
    if isPunctuation c || isBlank c then c :: titleFrom true rest
    else (if starts then upperChar c else lowerChar c) ++ titleFrom false rest

def titleCase (s : String) : String := String.ofList (titleFrom true s.toList)

def capitalize (s : String) : String :=
  match s.toList with
  | [] => ""
  | c :: rest => String.ofList (upperChar c) ++ lower (String.ofList rest)

/-! ## Indenting -/

def dropLineEnd (cs : List Char) : List Char :=
  let reversed := match cs.reverse with
    | '\n' :: rest => rest
    | reversed => reversed
  (dropCarriageReturn reversed).reverse

def indentLine (margin : List Char) (blanks : Bool) (line : List Char) : List Char :=
  if line.isEmpty && !blanks then [] else margin ++ line

def indent (width : Nat) (first blanks : Bool) (cs : List Char) : List Char :=
  let margin := List.replicate width ' '
  let set := indentLine margin blanks
  let lines := match splitAt '\n' (dropLineEnd cs) with
    | [] => []
    | line :: rest => (if first then set line else line) :: rest.map set
  dropLineEnd (lines.flatMap (· ++ ['\n']))

end SchemaGo.Text
