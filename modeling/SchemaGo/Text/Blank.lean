/-!
# Blanks and lines

White space is Unicode's `White_Space` property throughout.  A text is cut into lines at every
newline, and a carriage return that stands right before a newline belongs to the line end.
-/

namespace SchemaGo.Text

def isBlank (c : Char) : Bool :=
  let n := c.toNat
  (9 ≤ n && n ≤ 13) || n == 0x20 || n == 0x85 || n == 0xA0 || n == 0x1680 ||
    (0x2000 ≤ n && n ≤ 0x200A) || n == 0x2028 || n == 0x2029 || n == 0x202F ||
    n == 0x205F || n == 0x3000

def trimStart (cs : List Char) : List Char := cs.dropWhile isBlank

def trimEnd (cs : List Char) : List Char := (cs.reverse.dropWhile isBlank).reverse

def trim (cs : List Char) : List Char := trimEnd (trimStart cs)

/-! ## Lines -/

def dropCarriageReturn : List Char → List Char
  | '\r' :: rest => rest
  | line => line

def linesFrom (reversed : List Char) : List Char → List (List Char)
  | [] => if reversed.isEmpty then [] else [reversed.reverse]
  | c :: rest =>
    if c = '\n' then (dropCarriageReturn reversed).reverse :: linesFrom [] rest
    else linesFrom (c :: reversed) rest

/-- The lines of a text without their line ends.  A newline at the very end starts no further
line. -/
def lines (cs : List Char) : List (List Char) := linesFrom [] cs

end SchemaGo.Text
