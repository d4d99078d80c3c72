import SchemaGo.Text.Split

/-!
# Path texts

A path is kept as the text it was written as; nothing is normalised.  Its segments are the pieces
between the slashes.  Empty segments and interior `.` segments carry no meaning, so two texts are
the same path when they agree on the remaining components.
-/

namespace SchemaGo.PathText

open SchemaGo.Text

def isAbsolute (path : String) : Bool := path.toList.head? == some '/'

/-- An absolute right side replaces the left one; otherwise one slash separates the two, unless the
left side is empty or ends in one already. -/
@[irreducible] def join (left right : String) : String :=
  if isAbsolute right || left.isEmpty then right
  else if left.toList.getLast? == some '/' then left ++ right
  else left ++ "/" ++ right

/-! ## Segments -/

def isIdle (segment : String) : Bool := segment.isEmpty || segment == "."

def dropIdleEnd (segments : List String) : List String :=
  (segments.reverse.dropWhile isIdle).reverse

def significant (path : String) : String × List String :=
  match splitOn '/' path with
  | [] => ("", [])
  | first :: rest => (first, dropIdleEnd rest)

def render (first : String) (rest : List String) : String := joinWith "/" (first :: rest)

def parent? (path : String) : Option String :=
  let (first, rest) := significant path
  if rest.isEmpty then
    if first.isEmpty then none else some ""
  else
    match dropIdleEnd rest.dropLast with
    | [] => some (if first.isEmpty then "/" else first)
    | kept => some (render first kept)

def fileName? (path : String) : Option String :=
  let (first, rest) := significant path
  let last := rest.getLast?.getD first
  if last.isEmpty || last == "." || last == ".." then none else some last

/-! ## Components -/

inductive Component where
  | root
  | here
  | up
  | name (text : String)
deriving DecidableEq, Repr

def componentOf (segment : String) : Component :=
  if segment == ".." then .up else .name segment

/-- What a path consists of: a leading `.` counts, later ones and empty segments do not. -/
def components (path : String) : List Component :=
  match splitOn '/' path with
  | [] => []
  | first :: rest =>
    let later := (rest.filter fun s => !isIdle s).map componentOf
    if isAbsolute path then .root :: later
    else if first.isEmpty then later
    else if first == "." then .here :: later
    else componentOf first :: later

def samePath (left right : String) : Bool := components left == components right

end SchemaGo.PathText
