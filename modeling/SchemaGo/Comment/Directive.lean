import SchemaGo.Text.Blank

/-!
# Directives

A comment line whose first word starts with `@` is a directive: the word after the `@` is its name,
and the rest of the line is its value.
-/

namespace SchemaGo

structure Directive where
  name : String
  value : String
deriving DecidableEq, Repr

namespace Directive

def generate : String := "generate"

def embed : String := "embed"

/-- The directive on a line, if there is one.  The name must not be empty. -/
def ofLine? (line : List Char) : Option Directive :=
  match Text.trim line with
  | [] => none
  | c :: rest =>
    let name := rest.takeWhile fun c => !Text.isBlank c
    let value := rest.dropWhile fun c => !Text.isBlank c
    if c = '@' && !name.isEmpty then some ⟨String.ofList name, String.ofList (Text.trim value)⟩
    else none

def parse (comment : String) : List Directive :=
  (Text.lines comment.toList).filterMap ofLine?

end Directive

end SchemaGo
