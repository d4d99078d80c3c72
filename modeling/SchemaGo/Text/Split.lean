/-!
# Splitting and joining

Cutting a text at a separator character and putting the pieces back together.
-/

namespace SchemaGo.Text

def splitAt (sep : Char) : List Char → List (List Char)
  | [] => [[]]
  | c :: rest =>
    if c = sep then [] :: splitAt sep rest
    else match splitAt sep rest with
      | [] => [[c]]
      | piece :: pieces => (c :: piece) :: pieces

def splitOn (sep : Char) (s : String) : List String :=
  (splitAt sep s.toList).map String.ofList

def afterLast (sep : Char) (s : String) : String :=
  (splitOn sep s).getLast?.getD s

def cutFirst? (sep : Char) : List Char → Option (List Char × List Char)
  | [] => none
  | c :: rest =>
    if c = sep then some ([], rest)
    else (cutFirst? sep rest).map fun (before, after) => (c :: before, after)

def beforeLast? (sep : Char) (cs : List Char) : Option (List Char) :=
  (cutFirst? sep cs.reverse).map fun (_, before) => before.reverse

/-- The name of a file without its last extension; a leading dot starts no extension. -/
def dropExtension (cs : List Char) : List Char :=
  match beforeLast? '.' cs with
  | some (c :: stem) => c :: stem
  | _ => cs

def replaceChar (old new : Char) (s : String) : String :=
  String.ofList (s.toList.map fun c => if c = old then new else c)

def joinWith (sep : String) (parts : List String) : String :=
  String.intercalate sep parts

end SchemaGo.Text
