import SchemaGo.Text.Split

/-!
# JSON texts

Compact JSON: nothing stands between the tokens, and keys keep the order they are given in.
-/

namespace SchemaGo.Text.Json

def hexDigit (n : Nat) : Char := (Nat.digitChar (n % 16))

def escapeChar (c : Char) : List Char :=
  if c = '"' then ['\\', '"']
  else if c = '\\' then ['\\', '\\']
  else if c = '\n' then ['\\', 'n']
  else if c = '\r' then ['\\', 'r']
  else if c = '\t' then ['\\', 't']
  else if c = '\x08' then ['\\', 'b']
  else if c = '\x0c' then ['\\', 'f']
  else if c.toNat < 32 then ['\\', 'u', '0', '0', hexDigit (c.toNat / 16), hexDigit c.toNat]
  else [c]

def string (s : String) : String :=
  String.ofList ('"' :: s.toList.flatMap escapeChar ++ ['"'])

def array (items : List String) : String := "[" ++ joinWith "," items ++ "]"

def object (entries : List (String × String)) : String :=
  "\x7b" ++ joinWith "," (entries.map fun (key, value) => string key ++ ":" ++ value) ++ "\x7d"

def bool (value : Bool) : String := if value then "true" else "false"

/-! ## Entries that may be missing -/

def entry (key value : String) : List (String × String) := [(key, value)]

def entryWhen (condition : Bool) (key value : String) : List (String × String) :=
  if condition then [(key, value)] else []

def entry? {α : Type} (key : String) (value? : Option α) (render : α → String) :
    List (String × String) :=
  match value? with
  | some value => [(key, render value)]
  | none => []

def entries {α : Type} (key : String) (items : List α) (render : α → String) :
    List (String × String) :=
  if items.isEmpty then [] else [(key, array (items.map render))]

end SchemaGo.Text.Json
