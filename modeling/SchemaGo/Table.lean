/-!
# Sorted tables

Finite maps and sets keyed by text, kept as lists in ascending order of their distinct keys.  Two
tables with the same bindings are the same list.
-/

namespace SchemaGo

abbrev Table (α : Type) := List (String × α)

namespace Table

def get? {α : Type} (table : Table α) (key : String) : Option α := table.lookup key

def insert {α : Type} (key : String) (value : α) : Table α → Table α
  | [] => [(key, value)]
  | (k, v) :: rest =>
    if key < k then (key, value) :: (k, v) :: rest
    else if key = k then (key, value) :: rest
    else (k, v) :: Table.insert key value rest

def ofList {α : Type} (bindings : List (String × α)) : Table α :=
  bindings.foldl (fun table (key, value) => Table.insert key value table) []

def addMissing {α : Type} (bindings table : Table α) : Table α :=
  bindings.foldl
    (fun table (key, value) =>
      if (get? table key).isSome then table else Table.insert key value table)
    table

def keys {α : Type} (table : Table α) : List String := table.map (·.1)

def IsSorted {α : Type} (table : Table α) : Prop := (keys table).Pairwise (· < ·)

end Table

abbrev TextSet := List String

namespace TextSet

def insert (text : String) : TextSet → TextSet
  | [] => [text]
  | t :: rest =>
    if text < t then text :: t :: rest
    else if text = t then t :: rest
    else t :: TextSet.insert text rest

def union (left right : TextSet) : TextSet :=
  right.foldl (fun set text => TextSet.insert text set) left

def ofList (texts : List String) : TextSet := union [] texts

end TextSet

end SchemaGo
