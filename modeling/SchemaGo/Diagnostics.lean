import SchemaGo.Table

/-!
# Diagnostics

Warnings about linked schemas: files without a syntax statement, and imports that nothing uses.
-/

namespace SchemaGo

structure Diagnostics where
  missingDialect : TextSet
  unusedImports : Table TextSet
deriving DecidableEq, Repr

namespace Diagnostics

def empty : Diagnostics := ⟨[], []⟩

def isEmpty (diagnostics : Diagnostics) : Bool :=
  diagnostics.missingDialect.isEmpty && diagnostics.unusedImports.isEmpty

def addUnused (table : Table TextSet) (file : String) (imports : TextSet) : Table TextSet :=
  Table.insert file (TextSet.union ((Table.get? table file).getD []) imports) table

def merge (left right : Diagnostics) : Diagnostics :=
  { missingDialect := TextSet.union left.missingDialect right.missingDialect
    unusedImports :=
      right.unusedImports.foldl (fun table (file, imports) => addUnused table file imports)
        left.unusedImports }

end Diagnostics

end SchemaGo
