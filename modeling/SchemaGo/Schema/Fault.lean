import SchemaGo.Lookup

/-!
# Link faults

Why a schema cannot be linked.  Faults of reading a source keep the wording of their cause.
-/

namespace SchemaGo.Schema

inductive SchemaFault where
  | malformed
  | duplicateImport (name : String)
  | duplicateName (fullName : String)
  | unknownName (name : String)
  | badName (name : String)
  | wrongKind (name : String)
  | badNumber (name : String)
  | duplicateNumber (name : String)
  | clashingNames (name : String)
  | badLabel (name : String)
  | badMapKey (name : String)
  | badRange (name : String)
  | badDefault (name : String)
  | emptyDeclaration (name : String)
  | badFirstValue (name : String)
  | unsupportedInProto3 (name : String)
  | badOption (name : String)
  | optionSetTwice (name : String)
deriving DecidableEq, Repr

inductive LinkFault where
  | unreadable (fault : LookupFault)
  | notFound (importName : String)
  | cycle (names : List String)
  | missing (file : String)
  | invalid (file : String) (fault : SchemaFault)
deriving DecidableEq, Repr

def LinkFault.message : LinkFault → String
  | .unreadable fault => fault.message
  | .notFound importName => s!"import '{importName}' not found"
  | .cycle names => "import cycle detected: " ++ Text.joinWith " -> " names
  | .missing file => s!"{file} is not part of the linked descriptor pool"
  | .invalid file _ => s!"{file} is invalid"

end SchemaGo.Schema
