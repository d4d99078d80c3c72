import SchemaGo.Option.Unwrap
import SchemaGo.Schema.Basic

/-!
# Option values of elements

The options that extensions declare on an element, unwrapped at the source location of the
element's options.
-/

namespace SchemaGo.Schema

mutual

def Value.toRaw : Value → RawValue
  | .bool value => .scalar (.bool value)
  | .int32 value => .scalar (.int value)
  | .int64 value => .scalar (.int value)
  | .uint32 value => .scalar (.uint value)
  | .uint64 value => .scalar (.uint value)
  | .float value => .scalar (.float value.toBinary64)
  | .double value => .scalar (.float value)
  | .string value => .scalar (.string value)
  | .bytes value => .scalar (.bytes value)
  | .enum number _ => .scalar (.int number)
  | .list items => .list (itemsToRaw items)
  | .map entries => .map (entriesToRaw entries)
  | .message fields => .message (fieldsToRaw fields)
termination_by structural value => value

def itemsToRaw : List Value → List RawValue
  | [] => []
  | item :: rest => item.toRaw :: itemsToRaw rest
termination_by structural items => items

def entriesToRaw : List (String × Value) → List (String × RawValue)
  | [] => []
  | (key, value) :: rest => (key, value.toRaw) :: entriesToRaw rest
termination_by structural entries => entries

def fieldsToRaw : List (FieldLabel × Value) → List (Nat × String × RawValue)
  | [] => []
  | (label, value) :: rest =>
    if label.extension.isSome then fieldsToRaw rest
    else (label.number, label.name, value.toRaw) :: fieldsToRaw rest
termination_by structural fields => fields

end

end SchemaGo.Schema

namespace SchemaGo.EmbedScope

/-- Unwraps options one after the other; `path` is the location of all the options, and `embedded`
lists the files read so far. -/
def unwrapCustom (scope : EmbedScope) (path : SourcePath) (done : OptionMap)
    (embedded : List String) :
    List (Schema.TypeRef × Nat × Schema.Value) → Except EmbedFault (OptionMap × List String)
  | [] => .ok (done, embedded)
  | (extension, number, value) :: rest =>
    match scope.unwrap value.toRaw ⟨path ++ [pathStep number], embedded⟩ with
    | (.error fault, _) => .error fault
    | (.ok value, cursor) =>
      scope.unwrapCustom path (Table.insert (Go.capitalize extension.name) value done)
        cursor.embedded rest

def unwrapOptions (scope : EmbedScope) (path : SourcePath) (options : Option Schema.OptionSet)
    (embedded : List String) : Except EmbedFault (OptionMap × List String) :=
  match options with
  | none => .ok ([], embedded)
  | some options => scope.unwrapCustom path [] embedded options.custom

end SchemaGo.EmbedScope
