import SchemaGo.Proofs.Option.Shape

/-!
# Shapes that match

Shapes match when they have the same constructors wherever both say something.
What the types of their scalars have to do with each other is a parameter: for
alike shapes they may differ, and compatible shapes say the same.  The items of a
repeated field are of one type, so the shapes of their values are alike.
-/

namespace SchemaGo

namespace OptionShape

inductive Matches (leaves : ScalarType → ScalarType → Prop) :
    OptionShape → OptionShape → Prop
  | unknownLeft (shape : OptionShape) : Matches leaves .unknown shape
  | unknownRight (shape : OptionShape) : Matches leaves shape .unknown
  | leaf {type other : ScalarType} (hleaves : leaves type other) :
      Matches leaves (.leaf type) (.leaf other)
  | list {item other : OptionShape} (hitem : Matches leaves item other) :
      Matches leaves (.list item) (.list other)
  | map {entries others : Table OptionShape}
      (hshared : ∀ key shape other, Table.get? entries key = some shape →
        Table.get? others key = some other → Matches leaves shape other) :
      Matches leaves (.map entries) (.map others)

def Alike : OptionShape → OptionShape → Prop := Matches fun _ _ => True

def Compatible : OptionShape → OptionShape → Prop := Matches Eq

variable {leaves : ScalarType → ScalarType → Prop}

theorem matches_map_iff {entries others : Table OptionShape} :
    Matches leaves (.map entries) (.map others) ↔
      ∀ key, Matches leaves (atKey entries key) (atKey others key) := by
  constructor
  · intro h key
    cases h with
    | map hshared =>
        cases hl : Table.get? entries key with
        | none => exact atKey_of_none hl ▸ .unknownLeft _
        | some shape =>
            cases hr : Table.get? others key with
            | none => exact atKey_of_none hr ▸ .unknownRight _
            | some other =>
                rw [atKey_of_get? hl, atKey_of_get? hr]
                exact hshared key shape other hl hr
  · intro h
    refine .map fun key shape other hl hr => ?_
    have hkey := h key
    rwa [atKey_of_get? hl, atKey_of_get? hr] at hkey

theorem Matches.symm {left right : OptionShape}
    (hsymm : ∀ type other, leaves type other → leaves other type)
    (h : Matches leaves left right) : Matches leaves right left := by
  induction h with
  | unknownLeft shape => exact .unknownRight shape
  | unknownRight shape => exact .unknownLeft shape
  | leaf hleaves => exact .leaf (hsymm _ _ hleaves)
  | list _ ih => exact .list ih
  | map _ ih => exact .map fun key shape other hl hr => ih key other shape hr hl

theorem Matches.merge {left right other : OptionShape} (hleft : Matches leaves left other)
    (hright : Matches leaves right other) : Matches leaves (merge left right) other := by
  induction left using inductionOnKeys generalizing right other with
  | leaf type => exact hleft
  | unknown => exact hright
  | list item ih =>
      cases hright with
      | unknownRight => exact .unknownRight _
      | @list second third hsecond =>
          cases hleft with
          | list hfirst => exact .list (ih hfirst hsecond)
      | _ => exact hleft
  | map entries ih =>
      cases right with
      | map others =>
          cases other with
          | unknown => exact .unknownRight _
          | map third =>
              rw [merge_map_map]
              refine matches_map_iff.mpr fun key => ?_
              rw [atKey_mergeTables]
              exact ih key (matches_map_iff.mp hleft key) (matches_map_iff.mp hright key)
          | _ => cases hleft
      | _ => exact hleft

end OptionShape

/-- The items of every list in the value have pairwise alike shapes. -/
inductive OptionValue.ListsAlike : OptionValue → Prop
  | scalar (scalar : Scalar) : ListsAlike (.scalar scalar)
  | list {items : List OptionValue}
      (halike : items.Pairwise fun item other =>
        OptionShape.Alike (.ofValue item) (.ofValue other))
      (hitems : ∀ item ∈ items, ListsAlike item) : ListsAlike (.list items)
  | map {entries : OptionMap}
      (hparts : ∀ entry ∈ entries, ListsAlike entry.2) : ListsAlike (.map entries)

namespace OptionValue

theorem listsAlike_list_iff {items : List OptionValue} :
    ListsAlike (.list items) ↔
      (items.Pairwise fun item other =>
        OptionShape.Alike (.ofValue item) (.ofValue other)) ∧
      ∀ item ∈ items, item.ListsAlike :=
  ⟨fun h => by cases h; constructor <;> assumption, fun h => .list h.1 h.2⟩

theorem listsAlike_map_iff {entries : OptionMap} :
    ListsAlike (.map entries) ↔ ∀ entry ∈ entries, entry.2.ListsAlike :=
  ⟨fun h => by cases h; assumption, .map⟩

end OptionValue

end SchemaGo
