import Mathlib.Data.List.Induction
import SchemaGo.Comment.Store
import SchemaGo.Proofs.Comment.Render
import SchemaGo.Proofs.Table

/-!
# Comments by source path

Comments are kept under the text of their source path.  Since the text tells the
path, a lookup answers for one path only: it gives the leading comment of the last
location there.
-/

namespace SchemaGo.Comments

theorem get?_insert (comments : Comments) (path comment key : String) :
    (comments.insert path comment).get? key =
      if key = path then some comment else comments.get? key :=
  Table.get?_insert path key comment comments.entries

/-! ## One more location -/

def addLocation (comments : Comments) (location : SourceLocation) : Comments :=
  match location.leading with
  | none => comments
  | some comment =>
    if location.path.isEmpty then comments
    else comments.insert location.path.render comment

theorem ofLocations_concat (locations : List SourceLocation) (last : SourceLocation) :
    ofLocations (locations ++ [last]) = (ofLocations locations).addLocation last :=
  List.foldl_concat _ _ _ _

theorem get?_addLocation (comments : Comments) (location : SourceLocation) {path : SourcePath}
    (hpath : path ≠ []) :
    (comments.addLocation location).get? path.render =
      if location.path = path then location.leading.or (comments.get? path.render)
      else comments.get? path.render := by
  rw [addLocation]
  cases location.leading with
  | none => simp
  | some comment =>
      by_cases hsame : location.path = path
      · subst hsame
        simp [hpath, get?_insert]
      · have htext : path.render ≠ location.path.render := fun heq =>
          hsame (SourcePath.render_injective heq).symm
        rw [if_neg hsame]
        dsimp only
        split
        · rfl
        · rw [get?_insert, if_neg htext]

/-! ## All locations -/

def leadingAt (locations : List SourceLocation) (path : SourcePath) : List String :=
  (locations.filter fun location => location.path = path).filterMap (·.leading)

theorem leadingAt_concat (locations : List SourceLocation) (last : SourceLocation)
    (path : SourcePath) :
    leadingAt (locations ++ [last]) path =
      leadingAt locations path ++ if last.path = path then last.leading.toList else [] := by
  by_cases hsame : last.path = path
  · cases hleading : last.leading <;> simp [leadingAt, hsame, hleading]
  · simp [leadingAt, hsame]

theorem get?_render_eq_getLast? (locations : List SourceLocation) {path : SourcePath}
    (hpath : path ≠ []) :
    (ofLocations locations).get? path.render = (leadingAt locations path).getLast? := by
  induction locations using List.reverseRecOn with
  | nil => rfl
  | append_singleton locations last ih =>
      rw [ofLocations_concat, get?_addLocation _ _ hpath, leadingAt_concat, ih]
      by_cases hsame : last.path = path
      · cases last.leading <;> simp [hsame]
      · simp [hsame]

/-- Different source paths have different texts, so the comment found under the text of a path is
the leading comment of the last location at this very path that has one. -/
theorem get?_ofLocations_render :
    Function.Injective SourcePath.render ∧
      ∀ (locations : List SourceLocation) (path : SourcePath), path ≠ [] →
        (ofLocations locations).get? path.render = (leadingAt locations path).getLast? :=
  ⟨SourcePath.render_injective, fun locations _ hpath => get?_render_eq_getLast? locations hpath⟩

def fieldLocations : List SourceLocation :=
  [⟨[], some "file", none⟩, ⟨[4, 0, 2, 0], some "first", none⟩, ⟨[4, 0], some "message", none⟩,
    ⟨[4, 0, 2, 0], some "second", none⟩, ⟨[4, 0, 2, 0], none, some "trailing"⟩]

theorem get?_ofLocations_render_field :
    ([4, 0, 2, 0] : SourcePath) ≠ [] ∧
      (ofLocations fieldLocations).get? (SourcePath.render [4, 0, 2, 0]) = some "second" :=
  ⟨by decide, get?_ofLocations_render.2 fieldLocations [4, 0, 2, 0] (by decide)⟩

end SchemaGo.Comments
