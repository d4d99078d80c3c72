import SchemaGo.Proofs.Option.Shape

/-!
# The information order on shapes

One shape is below another when the second says all that the first says and
does not contradict it.  Merging goes up in this order, and of two shapes with
a common upper bound it is the least one.
-/

namespace SchemaGo.OptionShape

inductive Below : OptionShape → OptionShape → Prop
  | unknown (shape : OptionShape) : Below .unknown shape
  | leaf (type : ScalarType) : Below (.leaf type) (.leaf type)
  | list {item other : OptionShape} (hitem : Below item other) :
      Below (.list item) (.list other)
  | map {entries others : Table OptionShape}
      (hkeys : ∀ key, Below (atKey entries key) (atKey others key)) :
      Below (.map entries) (.map others)

@[simp] theorem below_unknown_iff {shape : OptionShape} :
    Below shape .unknown ↔ shape = .unknown :=
  ⟨fun h => by cases h; rfl, fun h => h ▸ .unknown _⟩

@[simp] theorem below_list_iff {item other : OptionShape} :
    Below (.list item) (.list other) ↔ Below item other :=
  ⟨fun h => by cases h; assumption, .list⟩

@[simp] theorem below_map_iff {entries others : Table OptionShape} :
    Below (.map entries) (.map others) ↔
      ∀ key, Below (atKey entries key) (atKey others key) :=
  ⟨fun h => by cases h; assumption, .map⟩

theorem Below.refl (shape : OptionShape) : Below shape shape := by
  induction shape using inductionOnKeys with
  | leaf type => exact .leaf type
  | list item ih => exact .list ih
  | map entries ih => exact .map ih
  | unknown => exact .unknown _

theorem Below.trans {first second third : OptionShape}
    (hfirst : Below first second) (hsecond : Below second third) :
    Below first third := by
  induction hfirst generalizing third with
  | unknown => exact .unknown third
  | leaf type => exact hsecond
  | list _ ih =>
      cases hsecond with
      | list hitem => exact .list (ih hitem)
  | map _ ih =>
      cases hsecond with
      | map hkeys => exact .map fun key => ih key (hkeys key)

theorem get?_eq_of_atKey_eq {left right : Table OptionShape} {key : String}
    (hleft : Table.get? left key ≠ some .unknown)
    (hright : Table.get? right key ≠ some .unknown)
    (h : atKey left key = atKey right key) :
    Table.get? left key = Table.get? right key := by
  rw [atKey, atKey] at h
  cases hl : Table.get? left key with
  | none =>
      cases hr : Table.get? right key with
      | none => rfl
      | some shape =>
          rw [hl, hr, Option.getD_none, Option.getD_some] at h
          exact absurd (hr.trans (congrArg some h.symm)) hright
  | some shape =>
      cases hr : Table.get? right key with
      | none =>
          rw [hl, hr, Option.getD_none, Option.getD_some] at h
          exact absurd (hl.trans (congrArg some h)) hleft
      | some other =>
          rw [hl, hr, Option.getD_some, Option.getD_some] at h
          rw [h]

theorem Below.antisymm {left right : OptionShape} (hleft : WellFormed left)
    (hright : WellFormed right) (hle : Below left right)
    (hge : Below right left) : left = right := by
  induction hle with
  | unknown =>
      cases hge
      rfl
  | leaf => rfl
  | list _ ih =>
      cases hleft with
      | list hleft =>
          cases hright with
          | list hright =>
              cases hge with
              | list hge => rw [ih hleft hright hge]
  | map _ ih =>
      cases hleft with
      | map hsorted hknown hparts =>
          cases hright with
          | map hsorted' hknown' hparts' =>
              cases hge with
              | map hge =>
                  congr 1
                  refine Table.eq_of_get?_eq hsorted hsorted' fun key => ?_
                  exact get?_eq_of_atKey_eq (hknown key) (hknown' key)
                    (ih key (hparts key) (hparts' key) (hge key))

/-! ## Merging as an upper bound -/

theorem below_merge_left (left right : OptionShape) :
    Below left (merge left right) := by
  induction left using inductionOnKeys generalizing right with
  | leaf type => exact .leaf type
  | list item ih =>
      cases right with
      | list other => exact .list (ih other)
      | _ => exact .refl _
  | map entries ih =>
      cases right with
      | map others =>
          rw [merge_map_map]
          refine .map fun key => ?_
          rw [atKey_mergeTables]
          exact ih key (atKey others key)
      | _ => exact .refl _
  | unknown => exact .unknown _

theorem Below.merge {left right bound : OptionShape} (hleft : Below left bound)
    (hright : Below right bound) : Below (merge left right) bound := by
  induction hleft generalizing right with
  | unknown => exact hright
  | leaf type => exact .leaf type
  | list hitem ih =>
      cases hright with
      | unknown => exact .list hitem
      | list hother => exact .list (ih hother)
  | map hkeys ih =>
      cases hright with
      | unknown => exact .map hkeys
      | map hothers =>
          rw [merge_map_map]
          refine .map fun key => ?_
          rw [atKey_mergeTables]
          exact ih key (hothers key)

/-- Once a shape was merged into something below a bound, merging it into the
bound adds nothing. -/
theorem merge_below_of_below {bound shape known : OptionShape}
    (h : Below (merge known shape) bound) : Below (merge bound shape) bound := by
  induction bound using inductionOnKeys generalizing shape known with
  | leaf type => exact .leaf type
  | unknown =>
      rw [below_unknown_iff, merge_eq_unknown_iff] at h
      rw [h.2]
      exact .unknown _
  | list item ih =>
      cases shape with
      | list other =>
          cases known with
          | unknown => exact (Below.refl _).merge h
          | list first =>
              rw [merge_list_list, below_list_iff] at h ⊢
              exact ih h
          | _ => cases h
      | _ => exact .refl _
  | map entries ih =>
      cases shape with
      | map others =>
          cases known with
          | unknown => exact (Below.refl _).merge h
          | map first =>
              simp only [merge_map_map, below_map_iff, atKey_mergeTables] at h ⊢
              exact fun key => ih key (h key)
          | _ => cases h
      | _ => exact .refl _

end SchemaGo.OptionShape
