import Mathlib.Data.List.Basic
import SchemaGo.PathText

/-!
# Segments of path texts

A text is made of the pieces between its slashes, and joining two paths puts
their segments one after the other.  A path stays inside the directory it
is joined to if it is relative and has no `..` among its segments.
-/

namespace SchemaGo.Text

/-! ## Pieces -/

theorem splitAt_ne_nil (sep : Char) (cs : List Char) : splitAt sep cs ≠ [] := by
  cases cs with
  | nil => simp [splitAt]
  | cons c rest =>
      rw [splitAt]
      split
      · simp
      · split <;> simp

theorem splitAt_append_cons (sep : Char) (left right : List Char) :
    splitAt sep (left ++ sep :: right) = splitAt sep left ++ splitAt sep right := by
  induction left with
  | nil => simp [splitAt]
  | cons c rest ih =>
      simp only [List.cons_append, splitAt, ih]
      split
      · rfl
      · cases h : splitAt sep rest with
        | nil => exact absurd h (splitAt_ne_nil sep rest)
        | cons piece pieces => simp

theorem splitAt_of_not_mem {sep : Char} {cs : List Char} (h : sep ∉ cs) :
    splitAt sep cs = [cs] := by
  induction cs with
  | nil => rfl
  | cons c rest ih =>
      rw [List.mem_cons, not_or] at h
      rw [splitAt, if_neg (Ne.symm h.1), ih h.2]

theorem not_mem_of_mem_splitAt {sep : Char} {cs piece : List Char}
    (h : piece ∈ splitAt sep cs) : sep ∉ piece := by
  induction cs generalizing piece with
  | nil => simp_all [splitAt]
  | cons c rest ih =>
      rw [splitAt] at h
      split at h
      · rcases List.mem_cons.mp h with rfl | h
        · simp
        · exact ih h
      · rename_i hne
        cases hrest : splitAt sep rest with
        | nil => exact absurd hrest (splitAt_ne_nil sep rest)
        | cons first pieces =>
            rw [hrest] at h ih
            rcases List.mem_cons.mp h with rfl | h
            · have hfirst := ih List.mem_cons_self
              simp only [List.mem_cons, not_or]
              exact ⟨fun heq => hne heq.symm, hfirst⟩
            · exact ih (List.mem_cons_of_mem _ h)

theorem intercalate_splitAt (sep : Char) (cs : List Char) :
    List.intercalate [sep] (splitAt sep cs) = cs := by
  induction cs with
  | nil => rfl
  | cons c rest ih =>
      rw [splitAt]
      cases hrest : splitAt sep rest with
      | nil => exact absurd hrest (splitAt_ne_nil sep rest)
      | cons piece pieces =>
          rw [hrest] at ih
          split
          · rename_i heq
            rw [List.intercalate_cons_cons, ih, heq]
            rfl
          · cases pieces with
            | nil => simpa [List.intercalate] using ih
            | cons second more =>
                rw [List.intercalate_cons_cons] at ih ⊢
                rw [List.cons_append, ← ih]
                rfl

theorem splitAt_intercalate (sep : Char) {tokens : List (List Char)} (h : tokens ≠ []) :
    splitAt sep (List.intercalate [sep] tokens) = tokens.flatMap (splitAt sep) := by
  induction tokens with
  | nil => exact absurd rfl h
  | cons token rest ih =>
      cases rest with
      | nil => simp
      | cons second more =>
          rw [List.intercalate_cons_cons, List.append_assoc, List.singleton_append,
            splitAt_append_cons, ih (by simp)]
          rfl

theorem flatMap_splitAt_of_not_mem {sep : Char} {pieces : List (List Char)}
    (h : ∀ piece ∈ pieces, sep ∉ piece) : pieces.flatMap (splitAt sep) = pieces := by
  induction pieces with
  | nil => rfl
  | cons piece rest ih =>
      rw [List.forall_mem_cons] at h
      rw [List.flatMap_cons, splitAt_of_not_mem h.1, ih h.2, List.singleton_append]

theorem joinWith_splitOn (path : String) : joinWith "/" (splitOn '/' path) = path := by
  have hpieces : (splitOn '/' path).map String.toList = splitAt '/' path.toList := by
    simp [splitOn, Function.comp_def]
  apply String.toList_inj.mp
  rw [joinWith, String.toList_intercalate, hpieces]
  exact intercalate_splitAt '/' path.toList

theorem splitOn_ne_nil (sep : Char) (s : String) : splitOn sep s ≠ [] := by
  simpa [splitOn] using splitAt_ne_nil sep s.toList

theorem not_mem_of_mem_splitOn {sep : Char} {s piece : String} (h : piece ∈ splitOn sep s) :
    sep ∉ piece.toList := by
  obtain ⟨cs, hcs, rfl⟩ := List.mem_map.mp h
  rw [String.toList_ofList]
  exact not_mem_of_mem_splitAt hcs

end SchemaGo.Text

namespace SchemaGo.PathText

open SchemaGo.Text

/-! ## Joining -/

theorem isAbsolute_iff (path : String) :
    isAbsolute path = true ↔ ∃ rest, path.toList = '/' :: rest := by
  cases h : path.toList <;> simp [isAbsolute, h]

theorem join_of_isAbsolute {left right : String} (h : isAbsolute right = true) :
    join left right = right := by
  simp [join, h]

@[simp] theorem join_empty_left (right : String) : join "" right = right := by
  simp [join]

/-- A left side that is not empty may end in a slash, which then is not repeated. -/
theorem splitOn_join {left right : String} (hright : isAbsolute right = false)
    (hleft : left ≠ "") :
    ∃ front, splitOn '/' (join left right) = front ++ splitOn '/' right ∧
      (splitOn '/' left = front ∨ splitOn '/' left = front ++ [""]) := by
  have hempty : left.isEmpty = false := by simpa using hleft
  rw [join, hright, hempty]
  by_cases hslash : left.toList.getLast? = some '/'
  · obtain ⟨start, hstart⟩ := List.getLast?_eq_some_iff.mp hslash
    refine ⟨(splitAt '/' start).map String.ofList, ?_, .inr ?_⟩
    · simp [splitOn, hstart, splitAt_append_cons]
    · simp [splitOn, hstart, splitAt_append_cons, splitAt]
  · refine ⟨splitOn '/' left, ?_, .inl rfl⟩
    have hsplit := splitAt_append_cons '/' left.toList right.toList
    simp [splitOn, hslash, hsplit]

theorem isAbsolute_join {left right : String} (hright : isAbsolute right = false)
    (hleft : left ≠ "") : isAbsolute (join left right) = isAbsolute left := by
  have hempty : left.isEmpty = false := by simpa using hleft
  have hcons : left.toList ≠ [] := by simpa using hleft
  obtain ⟨c, rest, hleft⟩ := List.exists_cons_of_ne_nil hcons
  rw [join, hright, hempty]
  simp only [Bool.false_or, Bool.false_eq_true, if_false]
  split <;> simp [isAbsolute, hleft]

/-! ## Staying inside -/

def IsName (segment : String) : Prop := isIdle segment = false ∧ segment ≠ ".."

def IsInside (path : String) : Prop :=
  isAbsolute path = false ∧ ".." ∉ splitOn '/' path

instance (path : String) : Decidable (IsInside path) :=
  inferInstanceAs (Decidable (_ ∧ _))

theorem isAbsolute_of_forall_isName {path : String}
    (h : ∀ segment ∈ splitOn '/' path, IsName segment) : isAbsolute path = false := by
  rw [← Bool.not_eq_true, isAbsolute_iff]
  rintro ⟨rest, hrest⟩
  have hempty : "" ∈ splitOn '/' path := by simp [splitOn, hrest, splitAt]
  exact absurd (h "" hempty).1 (by decide)

theorem isInside_join (left right : String) :
    IsInside (join left right) ↔ IsInside left ∧ IsInside right := by
  cases hright : isAbsolute right with
  | true => simp [join_of_isAbsolute hright, IsInside, hright]
  | false =>
      by_cases hleft : left = ""
      · have hdefault : IsInside "" := by decide
        simp [hleft, hdefault]
      · obtain ⟨front, hjoin, hfront⟩ := splitOn_join hright hleft
        have hmem : ".." ∈ splitOn '/' left ↔ ".." ∈ front := by
          rcases hfront with h | h <;> simp [h]
        simp [IsInside, hright, isAbsolute_join hright hleft, hjoin, hmem, and_assoc]

/-! ## Last segments -/

theorem getLast?_splitOn_join (left right : String) :
    (splitOn '/' (join left right)).getLast? = (splitOn '/' right).getLast? := by
  cases hright : isAbsolute right with
  | true => rw [join_of_isAbsolute hright]
  | false =>
      by_cases hleft : left = ""
      · rw [hleft, join_empty_left]
      · obtain ⟨front, hjoin, -⟩ := splitOn_join hright hleft
        rw [hjoin, List.getLast?_append_of_ne_nil _ (splitOn_ne_nil '/' right)]

theorem isInside_of_getLast? {name last : String} (hslash : '/' ∉ name.toList)
    (hlast : (splitOn '/' name).getLast? = some last) (hname : IsName last) : IsInside name := by
  have hsplit : splitOn '/' name = [name] := by simp [splitOn, splitAt_of_not_mem hslash]
  have heq : name = last := by simpa [hsplit] using hlast
  have hsegments : ∀ segment ∈ splitOn '/' name, IsName segment := by
    rw [hsplit]
    simpa [heq] using hname
  exact ⟨isAbsolute_of_forall_isName hsegments, fun hmem => (hsegments _ hmem).2 rfl⟩

theorem fileName?_of_getLast? {path last : String}
    (hlast : (splitOn '/' path).getLast? = some last) (hname : IsName last) :
    fileName? path = some last := by
  obtain ⟨hidle, hup⟩ := hname
  have hparts : last.isEmpty = false ∧ (last == ".") = false := by
    simpa [isIdle] using hidle
  cases hsplit : splitOn '/' path with
  | nil => exact absurd hsplit (splitOn_ne_nil '/' path)
  | cons first rest =>
      have hrest : dropIdleEnd rest = rest := by
        cases hreverse : rest.reverse with
        | nil => simp [dropIdleEnd, List.reverse_eq_nil_iff.mp hreverse]
        | cons final before =>
            have hfinal : rest = before.reverse ++ [final] := by
              rw [← List.reverse_reverse rest, hreverse, List.reverse_cons]
            have heq : final = last := by
              rw [hsplit, hfinal, ← List.cons_append, List.getLast?_concat] at hlast
              exact Option.some.inj hlast
            rw [dropIdleEnd, hreverse, heq, List.dropWhile_cons_of_neg (by simp [hidle]), hfinal,
              heq]
            simp
      have hgetLast : rest.getLast?.getD first = last := by
        rw [hsplit, List.getLast?_cons] at hlast
        exact Option.some.inj hlast
      simp [fileName?, significant, hsplit, hrest, hgetLast, hparts, hup]

end SchemaGo.PathText
