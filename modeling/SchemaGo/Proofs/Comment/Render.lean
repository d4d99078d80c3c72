import Mathlib.Data.List.Nodup
import SchemaGo.Comment.SourcePath

/-!
# The text of a source path

Different source paths have different texts.  A text consists of words, the
names and numbers of the path, and each word ends at a dot, at a bracket or
with the text.
-/

namespace SchemaGo.SourcePath

/-! ## Words -/

def isWordChar (c : Char) : Bool := c != '.' && c != '[' && c != ']'

def EndsWord (text : List Char) : Prop := ∀ c ∈ text.head?, isWordChar c = false

theorem takeWhile_of_endsWord {text : List Char} (h : EndsWord text) :
    text.takeWhile isWordChar = [] := by
  cases text with
  | nil => rfl
  | cons c rest => exact List.takeWhile_cons_of_neg (by simp [h c rfl])

theorem word_append_inj {left right : List Char} {left' right' : List Char}
    (hleft : ∀ c ∈ left, isWordChar c) (hright : ∀ c ∈ right, isWordChar c)
    (hleft' : EndsWord left') (hright' : EndsWord right')
    (h : left ++ left' = right ++ right') : left = right ∧ left' = right' := by
  have hwords : left = right := by
    have htake := congrArg (List.takeWhile isWordChar) h
    simpa [List.takeWhile_append_of_pos hleft, List.takeWhile_append_of_pos hright,
      takeWhile_of_endsWord hleft', takeWhile_of_endsWord hright'] using htake
  subst hwords
  exact ⟨rfl, List.append_cancel_left h⟩

/-! ## Numbers -/

theorem numberChars_eq (n : Int) :
    numberChars n =
      if 0 ≤ n then Nat.toDigits 10 n.toNat else '-' :: Nat.toDigits 10 (-n).toNat := by
  rw [numberChars, Int.toString_eq_repr, Int.repr_eq_if]
  split <;> simp

theorem isDigit_of_mem_digits {n : Nat} {c : Char} (h : c ∈ Nat.toDigits 10 n) : c.isDigit :=
  Nat.isDigit_of_mem_toDigits (by decide) (by decide) h

theorem digits_injective {m n : Nat} (h : Nat.toDigits 10 m = Nat.toDigits 10 n) : m = n := by
  have hread := congrArg (fun digits => Nat.ofDigitChars 10 digits 0) h
  simpa [Nat.ofDigitChars_toDigits] using hread

def isNumberChar (c : Char) : Bool := c.isDigit || c == '-'

theorem isNumberChar_of_mem {n : Int} {c : Char} (h : c ∈ numberChars n) : isNumberChar c := by
  rw [numberChars_eq] at h
  split at h
  · simp [isNumberChar, isDigit_of_mem_digits h]
  · rcases List.mem_cons.mp h with rfl | h
    · rfl
    · simp [isNumberChar, isDigit_of_mem_digits h]

theorem numberChars_injective {m n : Int} (h : numberChars m = numberChars n) : m = n := by
  have hdigit : ∀ k : Nat, '-' ∉ Nat.toDigits 10 k := fun k hk => by
    simpa using isDigit_of_mem_digits hk
  rw [numberChars_eq, numberChars_eq] at h
  split at h <;> split at h
  · have := digits_injective h
    omega
  · exact absurd (h ▸ List.mem_cons_self) (hdigit m.toNat)
  · exact absurd (h ▸ List.mem_cons_self) (hdigit n.toNat)
  · have := digits_injective (List.cons.inj h).2
    omega

/-! ## Names -/

/-- Names have a character that no number has, and nothing that ends a word. -/
def isName (name : String) : Bool :=
  name.toList.all isWordChar && name.toList.any fun c => !isNumberChar c

theorem isName_of_mem {type : MetaType} {field : MetaField} (h : field ∈ type.fields) :
    isName field.name := by
  have hall : (type.fields.all fun field => isName field.name) = true := by
    cases type <;> decide +kernel
  exact List.all_eq_true.mp hall field h

theorem name_nodup (type : MetaType) : (type.fields.map (·.name)).Nodup := by
  cases type <;> decide +kernel

theorem mem_of_field? {type : MetaType} {number : Int} {field : MetaField}
    (h : type.field? number = some field) :
    field ∈ type.fields ∧ (field.number : Int) = number :=
  ⟨List.mem_of_find?_eq_some h, by simpa using List.find?_some h⟩

theorem numberChars_ne_name (n : Int) {type : MetaType} {field : MetaField}
    (h : field ∈ type.fields) : numberChars n ≠ field.name.toList := by
  intro heq
  obtain ⟨c, hc, hother⟩ := List.any_eq_true.mp (Bool.and_eq_true_iff.mp (isName_of_mem h)).2
  rw [← heq] at hc
  simp [isNumberChar_of_mem hc] at hother

/-! ## Steps -/

def stepWord (current : Option MetaType) (number : Int) : List Char :=
  match current.bind fun type => type.field? number with
  | none => numberChars number
  | some field => field.name.toList

def afterStep (current : Option MetaType) (number : Int) (rest : SourcePath) : List Char :=
  match current.bind fun type => type.field? number with
  | none => renderFrom none rest
  | some field =>
    match rest with
    | [] => []
    | index :: below =>
      if field.repeated then
        '[' :: numberChars index ++ ']' :: renderFrom (fieldTarget field) below
      else renderFrom (fieldTarget field) (index :: below)

theorem renderFrom_cons (current : Option MetaType) (number : Int) (rest : SourcePath) :
    renderFrom current (number :: rest) =
      '.' :: (stepWord current number ++ afterStep current number rest) := by
  cases hfield : current.bind fun type => type.field? number with
  | none => simp [renderFrom, stepWord, afterStep, hfield]
  | some field =>
      cases rest with
      | nil => simp [renderFrom, stepWord, afterStep, hfield]
      | cons index below =>
          rw [renderFrom, stepWord, afterStep, hfield]
          dsimp only
          split <;> simp

theorem endsWord_renderFrom (current : Option MetaType) (path : SourcePath) :
    EndsWord (renderFrom current path) := by
  cases path with
  | nil => simp [renderFrom, EndsWord]
  | cons number rest => simp [renderFrom_cons, EndsWord, isWordChar]

theorem endsWord_afterStep (current : Option MetaType) (number : Int) (rest : SourcePath) :
    EndsWord (afterStep current number rest) := by
  rw [afterStep]
  split
  · exact endsWord_renderFrom none rest
  · split
    · simp [EndsWord]
    · split
      · simp [EndsWord, isWordChar]
      · exact endsWord_renderFrom _ _

theorem isWordChar_of_mem_numberChars {n : Int} {c : Char} (h : c ∈ numberChars n) :
    isWordChar c := by
  have hnumber := isNumberChar_of_mem h
  by_contra hword
  simp only [isWordChar, Bool.and_eq_true, bne_iff_ne, not_and_or, not_not] at hword
  rcases hword with (rfl | rfl) | rfl <;> cases hnumber

theorem isWordChar_of_mem_stepWord {current : Option MetaType} {number : Int} {c : Char}
    (h : c ∈ stepWord current number) : isWordChar c := by
  rw [stepWord] at h
  split at h
  · exact isWordChar_of_mem_numberChars h
  · rename_i hfield
    obtain ⟨type, -, hfield⟩ := Option.bind_eq_some_iff.mp hfield
    have hname := (Bool.and_eq_true_iff.mp (isName_of_mem (mem_of_field? hfield).1)).1
    exact List.all_eq_true.mp hname c h

theorem stepWord_injective {current : Option MetaType} {number number' : Int}
    (h : stepWord current number = stepWord current number') : number = number' := by
  rw [stepWord, stepWord] at h
  split at h <;> split at h
  · exact numberChars_injective h
  · rename_i hfield
    obtain ⟨type, -, hfield⟩ := Option.bind_eq_some_iff.mp hfield
    exact absurd h (numberChars_ne_name number (mem_of_field? hfield).1)
  · rename_i hfield _ _
    obtain ⟨type, -, hfield⟩ := Option.bind_eq_some_iff.mp hfield
    exact absurd h.symm (numberChars_ne_name number' (mem_of_field? hfield).1)
  · rename_i hfield _ _ hfield'
    obtain ⟨type, hcurrent, hfield⟩ := Option.bind_eq_some_iff.mp hfield
    obtain ⟨type', hcurrent', hfield'⟩ := Option.bind_eq_some_iff.mp hfield'
    cases hcurrent.symm.trans hcurrent'
    have hsame := List.inj_on_of_nodup_map (name_nodup type) (mem_of_field? hfield).1
      (mem_of_field? hfield').1 (String.toList_inj.mp h)
    rw [← (mem_of_field? hfield).2, ← (mem_of_field? hfield').2, hsame]

/-! ## Paths -/

theorem afterStep_injective {current : Option MetaType} {number : Int} {rest rest' : SourcePath}
    (hbelow : ∀ current below below', below.length ≤ rest.length →
      renderFrom current below = renderFrom current below' → below = below')
    (h : afterStep current number rest = afterStep current number rest') : rest = rest' := by
  cases hfield : current.bind fun type => type.field? number with
  | none =>
      simp only [afterStep, hfield] at h
      exact hbelow none rest rest' (Nat.le_refl _) h
  | some field =>
      cases hrepeated : field.repeated with
      | false =>
          have hplain : ∀ path, afterStep current number path =
              renderFrom (fieldTarget field) path := by
            intro path
            cases path with
            | nil => simp only [afterStep, hfield, renderFrom]
            | cons index below => simp only [afterStep, hfield, hrepeated]; rfl
          rw [hplain, hplain] at h
          exact hbelow (fieldTarget field) rest rest' (Nat.le_refl _) h
      | true =>
          cases rest with
          | nil =>
              cases rest' with
              | nil => rfl
              | cons index' below' => simp [afterStep, hfield, hrepeated] at h
          | cons index below =>
              cases rest' with
              | nil => simp [afterStep, hfield, hrepeated] at h
              | cons index' below' =>
                  simp only [afterStep, hfield, hrepeated, if_true, List.cons_append,
                    List.cons.injEq, true_and] at h
                  obtain ⟨hindex, hrest⟩ := word_append_inj
                    (fun _ => isWordChar_of_mem_numberChars)
                    (fun _ => isWordChar_of_mem_numberChars) (by simp [EndsWord, isWordChar])
                    (by simp [EndsWord, isWordChar]) h
                  rw [numberChars_injective hindex, hbelow (fieldTarget field) below below'
                    (by simp) (List.cons.inj hrest).2]

theorem renderFrom_injective (current : Option MetaType) (path path' : SourcePath)
    (h : renderFrom current path = renderFrom current path') : path = path' := by
  match path, path' with
  | [], [] => rfl
  | [], _ :: _ => simp [renderFrom_cons, renderFrom] at h
  | _ :: _, [] => simp [renderFrom_cons, renderFrom] at h
  | number :: rest, number' :: rest' =>
      rw [renderFrom_cons, renderFrom_cons, List.cons.injEq] at h
      obtain ⟨hword, hafter⟩ := word_append_inj (fun _ => isWordChar_of_mem_stepWord)
        (fun _ => isWordChar_of_mem_stepWord) (endsWord_afterStep current number rest)
        (endsWord_afterStep current number' rest') h.2
      cases stepWord_injective hword
      have hrest : rest = rest' := afterStep_injective
        (fun current below below' hlength => renderFrom_injective current below below') hafter
      rw [hrest]
termination_by path.length
decreasing_by
  simp only [List.length_cons]
  omega

theorem render_injective : Function.Injective render := by
  intro path path' h
  exact renderFrom_injective (some .file) path path' (String.ofList_injective h)

end SchemaGo.SourcePath
