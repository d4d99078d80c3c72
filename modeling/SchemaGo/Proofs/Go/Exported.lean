import SchemaGo.Go.Name
import SchemaGo.Schema.Link
import SchemaGo.Schema.Token

/-!
# Exported names

Exporting a name changes the case of letters and drops underscores, and nothing else, but
for an underscore in front, which becomes an `X`.  So two names that differ in more than
case and underscores are exported apart, unless one of them has the underscore in front
and the other the letter.  The exported name of an identifier is legal in Go: a capital
and then letters, digits and underscores.
-/

namespace SchemaGo.Schema

def flatChars (cs : List Char) : List Char := (cs.filter (· != '_')).map Char.toLower

@[simp] theorem toList_flatName (name : String) :
    (flatName name).toList = flatChars name.toList := by
  rw [flatName, String.toList_ofList, flatChars]

theorem flatName_ofList (cs : List Char) :
    flatName (String.ofList cs) = String.ofList (flatChars cs) := by
  rw [flatName, String.toList_ofList, flatChars]

theorem flatChars_append (first second : List Char) :
    flatChars (first ++ second) = flatChars first ++ flatChars second := by
  simp only [flatChars, List.filter_append, List.map_append]

theorem flatChars_cons {c : Char} (h : c ≠ '_') (rest : List Char) :
    flatChars (c :: rest) = c.toLower :: flatChars rest := by
  simp [flatChars, h]

@[simp] theorem flatChars_underscore (rest : List Char) :
    flatChars ('_' :: rest) = flatChars rest := rfl

end SchemaGo.Schema

namespace SchemaGo.Go

open Schema

/-! ## Letters -/

theorem forall_ascii (test : Char → Prop) (h : ∀ n < 128, test (Char.ofNat n)) {c : Char}
    (hc : c.toNat < 128) : test c := by
  have htest := h c.toNat hc
  rwa [Char.ofNat_toNat] at htest

theorem toLower_toUpper {c : Char} (hc : c.toNat < 128) : c.toUpper.toLower = c.toLower :=
  forall_ascii (fun c => c.toUpper.toLower = c.toLower) (by decide) hc

theorem toUpper_ne_underscore {c : Char} (hc : c.toNat < 128) (h : c ≠ '_') :
    c.toUpper ≠ '_' :=
  forall_ascii (fun c => c ≠ '_' → c.toUpper ≠ '_') (by decide) hc h

theorem eq_of_toUpper_eq_x {c : Char} (hc : c.toNat < 128) (h : c.toUpper = 'X') :
    c = 'x' ∨ c = 'X' :=
  forall_ascii (fun c => c.toUpper = 'X' → c = 'x' ∨ c = 'X') (by decide) hc h

theorem upperChar_of_ascii {c : Char} (hc : c.toNat < 128) : Text.upperChar c = [c.toUpper] :=
  if_pos hc

theorem ascii_of_isAlphanum {c : Char} (h : c.isAlphanum) : c.toNat < 128 := by
  unfold Char.isAlphanum Char.isAlpha Char.isUpper Char.isLower Char.isDigit at h
  simp only [Bool.or_eq_true, Bool.and_eq_true, decide_eq_true_eq, ge_iff_le,
    UInt32.le_iff_toNat_le] at h
  rw [← Char.toNat_val]
  rcases h with (h | h) | h
  · exact Nat.lt_of_le_of_lt h.2 (by decide)
  · exact Nat.lt_of_le_of_lt h.2 (by decide)
  · exact Nat.lt_of_le_of_lt h.2 (by decide)

theorem ascii_of_isWordChar {c : Char} (h : isWordChar c) : c.toNat < 128 := by
  rcases Bool.or_eq_true_iff.mp h with hc | hc
  · exact ascii_of_isAlphanum hc
  · rw [beq_iff_eq.mp hc]
    decide

theorem isWordChar_of_isIdentifier {name : String} (h : isIdentifier name) :
    ∀ c ∈ name.toList, isWordChar c := by
  rw [isIdentifier] at h
  split at h
  · cases h
  · next c rest heq =>
    obtain ⟨hfirst, hrest⟩ := Bool.and_eq_true_iff.mp h
    rw [heq]
    refine List.forall_mem_cons.mpr ⟨?_, List.all_eq_true.mp hrest⟩
    rw [isWordChar, Char.isAlphanum, Bool.or_eq_true_iff, Bool.or_eq_true_iff]
    exact (Bool.or_eq_true_iff.mp hfirst).imp_left .inl

theorem ascii_of_isIdentifier {name : String} (h : isIdentifier name) :
    ∀ c ∈ name.toList, c.toNat < 128 :=
  fun c hc => ascii_of_isWordChar (isWordChar_of_isIdentifier h c hc)

theorem exists_letter_of_isIdentifier {name : String} (h : isIdentifier name)
    (hfront : name.toList.head? ≠ some '_') :
    ∃ c rest, name.toList = c :: rest ∧ c ≠ '_' ∧ c.isDigit = false := by
  rw [isIdentifier] at h
  split at h
  · cases h
  · next c rest heq =>
    rw [heq] at hfront
    have hne : c ≠ '_' := fun hc => hfront (congrArg some hc)
    have halpha : c.isAlpha := by simpa [hne] using (Bool.and_eq_true_iff.mp h).1
    refine ⟨c, rest, heq, hne, Bool.eq_false_iff.mpr fun hdigit => ?_⟩
    unfold Char.isAlpha Char.isUpper Char.isLower at halpha
    unfold Char.isDigit at hdigit
    simp only [Bool.or_eq_true, Bool.and_eq_true, decide_eq_true_eq, ge_iff_le,
      UInt32.le_iff_toNat_le, Char.reduceVal, UInt32.reduceToNat] at halpha hdigit
    omega

/-! ## Case and underscores -/

theorem flatChars_exportFrom (raise : Bool) {cs : List Char} (h : ∀ c ∈ cs, c.toNat < 128) :
    flatChars (exportFrom raise cs) = flatChars cs := by
  induction cs generalizing raise with
  | nil => cases raise <;> rfl
  | cons c rest ih =>
      obtain ⟨hc, hrest⟩ := List.forall_mem_cons.mp h
      rw [exportFrom]
      by_cases hunderscore : c = '_'
      · subst hunderscore
        rw [if_pos rfl]
        split
        · exact ih true hrest
        · exact ih raise hrest
      rw [if_neg hunderscore, flatChars_cons hunderscore]
      split
      · rw [flatChars_cons hunderscore, ih true hrest]
      split
      · rw [upperChar_of_ascii hc, List.singleton_append,
          flatChars_cons (toUpper_ne_underscore hc hunderscore), toLower_toUpper hc,
          ih false hrest]
      · rw [flatChars_cons hunderscore, ih false hrest]

def readFront : List Char → List Char
  | '_' :: rest => 'x' :: rest
  | cs => cs

theorem flatChars_exportChars {cs : List Char} (h : ∀ c ∈ cs, c.toNat < 128) :
    flatChars (exportChars cs) = flatChars (readFront cs) := by
  cases cs with
  | nil => rfl
  | cons c rest =>
      rw [exportChars]
      split
      · next hunderscore =>
        subst hunderscore
        rw [flatChars_cons (by decide), readFront, flatChars_cons (by decide),
          flatChars_exportFrom true (List.forall_mem_cons.mp h).2]
        rfl
      · next hunderscore =>
        rw [flatChars_exportFrom true h, readFront]
        intro others heq
        exact hunderscore (List.cons.inj heq).1

theorem flatName_exported {name : String} (h : ∀ c ∈ name.toList, c.toNat < 128) :
    flatName (exported name) = String.ofList (flatChars (readFront name.toList)) := by
  rw [← String.toList_inj, toList_flatName, String.toList_ofList, exported, String.toList_ofList,
    flatChars_exportChars h]

theorem flatName_fieldName {name : String} (h : ∀ c ∈ name.toList, c.toNat < 128) :
    flatName (fieldName name) = String.ofList (flatChars (readFront name.toList)) := by
  rw [← flatName_exported h, fieldName, ← String.toList_inj, toList_flatName, toList_flatName]
  split
  · rw [String.toList_append, flatChars_append]
    exact List.append_nil _
  · rfl

/-! ## Names that are exported alike -/

/-- The underscore in front of the first name becomes the letter that the second starts with, and
what follows is exported alike: as a new word behind the underscore, and as the rest of the word
behind the letter. -/
def MeetsAtX (name other : String) : Prop :=
  ∃ rest others, name.toList = '_' :: rest ∧
    (other.toList = 'x' :: others ∨ other.toList = 'X' :: others) ∧
    exportFrom true rest = exportFrom false others

theorem toList_exported_underscore {name : String} {rest : List Char}
    (h : name.toList = '_' :: rest) :
    (exported name).toList = 'X' :: exportFrom true rest := by
  rw [exported, String.toList_ofList, h]
  rfl

theorem toList_exported_letter {name : String} {c : Char} {rest : List Char}
    (h : name.toList = c :: rest) (hc : c.toNat < 128) (hunderscore : c ≠ '_')
    (hdigit : c.isDigit = false) :
    (exported name).toList = c.toUpper :: exportFrom false rest := by
  rw [exported, String.toList_ofList, h, exportChars, if_neg hunderscore, exportFrom,
    if_neg hunderscore, if_neg (by simp [hdigit]), if_pos rfl, upperChar_of_ascii hc]
  rfl

theorem fieldName_of_x {name : String} {rest : List Char}
    (h : (exported name).toList = 'X' :: rest) : fieldName name = exported name := by
  rw [fieldName]
  refine if_neg fun hmethod => ?_
  have hheads : ∀ method ∈ messageMethods, method.toList.head? ≠ some 'X' := by decide
  exact hheads _ hmethod (by rw [h, List.head?_cons])

theorem head?_fieldName {name : String} {c : Char} {rest : List Char}
    (h : (exported name).toList = c :: rest) : (fieldName name).toList.head? = some c := by
  rw [fieldName]
  split
  · rw [String.toList_append, h]
    rfl
  · rw [h]
    rfl

theorem MeetsAtX.fieldName_eq {name other : String} (h : MeetsAtX name other) :
    fieldName name = fieldName other := by
  obtain ⟨rest, others, hname, hother, hrest⟩ := h
  have hfirst := toList_exported_underscore hname
  have hsecond : (exported other).toList = 'X' :: exportFrom true rest := by
    rcases hother with hother | hother
    · rw [toList_exported_letter hother (by decide) (by decide) (by decide), hrest]
      rfl
    · rw [toList_exported_letter hother (by decide) (by decide) (by decide), hrest]
      rfl
  rw [fieldName_of_x hfirst, fieldName_of_x hsecond]
  exact String.toList_inj.mp (hfirst.trans hsecond.symm)

theorem meetsAtX_of_fieldName_eq {name other : String} {rest : List Char}
    (hname : name.toList = '_' :: rest) (hother : isIdentifier other)
    (hfront : other.toList.head? ≠ some '_') (h : fieldName name = fieldName other) :
    MeetsAtX name other := by
  obtain ⟨c, others, hchars, hunderscore, hdigit⟩ :=
    exists_letter_of_isIdentifier hother hfront
  have hc : c.toNat < 128 := ascii_of_isIdentifier hother c (by simp [hchars])
  have hfirst := toList_exported_underscore hname
  have hsecond := toList_exported_letter hchars hc hunderscore hdigit
  have hx : c.toUpper = 'X' := by
    have hhead := head?_fieldName hsecond
    rw [← h, head?_fieldName hfirst] at hhead
    exact (Option.some.inj hhead).symm
  rw [hx] at hsecond
  rw [fieldName_of_x hfirst, fieldName_of_x hsecond, ← String.toList_inj, hfirst, hsecond] at h
  refine ⟨rest, others, hname, ?_, (List.cons.inj h).2⟩
  rw [hchars]
  exact (eq_of_toUpper_eq_x hc hx).imp (congrArg (· :: others)) (congrArg (· :: others))

theorem readFront_of_head? {cs : List Char} (h : cs.head? ≠ some '_') : readFront cs = cs := by
  rw [readFront]
  rintro rest rfl
  exact h rfl

/-- Names that are exported alike differ in nothing but case and underscores, unless the one has an
underscore in front and the other the letter. -/
theorem flatName_eq_or_meetsAtX {name other : String} (hname : isIdentifier name)
    (hother : isIdentifier other) (h : fieldName name = fieldName other) :
    flatName name = flatName other ∨ MeetsAtX name other ∨ MeetsAtX other name := by
  have hflat := congrArg (fun text => (flatName text).toList) h
  simp only [flatName_fieldName (ascii_of_isIdentifier hname),
    flatName_fieldName (ascii_of_isIdentifier hother), String.toList_ofList] at hflat
  rw [← String.toList_inj, toList_flatName, toList_flatName]
  by_cases hfirst : name.toList.head? = some '_'
  · obtain ⟨rest, hrest⟩ := List.head?_eq_some_iff.mp hfirst
    by_cases hsecond : other.toList.head? = some '_'
    · obtain ⟨others, hothers⟩ := List.head?_eq_some_iff.mp hsecond
      rw [hrest, hothers, readFront, readFront, flatChars_cons (by decide),
        flatChars_cons (by decide)] at hflat
      rw [hrest, hothers]
      exact .inl (List.cons.inj hflat).2
    · exact .inr (.inl (meetsAtX_of_fieldName_eq hrest hother hsecond h))
  · by_cases hsecond : other.toList.head? = some '_'
    · obtain ⟨others, hothers⟩ := List.head?_eq_some_iff.mp hsecond
      exact .inr (.inr (meetsAtX_of_fieldName_eq hothers hname hfirst h.symm))
    · rw [readFront_of_head? hfirst, readFront_of_head? hsecond] at hflat
      exact .inl hflat

theorem MeetsAtX.flatName_eq {name other : String} (h : MeetsAtX name other)
    (hname : isIdentifier name) (hother : isIdentifier other) :
    flatName other = "x" ++ flatName name := by
  have hflat := congrArg (fun text => (flatName text).toList) h.fieldName_eq
  simp only [flatName_fieldName (ascii_of_isIdentifier hname),
    flatName_fieldName (ascii_of_isIdentifier hother), String.toList_ofList] at hflat
  obtain ⟨rest, others, hchars, hx, -⟩ := h
  have hfront : other.toList.head? ≠ some '_' := by rcases hx with hx | hx <;> simp [hx]
  rw [hchars, readFront, flatChars_cons (by decide), readFront_of_head? hfront] at hflat
  rw [← String.toList_inj, toList_flatName, String.toList_append, toList_flatName, hchars,
    ← hflat]
  rfl

/-! ## Methods -/

theorem fieldName_not_mem_messageMethods (name : String) : fieldName name ∉ messageMethods := by
  rw [fieldName]
  split
  · next hmethod =>
    have hapart : ∀ method ∈ messageMethods, method ++ "_" ∉ messageMethods := by decide
    exact hapart _ hmethod
  · next hmethod => exact hmethod

/-! ## Legal names -/

structure IsExported (goName : String) : Prop where
  capital : ∃ first ∈ goName.toList.head?, first.isUpper
  words : ∀ c ∈ goName.toList, isWordChar c

theorem isWordChar_toUpper {c : Char} (h : isWordChar c) : isWordChar c.toUpper :=
  forall_ascii (fun c => isWordChar c → isWordChar c.toUpper) (by decide) (ascii_of_isWordChar h) h

theorem isUpper_toUpper {c : Char} (h : isWordChar c) (hunderscore : c ≠ '_')
    (hdigit : c.isDigit = false) : c.toUpper.isUpper :=
  forall_ascii (fun c => isWordChar c → c ≠ '_' → c.isDigit = false → c.toUpper.isUpper)
    (by decide) (ascii_of_isWordChar h) h hunderscore hdigit

theorem isWordChar_of_mem_exportFrom (raise : Bool) {cs : List Char}
    (h : ∀ c ∈ cs, isWordChar c) : ∀ c ∈ exportFrom raise cs, isWordChar c := by
  induction cs generalizing raise with
  | nil => cases raise <;> exact h
  | cons c rest ih =>
      obtain ⟨hc, hrest⟩ := List.forall_mem_cons.mp h
      rw [exportFrom]
      split
      · split
        · exact ih true hrest
        · exact List.forall_mem_cons.mpr ⟨rfl, ih raise hrest⟩
      split
      · exact List.forall_mem_cons.mpr ⟨hc, ih true hrest⟩
      split
      · rw [upperChar_of_ascii (ascii_of_isWordChar hc), List.singleton_append]
        exact List.forall_mem_cons.mpr ⟨isWordChar_toUpper hc, ih false hrest⟩
      · exact List.forall_mem_cons.mpr ⟨hc, ih false hrest⟩

theorem isExported_cons {goName : String} {first : Char} {rest : List Char}
    (h : goName.toList = first :: rest) (hfirst : isWordChar first) (hupper : first.isUpper)
    (hrest : ∀ c ∈ rest, isWordChar c) : IsExported goName where
  capital := ⟨first, by simp [h], hupper⟩
  words := by
    rw [h]
    exact List.forall_mem_cons.mpr ⟨hfirst, hrest⟩

theorem isExported_exported {name : String} (h : isIdentifier name) :
    IsExported (exported name) := by
  have hwords := isWordChar_of_isIdentifier h
  by_cases hfront : name.toList.head? = some '_'
  · obtain ⟨rest, hrest⟩ := List.head?_eq_some_iff.mp hfront
    rw [hrest] at hwords
    exact isExported_cons (toList_exported_underscore hrest) rfl rfl
      (isWordChar_of_mem_exportFrom true (List.forall_mem_cons.mp hwords).2)
  · obtain ⟨c, rest, hchars, hunderscore, hdigit⟩ := exists_letter_of_isIdentifier h hfront
    rw [hchars] at hwords
    obtain ⟨hc, hrest⟩ := List.forall_mem_cons.mp hwords
    exact isExported_cons
      (toList_exported_letter hchars (ascii_of_isWordChar hc) hunderscore hdigit)
      (isWordChar_toUpper hc) (isUpper_toUpper hc hunderscore hdigit)
      (isWordChar_of_mem_exportFrom false hrest)

theorem IsExported.append_underscore {goName : String} (h : IsExported goName) :
    IsExported (goName ++ "_") := by
  obtain ⟨first, hfirst, hupper⟩ := h.capital
  obtain ⟨rest, hrest⟩ := List.head?_eq_some_iff.mp hfirst
  refine ⟨⟨first, ?_, hupper⟩, ?_⟩
  · simp [hrest]
  · rw [String.toList_append]
    exact List.forall_mem_append.mpr ⟨h.words, List.forall_mem_singleton.mpr rfl⟩

theorem isExported_fieldName {name : String} (h : isIdentifier name) :
    IsExported (fieldName name) := by
  rw [fieldName]
  split
  · exact (isExported_exported h).append_underscore
  · exact isExported_exported h

theorem IsExported.not_mem_keywords {goName : String} (h : IsExported goName) :
    goName ∉ keywords := by
  have hsmall : ∀ keyword ∈ keywords, keyword.toList.head?.any Char.isUpper = false := by decide
  obtain ⟨first, hfirst, hupper⟩ := h.capital
  intro hkeyword
  have hlower := hsmall goName hkeyword
  rw [hfirst, Option.any_some, hupper] at hlower
  cases hlower

/-- An identifier, exported as it is or as the name of a field, is a legal name for Go to export,
and is changed in case and underscores alone, once an underscore in front is read as an `x`. -/
theorem exported_legal (name : String) (h : isIdentifier name) :
    ∀ goName ∈ [exported name, fieldName name], IsExported goName ∧ goName ∉ keywords ∧
      flatName goName = flatName (String.ofList (readFront name.toList)) := by
  have hascii := ascii_of_isIdentifier h
  have hexported := isExported_exported h
  have hfield := isExported_fieldName h
  rw [flatName_ofList]
  exact List.forall_mem_cons.mpr
    ⟨⟨hexported, hexported.not_mem_keywords, flatName_exported hascii⟩,
      List.forall_mem_singleton.mpr
        ⟨hfield, hfield.not_mem_keywords, flatName_fieldName hascii⟩⟩

/-- Words that start behind underscores and behind a digit, an underscore that stays, and one that
is added. -/
theorem exported_legal_words :
    isIdentifier "__first_name_2x" ∧ exported "__first_name_2x" = "XFirstName_2X" ∧
    IsExported "XFirstName_2X" ∧ flatName "XFirstName_2X" = "xfirstname2x" ∧
    isIdentifier "is_zero" ∧ fieldName "is_zero" = "IsZero_" ∧
    IsExported "IsZero_" ∧ flatName "IsZero_" = "iszero" := by
  have hname : isIdentifier "__first_name_2x" := by decide
  have hzero : isIdentifier "is_zero" := by decide
  have hgoName : exported "__first_name_2x" = "XFirstName_2X" := by decide +kernel
  have hgoZero : fieldName "is_zero" = "IsZero_" := by decide +kernel
  obtain ⟨hlegal, -, hflat⟩ := exported_legal _ hname _ List.mem_cons_self
  obtain ⟨hlegalZero, -, hflatZero⟩ := exported_legal _ hzero (fieldName "is_zero") (by simp)
  rw [hgoName] at hlegal hflat
  rw [hgoZero] at hlegalZero hflatZero
  exact ⟨hname, hgoName, hlegal, hflat.trans (by decide +kernel), hzero, hgoZero, hlegalZero,
    hflatZero.trans (by decide +kernel)⟩

end SchemaGo.Go
