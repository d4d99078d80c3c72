import SchemaGo.Go.Source
import SchemaGo.Proofs.Go.Exported
import SchemaGo.Proofs.Lower.Traversal
import SchemaGo.Proofs.Path.FileName

/-!
# Packages named after files

A file without a package option is in a package named after the file.  Every character
that an identifier cannot have is replaced and keywords are avoided, but a digit in
front stays where it is.  So the name is an identifier exactly if the file name does
not start with a digit.
-/

namespace SchemaGo

/-! ## Digits in front -/

namespace Text

def startsWithDigit (cs : List Char) : Bool := cs.head?.any Char.isDigit

@[simp] theorem startsWithDigit_cons (c : Char) (rest : List Char) :
    startsWithDigit (c :: rest) = c.isDigit := rfl

theorem isDigit_iff_toNat (c : Char) : c.isDigit ↔ 0x30 ≤ c.toNat ∧ c.toNat ≤ 0x39 := by
  simp [Char.isDigit, UInt32.le_iff_toNat_le]

theorem isDigit_eq_false_of_lt {c : Char} (h : c.toNat = 0 ∨ 0x39 < c.toNat) :
    c.isDigit = false := by
  rw [Bool.eq_false_iff, Ne, isDigit_iff_toNat]
  omega

theorem startsWithDigit_lowerChar (c : Char) (rest : List Char) :
    startsWithDigit (lowerChar c ++ rest) = c.isDigit := by
  rw [lowerChar]
  split
  · rename_i hc
    exact Go.forall_ascii (fun c => c.toLower.isDigit = c.isDigit) (by decide) hc
  · rename_i hc
    have hother : c.isDigit = false := isDigit_eq_false_of_lt (.inr (by omega))
    rw [hother]
    split
    · rfl
    · exact isDigit_eq_false_of_lt (digits_lt_mapByRuns_lowerRuns (by omega))

theorem startsWithDigit_lowerFrom (before cs : List Char) :
    startsWithDigit (lowerFrom before cs) = startsWithDigit cs := by
  cases cs with
  | nil => rfl
  | cons c rest =>
      rw [lowerFrom]
      split
      · rename_i hsigma
        rw [hsigma, List.singleton_append, startsWithDigit_cons, startsWithDigit_cons, lowerSigma]
        split <;> decide
      · exact startsWithDigit_lowerChar c _

end Text

namespace Go

open Text

theorem startsWithDigit_fileStem (source : String) :
    startsWithDigit (fileStem source).toList = startsWithDigit (baseName source.toList) := by
  rw [fileStem, lower, String.toList_ofList, String.toList_ofList, startsWithDigit_lowerFrom,
    startsWithDigit, head?_dropExtension, startsWithDigit]

/-! ## Keywords -/

theorem localName_not_mem_keywords (name : String) : localName name ∉ keywords := by
  have hlonger : ∀ keyword ∈ keywords, keyword ++ "_" ∉ keywords := by decide
  rw [localName]
  split
  · rename_i hkeyword
    exact hlonger name hkeyword
  · assumption

theorem localName_eq (name : String) : localName name = name ∨ localName name = name ++ "_" := by
  rw [localName]
  split
  · exact .inr rfl
  · exact .inl rfl

theorem localName_eq_underscore_iff (name : String) : localName name = "_" ↔ name = "_" := by
  have hkeyword : ∀ keyword ∈ keywords, keyword ≠ "_" ∧ keyword ++ "_" ≠ "_" := by decide
  rw [localName]
  split
  · rename_i hname
    exact iff_of_false (hkeyword name hname).2 (hkeyword name hname).1
  · rfl

namespace Emitter

open Schema (isIdentifier isWordChar isWordStart)

/-! ## Identifiers -/

theorem isWordChar_identifierChar (c : Char) : isWordChar (identifierChar c) := by
  rw [identifierChar]
  split
  · rename_i hc
    simp_all [isWordChar]
  · rfl

theorem isDigit_identifierChar (c : Char) : (identifierChar c).isDigit = c.isDigit := by
  rw [identifierChar]
  split
  · rfl
  · rename_i hc
    cases hdigit : c.isDigit with
    | false => rfl
    | true =>
        have hword : c.isAlphanum := by simp [Char.isAlphanum, hdigit]
        have hsmall := ascii_of_isAlphanum hword
        simp_all

theorem identifierChar_eq_underscore_iff (c : Char) :
    identifierChar c = '_' ↔ c.isAlphanum = false := by
  rw [identifierChar]
  cases hword : c.isAlphanum with
  | false => simp
  | true =>
      have hother : c ≠ '_' := by
        rintro rfl
        exact absurd hword (by decide)
      simp [ascii_of_isAlphanum hword, hother]

theorem isWordStart_iff {c : Char} (h : isWordChar c) : isWordStart c ↔ c.isDigit = false :=
  forall_ascii (fun c => isWordChar c → (isWordStart c ↔ c.isDigit = false)) (by decide)
    (ascii_of_isWordChar h) h

theorem isIdentifier_iff {name : String} (hne : name ≠ "") (h : ∀ c ∈ name.toList, isWordChar c) :
    isIdentifier name ↔ startsWithDigit name.toList = false := by
  rw [isIdentifier]
  split
  · rename_i hempty
    exact absurd (String.toList_eq_nil_iff.mp hempty) hne
  · rename_i c rest hname
    rw [hname] at h
    obtain ⟨hc, hrest⟩ := List.forall_mem_cons.mp h
    have hall : (rest.all fun c => c.isAlphanum || c == '_') = true := List.all_eq_true.mpr hrest
    rw [hall, Bool.and_true, hname]
    exact isWordStart_iff hc

/-! ## Package clauses -/

def wordName (name : String) : String := String.ofList (name.toList.map identifierChar)

theorem wordName_eq_underscore_iff (name : String) :
    wordName name = "_" ↔ ∃ c, name.toList = [c] ∧ c.isAlphanum = false := by
  rw [wordName, ← String.toList_inj, String.toList_ofList]
  have hblank : "_".toList = ['_'] := rfl
  simp only [hblank, List.map_eq_singleton_iff, identifierChar_eq_underscore_iff]

variable {file : Ast.File}

theorem packageName_eq (h : file.packageName = "") :
    packageName file = localName (wordName file.fileName) := by
  simp [packageName, h, wordName]

theorem isWordChar_of_mem_packageName (h : file.packageName = "") :
    ∀ c ∈ (packageName file).toList, isWordChar c := by
  have hword : ∀ c ∈ (wordName file.fileName).toList, isWordChar c := by
    simp only [wordName, String.toList_ofList, List.forall_mem_map]
    exact fun c _ => isWordChar_identifierChar c
  rw [packageName_eq h]
  rcases localName_eq (wordName file.fileName) with hname | hname <;> rw [hname]
  · exact hword
  · rw [String.toList_append]
    exact List.forall_mem_append.mpr ⟨hword, List.forall_mem_singleton.mpr rfl⟩

theorem exists_packageName_cons (h : file.packageName = "") {c : Char} {rest : List Char}
    (hname : file.fileName.toList = c :: rest) :
    ∃ rest', (packageName file).toList = identifierChar c :: rest' := by
  have hword : (wordName file.fileName).toList = identifierChar c :: rest.map identifierChar := by
    rw [wordName, String.toList_ofList, hname, List.map_cons]
  rw [packageName_eq h]
  rcases localName_eq (wordName file.fileName) with hlocal | hlocal
  · exact ⟨_, by rw [hlocal, hword]⟩
  · exact ⟨rest.map identifierChar ++ ['_'], by rw [hlocal, String.toList_append, hword]; rfl⟩

/-- The package clause of a file without a package option names a package after the file, in
letters, digits and underscores and never by a keyword.  It is an identifier exactly if the name of
the file does not start with a digit, and the blank one exactly if all that is left of the file name
is one character that is neither a letter nor a digit. -/
theorem packageName_isIdentifier_iff (source : String) :
    (∀ (linked : Schema.Linked) (files : FileTree) (id : Ast.FileId) (lowered : Ast.File),
      linked.file.name = source → linked.lower files id = .ok lowered →
        linked.file.goPackage = "" →
          lowered.packageName = "" ∧ lowered.fileName = fileStem source) ∧
    ∀ (emitter : Emitter) (file : Ast.File), fileStem source ≠ "" → file.packageName = "" →
      file.fileName = fileStem source →
        (emitter.fileLines file)[3]? = some ("package " ++ packageName file) ∧
        (∀ c ∈ (packageName file).toList, isWordChar c) ∧
        packageName file ∉ keywords ∧
        (isIdentifier (packageName file) ↔ startsWithDigit (baseName source.toList) = false) ∧
        (packageName file = "_" ↔
          ∃ c, (fileStem source).toList = [c] ∧ c.isAlphanum = false) := by
  constructor
  · rintro linked files id lowered rfl hlower hoption
    obtain ⟨hname, hpackage⟩ := Schema.Linked.names_of_lower hlower
    rw [hoption] at hpackage
    exact ⟨congrArg Prod.snd hpackage, hname⟩
  · intro emitter file hstem hpackage hname
    have hwords := isWordChar_of_mem_packageName hpackage
    obtain ⟨c, rest, hchars⟩ := List.exists_cons_of_ne_nil (mt String.toList_eq_nil_iff.mp hstem)
    obtain ⟨rest', hpackageName⟩ := exists_packageName_cons hpackage (hname ▸ hchars)
    have hne : packageName file ≠ "" := by
      intro hempty
      rw [hempty] at hpackageName
      cases hpackageName
    refine ⟨rfl, hwords, ?_, ?_, ?_⟩
    · rw [packageName_eq hpackage]
      exact localName_not_mem_keywords _
    · rw [isIdentifier_iff hne hwords, ← startsWithDigit_fileStem, hpackageName, hchars,
        startsWithDigit_cons, startsWithDigit_cons, isDigit_identifierChar]
    · rw [packageName_eq hpackage, localName_eq_underscore_iff, hname, wordName_eq_underscore_iff]

def bareLinked (name : String) : Schema.Linked :=
  let file : Schema.File := ⟨name, "", .proto3, true, [], [], [], [], [], none, []⟩
  ⟨⟨[file]⟩, file, ""⟩

theorem packageName_isIdentifier_iff_bare :
    (∃ lowered, (bareLinked "a/Type.proto").lower (.empty []) 0 = .ok lowered ∧
      isIdentifier (packageName lowered) ∧ packageName lowered ∉ keywords) ∧
    (∃ lowered, (bareLinked "1user.proto").lower (.empty []) 0 = .ok lowered ∧
      ¬ isIdentifier (packageName lowered)) ∧
    ∃ lowered, (bareLinked "é.proto").lower (.empty []) 0 = .ok lowered ∧
      packageName lowered = "_" := by
  have hlowers : ∀ name, ∃ lowered, (bareLinked name).lower (.empty []) 0 = .ok lowered :=
    fun name => ⟨_, rfl⟩
  have hclause := fun name lowered hstem hlower =>
    have hfile := (packageName_isIdentifier_iff name).1 (bareLinked name) (.empty []) 0 lowered
      rfl hlower rfl
    (packageName_isIdentifier_iff name).2 ⟨"r", "r"⟩ lowered hstem hfile.1 hfile.2
  obtain ⟨letter, hletter⟩ := hlowers "a/Type.proto"
  obtain ⟨digit, hdigit⟩ := hlowers "1user.proto"
  obtain ⟨blank, hblank⟩ := hlowers "é.proto"
  refine ⟨⟨letter, hletter, ?_⟩, ⟨digit, hdigit, ?_⟩, blank, hblank, ?_⟩
  · obtain ⟨-, -, hkeyword, hidentifier, -⟩ := hclause _ letter (by decide +kernel) hletter
    exact ⟨hidentifier.mpr (by decide), hkeyword⟩
  · obtain ⟨-, -, -, hidentifier, -⟩ := hclause _ digit (by decide +kernel) hdigit
    exact fun h => absurd (hidentifier.mp h) (by decide)
  · obtain ⟨-, -, -, -, hunderscore⟩ := hclause _ blank (by decide +kernel) hblank
    exact hunderscore.mpr ⟨'é', by decide +kernel⟩

end Emitter

end Go

end SchemaGo
