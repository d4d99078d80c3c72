import SchemaGo.Go.Source
import SchemaGo.Proofs.Comment.Render
import SchemaGo.Proofs.FirstByKey
import SchemaGo.Proofs.Wire.PlainDefault
import SchemaGo.Proofs.Wire.TagReading

/-!
# The tables of an enum

An enum comes with two map literals, one from numbers to names and one from names to
numbers.  Read back from the emitted lines, the first has an entry for each number,
with the first name declared for it, and the second has an entry for each name.  So a
number leads to a name that leads back to it.
-/

namespace SchemaGo.Go.EnumTable

open Emitter

/-! ## Reading literals -/

def literalLines (head : String) (lines : List String) : List String :=
  (lines.dropWhile (· ≠ head)).tail.takeWhile (· ≠ "\x7d")

theorem literalLines_eq {head : String} {front body : List String}
    (hfront : ∀ line ∈ front, line ≠ head) (hbody : ∀ line ∈ body, line ≠ "\x7d")
    (rest : List String) :
    literalLines head (front ++ head :: (body ++ "\x7d" :: rest)) = body := by
  have hskip : (front ++ head :: (body ++ "\x7d" :: rest)).dropWhile (· ≠ head) =
      head :: (body ++ "\x7d" :: rest) := by
    rw [List.dropWhile_append_of_pos (by simpa using hfront), List.dropWhile_cons_of_neg (by simp)]
  rw [literalLines, hskip, List.tail_cons, List.takeWhile_append_of_pos (by simpa using hbody)]
  simp

/-- A way to read the text of a string literal: what stands before the closing quote, and the text
behind the quote. -/
abbrev QuoteReader : Type := List Char → Option (List Char × List Char)

def upToLastQuote : QuoteReader := fun text =>
  match text.reverse.dropWhile (· ≠ '"') with
  | [] => none
  | _ :: before => some (before.reverse, (text.reverse.takeWhile (· ≠ '"')).reverse)

/-- The name is read back wherever it stands in quotes and no other quote follows. -/
def ReadsBack (quoted : QuoteReader) (name : String) : Prop :=
  ∀ rest, '"' ∉ rest → quoted (name.toList ++ '"' :: rest) = some (name.toList, rest)

theorem readsBack_upToLastQuote (name : String) : ReadsBack upToLastQuote name := by
  intro rest hrest
  have hbehind : ∀ c ∈ rest.reverse, c ≠ '"' := by
    rintro c hc rfl
    exact hrest (List.mem_reverse.mp hc)
  have hreverse : (name.toList ++ '"' :: rest).reverse =
      rest.reverse ++ '"' :: name.toList.reverse := by simp
  rw [upToLastQuote, hreverse, List.dropWhile_append_of_pos (by simpa using hbehind),
    List.takeWhile_append_of_pos (by simpa using hbehind)]
  simp

theorem readsBack_readValue? {name : String}
    (h : ∀ c ∈ name.toList, StructTag.needsEscape c = false) :
    ReadsBack StructTag.readValue? name := by
  intro rest _
  have hself : name.toList.flatMap StructTag.escapeChar = name.toList := by
    rw [List.flatMap_congr (g := fun c => [c]) fun c hc => by
      rw [StructTag.escapeChar, h c hc]; rfl]
    simp
  nth_rewrite 1 [← hself]
  exact StructTag.readValue?_escape name.toList rest

def readNumber? : List Char → Option Int
  | '-' :: digits => (Decimal.readNat? digits).map fun n => -(n : Int)
  | digits => (Decimal.readNat? digits).map fun n => (n : Int)

theorem readNumber?_toString (number : Int) :
    readNumber? (toString number).toList = some number := by
  cases number with
  | ofNat n =>
      have htext : (toString (Int.ofNat n)).toList = (toString n).toList := rfl
      rw [htext]
      unfold readNumber?
      split
      · rename_i digits hsign
        have hdigits : (toString n).toList = Nat.toDigits 10 n := by simp
        have hminus : '-' ∈ Nat.toDigits 10 n := by
          rw [← hdigits, hsign]
          exact List.mem_cons_self
        exact absurd (SourcePath.isDigit_of_mem_digits hminus) (by decide)
      · rw [Decimal.readNat?_toString]
        rfl
  | negSucc n =>
      rw [Decimal.toList_toString_negSucc, readNumber?, Decimal.readNat?_toString]
      rfl

def nameEntryOf? (quoted : QuoteReader) (line : String) : Option (Int × String) :=
  match line.toList with
  | '\t' :: text =>
    match text.dropWhile (· ≠ ':') with
    | ':' :: ' ' :: '"' :: behind =>
      match readNumber? (text.takeWhile (· ≠ ':')), quoted behind with
      | some number, some (name, [',']) => some (number, String.ofList name)
      | _, _ => none
    | _ => none
  | _ => none

def valueEntryOf? (quoted : QuoteReader) (line : String) : Option (String × Int) :=
  match line.toList with
  | '\t' :: '"' :: text =>
    match quoted text with
    | some (name, ':' :: ' ' :: behind) =>
      if behind.getLast? = some ',' then
        (readNumber? behind.dropLast).map fun number => (String.ofList name, number)
      else none
    | _ => none
  | _ => none

theorem colon_not_mem_toString (number : Int) : ∀ c ∈ (toString number).toList, c ≠ ':' := by
  rintro c hc rfl
  exact absurd (SourcePath.isNumberChar_of_mem hc) (by decide)

theorem quote_not_mem_toString (number : Int) : '"' ∉ (toString number).toList := fun hc =>
  absurd (SourcePath.isNumberChar_of_mem hc) (by decide)

theorem nameEntryOf?_nameEntry {quoted : QuoteReader} {value : Ast.EnumValue}
    (h : ReadsBack quoted value.name) :
    nameEntryOf? quoted (nameEntry value) = some (value.number, value.name) := by
  have htext : (nameEntry value).toList = '\t' :: ((toString value.number).toList ++
      ':' :: ' ' :: '"' :: (value.name.toList ++ '"' :: [','])) := by
    simp [nameEntry, inFunction]
  have hread := readNumber?_toString value.number
  have hcolon := colon_not_mem_toString value.number
  have hname := h [','] (by decide)
  rw [nameEntryOf?, htext]
  generalize (toString value.number).toList = digits at hread hcolon
  generalize value.name.toList ++ '"' :: [','] = behind at hname
  have hskip : (digits ++ ':' :: ' ' :: '"' :: behind).dropWhile (· ≠ ':') =
      ':' :: ' ' :: '"' :: behind := by
    rw [List.dropWhile_append_of_pos (by simpa using hcolon)]
    rfl
  have htake : (digits ++ ':' :: ' ' :: '"' :: behind).takeWhile (· ≠ ':') = digits := by
    rw [List.takeWhile_append_of_pos (by simpa using hcolon)]
    simp
  simp only [hskip, htake, hread, hname, String.ofList_toList]

theorem valueEntryOf?_valueEntry {quoted : QuoteReader} {value : Ast.EnumValue}
    (h : ReadsBack quoted value.name) :
    valueEntryOf? quoted (valueEntry value) = some (value.name, value.number) := by
  have htext : (valueEntry value).toList = '\t' :: '"' :: (value.name.toList ++
      '"' :: (':' :: ' ' :: ((toString value.number).toList ++ [',']))) := by
    simp [valueEntry, inFunction]
  have hread := readNumber?_toString value.number
  have hname := h (':' :: ' ' :: ((toString value.number).toList ++ [','])) (by
    simpa using quote_not_mem_toString value.number)
  rw [valueEntryOf?, htext]
  generalize (toString value.number).toList = digits at hread hname
  simp only [hname, List.getLast?_concat, if_true, List.dropLast_concat, hread, Option.map_some,
    String.ofList_toList]

/-! ## The literals of an enum -/

def nameHead (enum : Ast.Enum) : String := "var " ++ enum.name ++ "_name = map[int32]string\x7b"

def valueHead (enum : Ast.Enum) : String := "var " ++ enum.name ++ "_value = map[string]int32\x7b"

def nameTable? (quoted : QuoteReader) (enum : Ast.Enum) (lines : List String) :
    Option (List (Int × String)) :=
  (literalLines (nameHead enum) lines).mapM (nameEntryOf? quoted)

def valueTable? (quoted : QuoteReader) (enum : Ast.Enum) (lines : List String) :
    Option (List (String × Int)) :=
  (literalLines (valueHead enum) lines).mapM (valueEntryOf? quoted)

def constantLines (enum : Ast.Enum) : List String :=
  ["", "type " ++ enum.name ++ " int32", "", "const ("] ++ enum.values.map (constantLine enum) ++
    [")", ""]

theorem enumLines_eq (enum : Ast.Enum) :
    ∃ rest, enumLines enum = constantLines enum ++ nameHead enum ::
      ((firstNames [] enum.values).map nameEntry ++ "\x7d" ::
        ("" :: valueHead enum :: (enum.values.map valueEntry ++ "\x7d" :: rest))) := by
  refine ⟨function ("(x " ++ enum.name ++ ") String() string")
    [block ("if name, ok := " ++ enum.name ++ "_name[int32(x)]; ok"), "\treturn name", "\x7d",
      "return strconv.Itoa(int(x))"], ?_⟩
  simp [enumLines, constantLines, nameHead, valueHead]

theorem head?_inFunction (line : String) : (inFunction line).toList.head? = some '\t' := by
  simp [inFunction]

theorem head?_of_mem_constantLines {enum : Ast.Enum} {line : String}
    (h : line ∈ constantLines enum) : line.toList.head? ≠ some 'v' := by
  simp only [constantLines, List.mem_append, List.mem_cons, List.mem_map, List.not_mem_nil,
    or_false] at h
  rcases h with ((rfl | rfl | rfl | rfl) | ⟨value, -, rfl⟩) | rfl | rfl
  · decide
  · simp
  · decide
  · decide
  · rw [constantLine, head?_inFunction]
    decide
  · decide
  · decide

theorem head?_nameHead (enum : Ast.Enum) : (nameHead enum).toList.head? = some 'v' := by
  simp [nameHead]

theorem head?_valueHead (enum : Ast.Enum) : (valueHead enum).toList.head? = some 'v' := by
  simp [valueHead]

theorem nameHead_ne_valueHead (enum : Ast.Enum) : nameHead enum ≠ valueHead enum := by
  intro h
  have htext := congrArg String.toList h
  simp only [nameHead, valueHead, String.toList_append, List.append_assoc,
    List.append_cancel_left_eq] at htext
  exact absurd htext (by decide)

theorem entry_ne {α : Type} {entry : α → String}
    (hentry : ∀ item, ∃ line, entry item = inFunction line) {items : List α} {other : String}
    (hother : other.toList.head? ≠ some '\t') :
    ∀ line ∈ items.map entry, line ≠ other := by
  rintro line hline rfl
  obtain ⟨item, -, rfl⟩ := List.mem_map.mp hline
  obtain ⟨line, hline⟩ := hentry item
  exact hother (hline ▸ head?_inFunction line)

theorem literalLines_nameHead (enum : Ast.Enum) :
    literalLines (nameHead enum) (enumLines enum) = (firstNames [] enum.values).map nameEntry := by
  obtain ⟨rest, hlines⟩ := enumLines_eq enum
  rw [hlines]
  refine literalLines_eq ?_ (entry_ne (fun _ => ⟨_, rfl⟩) (by decide)) _
  rintro line hline rfl
  exact head?_of_mem_constantLines hline (head?_nameHead enum)

theorem literalLines_valueHead (enum : Ast.Enum) :
    literalLines (valueHead enum) (enumLines enum) = enum.values.map valueEntry := by
  obtain ⟨rest, hlines⟩ := enumLines_eq enum
  have hsplit : enumLines enum = (constantLines enum ++ nameHead enum ::
      ((firstNames [] enum.values).map nameEntry ++ ["\x7d", ""])) ++ valueHead enum ::
        (enum.values.map valueEntry ++ "\x7d" :: rest) := by
    simp [hlines]
  rw [hsplit]
  refine literalLines_eq ?_ (entry_ne (fun _ => ⟨_, rfl⟩) (by decide)) _
  intro line hline
  rw [List.mem_append, List.mem_cons, List.mem_append] at hline
  rcases hline with hline | rfl | hline | hline
  · rintro rfl
    exact head?_of_mem_constantLines hline (head?_valueHead enum)
  · exact nameHead_ne_valueHead enum
  · refine entry_ne (fun _ => ⟨_, rfl⟩) ?_ line hline
    simp [head?_valueHead]
  · have hclosing : ∀ line ∈ ["\x7d", ""], line.toList.head? ≠ some 'v' := by decide
    rintro rfl
    exact hclosing _ hline (head?_valueHead enum)

theorem mapM_entries {α ρ : Type} {entry : α → String} {entryOf? : String → Option ρ}
    {pair : α → ρ} {items : List α}
    (h : ∀ item ∈ items, entryOf? (entry item) = some (pair item)) :
    (items.map entry).mapM entryOf? = some (items.map pair) := by
  induction items with
  | nil => rfl
  | cons item rest ih =>
      obtain ⟨hitem, hrest⟩ := List.forall_mem_cons.mp h
      rw [List.map_cons, List.mapM_cons, hitem, ih hrest]
      rfl

theorem firstNames_eq_keepNew (seen : List Int) (values : List Ast.EnumValue) :
    firstNames seen values = keepNew (·.number) seen values := by
  induction values generalizing seen with
  | nil => rfl
  | cons value rest ih => rw [firstNames, keepNew, ih, ih]

def namesOf (enum : Ast.Enum) : List (Int × String) :=
  (firstByKey (·.number) enum.values).map fun value => (value.number, value.name)

def valuesOf (enum : Ast.Enum) : List (String × Int) :=
  enum.values.map fun value => (value.name, value.number)

theorem nameTable?_enumLines {quoted : QuoteReader} {enum : Ast.Enum}
    (h : ∀ value ∈ enum.values, ReadsBack quoted value.name) :
    nameTable? quoted enum (enumLines enum) = some (namesOf enum) := by
  rw [nameTable?, literalLines_nameHead, firstNames_eq_keepNew, keepNew_nil_eq_firstByKey]
  refine mapM_entries fun value hvalue => nameEntryOf?_nameEntry (h value ?_)
  exact (firstByKey_sublist _ _).subset hvalue

theorem valueTable?_enumLines {quoted : QuoteReader} {enum : Ast.Enum}
    (h : ∀ value ∈ enum.values, ReadsBack quoted value.name) :
    valueTable? quoted enum (enumLines enum) = some (valuesOf enum) := by
  rw [valueTable?, literalLines_valueHead]
  exact mapM_entries fun value hvalue => valueEntryOf?_valueEntry (h value hvalue)

/-! ## Lookups -/

theorem lookup_map {α κ ν : Type} [DecidableEq κ] (key : α → κ) (value : α → ν) (items : List α)
    (k : κ) :
    (items.map fun item => (key item, value item)).lookup k =
      (items.find? fun item => key item = k).map value := by
  induction items with
  | nil => rfl
  | cons item rest ih =>
      rw [List.map_cons, List.lookup_cons, ih, List.find?_cons]
      by_cases hkey : key item = k
      · simp [hkey]
      · have hother : (k == key item) = false := by simpa using Ne.symm hkey
        simp [hkey, hother]

theorem lookup_namesOf (enum : Ast.Enum) (number : Int) :
    (namesOf enum).lookup number =
      (enum.values.find? fun value => value.number = number).map (·.name) := by
  rw [namesOf, lookup_map, find?_firstByKey]

theorem lookup_valuesOf {enum : Ast.Enum} (h : (enum.values.map (·.name)).Nodup)
    {value : Ast.EnumValue} (hvalue : value ∈ enum.values) :
    (valuesOf enum).lookup value.name = some value.number := by
  obtain ⟨before, after, hsplit⟩ := List.append_of_mem hvalue
  rw [hsplit, List.map_append, List.nodup_append] at h
  refine List.lookup_eq_some_iff.mpr
    ⟨before.map fun value => (value.name, value.number), after.map _, by
      rw [valuesOf, hsplit, List.map_append, List.map_cons], ?_⟩
  intro entry hentry
  obtain ⟨earlier, hearlier, rfl⟩ := List.mem_map.mp hentry
  have hne := h.2.2 earlier.name (List.mem_map_of_mem hearlier) value.name List.mem_cons_self
  exact bne_iff_ne.mpr hne.symm

theorem enumLines_infix (emitter : Emitter) {file : Ast.File} {enum : Ast.Enum}
    (h : enum ∈ file.enums) : enumLines enum <:+: emitter.fileLines file := by
  obtain ⟨before, after, hsplit⟩ := List.append_of_mem h
  refine ⟨headerLines file ++ emitter.importLines file ++ before.flatMap enumLines,
    after.flatMap enumLines ++ file.messages.flatMap emitter.messageLines ++
      file.services.flatMap serviceLines, ?_⟩
  simp [fileLines, declarationLines, hsplit]

/-- The tables of an enum, read back from the lines that a file has for it.  The table of names has
no number twice, covers every declared number and gives it the first name declared with it, in the
order of first declarations; the table of values has one entry for each value.  So a declared number
leads to a name that leads back to it.  Names without quotes and backslashes are also read as string
literals. -/
theorem enum_tables_agree (enum : Ast.Enum) (hnames : (enum.values.map (·.name)).Nodup) :
    (∀ (emitter : Emitter) (file : Ast.File), enum ∈ file.enums →
      enumLines enum <:+: emitter.fileLines file) ∧
    ∃ names values,
      nameTable? upToLastQuote enum (enumLines enum) = some names ∧
      valueTable? upToLastQuote enum (enumLines enum) = some values ∧
      ((∀ value ∈ enum.values, ∀ c ∈ value.name.toList, StructTag.needsEscape c = false) →
        nameTable? StructTag.readValue? enum (enumLines enum) = some names ∧
        valueTable? StructTag.readValue? enum (enumLines enum) = some values) ∧
      (names.map Prod.fst).Nodup ∧
      names = (firstByKey (·.number) enum.values).map (fun value => (value.number, value.name)) ∧
      (∀ number, names.lookup number =
        (enum.values.find? fun value => value.number = number).map (·.name)) ∧
      values = enum.values.map (fun value => (value.name, value.number)) ∧
      (values.map Prod.fst).Nodup ∧
      ∀ value ∈ enum.values, ∃ name, names.lookup value.number = some name ∧
        values.lookup name = some value.number := by
  have hverbatim : ∀ value ∈ enum.values, ReadsBack upToLastQuote value.name :=
    fun value _ => readsBack_upToLastQuote value.name
  refine ⟨fun emitter file => enumLines_infix emitter, namesOf enum, valuesOf enum,
    nameTable?_enumLines hverbatim, valueTable?_enumLines hverbatim, ?_, ?_, rfl,
    lookup_namesOf enum, rfl, ?_, ?_⟩
  · intro hplain
    have hliteral : ∀ value ∈ enum.values, ReadsBack StructTag.readValue? value.name :=
      fun value hvalue => readsBack_readValue? (hplain value hvalue)
    exact ⟨nameTable?_enumLines hliteral, valueTable?_enumLines hliteral⟩
  · rw [namesOf, List.map_map]
    exact nodup_map_firstByKey (·.number) enum.values
  · rwa [valuesOf, List.map_map]
  · intro value hvalue
    obtain ⟨first, hfirst⟩ : ∃ first, enum.values.find? (fun other =>
        other.number = value.number) = some first :=
      Option.isSome_iff_exists.mp (List.find?_isSome.mpr ⟨value, hvalue, by simp⟩)
    have hnumber : first.number = value.number := by simpa using List.find?_some hfirst
    refine ⟨first.name, by rw [lookup_namesOf, hfirst, Option.map_some], ?_⟩
    rw [lookup_valuesOf hnames (List.mem_of_find?_eq_some hfirst), hnumber]

def aliasedEnum : Ast.Enum where
  name := "Status"
  fullName := "p.Status"
  values := [⟨"OFF", 0, []⟩, ⟨"LOST", -1, []⟩, ⟨"NONE", 0, []⟩, ⟨"GONE", -1, []⟩]
  options := []
  file := 0

theorem enum_tables_agree_aliased :
    (aliasedEnum.values.map (·.name)).Nodup ∧
    ∃ values, nameTable? StructTag.readValue? aliasedEnum (enumLines aliasedEnum) =
        some [(0, "OFF"), (-1, "LOST")] ∧
      valueTable? StructTag.readValue? aliasedEnum (enumLines aliasedEnum) = some values ∧
      ∀ value ∈ aliasedEnum.values, ∃ name,
        List.lookup value.number [((0 : Int), "OFF"), (-1, "LOST")] = some name ∧
          values.lookup name = some value.number := by
  have hnames : (aliasedEnum.values.map (·.name)).Nodup := by decide
  obtain ⟨-, names, values, -, -, hliteral, -, hfirst, -, -, -, hback⟩ :=
    enum_tables_agree aliasedEnum hnames
  have htable : names = [(0, "OFF"), (-1, "LOST")] := hfirst.trans (by decide)
  subst htable
  have hplain : aliasedEnum.values.all fun value =>
      value.name.toList.all fun c => !StructTag.needsEscape c := by decide
  obtain ⟨hread, hread'⟩ := hliteral fun value hvalue c hc => by
    simpa using List.all_eq_true.mp (List.all_eq_true.mp hplain value hvalue) c hc
  exact ⟨hnames, values, hread, hread', hback⟩

end SchemaGo.Go.EnumTable
