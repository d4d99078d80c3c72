import Mathlib.Data.List.TakeWhile
import SchemaGo.Number.Reading
import SchemaGo.Proofs.Path.Segments
import SchemaGo.Wire.Tag

/-!
# Reading tags back

The tokens of a tag are not escaped, but their order is fixed and each optional
token starts with a letter of its own.  So a reader that goes through the pieces
between the commas knows at each of them which tokens are missing, and everything
behind `def=` belongs to the default.
-/

namespace SchemaGo

/-! ## Pieces of a joined text -/

namespace Text

theorem splitAt_append_of_not_mem {sep : Char} {front : List Char} (h : sep ∉ front)
    {cs piece : List Char} {pieces : List (List Char)} (hcs : splitAt sep cs = piece :: pieces) :
    splitAt sep (front ++ cs) = (front ++ piece) :: pieces := by
  induction front with
  | nil => exact hcs
  | cons c rest ih =>
      rw [List.mem_cons, not_or] at h
      rw [List.cons_append, splitAt, if_neg (Ne.symm h.1), ih h.2]
      rfl

end Text

namespace Decimal

theorem valueOfDigits_eq (digits : List Char) :
    valueOfDigits digits = Nat.ofDigitChars 10 digits 0 := rfl

theorem readNat?_toString (n : Nat) : readNat? (toString n).toList = some n := by
  have hall : (Nat.toDigits 10 n).all Char.isDigit = true :=
    List.all_eq_true.mpr fun _ hc => Nat.isDigit_of_mem_toDigits (by decide) (by decide) hc
  have hne : Nat.toDigits 10 n ≠ [] := Nat.toDigits_ne_nil
  simp [readNat?, hall, hne, valueOfDigits_eq]

end Decimal

/-! ## Contents of a tag -/

structure TagContent where
  wireClass : WireClass
  number : Nat
  cardinality : Cardinality
  packed : Bool
  name : String
  jsonName : Option String
  proto3 : Bool
  enumName : Option String
  oneof : Bool
  default : Option String
deriving DecidableEq, Repr

def WireField.content (field : WireField) (skipProto3 : Bool) : TagContent where
  wireClass := field.kind.wireClass
  number := field.number
  cardinality := field.cardinality
  packed := field.packed
  name := field.name
  jsonName := if field.showsJsonName then some field.jsonName else none
  proto3 := field.marksProto3 skipProto3
  enumName := field.enumName
  oneof := field.oneof
  default := field.default

namespace TagContent

def wordPiece (word : String) (present : Bool) : List (List Char) :=
  if present then [word.toList] else []

def labelledPiece (label : String) (value : Option String) : List (List Char) :=
  (value.map fun value => label.toList ++ value.toList).toList

def front (content : TagContent) : List (List Char) :=
  [content.wireClass.name.toList, (toString content.number).toList,
    content.cardinality.token.toList] ++
    wordPiece "packed" content.packed ++
    labelledPiece "name=" (some content.name) ++
    labelledPiece "json=" content.jsonName ++
    wordPiece "proto3" content.proto3 ++
    labelledPiece "enum=" content.enumName ++
    wordPiece "oneof" content.oneof

def defaultPieces (value : Option String) : List (List Char) :=
  (labelledPiece "def=" value).flatMap (Text.splitAt ',')

def pieces (content : TagContent) : List (List Char) :=
  content.front ++ defaultPieces content.default

end TagContent

structure WireField.CommaFree (field : WireField) : Prop where
  name : ',' ∉ field.name.toList
  jsonName : ',' ∉ field.jsonName.toList
  enumName : ∀ enumName ∈ field.enumName, ',' ∉ enumName.toList

theorem WireField.tokens_eq (field : WireField) (skipProto3 : Bool) :
    (field.tokens skipProto3).map String.toList =
      (field.content skipProto3).front ++ TagContent.labelledPiece "def=" field.default := by
  have hjson : (if field.showsJsonName then ["json=" ++ field.jsonName] else []).map
      String.toList = TagContent.labelledPiece "json=" (field.content skipProto3).jsonName := by
    rw [content, TagContent.labelledPiece]
    cases field.showsJsonName <;> simp
  have hword : ∀ (word : String) (present : Bool),
      (if present then [word] else []).map String.toList = TagContent.wordPiece word present := by
    intro word present
    cases present <;> rfl
  simp only [tokens, TagContent.front, List.map_append, hjson, hword]
  cases henum : field.enumName <;> cases hdefault : field.default <;>
    simp [content, TagContent.labelledPiece, henum]

theorem WireField.comma_not_mem_front {field : WireField} (h : field.CommaFree)
    (skipProto3 : Bool) : ∀ piece ∈ (field.content skipProto3).front, ',' ∉ piece := by
  have hclass : ',' ∉ field.kind.wireClass.name.toList := by
    cases field.kind.wireClass <;> decide
  have hnumber : ',' ∉ (toString field.number).toList := by
    intro hmem
    have hdigits : ',' ∈ Nat.toDigits 10 field.number := by simpa using hmem
    have hdigit := Nat.isDigit_of_mem_toDigits (by decide) (by decide) hdigits
    cases hdigit
  have hcardinality : ',' ∉ field.cardinality.token.toList := by
    cases field.cardinality <;> decide
  have hjson : ∀ piece ∈ TagContent.labelledPiece "json=" (field.content skipProto3).jsonName,
      ',' ∉ piece := by
    rw [content]
    cases field.showsJsonName <;> simp [TagContent.labelledPiece, h.jsonName]
  have henum : ∀ piece ∈ TagContent.labelledPiece "enum=" field.enumName, ',' ∉ piece := by
    cases hname : field.enumName with
    | none => simp [TagContent.labelledPiece]
    | some enumName => simp [TagContent.labelledPiece, h.enumName enumName hname]
  have hword : ∀ (word : String) (present : Bool), ',' ∉ word.toList →
      ∀ piece ∈ TagContent.wordPiece word present, ',' ∉ piece := by
    intro word present hcomma
    cases present <;> simp [TagContent.wordPiece, hcomma]
  simp only [TagContent.front, List.forall_mem_append, List.forall_mem_cons]
  refine ⟨⟨⟨⟨⟨⟨⟨hclass, hnumber, hcardinality, by simp⟩, ?_⟩, ?_⟩, hjson⟩, ?_⟩, henum⟩, ?_⟩
  · exact hword "packed" _ (by decide)
  · simp [TagContent.labelledPiece, content, h.name]
  · exact hword "proto3" _ (by decide)
  · exact hword "oneof" _ (by decide)

theorem WireField.splitAt_tag {field : WireField} (h : field.CommaFree) (skipProto3 : Bool) :
    Text.splitAt ',' (field.tag skipProto3).toList = (field.content skipProto3).pieces := by
  have htokens : (field.tokens skipProto3).map String.toList ≠ [] := by
    simp [tokens_eq, TagContent.front]
  rw [tag, Text.joinWith, String.toList_intercalate]
  have hsep : ",".toList = [','] := rfl
  rw [hsep, Text.splitAt_intercalate ',' htokens, tokens_eq, List.flatMap_append,
    Text.flatMap_splitAt_of_not_mem (comma_not_mem_front h skipProto3)]
  rfl

/-! ## The reader -/

namespace TagContent

def readClass? (piece : List Char) : Option WireClass :=
  [WireClass.varint, .zigzag32, .zigzag64, .fixed32, .fixed64, .bytes, .group].find?
    fun wireClass => wireClass.name.toList = piece

def readCardinality? (piece : List Char) : Option Cardinality :=
  [Cardinality.optional, .required, .repeated].find? fun cardinality =>
    cardinality.token.toList = piece

def takeWord (word : String) : List (List Char) → Bool × List (List Char)
  | [] => (false, [])
  | piece :: rest => if piece = word.toList then (true, rest) else (false, piece :: rest)

def takeLabelled (label : String) : List (List Char) → Option String × List (List Char)
  | [] => (none, [])
  | piece :: rest =>
    match piece.dropPrefix? label.toList with
    | some value => (some (String.ofList value), rest)
    | none => (none, piece :: rest)

def readDefault? (pieces : List (List Char)) : Option (Option String) :=
  match pieces with
  | [] => some none
  | _ :: _ => ((List.intercalate [','] pieces).dropPrefix? "def=".toList).map fun value =>
      some (String.ofList value)

def readPieces? : List (List Char) → Option TagContent
  | first :: second :: third :: rest => do
    let wireClass ← readClass? first
    let number ← Decimal.readNat? second
    let cardinality ← readCardinality? third
    let (packed, rest) := takeWord "packed" rest
    let (name?, rest) := takeLabelled "name=" rest
    let name ← name?
    let (jsonName, rest) := takeLabelled "json=" rest
    let (proto3, rest) := takeWord "proto3" rest
    let (enumName, rest) := takeLabelled "enum=" rest
    let (oneof, rest) := takeWord "oneof" rest
    let default ← readDefault? rest
    return { wireClass, number, cardinality, packed, name, jsonName, proto3, enumName, oneof,
             default }
  | _ => none

def read? (tag : String) : Option TagContent := readPieces? (Text.splitAt ',' tag.toList)

theorem readClass?_name (wireClass : WireClass) :
    readClass? wireClass.name.toList = some wireClass := by
  cases wireClass <;> decide

theorem readCardinality?_token (cardinality : Cardinality) :
    readCardinality? cardinality.token.toList = some cardinality := by
  cases cardinality <;> decide

/-! ## Tokens that are missing -/

def initial? (pieces : List (List Char)) : Option Char := pieces.head?.bind List.head?

section

variable {text : String} {more : List Char} {rest : List (List Char)}

theorem initial?_wordPiece (letter : Char) (htext : text.toList = letter :: more)
    (present : Bool) :
    initial? (wordPiece text present ++ rest) =
      if present then some letter else initial? rest := by
  cases present <;> simp [wordPiece, initial?, htext]

theorem initial?_labelledPiece (letter : Char) (htext : text.toList = letter :: more)
    (value : Option String) :
    initial? (labelledPiece text value ++ rest) =
      if value.isSome then some letter else initial? rest := by
  cases value <;> simp [labelledPiece, initial?, htext]

/-- A word that is missing is not taken for a token that starts with another letter. -/
theorem takeWord_wordPiece (letter : Char) (htext : text.toList = letter :: more)
    (present : Bool) (h : initial? rest ≠ some letter) :
    takeWord text (wordPiece text present ++ rest) = (present, rest) := by
  cases present with
  | true => simp [wordPiece, takeWord]
  | false =>
      cases rest with
      | nil => rfl
      | cons piece rest =>
          have hne : piece ≠ text.toList := by
            rintro rfl
            simp [initial?, htext] at h
          simp [wordPiece, takeWord, hne]

theorem takeLabelled_some (label value : String) (rest : List (List Char)) :
    takeLabelled label (labelledPiece label (some value) ++ rest) = (some value, rest) := by
  simp [labelledPiece, takeLabelled, List.dropPrefix?_append_of_beq]

theorem takeLabelled_labelledPiece (letter : Char) (htext : text.toList = letter :: more)
    (value : Option String) (h : initial? rest ≠ some letter) :
    takeLabelled text (labelledPiece text value ++ rest) = (value, rest) := by
  cases value with
  | some value => exact takeLabelled_some text value rest
  | none =>
      cases rest with
      | nil => rfl
      | cons piece rest =>
          have hnone : piece.dropPrefix? text.toList = none := by
            cases hdrop : piece.dropPrefix? text.toList with
            | none => rfl
            | some tail =>
                obtain ⟨front, rfl, hfront⟩ := List.dropPrefix?_eq_some_iff.mp hdrop
                simp [initial?, eq_of_beq hfront, htext] at h
          simp [labelledPiece, takeLabelled, hnone]

end

/-! ## Reading back -/

theorem defaultPieces_some (value : String) :
    defaultPieces (some value) = Text.splitAt ',' ("def=".toList ++ value.toList) := by
  simp [defaultPieces, labelledPiece]

theorem readDefault?_defaultPieces (value : Option String) :
    readDefault? (defaultPieces value) = some value := by
  cases value with
  | none => rfl
  | some value =>
      rw [defaultPieces_some]
      cases hsplit : Text.splitAt ',' ("def=".toList ++ value.toList) with
      | nil => exact absurd hsplit (Text.splitAt_ne_nil _ _)
      | cons piece rest =>
          rw [readDefault?, ← hsplit, Text.intercalate_splitAt,
            List.dropPrefix?_append_of_beq _ (beq_self_eq_true _)]
          simp

theorem initial?_defaultPieces (value : Option String) :
    initial? (defaultPieces value) = if value.isSome then some 'd' else none := by
  cases value with
  | none => rfl
  | some value =>
      cases hsplit : Text.splitAt ',' value.toList with
      | nil => exact absurd hsplit (Text.splitAt_ne_nil _ _)
      | cons piece rest =>
          rw [defaultPieces_some, Text.splitAt_append_of_not_mem (by decide) hsplit]
          rfl

/-! The tokens behind an optional one start with other letters. -/

def behindEnumName (content : TagContent) : List (List Char) :=
  wordPiece "oneof" content.oneof ++ defaultPieces content.default

def behindProto3 (content : TagContent) : List (List Char) :=
  labelledPiece "enum=" content.enumName ++ content.behindEnumName

def behindJsonName (content : TagContent) : List (List Char) :=
  wordPiece "proto3" content.proto3 ++ content.behindProto3

def behindName (content : TagContent) : List (List Char) :=
  labelledPiece "json=" content.jsonName ++ content.behindJsonName

theorem pieces_eq (content : TagContent) :
    content.pieces = content.wireClass.name.toList :: (toString content.number).toList ::
      content.cardinality.token.toList :: (wordPiece "packed" content.packed ++
        (labelledPiece "name=" (some content.name) ++ content.behindName)) := by
  simp only [pieces, front, behindName, behindJsonName, behindProto3, behindEnumName,
    List.append_assoc, List.cons_append, List.nil_append]

theorem readPieces?_pieces (content : TagContent) : readPieces? content.pieces = some content := by
  have hdefault := initial?_defaultPieces content.default
  have henum : initial? content.behindEnumName = _ :=
    initial?_wordPiece 'o' rfl content.oneof
  have hproto3 : initial? content.behindProto3 = _ :=
    initial?_labelledPiece 'e' rfl content.enumName
  have hjson : initial? content.behindJsonName = _ :=
    initial?_wordPiece 'p' rfl content.proto3
  have hpacked : takeWord "packed" _ = (content.packed, _) :=
    takeWord_wordPiece 'p' rfl content.packed
      (show initial? (labelledPiece "name=" (some content.name) ++ content.behindName) ≠ _ by
        rw [initial?_labelledPiece 'n' rfl]
        simp)
  have hname := takeLabelled_some "name=" content.name content.behindName
  have hjsonName : takeLabelled "json=" content.behindName = (content.jsonName, _) :=
    takeLabelled_labelledPiece 'j' rfl content.jsonName
      (show initial? content.behindJsonName ≠ _ by grind)
  have hmarker : takeWord "proto3" content.behindJsonName = (content.proto3, _) :=
    takeWord_wordPiece 'p' rfl content.proto3
      (show initial? content.behindProto3 ≠ _ by grind)
  have henumName : takeLabelled "enum=" content.behindProto3 = (content.enumName, _) :=
    takeLabelled_labelledPiece 'e' rfl content.enumName
      (show initial? content.behindEnumName ≠ _ by grind)
  have honeof : takeWord "oneof" content.behindEnumName = (content.oneof, _) :=
    takeWord_wordPiece 'o' rfl content.oneof
      (show initial? (defaultPieces content.default) ≠ _ by grind)
  rw [pieces_eq, readPieces?]
  simp only [readClass?_name, Decimal.readNat?_toString, readCardinality?_token, hpacked, hname,
    hjsonName, hmarker, henumName, honeof, readDefault?_defaultPieces, Option.bind_eq_bind,
    Option.bind_some]
  rfl

end TagContent

namespace WireField

theorem read?_tag {field : WireField} (h : field.CommaFree) (skipProto3 : Bool) :
    TagContent.read? (field.tag skipProto3) = some (field.content skipProto3) := by
  rw [TagContent.read?, splitAt_tag h, TagContent.readPieces?_pieces]

/-- A tag tells everything that it was made of, whatever the default is, so fields with the same tag
agree in all of it. -/
theorem tag_reads_back (field : WireField) (skipProto3 : Bool) (h : field.CommaFree) :
    TagContent.read? (field.tag skipProto3) = some (field.content skipProto3) ∧
    ∀ (other : WireField) (skipProto3' : Bool), other.CommaFree →
      other.tag skipProto3' = field.tag skipProto3 →
        other.content skipProto3' = field.content skipProto3 := by
  refine ⟨read?_tag h skipProto3, ?_⟩
  intro other skipProto3' hother htag
  have hsame := read?_tag hother skipProto3'
  rw [htag, read?_tag h skipProto3] at hsame
  exact (Option.some.inj hsame).symm

def disguised : WireField where
  kind := .enum
  number := 3
  cardinality := .repeated
  packed := false
  name := "packed"
  jsonName := "proto3"
  proto3 := false
  extension := false
  enumName := some "oneof"
  oneof := false
  default := some ",oneof,def="

theorem tag_reads_back_disguised :
    disguised.CommaFree ∧
    disguised.tag false = "varint,3,rep,name=packed,json=proto3,enum=oneof,def=,oneof,def=" ∧
    TagContent.read? "varint,3,rep,name=packed,json=proto3,enum=oneof,def=,oneof,def=" =
      some ⟨.varint, 3, .repeated, false, "packed", some "proto3", false, some "oneof", false,
        some ",oneof,def="⟩ := by
  have hfree : disguised.CommaFree := ⟨by decide, by decide, by simp [disguised]⟩
  have htag : disguised.tag false =
      "varint,3,rep,name=packed,json=proto3,enum=oneof,def=,oneof,def=" := by decide +kernel
  have hread := (tag_reads_back disguised false hfree).1
  rw [htag] at hread
  exact ⟨hfree, htag, hread⟩

end WireField

end SchemaGo
