import SchemaGo.Go.Source
import SchemaGo.Proofs.Lower.Traversal
import SchemaGo.Proofs.Wire.PlainDefault
import SchemaGo.Proofs.Wire.TagReading

/-!
# Struct tags of fields

The struct tag of a generated field is joined from texts of the declaration, and only
the quotes of option values are escaped on the way.  So it is read back as the pairs
it stands for if and only if none of these texts needs another escape.
-/

namespace SchemaGo

open StructTag

/-! ## Plain tags -/

namespace TagContent

theorem all_wordPiece (word : String) (h : isPlain word) (present : Bool) :
    ((wordPiece word present).all fun piece => piece.all isPlainChar) = true := by
  cases present with
  | false => rfl
  | true =>
      rw [wordPiece, if_pos rfl, List.all_cons, List.all_nil, Bool.and_true]
      exact h

theorem all_labelledPiece (label : String) (h : isPlain label) (value : Option String) :
    ((labelledPiece label value).all fun piece => piece.all isPlainChar) = value.all isPlain := by
  cases value with
  | none => rfl
  | some value =>
      have hlabel : label.toList.all isPlainChar = true := h
      simp [labelledPiece, hlabel, isPlain, Option.all]

end TagContent

theorem WireField.isPlain_tag (field : WireField) (skipProto3 : Bool) :
    isPlain (field.tag skipProto3) = (isPlain field.name &&
      (field.content skipProto3).jsonName.all isPlain && field.enumName.all isPlain &&
        field.default.all isPlain) := by
  have hclass : field.kind.wireClass.name.toList.all isPlainChar = true := by
    cases field.kind.wireClass <;> decide
  have hnumber : (toString field.number).toList.all isPlainChar = true :=
    Decimal.toString_nat_isPlain field.number
  have hcardinality : field.cardinality.token.toList.all isPlainChar = true := by
    cases field.cardinality <;> decide
  have hpieces : isPlain (field.tag skipProto3) =
      ((field.tokens skipProto3).map String.toList).all fun piece => piece.all isPlainChar := by
    rw [isPlain, tag, Text.joinWith, String.toList_intercalate]
    exact all_intercalate isPlainChar ',' (by decide) _
  rw [hpieces, tokens_eq, TagContent.front]
  simp only [List.all_append, List.all_cons, List.all_nil, hclass, hnumber, hcardinality,
    TagContent.all_wordPiece "packed" (by decide), TagContent.all_wordPiece "proto3" (by decide),
    TagContent.all_wordPiece "oneof" (by decide), TagContent.all_labelledPiece "name=" (by decide),
    TagContent.all_labelledPiece "json=" (by decide),
    TagContent.all_labelledPiece "enum=" (by decide),
    TagContent.all_labelledPiece "def=" (by decide), content, Bool.true_and, Bool.and_true,
    Option.all_some]

theorem WireField.all_jsonName_content {wire : WireField} (hextension : wire.extension = false)
    (hname : isPlain wire.name) (skipProto3 : Bool) :
    (wire.content skipProto3).jsonName.all isPlain = isPlain wire.jsonName := by
  rw [WireField.content]
  cases hshown : wire.showsJsonName with
  | true => rfl
  | false =>
      have hplain : isPlain wire.jsonName = true := by
        simp only [WireField.showsJsonName, hextension, Bool.not_false, Bool.and_true,
          Bool.and_eq_false_iff, Bool.not_eq_false', bne_eq_false_iff_eq,
          String.isEmpty_iff] at hshown
        rcases hshown with hempty | hsame
        · rw [hempty]
          decide
        · rwa [hsame]
      rw [hplain]
      rfl

theorem WireField.isPlain_tag_of_field {wire : WireField} (hextension : wire.extension = false)
    (skipProto3 : Bool) :
    isPlain (wire.tag skipProto3) = (isPlain wire.name && isPlain wire.jsonName &&
      wire.enumName.all isPlain && wire.default.all isPlain) := by
  rw [isPlain_tag]
  cases hname : isPlain wire.name with
  | false => simp only [Bool.false_and]
  | true => rw [all_jsonName_content hextension hname]

/-! ## Pairs of a tag -/

namespace Lower

def optionKey (extension : Schema.TypeRef) : String :=
  parentName extension.fullName ++ "." ++ extension.name

def optionPairs (field : Schema.Field) : List (String × String) :=
  match field.options with
  | none => []
  | some options =>
    options.custom.filterMap fun (extension, _, value) =>
      (scalarText? value).map fun text => (optionKey extension, text)

theorem toList_tagPair (pair : String × String) :
    (tagPair pair.1 pair.2).toList = (Draft.bare pair).text := by
  have hbody : (Draft.bare pair).bodyChar = fun c => [c] := rfl
  rw [Draft.text, hbody]
  simp [tagPair, Draft.bare]

theorem toList_tagPair_escapeQuotes (pair : String × String) :
    (tagPair pair.1 (escapeQuotes pair.2)).toList = (Draft.quoted pair).text := by
  have hbody : (Draft.quoted pair).bodyChar = fun c => if c = '"' then ['\\', '"'] else [c] := by
    funext c
    by_cases hquote : c = '"' <;> simp [Draft.bodyChar, Draft.quoted, hquote]
  rw [Draft.text, hbody]
  simp [tagPair, escapeQuotes, Draft.quoted]

theorem of_structTag {pool : Schema.Pool} {field : Schema.Field} {text : String}
    (h : structTag pool field = .ok text) :
    ∃ wire entries, wireField pool field.bare = .ok wire ∧
      entryPairs pool field.type = .ok entries ∧
      text = Text.joinWith " " ((("protobuf", wire.tag false) :: ("json", field.jsonName) ::
        entries).map fun pair => tagPair pair.1 pair.2) := by
  obtain ⟨wire, hwire, h⟩ := exists_ok_of_bind h
  obtain ⟨entries, hentries, h⟩ := exists_ok_of_bind h
  cases h
  exact ⟨wire, entries, hwire, hentries, rfl⟩

theorem extensionTags_eq (field : Schema.Field) :
    extensionTags field =
      (optionPairs field).map fun pair => tagPair pair.1 (escapeQuotes pair.2) := by
  rw [extensionTags, optionPairs]
  cases field.options with
  | none => rfl
  | some options => simp [List.map_filterMap, Function.comp_def, optionKey]

theorem foldl_joinWith {parts : List String} (hne : parts ≠ []) (more : List String) :
    more.foldl (fun text part => text ++ " " ++ part) (Text.joinWith " " parts) =
      Text.joinWith " " (parts ++ more) := by
  induction more generalizing parts with
  | nil => rw [List.append_nil, List.foldl_nil]
  | cons part rest ih =>
      have hpart : Text.joinWith " " parts ++ " " ++ part =
          Text.joinWith " " (parts ++ [part]) := by
        simp only [Text.joinWith]
        rw [String.intercalate_append_of_ne_nil hne (by simp), String.intercalate_singleton]
      rw [List.foldl_cons, hpart, ih (by simp), List.append_assoc, List.singleton_append]

def tagDrafts (declared : Schema.Field) (tag : String) (entries : List (String × String)) :
    List Draft :=
  (("protobuf", tag) :: ("json", declared.jsonName) :: entries).map Draft.bare ++
    (optionPairs declared).map Draft.quoted

theorem map_pair_tagDrafts (declared : Schema.Field) (tag : String)
    (entries : List (String × String)) :
    (tagDrafts declared tag entries).map Draft.pair =
      [("protobuf", tag), ("json", declared.jsonName)] ++ entries ++ optionPairs declared := by
  have hbare : Draft.pair ∘ Draft.bare = id := rfl
  have hquoted : Draft.pair ∘ Draft.quoted = id := rfl
  rw [tagDrafts, List.map_append, List.map_map, List.map_map, hbare, hquoted, List.map_id,
    List.map_id]
  rfl

/-! ## Texts that need escapes -/

structure HasPlainTag (pool : Schema.Pool) (field : Schema.BareField) : Prop where
  name : isPlain (tagName field)
  jsonName : isPlain field.jsonName
  enumName : ∀ name ∈ enumName? field.type, isPlain name
  default : ∀ raw ∈ field.defaultText, Wire.isPlainDefault raw (defaultKind pool field.type)

def isQuotableOption : Schema.Value → Bool
  | .string text => isQuotable text
  | _ => true

/-- No text in a struct tag needs an escape that it does not get: neither those of the field nor
those of the entry of a map nor those of the options. -/
structure HasPlainTexts (pool : Schema.Pool) (field : Schema.Field) : Prop where
  tags : ∀ part ∈ field.tagged, HasPlainTag pool part
  options : ∀ options ∈ field.options, ∀ option ∈ options.custom,
    (scalarText? option.2.2).isSome →
      isKey (optionKey option.1).toList ∧ isQuotableOption option.2.2

theorem isQuotable_scalarText {value : Schema.Value} {text : String}
    (h : scalarText? value = some text) : isQuotable text = isQuotableOption value := by
  cases value with
  | bool value =>
      cases h
      cases value <;> rfl
  | int32 value | int64 value | enum value =>
      cases h
      exact isQuotable_of_isPlain (Decimal.toString_int_isPlain _)
  | uint32 value | uint64 value =>
      cases h
      exact isQuotable_of_isPlain (Decimal.toString_nat_isPlain _)
  | float value | double value =>
      cases h
      exact isQuotable_of_isPlain (Decimal.plain_isPlain _ _)
  | string value =>
      cases h
      rfl
  | bytes value | list items | map entries | message fields => cases h

theorem all_fieldDefault {pool : Schema.Pool} {field : Schema.BareField}
    {default : Option String} (h : fieldDefault pool field = .ok default) :
    default.all isPlain =
      field.defaultText.all (Wire.isPlainDefault · (defaultKind pool field.type)) := by
  rw [fieldDefault] at h
  split at h
  · rename_i hnone
    cases h
    rw [hnone]
    rfl
  · rename_i raw hraw
    cases hformat : Wire.formatDefault raw (defaultKind pool field.type) with
    | error fault =>
        rw [hformat] at h
        cases h
    | ok text =>
        rw [hformat] at h
        cases h
        rw [hraw, Option.all_some, Option.all_some, Wire.formatDefault_isPlain hformat]

theorem isPlain_tag_iff {pool : Schema.Pool} {field : Schema.BareField} {wire : WireField}
    (h : wireField pool field = .ok wire) (skipProto3 : Bool) :
    isPlain (wire.tag skipProto3) ↔ HasPlainTag pool field := by
  rw [wireField] at h
  split at h
  · cases h
  · rename_i default hdefault
    cases h
    simp only [WireField.isPlain_tag_of_field, all_fieldDefault hdefault, Bool.and_eq_true,
      Option.all_eq_true]
    constructor
    · rintro ⟨⟨⟨hname, hjson⟩, henum⟩, htext⟩
      exact ⟨hname, hjson, henum, htext⟩
    · rintro ⟨hname, hjson, henum, htext⟩
      exact ⟨⟨⟨hname, hjson⟩, henum⟩, htext⟩

theorem entryPairs_isSafe_iff {pool : Schema.Pool} {field : Schema.Field}
    {entries : List (String × String)} (h : entryPairs pool field.type = .ok entries) :
    (∀ pair ∈ entries, (Draft.bare pair).isSafe) ↔
      ∀ part ∈ field.tagged.tail, HasPlainTag pool part := by
  rw [Schema.Field.tagged, List.tail_cons]
  cases htype : field.type with
  | single type =>
      rw [htype] at h
      cases h
      simp
  | map entry =>
      rw [htype] at h
      obtain ⟨key, hkey, h⟩ := exists_ok_of_bind h
      obtain ⟨value, hvalue, h⟩ := exists_ok_of_bind h
      cases h
      have hkeyName : isKey "protobuf_key".toList = true := by decide
      have hvalueName : isKey "protobuf_val".toList = true := by decide
      rw [List.forall_mem_cons, List.forall_mem_singleton, List.forall_mem_cons,
        List.forall_mem_singleton, Draft.isSafe_bare, Draft.isSafe_bare, hkeyName, hvalueName,
        Bool.true_and, Bool.true_and, isPlain_tag_iff hkey, isPlain_tag_iff hvalue]

theorem optionPairs_isSafe_iff (field : Schema.Field) :
    (∀ pair ∈ optionPairs field, (Draft.quoted pair).isSafe) ↔
      ∀ options ∈ field.options, ∀ option ∈ options.custom, (scalarText? option.2.2).isSome →
        isKey (optionKey option.1).toList ∧ isQuotableOption option.2.2 := by
  rw [optionPairs]
  cases field.options with
  | none => simp
  | some options =>
      simp only [Draft.isSafe_quoted, Bool.and_eq_true, List.mem_filterMap,
        Option.map_eq_some_iff, Option.mem_some_iff, forall_eq']
      constructor
      · rintro h ⟨extension, number, value⟩ hoption hscalar
        obtain ⟨text, htext⟩ := Option.isSome_iff_exists.mp hscalar
        rw [← isQuotable_scalarText htext]
        exact h (optionKey extension, text) ⟨_, hoption, text, htext, rfl⟩
      · rintro h _ ⟨option, hoption, text, htext, rfl⟩
        rw [isQuotable_scalarText htext]
        exact h option hoption (by simp [htext])

theorem tagDrafts_isSafe_iff {pool : Schema.Pool} {field : Schema.Field} {wire : WireField}
    {entries : List (String × String)} (hwire : wireField pool field.bare = .ok wire)
    (hentries : entryPairs pool field.type = .ok entries) :
    (∀ draft ∈ tagDrafts field (wire.tag false) entries, draft.isSafe) ↔
      HasPlainTexts pool field := by
  have hprotobuf : isKey "protobuf".toList = true := by decide
  have hjson : isKey "json".toList = true := by decide
  have htagged : field.tagged = field.bare :: field.tagged.tail := rfl
  simp only [tagDrafts, List.forall_mem_append, List.forall_mem_map, List.forall_mem_cons,
    entryPairs_isSafe_iff hentries, optionPairs_isSafe_iff]
  simp only [Draft.isSafe_bare, hprotobuf, hjson, Bool.true_and, isPlain_tag_iff hwire]
  constructor
  · rintro ⟨⟨hown, -, hparts⟩, hoptions⟩
    refine ⟨?_, hoptions⟩
    rw [htagged]
    exact List.forall_mem_cons.mpr ⟨hown, hparts⟩
  · rintro ⟨htags, hoptions⟩
    rw [htagged, List.forall_mem_cons] at htags
    exact ⟨⟨htags.1, htags.1.jsonName, htags.2⟩, hoptions⟩

end Lower

namespace Lowering

theorem Yields.drafts_of_field {ctx : Context} {path : SourcePath} {oneofs : List Schema.Oneof}
    {declared : Schema.Field} {lowered : Ast.Field}
    (h : Yields (field ctx path oneofs declared) lowered) :
    ∃ wire entries, Lower.wireField ctx.pool declared.bare = .ok wire ∧
      Lower.entryPairs ctx.pool declared.type = .ok entries ∧ lowered.tag = wire.tag false ∧
      lowered.jsonName = declared.jsonName ∧
      (Go.Emitter.fieldTag lowered).toList =
        join (Lower.tagDrafts declared (wire.tag false) entries) := by
  obtain ⟨wire, structTag, fieldOptions, hwire, hstruct, -, rfl⟩ := h.of_field
  obtain ⟨wire', entries, hwire', hentries, rfl⟩ := Lower.of_structTag hstruct
  obtain rfl : wire = wire' := Except.ok.inj (hwire.symm.trans hwire')
  refine ⟨wire, entries, hwire, hentries, rfl, rfl, ?_⟩
  have htext : Go.Emitter.fieldTag (astField oneofs declared wire
        (Text.joinWith " " ((("protobuf", wire.tag false) :: ("json", declared.jsonName) ::
          entries).map fun pair => Lower.tagPair pair.1 pair.2)) fieldOptions) =
      Text.joinWith " " ((("protobuf", wire.tag false) :: ("json", declared.jsonName) ::
          entries).map (fun pair => Lower.tagPair pair.1 pair.2) ++
        (Lower.optionPairs declared).map
          fun pair => Lower.tagPair pair.1 (Lower.escapeQuotes pair.2)) := by
    rw [Go.Emitter.fieldTag, astField, Lower.extensionTags_eq, Lower.foldl_joinWith (by simp)]
  rw [htext, Text.joinWith, String.toList_intercalate, join, Lower.tagDrafts]
  simp only [List.map_append, List.map_map, Function.comp_def, Lower.toList_tagPair,
    Lower.toList_tagPair_escapeQuotes]
  rfl

/-- The tag of a generated field is read back as the pairs it stands for, those of the entry of a
map among them, without a backquote, if and only if the texts of the field are plain. -/
theorem field_tag_reads_back_iff {ctx : Context} {path : SourcePath} {oneofs : List Schema.Oneof}
    {declared : Schema.Field} {lowered : Ast.Field}
    (h : Yields (field ctx path oneofs declared) lowered) :
    ∃ entries, Lower.entryPairs ctx.pool declared.type = .ok entries ∧
      ((backquote ∉ (Go.Emitter.fieldTag lowered).toList ∧
        read? (Go.Emitter.fieldTag lowered) = some
          ([("protobuf", lowered.tag), ("json", lowered.jsonName)] ++ entries ++
            Lower.optionPairs declared)) ↔
      Lower.HasPlainTexts ctx.pool declared) := by
  obtain ⟨wire, entries, hwire, hentries, htag, hjson, htext⟩ := h.drafts_of_field
  have hne : Lower.tagDrafts declared (wire.tag false) entries ≠ [] := by simp [Lower.tagDrafts]
  have hread := read?_join_iff hne
  rw [← htext, String.ofList_toList, Lower.map_pair_tagDrafts,
    Lower.tagDrafts_isSafe_iff hwire hentries] at hread
  refine ⟨entries, hentries, ?_⟩
  rw [hjson, htag]
  exact hread

theorem exists_yields_of_map {α β : Type} (action : Lowering α) (view : α → β) (seen : β)
    (h : (action []).toOption.map (fun run => view run.1) = some seen) :
    ∃ result, Yields action result ∧ view result = seen := by
  obtain ⟨⟨result, embedded⟩, hrun, hseen⟩ := exists_eq_ok_of_map h
  exact ⟨result, ⟨[], embedded, hrun⟩, hseen⟩

def noteOption : Schema.TypeRef := ⟨"note", "o.note", "opts.proto"⟩

theorem optionKey_noteOption : Lower.optionKey noteOption = "o.note" := by decide

def notedField (default note : String) : Schema.Field where
  name := "a"
  fullName := "M.a"
  jsonName := "a"
  number := 1
  cardinality := .optional
  type := .single (.scalar .string)
  dialect := .proto2
  oneof := none
  defaultText := some default
  proto3Optional := false
  options := some ⟨[(⟨50307, "note", some noteOption⟩, .string note)], []⟩

def keyedField (default : String) : Schema.Field :=
  let key : Schema.BareField := {
    name := "k", jsonName := "k", number := 1, cardinality := .required
    type := .scalar .string, dialect := .proto2, oneof := none, defaultText := some default }
  let value : Schema.BareField := {
    name := "v", jsonName := "v", number := 2, cardinality := .optional
    type := .scalar .int32, dialect := .proto2, oneof := none, defaultText := none }
  { notedField default "" with
    cardinality := .repeated
    type := .map ⟨⟨"E", "M.E", "a.proto"⟩, false, key, value⟩
    defaultText := none
    options := none }

def tagContext : Context := ⟨⟨.ofLocations [], "", .empty []⟩, ⟨[]⟩, 0⟩

def tagAction (declared : Schema.Field) : Lowering Ast.Field := field tagContext [] [] declared

theorem optionPairs_notedField (default note : String) :
    Lower.optionPairs (notedField default note) = [("o.note", note)] := by
  simp [Lower.optionPairs, notedField, Schema.OptionSet.custom, Lower.scalarText?,
    optionKey_noteOption]

theorem hasPlainTexts_notedField_iff (default note : String) :
    Lower.HasPlainTexts ⟨[]⟩ (notedField default note) ↔ isPlain default ∧ isQuotable note := by
  constructor
  · intro h
    have htag := h.tags _ (List.mem_singleton.mpr rfl)
    exact ⟨htag.default default rfl, (h.options _ rfl _ (List.mem_singleton.mpr rfl) rfl).2⟩
  · rintro ⟨hdefault, hnote⟩
    constructor
    · rintro part hpart
      obtain rfl := List.mem_singleton.mp hpart
      refine ⟨(by decide : isPlain "a"), (by decide : isPlain "a"), ?_, ?_⟩
      · rintro name ⟨⟩
      · rintro raw ⟨⟩
        exact hdefault
    · rintro options ⟨⟩ option hoption -
      cases List.mem_singleton.mp hoption
      have hkey : isKey (Lower.optionKey noteOption).toList := by
        rw [optionKey_noteOption]
        decide
      exact ⟨hkey, hnote⟩

def notedTag (default note : String) : String :=
  "protobuf:\"bytes,1,opt,name=a,def=" ++ default ++ "\" json:\"a\" o.note:\"" ++ note ++ "\""

def keyedTag (default : String) : String :=
  "protobuf:\"bytes,1,rep,name=a\" json:\"a\" protobuf_key:\"bytes,1,req,name=k,def=" ++ default ++
    "\" protobuf_val:\"varint,2,opt,name=v\""

/-- The quotes of an option are escaped, those of a default are not, be it the default of the field
or of the keys of a map. -/
theorem field_tag_reads_back_iff_samples :
    (∃ plain, Yields (tagAction (notedField "so, fine" "say \"hi\"")) plain ∧
      Go.Emitter.fieldTag plain = notedTag "so, fine" "say \\\"hi\\\"" ∧
      read? (Go.Emitter.fieldTag plain) = some
        [("protobuf", plain.tag), ("json", plain.jsonName), ("o.note", "say \"hi\"")]) ∧
    (∃ broken, Yields (tagAction (notedField "say \"hi\"" "note")) broken ∧
      Go.Emitter.fieldTag broken = notedTag "say \"hi\"" "note" ∧
      read? (Go.Emitter.fieldTag broken) ≠ some
        [("protobuf", broken.tag), ("json", broken.jsonName), ("o.note", "note")]) ∧
    ∃ keyed, Yields (tagAction (keyedField "say \"hi\"")) keyed ∧
      Go.Emitter.fieldTag keyed = keyedTag "say \"hi\"" ∧
      read? (Go.Emitter.fieldTag keyed) ≠ some
        [("protobuf", keyed.tag), ("json", keyed.jsonName),
          ("protobuf_key", "bytes,1,req,name=k,def=say \"hi\""),
          ("protobuf_val", "varint,2,opt,name=v")] := by
  obtain ⟨plain, hplain, hplainTag⟩ := exists_yields_of_map
    (tagAction (notedField "so, fine" "say \"hi\"")) Go.Emitter.fieldTag
    (notedTag "so, fine" "say \\\"hi\\\"") (by decide +kernel)
  obtain ⟨broken, hbroken, hbrokenTag⟩ := exists_yields_of_map
    (tagAction (notedField "say \"hi\"" "note")) Go.Emitter.fieldTag
    (notedTag "say \"hi\"" "note") (by decide +kernel)
  obtain ⟨keyed, hkeyed, hkeyedTag⟩ := exists_yields_of_map
    (tagAction (keyedField "say \"hi\"")) Go.Emitter.fieldTag (keyedTag "say \"hi\"")
    (by decide +kernel)
  have hunquoted : ¬ isPlain "say \"hi\"" := by decide
  refine ⟨⟨plain, hplain, hplainTag, ?_⟩, ⟨broken, hbroken, hbrokenTag, ?_⟩,
    keyed, hkeyed, hkeyedTag, ?_⟩
  · obtain ⟨entries, ⟨⟩, hiff⟩ := field_tag_reads_back_iff hplain
    rw [optionPairs_notedField] at hiff
    exact (hiff.mpr ((hasPlainTexts_notedField_iff _ _).mpr ⟨by decide, by decide⟩)).2
  · intro hread
    obtain ⟨entries, ⟨⟩, hiff⟩ := field_tag_reads_back_iff hbroken
    have hbackquote : backquote ∉ (Go.Emitter.fieldTag broken).toList := by
      rw [hbrokenTag]
      decide
    rw [optionPairs_notedField] at hiff
    exact hunquoted ((hasPlainTexts_notedField_iff _ _).mp (hiff.mp ⟨hbackquote, hread⟩)).1
  · intro hread
    obtain ⟨entries, hentries, hiff⟩ := field_tag_reads_back_iff hkeyed
    have hbackquote : backquote ∉ (Go.Emitter.fieldTag keyed).toList := by
      rw [hkeyedTag]
      decide +kernel
    have hpairs : (Lower.entryPairs tagContext.pool (keyedField "say \"hi\"").type).toOption =
        some [("protobuf_key", "bytes,1,req,name=k,def=say \"hi\""),
          ("protobuf_val", "varint,2,opt,name=v")] := by
      decide +kernel
    rw [hentries] at hpairs
    obtain rfl : entries = _ := Option.some.inj hpairs
    have htags := (hiff.mp ⟨hbackquote, hread⟩).tags _ (List.mem_cons_of_mem _ List.mem_cons_self)
    exact hunquoted (htags.default _ rfl)

end Lowering

end SchemaGo
