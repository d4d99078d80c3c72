import SchemaGo.Go.Source

/-!
# The code for a field

The lines that encode and decode a field and test it for zero are the text of a few
statements.  As statements they show what the operations of Go are applied to: a
length is taken, a value appended, a map made, and a value compared with `nil`.
Whether that is legal depends on the type of the field alone.
-/

namespace SchemaGo.Go

/-! ## Types by their text -/

def IsPointer (type : String) : Prop := ∃ base, type = "*" ++ base

def IsSlice (type : String) : Prop := ∃ element, type = "[]" ++ element

def IsMap (type : String) : Prop := ∃ key value, type = "map[" ++ key ++ "]" ++ value

def IsInterface (type : String) : Prop := type = anyType ∨ type = "error"

def HasLength (type : String) : Prop := IsSlice type ∨ IsMap type ∨ type = "string"

def HasNil (type : String) : Prop :=
  IsPointer type ∨ IsInterface type ∨ IsSlice type ∨ IsMap type

theorem isPointer_iff (field : Ast.Field) : field.isPointer ↔ IsPointer field.type := by
  rw [Ast.Field.isPointer, beq_iff_eq]
  constructor
  · intro h
    obtain ⟨rest, hrest⟩ := List.head?_eq_some_iff.mp h
    exact ⟨String.ofList rest, String.toList_inj.mp (by simp [hrest])⟩
  · rintro ⟨base, hbase⟩
    simp [hbase]

theorem elementType_slice (element : String) : Emitter.elementType ("[]" ++ element) = element := by
  simp [Emitter.elementType]

/-! ## Statements -/

def isBare (text : String) : Bool := text.toList.all fun c => c != '(' && c != '='

/-- An expression in the code for a field, which is the `target`. -/
inductive Expr where
  | target
  | name (text : String)
  | pair (first second : Expr)
  | unary (operator : String) (operand : Expr)
  | isZero (operand : Expr)
  | isNil (operand : Expr)
  | isNotNil (operand : Expr)
  | length (operand : Expr)
  | append (slice values : Expr)
  | make (type : String)
  | new (type : String)
  | convert (type : String) (operand : Expr)
  | call (function : String) (arguments : Expr)
  | callAt (function type : String) (arguments : Expr)

namespace Expr

def text (field : Ast.Field) : Expr → String
  | target => fieldTarget field
  | name text => text
  | pair first second => first.text field ++ ", " ++ second.text field
  | unary operator operand => operator ++ operand.text field
  | isZero operand => operand.text field ++ " == 0"
  | isNil operand => operand.text field ++ " == nil"
  | isNotNil operand => operand.text field ++ " != nil"
  | length operand => "len(" ++ operand.text field ++ ")"
  | append slice values => "append(" ++ slice.text field ++ ", " ++ values.text field ++ "...)"
  | make type => "make(" ++ type ++ ")"
  | new type => "new(" ++ type ++ ")"
  | convert type operand => type ++ "(" ++ operand.text field ++ ")"
  | call function arguments => function ++ "(" ++ arguments.text field ++ ")"
  | callAt function type arguments =>
    function ++ "[" ++ type ++ "](" ++ arguments.text field ++ ")"

def type? (field : Ast.Field) : Expr → Option String
  | target => some field.type
  | name "err" => some "error"
  | _ => none

/-- Every operation in the expression is applied to something that has it, and a generic call is
made at the element type of the field. -/
def Legal (field : Ast.Field) : Expr → Prop
  | target | new _ => True
  | name text => isBare text
  | pair first second => first.Legal field ∧ second.Legal field
  | unary operator operand => isBare operator ∧ operand.Legal field
  | isZero operand | convert _ operand => operand.Legal field
  | isNil operand | isNotNil operand =>
    operand.Legal field ∧ ∃ type, operand.type? field = some type ∧ HasNil type
  | length operand =>
    operand.Legal field ∧ ∃ type, operand.type? field = some type ∧ HasLength type
  | append slice values =>
    slice.Legal field ∧ values.Legal field ∧
      ∃ type, slice.type? field = some type ∧ IsSlice type
  | make type => IsMap type
  | call function arguments => '.' ∈ function.toList ∧ arguments.Legal field
  | callAt function type arguments =>
    '.' ∈ function.toList ∧ arguments.Legal field ∧ field.type = "[]" ++ type

end Expr

inductive Statement where
  | define (names : String) (value : Expr)
  | assign (left value : Expr)
  | return (value : Expr)
  | defer (value : Expr)
  | when (condition : Expr) (body : Statement)
  | whenDefined (names : String) (value condition : Expr) (body : Statement)

namespace Statement

def lines (field : Ast.Field) : Statement → List String
  | define names value => [names ++ " := " ++ value.text field]
  | assign left value => [left.text field ++ " = " ++ value.text field]
  | .return value => ["return " ++ value.text field]
  | defer value => ["defer " ++ value.text field]
  | when condition body =>
    [block ("if " ++ condition.text field)] ++ (body.lines field).map inFunction ++ ["\x7d"]
  | whenDefined names value condition body =>
    [block ("if " ++ names ++ " := " ++ value.text field ++ "; " ++ condition.text field)] ++
      (body.lines field).map inFunction ++ ["\x7d"]

def Legal (field : Ast.Field) : Statement → Prop
  | define names value => isBare names ∧ value.Legal field
  | .return value | defer value => value.Legal field
  | assign left value => left.Legal field ∧ value.Legal field
  | when condition body => condition.Legal field ∧ body.Legal field
  | whenDefined names value condition body =>
    isBare names ∧ value.Legal field ∧ condition.Legal field ∧ body.Legal field

end Statement

open SchemaGo.Go.Expr SchemaGo.Go.Statement

def onError : Statement := .when (isNotNil (name "err")) (.return (name "err"))

def onNil : Statement := .when (isNil target) (.return (name "nil"))

def unsupportedCode (wire : WireKind) : List Statement :=
  [.return (call "fmt.Errorf" (pair
    (name ("\"field %d: " ++ wire.name ++ " fields are not supported\""))
    (name "field.Tags.Protobuf.FieldNum")))]

def both : Expr := pair (name "field") (name "buffer")

def encodeArgumentCode (codec : Codec) (field : Ast.Field) : Expr :=
  let value := if field.isPointer then unary "*" target else target
  match codec.cast with
  | some cast => convert cast value
  | none => value

def encodeCode (emitter : Emitter) (field : Ast.Field) : List Statement :=
  match field.kind with
  | .scalar =>
    match codec? field.wire with
    | none => unsupportedCode field.wire
    | some codec =>
      (if field.isPointer then [onNil] else []) ++
        [define "data, err" (call (emitter.rt codec.encoder)
            (pair (encodeArgumentCode codec field) (name "field"))),
          onError, defer (call (emitter.rt "Dealloc") (name "data")),
          assign (name "_, err") (call "data.WriteTo" (name "buffer")), .return (name "err")]
  | .struct =>
    [onNil, define "data, err" (call (emitter.rt "FastMarshal") target), onError,
      assign (name "_, err") (call "buffer.Write" (name "data")), .return (name "err")]
  | .map => [.return (call (emitter.rt "MapEncoder") (pair target both))]
  | .list => [.return (call (emitter.rt "RepeatedEncoder") (pair target both))]

def decodeCode (emitter : Emitter) (field : Ast.Field) : List Statement :=
  match field.kind with
  | .scalar =>
    match codec? field.wire with
    | none => unsupportedCode field.wire
    | some codec =>
      [define "value, err" (call (emitter.rt codec.decoder) both), onError,
        define "v" (convert field.baseType (name "value")),
        assign target (if field.isPointer then unary "&" (name "v") else name "v"),
        .return (name "nil")]
  | .struct =>
    [define "data, err" (call (emitter.rt "DecodeBytes") both), onError,
      define "value" (.new field.baseType),
      whenDefined "err" (call (emitter.rt "FastUnmarshal") (pair (name "value") (name "data")))
        (isNotNil (name "err")) (.return (name "err")),
      assign target (name "value"), .return (name "nil")]
  | .map =>
    [.when (isNil target) (assign target (make field.type)),
      .return (call (emitter.rt "MapDecoder") (pair target both))]
  | .list =>
    [define "values, err" (callAt (emitter.rt "RepeatedDecoder")
        (Emitter.elementType field.type) both),
      onError, assign target (append target (name "values")), .return (name "nil")]

def zeroTestCode (field : Ast.Field) : Expr :=
  match field.kind with
  | .map | .list => isZero (length target)
  | .struct => isNil target
  | .scalar =>
    if field.wire == .group || field.isPointer then isNil target
    else match field.wire with
      | .scalar .string | .scalar .bytes => isZero (length target)
      | .scalar .bool => unary "!" target
      | _ => isZero target

def zeroCode (field : Ast.Field) : List Statement := [.return (zeroTestCode field)]

/-! ## Lines -/

theorem lines_onError (field : Ast.Field) : onError.lines field = returnOnError := rfl

theorem lines_onNil (field : Ast.Field) : onNil.lines field = returnOnNil (fieldTarget field) := by
  simp [onNil, lines, returnOnNil, Expr.text, String.append_assoc, inFunction]

theorem lines_unsupportedCode (field : Ast.Field) (wire : WireKind) :
    (unsupportedCode wire).flatMap (lines field) = unsupported wire := by
  have hhead : "return fmt.Errorf(\"field %d: " =
      "return " ++ ("fmt.Errorf" ++ ("(" ++ "\"field %d: ")) :=
    rfl
  have htail : " fields are not supported\", field.Tags.Protobuf.FieldNum)" =
      " fields are not supported\"" ++ (", " ++ ("field.Tags.Protobuf.FieldNum" ++ ")")) :=
    rfl
  rw [unsupported, hhead, htail]
  simp only [unsupportedCode, lines, Expr.text, String.append_assoc, List.flatMap_cons,
    List.flatMap_nil, List.append_nil]

theorem text_encodeArgumentCode (codec : Codec) (field : Ast.Field) :
    (encodeArgumentCode codec field).text field = Emitter.encodeArgument codec field := by
  rw [encodeArgumentCode, Emitter.encodeArgument]
  cases codec.cast <;> cases field.isPointer <;> rfl

theorem encodeBody_eq_lines (emitter : Emitter) (field : Ast.Field) :
    emitter.encodeBody field = (encodeCode emitter field).flatMap (lines field) := by
  rw [Emitter.encodeBody, encodeCode]
  cases field.kind with
  | scalar =>
      dsimp only
      rw [Emitter.encodeScalar]
      cases codec? field.wire with
      | none => exact (lines_unsupportedCode field field.wire).symm
      | some codec =>
          cases field.isPointer <;>
            simp [lines, Expr.text, lines_onError, lines_onNil, text_encodeArgumentCode, Emitter.rt,
              String.append_assoc]
  | struct => simp [lines, Expr.text, lines_onError, lines_onNil, Emitter.rt, String.append_assoc]
  | map => simp [lines, Expr.text, Emitter.rt, String.append_assoc, both]
  | list => simp [lines, Expr.text, Emitter.rt, String.append_assoc, both]

theorem decodeBody_eq_lines (emitter : Emitter) (field : Ast.Field) :
    emitter.decodeBody field = (decodeCode emitter field).flatMap (lines field) := by
  rw [Emitter.decodeBody, decodeCode]
  cases field.kind with
  | scalar =>
      dsimp only
      rw [Emitter.decodeScalar]
      cases codec? field.wire with
      | none => exact (lines_unsupportedCode field field.wire).symm
      | some codec =>
          cases field.isPointer <;>
            simp [lines, Expr.text, lines_onError, Emitter.rt, String.append_assoc, both]
  | struct =>
      simp [lines, Expr.text, lines_onError, Emitter.rt, String.append_assoc, both, inFunction]
      change ("value := " ++ "new(") ++ (field.baseType ++ ")") = _
      rw [String.append_assoc]
  | map =>
      simp [lines, Expr.text, Emitter.rt, String.append_assoc, both, inFunction]
      change (" = " ++ "make(") ++ (field.type ++ ")") = _
      rw [String.append_assoc]
  | list =>
      simp [lines, Expr.text, lines_onError, Emitter.rt, String.append_assoc, both]
      change (" = " ++ "append(") ++ (fieldTarget field ++ ", values...)") = _
      rw [String.append_assoc]

theorem text_zeroTestCode (field : Ast.Field) :
    (zeroTestCode field).text field = Emitter.zeroTest field := by
  rw [zeroTestCode, Emitter.zeroTest]
  cases field.kind with
  | scalar =>
      dsimp only
      split
      · simp [Expr.text]
      · split <;> simp [*, Expr.text, String.append_assoc]
  | map | list | struct => simp [Expr.text, String.append_assoc]

theorem zeroBody_eq_lines (field : Ast.Field) :
    Emitter.zeroBody field = (zeroCode field).flatMap (lines field) := by
  simp [Emitter.zeroBody, zeroCode, lines, text_zeroTestCode]

/-! ## Legal code -/

def Fits (field : Ast.Field) : Prop :=
  match field.kind with
  | .list => IsSlice field.type
  | .map => IsMap field.type
  | .struct => IsPointer field.type
  | .scalar =>
    (field.wire = .group → IsInterface field.type) ∧
      (field.wire = .scalar .string ∨ field.wire = .scalar .bytes →
        IsPointer field.type ∨ HasLength field.type)

section

variable {field : Ast.Field}

theorem dot_mem_rt (emitter : Emitter) (function : String) :
    '.' ∈ (emitter.rt function).toList := by
  simp [Emitter.rt]

theorem legal_name {text : String} (hbare : isBare text) : (name text).Legal field := hbare

theorem legal_onError : onError.Legal field :=
  have hbare : isBare "err" := by decide
  ⟨⟨hbare, "error", rfl, .inr (.inl (.inr rfl))⟩, hbare⟩

theorem legal_onNil (hnil : HasNil field.type) : onNil.Legal field :=
  ⟨⟨trivial, field.type, rfl, hnil⟩, legal_name (by decide)⟩

theorem legal_both : both.Legal field := ⟨legal_name (by decide), legal_name (by decide)⟩

theorem isBare_append (first second : String) :
    isBare (first ++ second) = (isBare first && isBare second) := by
  simp only [isBare, String.toList_append, List.all_append]

theorem isBare_wireName (wire : WireKind) : isBare wire.name := by
  cases wire with
  | scalar kind => cases kind <;> decide
  | enum | message | group => decide

theorem legal_unsupportedCode (wire : WireKind) :
    ∀ statement ∈ unsupportedCode wire, statement.Legal field := by
  intro statement h
  obtain rfl := List.mem_singleton.mp h
  have htext : isBare ("\"field %d: " ++ wire.name ++ " fields are not supported\"") := by
    rw [isBare_append, isBare_append, isBare_wireName]
    decide
  exact ⟨by decide, legal_name htext, legal_name (by decide)⟩

theorem legal_encodeArgumentCode (codec : Codec) :
    (encodeArgumentCode codec field).Legal field := by
  rw [encodeArgumentCode]
  have hvalue : (if field.isPointer then unary "*" target else target).Legal field := by
    split
    · exact ⟨by decide, trivial⟩
    · trivial
  cases codec.cast with
  | none => exact hvalue
  | some cast => exact hvalue

theorem legal_encodeCode (emitter : Emitter) (hfits : Fits field) :
    ∀ statement ∈ encodeCode emitter field, statement.Legal field := by
  rw [Fits] at hfits
  rw [encodeCode]
  cases hkind : field.kind with
  | scalar =>
      cases codec? field.wire with
      | none => exact legal_unsupportedCode field.wire
      | some codec =>
          have hguard : ∀ statement ∈ if field.isPointer then [onNil] else [],
              statement.Legal field := by
            split
            · rename_i hpointer
              simpa using legal_onNil (.inl ((isPointer_iff field).mp hpointer))
            · simp
          refine List.forall_mem_append.mpr ⟨hguard, ?_⟩
          simp +decide [Statement.Legal, Expr.Legal, legal_onError, legal_encodeArgumentCode,
            dot_mem_rt]
  | struct =>
      simp only [hkind] at hfits
      simp +decide [Statement.Legal, Expr.Legal, legal_onError, legal_onNil (.inl hfits),
        dot_mem_rt]
  | map | list => simp [Statement.Legal, Expr.Legal, legal_both, dot_mem_rt]

theorem legal_decodeCode (emitter : Emitter) (hfits : Fits field) :
    ∀ statement ∈ decodeCode emitter field, statement.Legal field := by
  rw [Fits] at hfits
  rw [decodeCode]
  cases hkind : field.kind with
  | scalar =>
      cases codec? field.wire with
      | none => exact legal_unsupportedCode field.wire
      | some codec =>
          cases field.isPointer <;>
            simp +decide [Statement.Legal, Expr.Legal, legal_onError, legal_both, dot_mem_rt]
  | struct =>
      simp +decide [Statement.Legal, Expr.Legal, legal_onError, legal_both, dot_mem_rt, type?,
        HasNil, IsInterface]
  | map =>
      simp only [hkind] at hfits
      simp [Statement.Legal, Expr.Legal, legal_both, dot_mem_rt, type?, HasNil, hfits]
  | list =>
      simp only [hkind] at hfits
      obtain ⟨element, htype⟩ := hfits
      simp +decide [Statement.Legal, Expr.Legal, legal_onError, legal_both, dot_mem_rt, type?,
        IsSlice, htype, elementType_slice]

theorem legal_zeroCode (hfits : Fits field) :
    ∀ statement ∈ zeroCode field, statement.Legal field := by
  intro statement h
  obtain rfl := List.mem_singleton.mp h
  change (zeroTestCode field).Legal field
  rw [Fits] at hfits
  rw [zeroTestCode]
  cases hkind : field.kind with
  | scalar =>
      simp only [hkind] at hfits
      obtain ⟨hinterface, hlength⟩ := hfits
      dsimp only
      split
      · rename_i hnil
        refine ⟨trivial, field.type, rfl, ?_⟩
        obtain hgroup | hpointer := Bool.or_eq_true_iff.mp hnil
        · exact .inr (.inl (hinterface (beq_iff_eq.mp hgroup)))
        · exact .inl ((isPointer_iff field).mp hpointer)
      · rename_i hnotNil
        have hnotPointer : ¬IsPointer field.type := by simp_all [← isPointer_iff]
        split
        · rename_i hwire
          exact ⟨trivial, field.type, rfl, (hlength (.inl hwire)).resolve_left hnotPointer⟩
        · rename_i hwire
          exact ⟨trivial, field.type, rfl, (hlength (.inr hwire)).resolve_left hnotPointer⟩
        · exact ⟨by decide, trivial⟩
        · trivial
  | struct =>
      simp only [hkind] at hfits
      exact ⟨trivial, field.type, rfl, .inl hfits⟩
  | map =>
      simp only [hkind] at hfits
      exact ⟨trivial, field.type, rfl, .inr (.inl hfits)⟩
  | list =>
      simp only [hkind] at hfits
      exact ⟨trivial, field.type, rfl, .inl hfits⟩

end

end SchemaGo.Go
