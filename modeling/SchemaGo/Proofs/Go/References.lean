import SchemaGo.Proofs.Comment.Render
import SchemaGo.Proofs.Go.FieldCode
import SchemaGo.Proofs.Go.Qualifier

/-!
# What declarations name

The lines of a message, an enum and a service are put together from fixed texts and the
names, types and tags of the schema.  If these bring no dots of their own into the code,
the qualifiers in the lines are those of the fixed texts: the packages that are used, and
the parameters and variables of the functions of a message.
-/

namespace SchemaGo.Go

open SchemaGo.Go.Expr SchemaGo.Go.Statement
open StructTag (backquote)

variable {allowed : List String} {field : Ast.Field}

/-! ## The code for a field -/

theorem within_fieldTarget (hx : "x" ∈ allowed) (hfield : isBland field.name) :
    Within allowed (fieldTarget field) := by
  have hcode : (Place.dot ['x']).isCode := rfl
  obtain ⟨hnames, hclosed⟩ := read_of_bland hcode hfield
  have htext : (fieldTarget field).toList = ['x', '.'] ++ field.name.toList := by
    simp [fieldTarget]
  constructor
  · rw [qualifiers, htext, qualifiersFrom_append]
    intro name hname
    obtain rfl : name = "x" := List.mem_singleton.mp (hnames name hname)
    exact hx
  · rw [endOf, htext, placeAfter_append]
    exact hclosed

namespace Expr

/-- The texts in the expression name only words of the list. -/
def Names (allowed : List String) (field : Ast.Field) : Expr → Prop
  | target => True
  | name text => Within allowed text
  | pair first second => first.Names allowed field ∧ second.Names allowed field
  | unary operator operand => opens operator ∧ operand.Names allowed field
  | isZero operand | isNil operand | isNotNil operand | length operand =>
    operand.Names allowed field
  | append slice values =>
    slice.Names allowed field ∧ Within allowed (values.text field ++ "...)")
  | make type | new type => isBland type
  | convert type operand => isBland type ∧ operand.Names allowed field
  | call function arguments => Within allowed function ∧ arguments.Names allowed field
  | callAt function type arguments =>
    Within allowed function ∧ isBland type ∧ arguments.Names allowed field

theorem within_text (hx : "x" ∈ allowed) (hfield : isBland field.name) (expr : Expr)
    (h : expr.Names allowed field) : Within allowed (expr.text field) := by
  induction expr with
  | target => exact within_fieldTarget hx hfield
  | name text => exact h
  | pair first second ihFirst ihSecond => exact (ihFirst h.1).join (ihSecond h.2) rfl
  | unary operator operand ih => exact (ih h.2).after h.1
  | isZero operand ih | isNil operand ih | isNotNil operand ih => exact (ih h).before rfl
  | length operand ih => exact ((ih h).after rfl).before rfl
  | append slice values ih _ =>
      rw [text, String.append_assoc]
      exact ((ih h.1).after rfl).join h.2 rfl
  | make type | new type => exact ((within_of_isBland h).after rfl).before rfl
  | convert type operand ih => exact ((within_of_isBland h.1).join (ih h.2) rfl).before rfl
  | call function arguments ih => exact (h.1.join (ih h.2) rfl).before rfl
  | callAt function type arguments ih =>
      exact ((h.1.join (within_of_isBland h.2.1) rfl).join (ih h.2.2) rfl).before rfl

end Expr

theorem within_block {head : String} (h : Within allowed head) : Within allowed (block head) :=
  h.before rfl

theorem within_inFunction {line : String} (h : Within allowed line) :
    Within allowed (inFunction line) :=
  h.after rfl

theorem within_inFunction_of_mem {lines : List String} (h : ∀ line ∈ lines, Within allowed line) :
    ∀ line ∈ lines.map inFunction, Within allowed line := by
  intro line hline
  obtain ⟨inner, hinner, rfl⟩ := List.mem_map.mp hline
  exact within_inFunction (h inner hinner)

theorem within_brace : Within allowed "\x7d" := within_of_isBland rfl

namespace Statement

def Names (allowed : List String) (field : Ast.Field) : Statement → Prop
  | define names value => isBland names ∧ value.Names allowed field
  | .return value | defer value => value.Names allowed field
  | assign left value => left.Names allowed field ∧ value.Names allowed field
  | .when condition body => condition.Names allowed field ∧ body.Names allowed field
  | whenDefined names value condition body =>
    isBland names ∧ value.Names allowed field ∧ condition.Names allowed field ∧
      body.Names allowed field

theorem within_lines (hx : "x" ∈ allowed) (hfield : isBland field.name) (statement : Statement)
    (h : statement.Names allowed field) : ∀ line ∈ statement.lines field, Within allowed line := by
  have htext {expr : Expr} (h : expr.Names allowed field) := expr.within_text hx hfield h
  induction statement with
  | define names value =>
      simpa [lines] using (within_of_isBland h.1).join (htext h.2) rfl
  | assign left value => simpa [lines] using (htext h.1).join (htext h.2) rfl
  | «return» value | defer value => simpa [lines] using (htext h).after rfl
  | when condition body ih =>
      simpa only [lines, List.forall_mem_append, List.forall_mem_singleton] using
        ⟨⟨within_block ((htext h.1).after rfl), within_inFunction_of_mem (ih h.2)⟩, within_brace⟩
  | whenDefined names value condition body ih =>
      have hhead : Within allowed ("if " ++ names ++ " := " ++ value.text field) :=
        ((within_of_isBland h.1).after rfl).join (htext h.2.1) rfl
      simpa only [lines, List.forall_mem_append, List.forall_mem_singleton] using
        ⟨⟨within_block (hhead.join (htext h.2.2.1) rfl), within_inFunction_of_mem (ih h.2.2.2)⟩,
          within_brace⟩

end Statement

/-! ## The words of a message -/

def localWords : List String := ["x", "field", "buffer", "data"]

/-- What the code for a scalar takes from its codec. -/
structure Codec.Readable (codec : Codec) : Prop where
  encoder : startsName codec.encoder && isBland codec.encoder
  decoder : startsName codec.decoder && isBland codec.decoder
  cast : codec.cast.all isBland

theorem readable_of_codec? {wire : WireKind} {codec : Codec} (h : codec? wire = some codec) :
    codec.Readable := by
  cases wire with
  | scalar kind => cases kind <;> cases h <;> exact ⟨rfl, rfl, rfl⟩
  | enum =>
      cases h
      exact ⟨rfl, rfl, rfl⟩
  | message | group => cases h

namespace Emitter

variable (emitter : Emitter)

def messagePackages : List String := [emitter.runtime, "bytes", "fmt"]

def messageWords : List String := emitter.messagePackages ++ localWords

variable {emitter} {text : String}

theorem x_mem_messageWords : "x" ∈ emitter.messageWords := by
  simp [messageWords, localWords]

theorem within_fixed (h : Within ("bytes" :: "fmt" :: localWords) text) :
    Within emitter.messageWords text :=
  h.mono (List.subset_cons_self _ _)

theorem within_rt (hruntime : isWord emitter.runtime) (h : startsName text && isBland text) :
    Within emitter.messageWords (emitter.rt text) :=
  within_select hruntime (List.mem_cons_self ..) h

theorem isLiteral_wireName (wire : WireKind) : isLiteral wire.name := by
  cases wire with
  | scalar kind => cases kind <;> rfl
  | enum | message | group => rfl

theorem names_unsupportedCode (wire : WireKind) :
    ∀ statement ∈ unsupportedCode wire, statement.Names emitter.messageWords field := by
  intro statement h
  obtain rfl := List.mem_singleton.mp h
  have hliteral : isLiteral ("field %d: " ++ wire.name ++ " fields are not supported") := by
    rw [isLiteral_append, isLiteral_append, isLiteral_wireName]
    rfl
  have htext : "\"field %d: " ++ wire.name ++ " fields are not supported\"" =
      "\"" ++ ("field %d: " ++ wire.name ++ " fields are not supported") ++ "\"" := by
    have hhead : "\"field %d: " = "\"" ++ "field %d: " := rfl
    have htail : " fields are not supported\"" = " fields are not supported" ++ "\"" := rfl
    rw [hhead, htail]
    simp only [String.append_assoc]
  refine ⟨within_fixed (by decide), ?_, within_fixed (by decide)⟩
  change Within _ ("\"field %d: " ++ wire.name ++ " fields are not supported\"")
  rw [htext]
  exact within_of_skipped (read_quoted hliteral)

theorem names_onError : onError.Names emitter.messageWords field :=
  ⟨within_fixed (by decide), within_fixed (by decide)⟩

theorem names_onNil : onNil.Names emitter.messageWords field :=
  ⟨trivial, within_fixed (by decide)⟩

theorem names_both : both.Names emitter.messageWords field :=
  ⟨within_fixed (by decide), within_fixed (by decide)⟩

theorem names_encodeArgumentCode {codec : Codec} (hcast : codec.cast.all isBland) :
    (encodeArgumentCode codec field).Names emitter.messageWords field := by
  have hvalue : (if field.isPointer then unary "*" target else target).Names
      emitter.messageWords field := by
    split
    · exact ⟨rfl, trivial⟩
    · trivial
  rw [encodeArgumentCode]
  cases hcodec : codec.cast with
  | none => exact hvalue
  | some cast => exact ⟨by simpa [hcodec] using hcast, hvalue⟩

theorem names_encodeCode (hruntime : isWord emitter.runtime) :
    ∀ statement ∈ encodeCode emitter field, statement.Names emitter.messageWords field := by
  rw [encodeCode]
  cases field.kind with
  | scalar =>
      cases hcodec : codec? field.wire with
      | none => exact names_unsupportedCode field.wire
      | some codec =>
          obtain ⟨hencoder, -, hcast⟩ := readable_of_codec? hcodec
          have hguard : ∀ statement ∈ if field.isPointer then [onNil] else [],
              statement.Names emitter.messageWords field := by
            split
            · simpa using names_onNil
            · simp
          refine List.forall_mem_append.mpr ⟨hguard, ?_⟩
          simp +decide (disch := decide) [Statement.Names, Expr.Names, names_onError, within_fixed,
            within_rt hruntime, within_rt hruntime hencoder, names_encodeArgumentCode hcast]
  | struct =>
      simp +decide (disch := decide) [Statement.Names, Expr.Names, names_onNil, names_onError,
        within_fixed, within_rt hruntime]
  | map | list =>
      simp (disch := decide) [Statement.Names, Expr.Names, names_both, within_rt hruntime]

theorem isBland_elementType {type : String} (h : isBland type) : isBland (elementType type) := by
  rw [elementType]
  split
  · rename_i rest hcons
    rw [isBland, hcons] at h
    rw [isBland, String.toList_ofList]
    exact (Bool.and_eq_true_iff.mp (Bool.and_eq_true_iff.mp h).2).2
  · exact h

theorem names_decodeCode (hruntime : isWord emitter.runtime) (htype : isBland field.type)
    (hbase : isBland field.baseType) :
    ∀ statement ∈ decodeCode emitter field, statement.Names emitter.messageWords field := by
  rw [decodeCode]
  cases field.kind with
  | scalar =>
      cases hcodec : codec? field.wire with
      | none => exact names_unsupportedCode field.wire
      | some codec =>
          obtain ⟨-, hdecoder, -⟩ := readable_of_codec? hcodec
          cases field.isPointer <;>
            simp +decide (disch := decide) [Statement.Names, Expr.Names, names_onError, names_both,
              within_fixed, within_rt hruntime hdecoder, hbase]
  | struct =>
      simp +decide (disch := decide) [Statement.Names, Expr.Names, names_both, names_onError,
        within_fixed, within_rt hruntime, hbase]
  | map =>
      simp (disch := decide) [Statement.Names, Expr.Names, names_both, within_rt hruntime, htype]
  | list =>
      simp +decide (disch := decide) [Statement.Names, Expr.Names, Expr.text, names_onError,
        names_both, within_fixed, within_rt hruntime, isBland_elementType htype]

theorem names_zeroCode :
    ∀ statement ∈ zeroCode field, statement.Names emitter.messageWords field := by
  intro statement h
  obtain rfl := List.mem_singleton.mp h
  change (zeroTestCode field).Names _ field
  rw [zeroTestCode]
  cases field.kind with
  | scalar =>
      dsimp only
      split
      · trivial
      · split <;> trivial
  | map | list | struct => trivial

/-! ## Lines of a message -/

structure ReadableField (field : Ast.Field) : Prop where
  name : isBland field.name
  type : isBland field.type
  baseType : isBland field.baseType
  tag : backquote ∉ (fieldTag field).toList

theorem within_statements (hfield : isBland field.name) {code : List Statement}
    (h : ∀ statement ∈ code, statement.Names emitter.messageWords field) :
    ∀ line ∈ code.flatMap (lines field), Within emitter.messageWords line := by
  intro line hline
  obtain ⟨statement, hstatement, hline⟩ := List.mem_flatMap.mp hline
  exact statement.within_lines x_mem_messageWords hfield (h statement hstatement) line hline

theorem within_function {head : String} {body : List String} (hhead : Within allowed head)
    (hbody : ∀ line ∈ body, Within allowed line) :
    ∀ line ∈ function head body, Within allowed line := by
  simp only [function, List.forall_mem_append, List.forall_mem_cons]
  exact ⟨⟨⟨within_of_isBland rfl, within_block (hhead.after rfl), by simp⟩,
    within_inFunction_of_mem hbody⟩, within_brace, by simp⟩

theorem isBland_toString (number : Int) : isBland (toString number) := by
  refine List.all_eq_true.mpr fun c hc => ?_
  have hnumber : SourcePath.isNumberChar c := SourcePath.isNumberChar_of_mem hc
  simp only [Bool.and_eq_true, bne_iff_ne]
  refine ⟨⟨?_, ?_⟩, ?_⟩ <;>
    · rintro rfl
      exact absurd hnumber (by decide)

theorem within_caseLine (number : Nat) : Within allowed ("case " ++ toString number ++ ":") :=
  ((within_of_isBland (isBland_toString number)).after rfl).before rfl

theorem within_fieldSwitch {fields : List Ast.Field} {body : Ast.Field → List String}
    {fallback : String}
    (hbody : ∀ field ∈ fields, ∀ line ∈ body field, Within emitter.messageWords line)
    (hfallback : Within emitter.messageWords fallback) :
    ∀ line ∈ fieldSwitch fields body fallback, Within emitter.messageWords line := by
  have hcases : ∀ line ∈ fields.flatMap (fun field =>
      ("case " ++ toString field.number ++ ":") :: (body field).map inFunction),
      Within emitter.messageWords line := by
    intro line hline
    obtain ⟨field, hfield, hline⟩ := List.mem_flatMap.mp hline
    rcases List.mem_cons.mp hline with rfl | hline
    · exact within_caseLine field.number
    · exact within_inFunction_of_mem (hbody field hfield) line hline
  simp only [fieldSwitch, List.forall_mem_append, List.forall_mem_cons]
  exact ⟨⟨⟨within_fixed (by decide), by simp⟩, hcases⟩, within_of_isBland rfl,
    within_inFunction hfallback, within_brace, by simp⟩

theorem within_fieldLine (h : ReadableField field) :
    Within emitter.messageWords (fieldLine field) := by
  have htext : field.name ++ " " ++ field.type ++ " `" ++ fieldTag field ++ "`" =
      field.name ++ " " ++ (field.type ++ " " ++ ("`" ++ fieldTag field ++ "`")) := by
    have hquote : " `" = " " ++ "`" := rfl
    rw [hquote]
    simp only [String.append_assoc]
  rw [fieldLine, htext]
  have htag : Within emitter.messageWords ("`" ++ fieldTag field ++ "`") :=
    within_of_skipped (read_raw h.tag)
  exact within_inFunction ((within_of_isBland h.name).join
    ((within_of_isBland h.type).join htag rfl) rfl)

theorem within_structLines {message : Ast.Message} (hname : isBland message.name)
    (hfields : ∀ field ∈ message.fields, ReadableField field) :
    ∀ line ∈ structLines message, Within emitter.messageWords line := by
  have hlines : ∀ line ∈ message.fields.map fieldLine, Within emitter.messageWords line := by
    intro line hline
    obtain ⟨field, hfield, rfl⟩ := List.mem_map.mp hline
    exact within_fieldLine (hfields field hfield)
  simp only [structLines, List.forall_mem_append, List.forall_mem_cons]
  exact ⟨⟨⟨within_of_isBland rfl,
    within_block (((within_of_isBland hname).after rfl).before rfl), by simp⟩, hlines⟩,
    within_brace, by simp⟩

structure ReadableMessage (message : Ast.Message) : Prop where
  name : isBland message.name
  fullName : isLiteral message.fullName
  descriptor : isLiteral message.descriptor
  fields : ∀ field ∈ message.fields, ReadableField field

theorem within_receiver {name text : String} (hname : isBland name) (h : Within allowed text) :
    Within allowed ("(x *" ++ name ++ ") " ++ text) :=
  ((within_of_isBland hname).after rfl).join h rfl

def codecParameters : String := "Field, buffer *bytes.Buffer) error"

theorem read_codecParameters (hruntime : isWord emitter.runtime) :
    qualifiers (emitter.rt codecParameters) = [emitter.runtime, "bytes"] ∧
      (endOf (emitter.rt codecParameters)).isCode := by
  obtain ⟨hqualifiers, hend⟩ := read_select hruntime (rfl : startsName codecParameters)
  exact ⟨hqualifiers, by rw [rt, hend]; rfl⟩

theorem within_codecParameters (hruntime : isWord emitter.runtime) :
    Within emitter.messageWords (emitter.rt codecParameters) := by
  obtain ⟨hqualifiers, hcode⟩ := read_codecParameters hruntime
  exact ⟨by simp [hqualifiers, messageWords, messagePackages], hcode⟩

theorem within_typeLine (hruntime : isWord emitter.runtime) {fullName : String}
    (h : isLiteral fullName) : Within emitter.messageWords
      ("return *" ++ emitter.rt "CaptureTypeByName(\"" ++ fullName ++ "\")") := by
  have htext : "return *" ++ emitter.rt "CaptureTypeByName(\"" ++ fullName ++ "\")" =
      "return *" ++ (emitter.rt "CaptureTypeByName" ++ "(" ++ ("\"" ++ fullName ++ "\"")) ++
        ")" := by
    have hopen : "CaptureTypeByName(\"" = "CaptureTypeByName" ++ ("(" ++ "\"") := rfl
    have hclose : "\")" = "\"" ++ ")" := rfl
    rw [hopen, hclose]
    simp only [rt, String.append_assoc]
  rw [htext]
  exact (((within_rt hruntime rfl).join (within_of_skipped (read_quoted h)) rfl).after rfl).before
    rfl

theorem within_descriptorLine {descriptor : String} (h : isLiteral descriptor) :
    Within allowed ("return \"" ++ descriptor ++ "\"") := by
  have htext : "return \"" ++ descriptor ++ "\"" = "return " ++ ("\"" ++ descriptor ++ "\"") := by
    have hopen : "return \"" = "return " ++ "\"" := rfl
    rw [hopen]
    simp only [String.append_assoc]
  rw [htext]
  exact Within.after (within_of_skipped (read_quoted h)) rfl

theorem within_codecHead (hruntime : isWord emitter.runtime) {name function : String}
    (hname : isBland name) (hfunction : isBland function) : Within emitter.messageWords
      ("(x *" ++ name ++ ") " ++ function ++ "(field *" ++ emitter.rt codecParameters) := by
  have hparameters : Within emitter.messageWords
      (function ++ "(field *" ++ emitter.rt codecParameters) :=
    (within_of_isBland hfunction).join (within_codecParameters hruntime) rfl
  simpa only [String.append_assoc] using within_receiver hname hparameters

variable (emitter) in
def encodeLine (message : Ast.Message) : String :=
  block ("func " ++ ("(x *" ++ message.name ++ ") " ++ "Encode" ++ "(field *" ++
    emitter.rt codecParameters))

theorem qualifiers_encodeLine (hruntime : isWord emitter.runtime) {message : Ast.Message}
    (hname : isBland message.name) :
    qualifiers (emitter.encodeLine message) = [emitter.runtime, "bytes"] := by
  obtain ⟨hqualifiers, hcode⟩ := read_codecParameters hruntime
  have hhead : isBland ("func " ++ ("(x *" ++ message.name ++ ") " ++ "Encode")) := by
    simp only [isBland_append, hname]
    rfl
  have hopen : Meets (emitter.rt codecParameters) " \x7b" := ⟨hcode, .inr rfl⟩
  have htext : emitter.encodeLine message =
      "func " ++ ("(x *" ++ message.name ++ ") " ++ "Encode") ++ "(field *" ++
        (emitter.rt codecParameters ++ " \x7b") := by
    simp only [encodeLine, block, String.append_assoc]
  rw [htext, qualifiers_between (read_of_bland rfl hhead).2 rfl rfl, hopen.read.1,
    qualifiers_of_isBland hhead, hqualifiers]
  rfl

theorem within_messageLines (hruntime : isWord emitter.runtime) {message : Ast.Message}
    (h : ReadableMessage message) :
    ∀ line ∈ emitter.messageLines message, Within emitter.messageWords line := by
  have hinvalid : Within emitter.messageWords invalidField := within_fixed (by decide)
  have hsingle {line : String} (hline : Within emitter.messageWords line) :=
    List.forall_mem_singleton.mpr hline
  simp only [messageLines, List.forall_mem_append]
  refine ⟨⟨⟨⟨⟨⟨within_structLines h.name h.fields, ?new⟩, ?type⟩, ?descriptor⟩, ?encode⟩, ?decode⟩,
    ?isZero⟩
  case new =>
    rw [String.append_assoc]
    refine within_function (within_receiver h.name ((within_rt hruntime rfl).after rfl)) ?_
    exact hsingle (((within_of_isBland h.name).after rfl).before rfl)
  case type =>
    rw [String.append_assoc]
    refine within_function (within_receiver h.name ((within_rt hruntime rfl).after rfl)) ?_
    exact hsingle (within_typeLine hruntime h.fullName)
  case descriptor =>
    refine within_function (within_receiver h.name (within_of_isBland rfl)) ?_
    exact hsingle (within_descriptorLine h.descriptor)
  case encode =>
    refine within_function (within_codecHead hruntime h.name rfl)
      (within_fieldSwitch (fun field hfield => ?_) hinvalid)
    rw [encodeBody_eq_lines]
    exact within_statements (h.fields field hfield).name (names_encodeCode hruntime)
  case decode =>
    refine within_function (within_codecHead hruntime h.name rfl)
      (within_fieldSwitch (fun field hfield => ?_) hinvalid)
    rw [decodeBody_eq_lines]
    have hreadable := h.fields field hfield
    exact within_statements hreadable.name
      (names_decodeCode hruntime hreadable.type hreadable.baseType)
  case isZero =>
    rw [String.append_assoc]
    refine within_function (within_receiver h.name ((within_rt hruntime rfl).after rfl))
      (within_fieldSwitch (fun field hfield => ?_) (within_of_isBland rfl))
    rw [zeroBody_eq_lines]
    exact within_statements (h.fields field hfield).name names_zeroCode

/-! ## Lines of an enum -/

structure ReadableEnum (enum : Ast.Enum) : Prop where
  name : isDotless enum.name
  values : ∀ value ∈ enum.values, isDotless value.name

theorem mem_of_mem_firstNames {seen : List Int} {values : List Ast.EnumValue}
    {value : Ast.EnumValue} (h : value ∈ firstNames seen values) : value ∈ values := by
  induction values generalizing seen with
  | nil => exact h
  | cons first rest ih =>
      rw [firstNames] at h
      split at h
      · exact List.mem_cons_of_mem _ (ih h)
      · rcases List.mem_cons.mp h with rfl | h
        · exact List.mem_cons_self
        · exact List.mem_cons_of_mem _ (ih h)

theorem isDotless_entries {enum : Ast.Enum} (h : ReadableEnum enum) {value : Ast.EnumValue}
    (hvalue : value ∈ enum.values) :
    isDotless (constantLine enum value) ∧ isDotless (nameEntry value) ∧
      isDotless (valueEntry value) := by
  have hnumber : isDotless (toString value.number) := isDotless_of_isBland (isBland_toString _)
  simp only [constantLine, nameEntry, valueEntry, inFunction, isDotless_append, hnumber, h.name,
    h.values value hvalue]
  exact ⟨rfl, rfl, rfl⟩

def enumPackageLine : String := inFunction "return strconv.Itoa(int(x))"

theorem enumLines_cases {enum : Ast.Enum} (h : ReadableEnum enum) :
    ∀ line ∈ enumLines enum, isDotless line ∨ line = enumPackageLine := by
  have hconstants : ∀ value ∈ enum.values, isDotless (constantLine enum value) :=
    fun value hvalue => (isDotless_entries h hvalue).1
  have hnames : ∀ value ∈ firstNames [] enum.values, isDotless (nameEntry value) :=
    fun value hvalue => (isDotless_entries h (mem_of_mem_firstNames hvalue)).2.1
  have hvalues : ∀ value ∈ enum.values, isDotless (valueEntry value) :=
    fun value hvalue => (isDotless_entries h hvalue).2.2
  simp only [enumLines, function, block, inFunction, List.forall_mem_append, List.forall_mem_cons,
    List.forall_mem_map, List.map_cons, List.map_nil, isDotless_append, h.name]
  simpa +decide [enumPackageLine, inFunction] using
    ⟨⟨fun value hvalue => .inl (hconstants value hvalue),
      fun value hvalue => .inl (hnames value hvalue)⟩,
      fun value hvalue => .inl (hvalues value hvalue)⟩

theorem qualifiers_inFunction (line : String) : qualifiers (inFunction line) = qualifiers line := by
  have htab : Meets "\t" line := ⟨rfl, .inl rfl⟩
  rw [inFunction, htab.read.1]
  rfl

theorem refers_enumLines {enum : Ast.Enum} (h : ReadableEnum enum) :
    ∀ line ∈ enumLines enum, ∀ name ∈ qualifiers line, name = "strconv" := by
  intro line hline name hname
  rcases enumLines_cases h line hline with hdotless | rfl
  · simp [qualifiers_of_isDotless hdotless] at hname
  · exact List.mem_singleton.mp hname

/-! ## Lines of a service -/

structure ReadableRpc (rpc : Ast.Rpc) : Prop where
  name : isBland rpc.name
  input : isBland rpc.input
  output : isBland rpc.output

structure ReadableService (service : Ast.Service) : Prop where
  name : isBland (exported service.name)
  fullName : isLiteral service.fullName
  rpcs : ∀ rpc ∈ service.rpcs, ReadableRpc rpc

theorem signature_eq {rpc : Ast.Rpc} (h : ReadableRpc rpc) :
    ∃ rest, isBland rest ∧ signature rpc = rpc.name ++ "(ctx context.Context, " ++ rest := by
  simp only [signature, String.append_assoc]
  split <;> refine ⟨_, ?_, rfl⟩ <;> simp only [isBland_append, h.input, h.output] <;> rfl

theorem qualifiers_signature {rpc : Ast.Rpc} (h : ReadableRpc rpc) :
    qualifiers (signature rpc) = ["context"] := by
  obtain ⟨rest, hrest, htext⟩ := signature_eq h
  rw [htext, qualifiers_between (read_of_bland rfl h.name).2 rfl rfl, qualifiers_of_isBland h.name,
    qualifiers_of_isBland hrest]
  rfl

theorem within_serviceNameLine {name fullName : String} (hname : isBland name)
    (hfullName : isLiteral fullName) :
    Within [] ("const " ++ name ++ "ServiceName = \"" ++ fullName ++ "\"") := by
  have htext : "const " ++ name ++ "ServiceName = \"" ++ fullName ++ "\"" =
      "const " ++ (name ++ "ServiceName") ++ " = " ++ ("\"" ++ fullName ++ "\"") := by
    have hopen : "ServiceName = \"" = "ServiceName" ++ (" = " ++ "\"") := rfl
    rw [hopen]
    simp only [String.append_assoc]
  have hconstant : isBland (name ++ "ServiceName") := by
    rw [isBland_append, hname]
    rfl
  have hliteral : Within [] ("\"" ++ fullName ++ "\"") := within_of_skipped (read_quoted hfullName)
  rw [htext]
  exact ((within_of_isBland hconstant).after rfl).join hliteral rfl

theorem refers_serviceLines {service : Ast.Service} (h : ReadableService service) :
    ∀ line ∈ serviceLines service, ∀ name ∈ qualifiers line,
      name = "context" ∧ service.rpcs ≠ [] := by
  intro line hline name hname
  have hnothing (hwithin : Within [] line) : name = "context" ∧ service.rpcs ≠ [] :=
    absurd (hwithin.named name hname) List.not_mem_nil
  have htype : isBland (block ("type " ++ exported service.name ++ "Service interface")) := by
    simp only [block, isBland_append, h.name]
    rfl
  simp only [serviceLines, List.mem_append, List.mem_cons, List.mem_map, List.not_mem_nil,
    or_false] at hline
  rcases hline with ((rfl | rfl | rfl | rfl) | ⟨rpc, hrpc, rfl⟩) | rfl
  · exact hnothing (within_of_isBland rfl)
  · exact hnothing (within_serviceNameLine h.name h.fullName)
  · exact hnothing (within_of_isBland rfl)
  · exact hnothing (within_of_isBland htype)
  · rw [qualifiers_inFunction, qualifiers_signature (h.rpcs rpc hrpc)] at hname
    exact ⟨List.mem_singleton.mp hname, List.ne_nil_of_mem hrpc⟩
  · exact hnothing within_brace

end Emitter

end SchemaGo.Go
