import SchemaGo.Proofs.Go.References

/-!
# Imports

The import block is written before the declarations, from which of the three lists of a
file are empty.  What the declarations refer to is found by reading their lines.  The two
agree except in one case: services without any rpc import `context` and do not use it.
-/

namespace SchemaGo.Go.Emitter

variable {emitter : Emitter} {file : Ast.File} {name : String}

/-- The texts of the file bring no dots of their own into the code. -/
structure ReadableFile (file : Ast.File) : Prop where
  enums : ∀ enum ∈ file.enums, ReadableEnum enum
  messages : ∀ message ∈ file.messages, ReadableMessage message
  services : ∀ service ∈ file.services, ReadableService service

variable (emitter) in
def Imports (file : Ast.File) (name : String) : Prop :=
  ∃ path, importLine path ∈ emitter.importLines file ∧ (ofImport path).runtime = name

variable (emitter) in
def RefersTo (file : Ast.File) (name : String) : Prop :=
  ∃ line ∈ emitter.declarationLines file, name ∈ qualifiers line

theorem importLine_injective : Function.Injective importLine := by
  intro first second h
  simpa [importLine, inFunction, String.append_assoc] using h

theorem mem_standardImports {path : String} : path ∈ standardImports file ↔
    (path = "bytes" ∨ path = "fmt") ∧ file.messages ≠ [] ∨
      path = "context" ∧ file.services ≠ [] ∨ path = "strconv" ∧ file.enums ≠ [] := by
  rw [standardImports]
  cases file.messages <;> cases file.services <;> cases file.enums <;> simp <;> tauto

theorem standardImports_ne_nil (h : file.messages ≠ []) : standardImports file ≠ [] :=
  List.ne_nil_of_mem (mem_standardImports.mpr (.inl ⟨.inl rfl, h⟩))

theorem importLine_ne (path : String) : importLine path ∉ ["", "import (", ")"] := by
  have hhead : (importLine path).toList.head? = some '\t' := by simp [importLine, inFunction]
  intro h
  simp only [List.mem_cons, List.not_mem_nil, or_false] at h
  rcases h with h | h | h <;> rw [h] at hhead <;> exact absurd hhead (by decide)

theorem mem_importLines {path : String} : importLine path ∈ emitter.importLines file ↔
    path ∈ standardImports file ∨ path = emitter.runtimeImport ∧ file.messages ≠ [] := by
  obtain ⟨hempty, hopen, hclose⟩ : importLine path ≠ "" ∧ importLine path ≠ "import (" ∧
      importLine path ≠ ")" := by simpa using importLine_ne path
  have hstandard : importLine path ∈ (standardImports file).map importLine ↔
      path ∈ standardImports file :=
    List.mem_map_of_injective importLine_injective
  rw [importLines]
  by_cases hmessages : file.messages = []
  · by_cases hnil : standardImports file = [] <;>
      simp [hmessages, hnil, hstandard, hempty, hopen, hclose]
  · simp [hmessages, standardImports_ne_nil hmessages, hstandard, hempty, hopen, hclose,
      importLine_injective.eq_iff]

theorem imports_iff (runtimeImport : String) : (ofImport runtimeImport).Imports file name ↔
    name ∈ (ofImport runtimeImport).messagePackages ∧ file.messages ≠ [] ∨
      name = "context" ∧ file.services ≠ [] ∨ name = "strconv" ∧ file.enums ≠ [] := by
  have hnames : ∀ path ∈ ["bytes", "context", "fmt", "strconv"],
      (ofImport path).runtime = path := by
    decide
  simp only [List.forall_mem_cons] at hnames
  obtain ⟨hbytes, hcontext, hfmt, hstrconv, -⟩ := hnames
  simp only [Imports, mem_importLines, mem_standardImports]
  constructor
  · rintro ⟨path, ((⟨rfl | rfl, h⟩ | ⟨rfl, h⟩ | ⟨rfl, h⟩) | ⟨rfl, h⟩), rfl⟩
    · exact .inl ⟨by simp [messagePackages, hbytes], h⟩
    · exact .inl ⟨by simp [messagePackages, hfmt], h⟩
    · exact .inr (.inl ⟨hcontext, h⟩)
    · exact .inr (.inr ⟨hstrconv, h⟩)
    · exact .inl ⟨List.mem_cons_self, h⟩
  · rintro (⟨hname, h⟩ | ⟨rfl, h⟩ | ⟨rfl, h⟩)
    · simp only [messagePackages, List.mem_cons, List.not_mem_nil, or_false] at hname
      rcases hname with rfl | rfl | rfl
      · exact ⟨runtimeImport, .inr ⟨rfl, h⟩, rfl⟩
      · exact ⟨"bytes", .inl (.inl ⟨.inl rfl, h⟩), hbytes⟩
      · exact ⟨"fmt", .inl (.inl ⟨.inr rfl, h⟩), hfmt⟩
    · exact ⟨"context", .inl (.inr (.inl ⟨rfl, h⟩)), hcontext⟩
    · exact ⟨"strconv", .inl (.inr (.inr ⟨rfl, h⟩)), hstrconv⟩

/-! ## References -/

theorem refersTo_of_enums (h : file.enums ≠ []) : emitter.RefersTo file "strconv" := by
  obtain ⟨enum, henum⟩ := List.exists_mem_of_ne_nil _ h
  have hline : enumPackageLine ∈ enumLines enum := by
    simp [enumLines, function, enumPackageLine]
  refine ⟨enumPackageLine, ?_, List.mem_singleton_self _⟩
  simp only [declarationLines, List.mem_append, List.mem_flatMap]
  exact .inl (.inl ⟨enum, henum, hline⟩)

theorem refersTo_of_message {message : Ast.Message} (hmessage : message ∈ file.messages)
    {line : String} (hline : line ∈ emitter.messageLines message) (hname : name ∈ qualifiers line) :
    emitter.RefersTo file name := by
  refine ⟨line, ?_, hname⟩
  simp only [declarationLines, List.mem_append, List.mem_flatMap]
  exact .inl (.inr ⟨message, hmessage, hline⟩)

theorem refersTo_of_messages (hruntime : isWord emitter.runtime) (hfile : ReadableFile file)
    (h : file.messages ≠ []) (hname : name ∈ emitter.messagePackages) :
    emitter.RefersTo file name := by
  obtain ⟨message, hmessage⟩ := List.exists_mem_of_ne_nil _ h
  have hheadLine : encodeLine emitter message ∈ emitter.messageLines message := by
    simp [messageLines, function, encodeLine, codecParameters]
  have hinvalidLine : inFunction (inFunction invalidField) ∈ emitter.messageLines message := by
    simp [messageLines, function, fieldSwitch]
  have hhead := qualifiers_encodeLine hruntime (hfile.messages message hmessage).name
  have hinvalid : "fmt" ∈ qualifiers (inFunction (inFunction invalidField)) := by
    rw [qualifiers_inFunction, qualifiers_inFunction]
    decide
  simp only [messagePackages, List.mem_cons, List.not_mem_nil, or_false] at hname
  rcases hname with rfl | rfl | rfl
  · exact refersTo_of_message hmessage hheadLine (by simp [hhead])
  · exact refersTo_of_message hmessage hheadLine (by simp [hhead])
  · exact refersTo_of_message hmessage hinvalidLine hinvalid

theorem refersTo_of_rpcs (hfile : ReadableFile file) {service : Ast.Service}
    (hservice : service ∈ file.services) (h : service.rpcs ≠ []) :
    emitter.RefersTo file "context" := by
  obtain ⟨rpc, hrpc⟩ := List.exists_mem_of_ne_nil _ h
  have hline : inFunction (signature rpc) ∈ serviceLines service := by
    simp only [serviceLines, List.mem_append, List.mem_map]
    exact .inl (.inr ⟨rpc, hrpc, rfl⟩)
  have hsignature := qualifiers_signature ((hfile.services service hservice).rpcs rpc hrpc)
  refine ⟨inFunction (signature rpc), ?_, by simp [qualifiers_inFunction, hsignature]⟩
  simp only [declarationLines, List.mem_append, List.mem_flatMap]
  exact .inr ⟨service, hservice, hline⟩

theorem refersTo_cases (hruntime : isWord emitter.runtime) (hfile : ReadableFile file)
    (h : emitter.RefersTo file name) :
    name ∈ emitter.messageWords ∧ file.messages ≠ [] ∨
      (name = "context" ∧ ∃ service ∈ file.services, service.rpcs ≠ []) ∨
      name = "strconv" ∧ file.enums ≠ [] := by
  obtain ⟨line, hline, hname⟩ := h
  simp only [declarationLines, List.mem_append, List.mem_flatMap] at hline
  rcases hline with (⟨enum, henum, hline⟩ | ⟨message, hmessage, hline⟩) | ⟨service, hservice, hline⟩
  · exact .inr (.inr ⟨refers_enumLines (hfile.enums enum henum) line hline name hname,
      List.ne_nil_of_mem henum⟩)
  · have hwithin := within_messageLines hruntime (hfile.messages message hmessage) line hline
    exact .inl ⟨hwithin.named name hname, List.ne_nil_of_mem hmessage⟩
  · obtain ⟨hcontext, hrpcs⟩ :=
      refers_serviceLines (hfile.services service hservice) line hline name hname
    exact .inr (.inl ⟨hcontext, service, hservice, hrpcs⟩)

/-! ## The two compared -/

variable (emitter) in
def packages : List String := ["bytes", "context", "fmt", "strconv", emitter.runtime]

theorem mem_messagePackages_of_mem_packages (hpackage : name ∈ emitter.packages)
    (hname : name ∈ emitter.messageWords) : name ∈ emitter.messagePackages := by
  rcases List.mem_append.mp hname with hname | hlocal
  · exact hname
  · simp only [packages, List.mem_cons, List.not_mem_nil, or_false] at hpackage
    rcases hpackage with rfl | rfl | rfl | rfl | rfl
    all_goals first | exact List.mem_cons_self | exact absurd hlocal (by decide)

variable {runtimeImport : String}

theorem refersTo_of_imports (hemitter : emitter = ofImport runtimeImport)
    (hruntime : isWord emitter.runtime) (hfile : ReadableFile file)
    (himports : emitter.Imports file name)
    (hcontext : name = "context" → file.services ≠ [] → emitter.RefersTo file "context") :
    emitter.RefersTo file name := by
  subst hemitter
  rcases (imports_iff runtimeImport).mp himports with ⟨hname, h⟩ | ⟨rfl, h⟩ | ⟨rfl, h⟩
  · exact refersTo_of_messages hruntime hfile h hname
  · exact hcontext rfl h
  · exact refersTo_of_enums h

theorem imports_of_refersTo (hemitter : emitter = ofImport runtimeImport)
    (hruntime : isWord emitter.runtime) (hfile : ReadableFile file)
    (hrefers : emitter.RefersTo file name)
    (hname : name ∈ emitter.messageWords → name ∈ emitter.messagePackages) :
    emitter.Imports file name := by
  subst hemitter
  rw [imports_iff]
  rcases refersTo_cases hruntime hfile hrefers with ⟨hword, h⟩ | ⟨rfl, service, hservice, -⟩ | h
  · exact .inl ⟨hname hword, h⟩
  · exact .inr (.inl ⟨rfl, List.ne_nil_of_mem hservice⟩)
  · exact .inr (.inr h)

theorem refersTo_context_iff (hruntime : isWord emitter.runtime) (hfile : ReadableFile file) :
    emitter.RefersTo file "context" ↔
      (∃ service ∈ file.services, service.rpcs ≠ []) ∨
        emitter.runtime = "context" ∧ file.messages ≠ [] := by
  constructor
  · intro hrefers
    rcases refersTo_cases hruntime hfile hrefers with ⟨hname, h⟩ | ⟨-, hservice⟩ | ⟨hname, -⟩
    · have hcontext : emitter.runtime = "context" := by
        simpa [messageWords, messagePackages, localWords, eq_comm] using hname
      exact .inr ⟨hcontext, h⟩
    · exact .inl hservice
    · exact absurd hname (by decide)
  · rintro (⟨service, hservice, h⟩ | ⟨hcontext, h⟩)
    · exact refersTo_of_rpcs hfile hservice h
    · refine refersTo_of_messages hruntime hfile h ?_
      rw [← hcontext]
      exact List.mem_cons_self

/-- Nothing is referred to without an import, and no import but that of `context` is unused.  That
one is used if there is an rpc at all; services without any import it in vain. -/
theorem imports_iff_refersTo_iff (hemitter : emitter = ofImport runtimeImport)
    (hruntime : isWord emitter.runtime) (hfile : ReadableFile file) :
    (∀ name, emitter.RefersTo file name → emitter.Imports file name ∨ name ∈ localWords) ∧
      (∀ name, emitter.Imports file name → name ≠ "context" → emitter.RefersTo file name) ∧
      ((∀ name ∈ emitter.packages, emitter.Imports file name ↔ emitter.RefersTo file name) ↔
        file.services = [] ∨ (∃ service ∈ file.services, service.rpcs ≠ []) ∨
          emitter.runtime = "context" ∧ file.messages ≠ []) := by
  refine ⟨fun name hrefers => ?_, fun name himports hname => ?_, fun h => ?_,
    fun h name hpackage => ⟨fun himports => ?_, fun hrefers => ?_⟩⟩
  · by_cases hlocal : name ∈ localWords
    · exact .inr hlocal
    · refine .inl (imports_of_refersTo hemitter hruntime hfile hrefers fun hword => ?_)
      exact (List.mem_append.mp hword).resolve_right hlocal
  · exact refersTo_of_imports hemitter hruntime hfile himports fun hcontext =>
      absurd hcontext hname
  · by_cases hservices : file.services = []
    · exact .inl hservices
    · have himports : emitter.Imports file "context" := by
        subst hemitter
        exact (imports_iff runtimeImport).mpr (.inr (.inl ⟨rfl, hservices⟩))
      have hcontext : "context" ∈ emitter.packages := by simp [packages]
      exact .inr ((refersTo_context_iff hruntime hfile).mp ((h _ hcontext).mp himports))
  · refine refersTo_of_imports hemitter hruntime hfile himports fun _ hservices => ?_
    exact (refersTo_context_iff hruntime hfile).mpr (h.resolve_left hservices)
  · exact imports_of_refersTo hemitter hruntime hfile hrefers
      (mem_messagePackages_of_mem_packages hpackage)

/-! ### One declaration of each kind -/

def userField : Ast.Field where
  name := "Name"
  protoName := "name"
  jsonName := "name"
  type := "string"
  baseType := "string"
  keyBaseType := ""
  indexBaseType := ""
  number := 1
  wire := .scalar .string
  keyWire := none
  valueWire := none
  optional := false
  oneof := none
  tag := ""
  structTag := "json:\"name\""
  extensionTags := []
  kind := .scalar
  keyKind := none
  valueKind := none
  options := []

def findUser : Ast.Rpc :=
  ⟨"Find", "User", "User", "users.User", "users.User", false, false, [], "Users"⟩

def userFile (rpcs : List Ast.Rpc) : Ast.File where
  id := 0
  directory := ""
  source := "users.proto"
  fileName := "users"
  filePath := ""
  packageName := ""
  package := "users"
  options := []
  messages := [⟨"User", "users.User", [userField], [], [], "", 0⟩]
  enums := [⟨"Role", "users.Role", [⟨"ADMIN", 0, []⟩], [], 0⟩]
  services := [⟨"Users", "users.Users", [], rpcs, [], 0⟩]
  comments := .empty
  embeddedFiles := []

def userEmitter : Emitter := ofImport "example.com/wire/go-runtime"

theorem readable_userFile {rpcs : List Ast.Rpc} (h : ∀ rpc ∈ rpcs, ReadableRpc rpc) :
    ReadableFile (userFile rpcs) := by
  have hfield : ReadableField userField := ⟨rfl, rfl, rfl, by decide⟩
  have hname : isBland (exported "Users") := by decide
  have hfullName : isLiteral "users.Users" := rfl
  exact ⟨List.forall_mem_singleton.mpr ⟨rfl, List.forall_mem_singleton.mpr rfl⟩,
    List.forall_mem_singleton.mpr ⟨rfl, rfl, rfl, List.forall_mem_singleton.mpr hfield⟩,
    List.forall_mem_singleton.mpr ⟨hname, hfullName, h⟩⟩

theorem imports_iff_refersTo_iff_users :
    (∀ name ∈ userEmitter.packages, userEmitter.Imports (userFile [findUser]) name ↔
      userEmitter.RefersTo (userFile [findUser]) name) ∧
    ¬∀ name ∈ userEmitter.packages, userEmitter.Imports (userFile []) name ↔
      userEmitter.RefersTo (userFile []) name := by
  have hemitter : userEmitter = ofImport "example.com/wire/go-runtime" := rfl
  have hruntime : isWord userEmitter.runtime := by decide
  constructor
  · have hfile : ReadableFile (userFile [findUser]) :=
      readable_userFile (List.forall_mem_singleton.mpr ⟨rfl, rfl, rfl⟩)
    refine (imports_iff_refersTo_iff hemitter hruntime hfile).2.2.mpr (.inr (.inl ?_))
    exact ⟨_, List.mem_cons_self, List.cons_ne_nil _ _⟩
  · have hfile : ReadableFile (userFile []) := readable_userFile (by simp)
    have hcontext : userEmitter.runtime ≠ "context" := by decide
    rw [(imports_iff_refersTo_iff hemitter hruntime hfile).2.2]
    simp [userFile, hcontext]

end SchemaGo.Go.Emitter
