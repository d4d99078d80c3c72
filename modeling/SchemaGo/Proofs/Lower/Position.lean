import SchemaGo.Proofs.Lower.Traversal

/-!
# Lowering at another position

A lowered file notes its position, and so do its messages, enums and services.
Nothing else of it depends on the position: lowered at another one, a file is the
same but for these notes, and it fails for the same reason.
-/

namespace SchemaGo

namespace Ast

def Message.atPosition (id : FileId) (message : Message) : Message := { message with file := id }

def Enum.atPosition (id : FileId) (enum : Enum) : Enum := { enum with file := id }

def Service.atPosition (id : FileId) (service : Service) : Service := { service with file := id }

def File.atPosition (id : FileId) (file : File) : File :=
  { file with
    id
    messages := file.messages.map (·.atPosition id)
    enums := file.enums.map (·.atPosition id)
    services := file.services.map (·.atPosition id) }

end Ast

namespace Lowering

variable {α β γ : Type}

def Context.atPosition (id : Ast.FileId) (ctx : Context) : Context := { ctx with id }

theorem map_apply (f : α → β) (part : Lowering α) (embedded : List String) :
    (f <$> part) embedded = (part embedded).map fun run => (f run.1, run.2) := by
  simp only [Functor.map, StateT.map, Except.map, bind, Except.bind, pure, Except.pure]

theorem wrap_map (around : LowerFault → LowerFault) (f : α → β) (part : Lowering α) :
    wrap around (f <$> part) = f <$> wrap around part := by
  funext embedded
  rw [map_apply, wrap, map_apply, wrap]
  cases part embedded <;> rfl

theorem mapM_map_result (f : α → Lowering β) (g : β → γ) (items : List α) :
    items.mapM (fun item => g <$> f item) = List.map g <$> items.mapM f := by
  induction items with
  | nil => simp
  | cons item rest ih => simp [ih]

theorem message_atPosition (id : Ast.FileId) (ctx : Context) (path : SourcePath)
    (declared : Schema.Message) :
    message (ctx.atPosition id) path declared =
      Ast.Message.atPosition id <$> message ctx path declared := by
  have hfields : ∀ declared index, fields (ctx.atPosition id) path declared index =
      fields ctx path declared index := by
    intro oneofs index
    funext declared
    rw [fields_eq_mapM, fields_eq_mapM]
    rfl
  simp only [message, map_bind, map_pure, hfields]
  rfl

theorem enum_atPosition (id : Ast.FileId) (ctx : Context) (path : SourcePath)
    (declared : Schema.Enum) :
    enum (ctx.atPosition id) path declared =
      Ast.Enum.atPosition id <$> enum ctx path declared := by
  simp only [enum, map_bind, map_pure, enumValues_eq_mapM]
  rfl

theorem service_atPosition (id : Ast.FileId) (ctx : Context) (path : SourcePath)
    (declared : Schema.Service) :
    service (ctx.atPosition id) path declared =
      Ast.Service.atPosition id <$> service ctx path declared := by
  simp only [service, map_bind, map_pure, rpcs_eq_mapM]
  rfl

theorem messages_atPosition (id : Ast.FileId) (ctx : Context) (ignorables : TextSet)
    (path : SourcePath) (number : Int) (index : Nat) (declared : List Schema.Message) :
    messages (ctx.atPosition id) ignorables path number index declared =
      List.map (Ast.Message.atPosition id) <$>
        messages ctx ignorables path number index declared := by
  rw [messages_eq_mapM, messages_eq_mapM, ← mapM_map_result]
  congr 1
  funext item
  rw [wrappedMessage, wrappedMessage, message_atPosition, wrap_map]

theorem wrappedEnum_atPosition (id : Ast.FileId) (ctx : Context) :
    wrappedEnum (ctx.atPosition id) =
      fun declared => Ast.Enum.atPosition id <$> wrappedEnum ctx declared := by
  funext declared
  rw [wrappedEnum, wrappedEnum, enum_atPosition, wrap_map]

theorem enums_atPosition (id : Ast.FileId) (ctx : Context) (path : SourcePath) (number : Int)
    (index : Nat) (declared : List Schema.Enum) :
    enums (ctx.atPosition id) path number index declared =
      List.map (Ast.Enum.atPosition id) <$> enums ctx path number index declared := by
  rw [enums_eq_mapM, enums_eq_mapM, wrappedEnum_atPosition, mapM_map_result]

theorem nestedEnums_atPosition (id : Ast.FileId) (ctx : Context) (ignorables : TextSet)
    (path : SourcePath) (number : Int) (index : Nat) (declared : List Schema.Message) :
    nestedEnums (ctx.atPosition id) ignorables path number index declared =
      List.map (Ast.Enum.atPosition id) <$>
        nestedEnums ctx ignorables path number index declared := by
  rw [nestedEnums_eq_mapM, nestedEnums_eq_mapM, wrappedEnum_atPosition, mapM_map_result]

theorem services_atPosition (id : Ast.FileId) (ctx : Context) (index : Nat)
    (declared : List Schema.Service) :
    services (ctx.atPosition id) index declared =
      List.map (Ast.Service.atPosition id) <$> services ctx index declared := by
  rw [services_eq_mapM, services_eq_mapM, ← mapM_map_result]
  congr 1
  funext ⟨path, item⟩
  dsimp only
  rw [service_atPosition, wrap_map]

theorem parts_atPosition (id : Ast.FileId) (ctx : Context) (file : Schema.File) :
    parts (ctx.atPosition id) file =
      (fun lowered => (lowered.1, lowered.2.1.map (Ast.Message.atPosition id),
        lowered.2.2.1.map (Ast.Enum.atPosition id),
        lowered.2.2.2.map (Ast.Service.atPosition id))) <$> parts ctx file := by
  simp only [parts, map_bind, map_pure, messages_atPosition, enums_atPosition,
    nestedEnums_atPosition, services_atPosition, bind_map_left, List.map_append]
  rfl

end Lowering

theorem Schema.Linked.lower_atPosition (linked : Schema.Linked) (files : FileTree)
    (id id' : Ast.FileId) :
    linked.lower files id' = (linked.lower files id).map (Ast.File.atPosition id') := by
  have hrun := congrFun (Lowering.parts_atPosition id' (linked.context files id) linked.file) []
  rw [Lowering.map_apply] at hrun
  simp only [context, Lowering.Context.atPosition] at hrun
  simp only [lower, hrun]
  generalize Lowering.parts _ linked.file [] = lowered
  cases lowered <;> rfl

end SchemaGo
