import RustScript.Bytecode.OpCode
import RustScript.Bytecode.Value
import RustScript.Compiler.TypeSchema

/-!
# Programs

A compiled program: constants, code, imports and the metadata that the wire
format transports.  The instruction caches of the source are derived data and
left out.

`Program.WellFormed` says what the source's container types guarantee: the keys
of a map are distinct.  Finite maps whose iteration order the wire format does
not show are represented in increasing key order.
-/

namespace RustScript

structure HostImport where
  name : String
  arity : UInt8
  returnType : ValueType
  deriving DecidableEq, Repr

structure TypeMap where
  strictTypes : Bool
  localTypes : List ValueType
  localSchemas : List (Option TypeSchema)
  callableSlots : List Bool
  optionalSlots : List Bool
  /-- Operand types by code offset, in increasing offset order. -/
  operandTypes : List (Nat × ValueType × ValueType)

inductive CaptureBindingMode where
  | copy
  | borrow
  | borrowMut
  | move
  deriving DecidableEq, Repr

inductive CallableTarget where
  | scriptFunction (id : UInt32)
  | hostImport (id : UInt16)
  deriving DecidableEq, Repr

structure ScriptFunction where
  entryIp : UInt32
  endIp : UInt32
  deriving DecidableEq, Repr

structure CallablePrototype where
  kind : CallableKind
  target : CallableTarget
  arity : UInt8
  frameLocalCount : Nat
  parameterSlots : List UInt16
  captureSourceSlots : List UInt16
  captureSlots : List UInt16
  captureModes : List CaptureBindingMode
  selfSlot : Option UInt16
  schema : Option TypeSchema

structure FunctionRegion where
  startIp : UInt32
  endIp : UInt32
  prototypeId : Option UInt32
  deriving DecidableEq, Repr

structure RootCallableBinding where
  localSlot : UInt16
  prototypeId : UInt32
  deriving DecidableEq, Repr

structure ExportedCallable where
  name : String
  localSlot : UInt16
  deriving DecidableEq, Repr

structure ArgInfo where
  name : String
  position : UInt8
  deriving DecidableEq, Repr

structure DebugFunction where
  name : String
  args : List ArgInfo
  deriving DecidableEq, Repr

structure LocalInfo where
  name : String
  index : UInt8
  declaredLine : Option UInt32
  lastLine : Option UInt32
  deriving DecidableEq, Repr

structure LineInfo where
  offset : UInt32
  line : UInt32
  deriving DecidableEq, Repr

structure DebugInfo where
  source : Option String
  lines : List LineInfo
  functions : List DebugFunction
  locals : List LocalInfo
  deriving DecidableEq, Repr

structure Program where
  constants : List Value := []
  code : List UInt8 := []
  localCount : Nat := 0
  imports : List HostImport := []
  /-- Catalog identity of each import; empty when no import has one. -/
  hostImportSchemas : List (Option HostImportSchema) := []
  /-- Guest struct declarations by name, in increasing name order. -/
  namedStructDecls : List (String × StructDecl) := []
  debug : Option DebugInfo := none
  typeMap : Option TypeMap := none
  scriptFunctions : List ScriptFunction := []
  callablePrototypes : List CallablePrototype := []
  functionRegions : List FunctionRegion := []
  rootCallableBindings : List RootCallableBinding := []
  exportedCallables : List ExportedCallable := []

/-- Every schema an optional one stands for is well formed. -/
def OptionalWellFormed (schema : Option TypeSchema) : Prop := ∀ s ∈ schema, s.WellFormed

structure TypeMap.WellFormed (typeMap : TypeMap) : Prop where
  schemas : ∀ s ∈ typeMap.localSchemas, OptionalWellFormed s
  operands : SortedAssoc.SortedKeys typeMap.operandTypes

/-- What the containers of the source guarantee of every program. -/
structure Program.WellFormed (program : Program) : Prop where
  constants : ∀ v ∈ program.constants, v.WellFormed
  typeMap : ∀ t ∈ program.typeMap, t.WellFormed
  prototypes : ∀ p ∈ program.callablePrototypes, OptionalWellFormed p.schema
  structNames : SortedAssoc.SortedKeys program.namedStructDecls
  structBodies : ∀ d ∈ program.namedStructDecls, d.2.bodySchema.WellFormed

end RustScript
