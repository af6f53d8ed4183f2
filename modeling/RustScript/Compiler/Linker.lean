import RustScript.Compiler.Ir

/-!
# The linker

The units of a compilation, one for each module, become one flat program.  Every
declaration gets a flat function index: a function with an implementation an
entry of its own, a host import the entry of its name and arity, and a legacy
builtin name the call index of the builtin.  The statements and bodies of a unit
are then rewritten to flat indices, and its local slots are moved past the slots
of the units before it.

Carriers of provenance (semantic node ids, lexical scopes, tokens, source names),
struct schemas and the candidate metadata of the host catalog take no part in
what a call denotes.  They are left out, so the model links every list of units
that the source links, and those that the source refuses for conflicts between
such carriers.
-/

namespace RustScript

/-! ## Equality of type schemas -/

mutual
def TypeSchema.beq : TypeSchema → TypeSchema → Bool
  | .unknown, .unknown | .null, .null | .int, .int | .float, .float | .number, .number
  | .bool, .bool | .string, .string | .bytes, .bytes => true
  | .optional a, .optional b | .array a, .array b | .map a, .map b => a.beq b
  | .genericParam a, .genericParam b => a == b
  | .named a as, .named b bs => a == b && TypeSchema.beqAll as bs
  | .arrayTuple as, .arrayTuple bs => TypeSchema.beqAll as bs
  | .arrayTupleRest as a, .arrayTupleRest bs b | .callable as a, .callable bs b =>
    TypeSchema.beqAll as bs && a.beq b
  | .object as, .object bs => TypeSchema.beqFields as bs
  | .resource a, .resource b => a.name == b.name
  | _, _ => false

def TypeSchema.beqAll : List TypeSchema → List TypeSchema → Bool
  | [], [] => true
  | a :: as, b :: bs => a.beq b && TypeSchema.beqAll as bs
  | _, _ => false

def TypeSchema.beqFields : List (String × TypeSchema) → List (String × TypeSchema) → Bool
  | [], [] => true
  | (m, a) :: as, (n, b) :: bs => m == n && a.beq b && TypeSchema.beqFields as bs
  | _, _ => false
end

instance : BEq TypeSchema := ⟨TypeSchema.beq⟩

namespace Compiler

/-! ## Units -/

/-- The builtin names that a legacy declaration may carry.  Every builtin has a
reserved call index. -/
structure BuiltinCatalog where
  fromNamespacedName : String → Option BuiltinFunction
  reserved : ∀ name builtin, fromNamespacedName name = some builtin →
    BuiltinFunction.fromCallIndex builtin.callIndex = some builtin

structure ParsedUnit where
  parsed : FrontendIr
  /-- The scope of the unit's local names; the root unit keeps bare names. -/
  scopeIdentity : Option String
  hostCatalogSupplied : Bool

def ParsedUnit.hasImpl (unit : ParsedUnit) (index : UInt16) : Bool :=
  (unit.parsed.functionImpls.get index).isSome

/-- The flat name of a function whose source name is claimed already. -/
def deterministicFlatName (name : String) (symbol : SymbolId) : String :=
  name ++ "__m" ++ toString symbol.module

/-! ## Registration -/

/-- The flat function table and the maps into it; `functionMap` belongs to the unit
that is being registered. -/
structure FlatTable where
  functions : List FunctionDecl
  flatIndexBySymbol : SymbolId → Option UInt16
  hostIndexByArity : String × UInt8 → Option UInt16
  claimedFlatNames : List String
  functionMap : UInt16 → Option UInt16

namespace FlatTable

def empty : FlatTable where
  functions := []
  flatIndexBySymbol := fun _ => none
  hostIndexByArity := fun _ => none
  claimedFlatNames := []
  functionMap := fun _ => none

/-- The declaration `func` of `symbol` is found at the flat index. -/
def place (table : FlatTable) (func : FunctionDecl) (symbol : SymbolId) (flat : UInt16) :
    FlatTable :=
  { table with
    flatIndexBySymbol := Function.update table.flatIndexBySymbol symbol (some flat)
    functionMap := Function.update table.functionMap func.index (some flat) }

def push (table : FlatTable) (func : FunctionDecl) (name : String) (flat : UInt16) : FlatTable :=
  { table with functions := table.functions ++ [{ func with name, index := flat }] }

def claim (table : FlatTable) (name : String) : FlatTable :=
  { table with
    claimedFlatNames :=
      if name ∈ table.claimedFlatNames then table.claimedFlatNames
      else table.claimedFlatNames ++ [name] }

end FlatTable

def nextFlatIndex (functions : List FunctionDecl) : Except String UInt16 :=
  if functions.length < UInt16.size then pure (UInt16.ofNat functions.length)
  else throw "too many functions across imported modules"

def valueTypeName : ValueType → String
  | .unknown => "unknown"
  | .null => "null"
  | .int => "int"
  | .float => "float"
  | .bool => "bool"
  | .string => "string"
  | .bytes => "bytes"
  | .array => "array"
  | .map => "map"
  | .callable => "callable"

def functionArgsArePlaceholders (args : List String) : Bool :=
  args.zipIdx.all fun (arg, index) => arg == "arg" ++ toString index

/-- The return type of a host import that two units declare. -/
def mergeReturnType (existing func : FunctionDecl) : Except String ValueType :=
  if existing.returnType = func.returnType then pure existing.returnType
  else match existing.returnType, func.returnType with
    | .unknown, known => pure known
    | known, .unknown => pure known
    | lhs, rhs =>
      throw ("function '" ++ func.name ++ "' declared with conflicting return type " ++
        valueTypeName lhs ++ " vs " ++ valueTypeName rhs)

def mergeReturnSchema (existing func : FunctionDecl) : Except String (Option TypeSchema) :=
  match existing.returnSchema, func.returnSchema with
  | none, schema => pure schema
  | some schema, none => pure (some schema)
  | some lhs, some rhs =>
    if lhs == rhs then pure (some lhs)
    else throw ("function '" ++ func.name ++
      "' declared with conflicting return schemas across imported modules")

def mergeTypeParams (existing func : FunctionDecl) : Except String (List String) :=
  if existing.typeParams = func.typeParams then pure existing.typeParams
  else if existing.typeParams.isEmpty then pure func.typeParams
  else if func.typeParams.isEmpty then pure existing.typeParams
  else throw ("function '" ++ func.name ++
    "' declared with conflicting type parameters across imported modules")

def mergeArgSchemas (existing func : FunctionDecl) : Except String (List (Option TypeSchema)) :=
  if existing.argSchemas == func.argSchemas then pure existing.argSchemas
  else if existing.argSchemas.all Option.isNone then pure func.argSchemas
  else if func.argSchemas.all Option.isNone then pure existing.argSchemas
  else throw ("function '" ++ func.name ++
    "' declared with conflicting parameter schemas across imported modules")

/-- A host import that is declared again with the same name and arity refines the entry
that is there. -/
def mergeHostImportMetadata (existing func : FunctionDecl) : Except String FunctionDecl := do
  let returnType ← mergeReturnType existing func
  let returnSchema ← mergeReturnSchema existing func
  let typeParams ← mergeTypeParams existing func
  let argSchemas ← mergeArgSchemas existing func
  pure { existing with
    returnType, returnSchema, typeParams, argSchemas
    args :=
      if functionArgsArePlaceholders existing.args && !functionArgsArePlaceholders func.args then
        func.args
      else existing.args
    exported := existing.exported || func.exported }

section

variable (catalog : BuiltinCatalog)

/-- A declaration without an implementation. -/
def registerImport (unit : ParsedUnit) (table : FlatTable) (func : FunctionDecl)
    (symbol : SymbolId) : Except String FlatTable :=
  let builtin := if unit.hostCatalogSupplied then none else catalog.fromNamespacedName func.name
  match builtin with
  | some builtin => pure (table.place func symbol builtin.callIndex)
  | none =>
    match table.hostIndexByArity (func.name, func.arity) with
    | some existing => do
        let some entry := table.functions[existing.toNat]?
          | throw "host import entry is missing"
        let merged ← mergeHostImportMetadata entry func
        let table := { table with functions := table.functions.set existing.toNat merged }
        pure (table.place func symbol existing)
    | none => do
        let flat ← nextFlatIndex table.functions
        let table := (table.push func func.name flat).claim func.name
        let hostIndexByArity :=
          Function.update table.hostIndexByArity (func.name, func.arity) (some flat)
        pure ({ table with hostIndexByArity }.place func symbol flat)

/-- A function of a module: it keeps its source name unless an entry claimed it before. -/
def registerModuleFunction (table : FlatTable) (func : FunctionDecl) (symbol : SymbolId) :
    Except String FlatTable := do
  let flat ← nextFlatIndex table.functions
  let flatName :=
    if func.name ∈ table.claimedFlatNames then deterministicFlatName func.name symbol
    else func.name
  pure (((table.push func flatName flat).claim func.name).place func symbol flat)

def registerFunction (unit : ParsedUnit) (table : FlatTable) (func : FunctionDecl) :
    Except String FlatTable :=
  match func.symbol with
  -- A synthetic declaration; the loader has resolved its call sites.
  | none => pure table
  | some symbol =>
    match table.flatIndexBySymbol symbol with
    | some existing =>
      pure { table with
        functionMap := Function.update table.functionMap func.index (some existing) }
    | none =>
      if unit.hasImpl func.index then registerModuleFunction table func symbol
      else registerImport catalog unit table func symbol

def registerUnitFunctions (unit : ParsedUnit) (table : FlatTable) : Except String FlatTable :=
  unit.parsed.functions.foldlM (registerFunction catalog unit)
    { table with functionMap := fun _ => none }

end

/-! ## Remapping -/

def remapLocalIndex (localBase : Nat) (index : LocalSlot) : Except String LocalSlot :=
  if index + localBase < UInt16.size then pure (index + localBase)
  else throw "local index overflow while merging imported modules"

/-- What the statements of one unit are rewritten with. -/
structure Remap where
  localBase : Nat
  functionMap : UInt16 → Option UInt16
  flatIndexBySymbol : SymbolId → Option UInt16

namespace Remap

variable (remap : Remap)

def slot (index : LocalSlot) : Except String LocalSlot := remapLocalIndex remap.localBase index

/-- The index of a call or of a function value. -/
def function (index : UInt16) : Except String UInt16 :=
  match remap.functionMap index with
  | some flat => pure flat
  | none =>
    if (BuiltinFunction.fromCallIndex index).isNone then
      throw "function index remap failed while merging imported modules"
    else pure index

def symbol (missing : String) (symbol : SymbolId) : Except String UInt16 :=
  match remap.flatIndexBySymbol symbol with
  | some flat => pure flat
  | none => throw missing

def captureCopies (copies : List (LocalSlot × LocalSlot)) :
    Except String (List (LocalSlot × LocalSlot)) :=
  copies.mapM fun copy => do pure (← remap.slot copy.1, ← remap.slot copy.2)

def frame (frame : ClosureFrame) : Except String ClosureFrame := do
  pure ⟨← frame.paramSlots.mapM remap.slot, ← remap.captureCopies frame.captureCopies⟩

def pattern : MatchPattern → Except String MatchPattern
  | .someBinding slot => do pure (.someBinding (← remap.slot slot))
  | pattern => pure pattern

end Remap

mutual
def remapExprIndices (remap : Remap) : Expr → Except String Expr
  | .literal value => pure (.literal value)
  | .functionRef index => do pure (.functionRef (← remap.function index))
  | .moduleFunctionRef symbol => do
      pure (.functionRef (← remap.symbol
        "resolved module function value target is missing from the merged function table" symbol))
  | .unresolvedFunctionRef =>
    throw "unresolved function value reference reached the module merge"
  | .call index args resolution => do
      let index ← remap.function index
      pure (.call index (← remapExprsIndices remap args) resolution)
  | .moduleCall symbol args => do
      let args ← remapExprsIndices remap args
      let flat ← remap.symbol
        "resolved module call target is missing from the merged function table" symbol
      pure (.call flat args none)
  | .optionalGet container key containerSlot keySlot => do
      let containerSlot ← remap.slot containerSlot
      let keySlot ← remap.slot keySlot
      let container ← remapExprIndices remap container
      let key ← remapExprIndices remap key
      pure (.optionalGet container key containerSlot keySlot)
  | .optionUnwrapOr value valueSlot fallback => do
      let valueSlot ← remap.slot valueSlot
      let value ← remapExprIndices remap value
      let fallback ← remapExprIndices remap fallback
      pure (.optionUnwrapOr value valueSlot fallback)
  | .localCall index args => do
      let index ← remap.slot index
      pure (.localCall index (← remapExprsIndices remap args))
  | .closure frame body => do
      let frame ← remap.frame frame
      pure (.closure frame (← remapExprIndices remap body))
  | .closureCall frame body args => do
      let frame ← remap.frame frame
      let body ← remapExprIndices remap body
      pure (.closureCall frame body (← remapExprsIndices remap args))
  | .binary op lhs rhs => do
      let lhs ← remapExprIndices remap lhs
      pure (.binary op lhs (← remapExprIndices remap rhs))
  | .unary op inner => do pure (.unary op (← remapExprIndices remap inner))
  | .var index => do pure (.var (← remap.slot index))
  | .moveVar index => do pure (.moveVar (← remap.slot index))
  | .moveField root key => do pure (.moveField (← remap.slot root) key)
  | .moveIndex root index => do pure (.moveIndex (← remap.slot root) index)
  | .ifElse condition thenExpr elseExpr => do
      let condition ← remapExprIndices remap condition
      let thenExpr ← remapExprIndices remap thenExpr
      let elseExpr ← remapExprIndices remap elseExpr
      pure (.ifElse condition thenExpr elseExpr)
  | .match valueSlot resultSlot value arms default => do
      let valueSlot ← remap.slot valueSlot
      let resultSlot ← remap.slot resultSlot
      let value ← remapExprIndices remap value
      let arms ← remapArmsIndices remap arms
      let default ← remapExprIndices remap default
      pure (.match valueSlot resultSlot value arms default)
  | .block stmts expr => do
      let stmts ← remapStmtsIndices remap stmts
      pure (.block stmts (← remapExprIndices remap expr))

def remapExprsIndices (remap : Remap) : List Expr → Except String (List Expr)
  | [] => pure []
  | expr :: exprs => do
      let expr ← remapExprIndices remap expr
      pure (expr :: (← remapExprsIndices remap exprs))

def remapArmsIndices (remap : Remap) :
    List (MatchPattern × Expr) → Except String (List (MatchPattern × Expr))
  | [] => pure []
  | (pattern, expr) :: arms => do
      let pattern ← remap.pattern pattern
      let expr ← remapExprIndices remap expr
      pure ((pattern, expr) :: (← remapArmsIndices remap arms))

def remapStmtIndices (remap : Remap) : Stmt → Except String Stmt
  | .noop line => pure (.noop line)
  | .let index expr line => do
      let index ← remap.slot index
      pure (.let index (← remapExprIndices remap expr) line)
  | .assign index expr line => do
      let index ← remap.slot index
      pure (.assign index (← remapExprIndices remap expr) line)
  -- The parameter slots of the closure keep their numbers here.
  | .closureLet frame body line => do
      let captureCopies ← remap.captureCopies frame.captureCopies
      pure (.closureLet { frame with captureCopies } (← remapExprIndices remap body) line)
  | .funcDecl index hasImpl line =>
    if hasImpl then
      match remap.functionMap index with
      | some flat => pure (.funcDecl flat hasImpl line)
      | none => throw "function index remap failed while merging imported modules"
    else pure (.funcDecl index hasImpl line)
  | .expr expr line => do pure (.expr (← remapExprIndices remap expr) line)
  | .ifElse condition thenBranch elseBranch line => do
      let condition ← remapExprIndices remap condition
      let thenBranch ← remapStmtsIndices remap thenBranch
      let elseBranch ← remapStmtsIndices remap elseBranch
      pure (.ifElse condition thenBranch elseBranch line)
  | .for init condition post body line => do
      let init ← remapStmtIndices remap init
      let condition ← remapExprIndices remap condition
      let post ← remapStmtIndices remap post
      let body ← remapStmtsIndices remap body
      pure (.for init condition post body line)
  | .while condition body line => do
      let condition ← remapExprIndices remap condition
      pure (.while condition (← remapStmtsIndices remap body) line)
  | .break line => pure (.break line)
  | .continue line => pure (.continue line)
  | .drop index line => do pure (.drop (← remap.slot index) line)

def remapStmtsIndices (remap : Remap) : List Stmt → Except String (List Stmt)
  | [] => pure []
  | stmt :: stmts => do
      let stmt ← remapStmtIndices remap stmt
      pure (stmt :: (← remapStmtsIndices remap stmts))
end

/-! ## Merging -/

def remapFunctionImpl (remap : Remap) (function : FunctionImpl) : Except String FunctionImpl := do
  let paramSlots ← function.paramSlots.mapM remap.slot
  let captureCopies ← remap.captureCopies function.captureCopies
  let bodyStmts ← remapStmtsIndices remap function.bodyStmts
  let bodyExpr ← remapExprIndices remap function.bodyExpr
  pure ⟨paramSlots, captureCopies, bodyStmts, bodyExpr⟩

/-- Install one implementation under the flat index of its function. -/
def installImpl (remap : Remap) (installed : FunctionImpls) (entry : UInt16 × FunctionImpl) :
    Except String FunctionImpls := do
  let some flat := remap.functionMap entry.1
    | throw "function implementation remap failed while merging imported modules"
  let function ← remapFunctionImpl remap entry.2
  if (installed.get flat).isSome then
    throw "duplicate RSS function implementation while merging imported modules"
  pure (installed ++ [(flat, function)])

structure MergeState where
  table : FlatTable
  stmts : List Stmt
  localBindings : List (String × LocalSlot)
  functionImpls : FunctionImpls
  localBase : Nat

def MergeState.empty : MergeState where
  table := .empty
  stmts := []
  localBindings := []
  functionImpls := []
  localBase := 0

def scopedName (identity : Option String) (name : String) : String :=
  match identity with
  | some identity => identity ++ "::" ++ name
  | none => name

/-- The rewriting of a unit whose functions are registered. -/
def MergeState.remap (state : MergeState) (table : FlatTable) : Remap :=
  ⟨state.localBase, table.functionMap, table.flatIndexBySymbol⟩

def nextLocalBase (localBase unitLocals : Nat) : Except String Nat :=
  if localBase + unitLocals ≥ 2 ^ 64 then
    throw "local count overflow while merging imported modules"
  else if localBase + unitLocals > UInt16.size then
    throw "too many locals across imported modules"
  else pure (localBase + unitLocals)

def mergeUnit (catalog : BuiltinCatalog) (state : MergeState) (unit : ParsedUnit) :
    Except String MergeState := do
  let table ← registerUnitFunctions catalog unit state.table
  let remap := state.remap table
  let stmts ← remapStmtsIndices remap unit.parsed.stmts
  let localBindings ← unit.parsed.localBindings.mapM fun binding => do
    pure (scopedName unit.scopeIdentity binding.1, ← remap.slot binding.2)
  let functionImpls ← unit.parsed.functionImpls.foldlM (installImpl remap) state.functionImpls
  let localBase ← nextLocalBase state.localBase unit.parsed.locals
  pure {
    table, functionImpls, localBase
    stmts := state.stmts ++ stmts
    localBindings := state.localBindings ++ localBindings }

def mergeUnits (catalog : BuiltinCatalog) (units : List ParsedUnit) : Except String FrontendIr := do
  let state ← units.foldlM (mergeUnit catalog) .empty
  pure {
    stmts := state.stmts
    locals := state.localBase
    localBindings := state.localBindings
    functions := state.table.functions
    functionImpls := state.functionImpls }

end Compiler

end RustScript
