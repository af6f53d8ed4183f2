import RustScript.Lib.Utf8

/-!
# Host API schemas

The names, types and import signatures of a host API, and the validation that
every boundary applies to them: the grammar of resource keys and function names,
and the complexity budget that one traversal of all schemas may spend.
-/

namespace RustScript

open ByteCodec (utf8)

def maxHostResourceKeyLen : Nat := 128
def maxHostFunctionNameLen : Nat := 128
def maxHostSchemaDepth : Nat := 64
def maxHostSchemaNodes : Nat := 16384
def maxHostSchemaProperties : Nat := 4096
def maxHostCatalogParameters : Nat := 4096
def maxHostCatalogFunctions : Nat := 1024
def maxHostParameterNameLen : Nat := 128

/-! ## Resource keys -/

inductive ResourceTypeKeyError where
  | empty
  | tooLong (len : Nat)
  | invalidChar (index : Nat) (ch : Char)
  | invalidDotPlacement (index : Nat)
  deriving DecidableEq, Repr

/-- Lowercase ASCII letters, digits, `_`, `-` and the separator `.`. -/
def isResourceKeyByte (b : UInt8) : Bool :=
  (97 ≤ b && b ≤ 122) || (48 ≤ b && b ≤ 57) || b == 95 || b == 45 || b == 46

/-- Walk the `.`-separated segments; the result is where the last segment starts. -/
def lastSegmentStart : Nat → Nat → List UInt8 → Except ResourceTypeKeyError Nat
  | _, segmentStart, [] => .ok segmentStart
  | index, segmentStart, b :: bs =>
    if b == 46 then
      if index = segmentStart then .error (.invalidDotPlacement index)
      else lastSegmentStart (index + 1) (index + 1) bs
    else lastSegmentStart (index + 1) segmentStart bs

def validateResourceKey (name : String) : Except ResourceTypeKeyError Unit := do
  let bytes := utf8 name
  if bytes.isEmpty then throw .empty
  if bytes.length > maxHostResourceKeyLen then throw (.tooLong bytes.length)
  match bytes.findIdx? fun b => !isResourceKeyByte b with
  -- The bytes before `index` are ASCII, so byte and character positions agree.
  | some index => throw (.invalidChar index (name.toList.getD index '\uFFFD'))
  | none => pure ()
  let segmentStart ← lastSegmentStart 0 0 bytes
  if segmentStart = bytes.length then throw (.invalidDotPlacement segmentStart)

/-- A validated identifier of a host resource type. -/
structure ResourceTypeKey where
  name : String
  valid : validateResourceKey name = .ok ()

def ResourceTypeKey.new (name : String) : Except ResourceTypeKeyError ResourceTypeKey :=
  match h : validateResourceKey name with
  | .ok () => .ok ⟨name, h⟩
  | .error e => .error e

theorem ResourceTypeKey.new_name (key : ResourceTypeKey) :
    ResourceTypeKey.new key.name = .ok key := by
  unfold ResourceTypeKey.new
  split
  · rfl
  · rename_i e h
    rw [valid] at h
    cases h

theorem ResourceTypeKey.name_of_new {name : String} {key : ResourceTypeKey}
    (h : ResourceTypeKey.new name = .ok key) : key.name = name := by
  unfold ResourceTypeKey.new at h
  split at h
  · cases h
    rfl
  · cases h

/-! ## Types and imports -/

/-- How a host function receives a parameter. -/
inductive HostParamPassing where
  | value
  | borrow
  | borrowMut
  | takeOwned
  deriving DecidableEq, Repr

/-- Schema of a host value type; a named struct lists its fields in order. -/
inductive HostTypeSchema where
  | unknown
  | null
  | int
  | float
  | number
  | bool
  | string
  | bytes
  | array (inner : HostTypeSchema)
  | map (inner : HostTypeSchema)
  | optional (inner : HostTypeSchema)
  | callable (params : List HostTypeSchema) (result : HostTypeSchema)
  | resource (key : ResourceTypeKey)
  | named (name : String) (fields : List (String × HostTypeSchema))

structure HostImportParam where
  name : String
  schema : HostTypeSchema
  passing : HostParamPassing

/-- The complete schema identity selected for one host import. -/
structure HostImportSchema where
  name : String
  params : List HostImportParam
  returnType : HostTypeSchema
  fingerprint : UInt64

def HostImportSchema.arity (schema : HostImportSchema) : Nat := schema.params.length

/-! ## Function names -/

inductive FunctionNameError where
  | empty
  | tooLong (len : Nat)
  | invalidChar (index : Nat) (ch : Char)
  | emptySegment (index : Nat)
  deriving DecidableEq, Repr

def isAsciiAlphabetic (b : UInt8) : Bool := (65 ≤ b && b ≤ 90) || (97 ≤ b && b ≤ 122)

def isAsciiAlphanumeric (b : UInt8) : Bool := isAsciiAlphabetic b || (48 ≤ b && b ≤ 57)

/-- `str::split("::")`: the segments between non-overlapping separators. -/
def splitPath : List UInt8 → List (List UInt8)
  | [] => [[]]
  | 58 :: 58 :: rest => [] :: splitPath rest
  | b :: rest =>
    match splitPath rest with
    | [] => [[b]]
    | segment :: segments => (b :: segment) :: segments

/-- Each segment is a non-empty identifier; `cursor` is where the segment starts. -/
def validateSegments : Nat → List (List UInt8) → Except FunctionNameError Unit
  | _, [] => .ok ()
  | cursor, [] :: _ => .error (.emptySegment cursor)
  | cursor, (first :: more) :: segments =>
    if !(isAsciiAlphabetic first || first == 95) then
      .error (.invalidChar cursor (Char.ofUInt8 first))
    else
      match (first :: more).findIdx? fun b => !(isAsciiAlphanumeric b || b == 95) with
      | some offset =>
        .error (.invalidChar (cursor + offset) (Char.ofUInt8 ((first :: more).getD offset 0)))
      | none => validateSegments (cursor + (first :: more).length + 2) segments

def validateFunctionName (name : String) : Except FunctionNameError Unit := do
  let bytes := utf8 name
  if bytes.isEmpty then throw .empty
  if bytes.length > maxHostFunctionNameLen then throw (.tooLong bytes.length)
  match bytes.findIdx? fun b => !(isAsciiAlphanumeric b || b == 95 || b == 58) with
  | some index => throw (.invalidChar index (name.toList.getD index '\uFFFD'))
  | none => pure ()
  validateSegments 0 (splitPath bytes)

/-! ## The complexity budget -/

/-- Resource and recursive-shape limits shared by every schema boundary. -/
inductive HostSchemaValidationError where
  | nestingDepthExceeded (limit : Nat)
  | nodeBudgetExceeded (limit : Nat)
  | propertyBudgetExceeded (limit : Nat)
  | parameterBudgetExceeded (limit : Nat)
  | functionBudgetExceeded (limit : Nat)
  | stringTooLong (field : String) (len : Nat) (limit : Nat)
  | invalidFunctionName (name : String) (reason : FunctionNameError)
  deriving DecidableEq, Repr

/-- What one traversal has charged so far. -/
structure ComplexityBudget where
  nodes : Nat := 0
  properties : Nat := 0
  parameters : Nat := 0
  functions : Nat := 0
  deriving DecidableEq, Repr

def checkedBudgetAdd (current amount limit : Nat) (error : HostSchemaValidationError) :
    Except HostSchemaValidationError Nat :=
  if current + amount > limit then .error error else .ok (current + amount)

namespace ComplexityBudget

def chargeNodes (budget : ComplexityBudget) (amount : Nat) :
    Except HostSchemaValidationError ComplexityBudget := do
  let nodes ← checkedBudgetAdd budget.nodes amount maxHostSchemaNodes
    (.nodeBudgetExceeded maxHostSchemaNodes)
  pure { budget with nodes }

def chargeProperties (budget : ComplexityBudget) (amount : Nat) :
    Except HostSchemaValidationError ComplexityBudget := do
  let properties ← checkedBudgetAdd budget.properties amount maxHostSchemaProperties
    (.propertyBudgetExceeded maxHostSchemaProperties)
  pure { budget with properties }

def chargeParameters (budget : ComplexityBudget) (amount : Nat) :
    Except HostSchemaValidationError ComplexityBudget := do
  let parameters ← checkedBudgetAdd budget.parameters amount maxHostCatalogParameters
    (.parameterBudgetExceeded maxHostCatalogParameters)
  pure { budget with parameters }

def chargeFunctions (budget : ComplexityBudget) (amount : Nat) :
    Except HostSchemaValidationError ComplexityBudget := do
  let functions ← checkedBudgetAdd budget.functions amount maxHostCatalogFunctions
    (.functionBudgetExceeded maxHostCatalogFunctions)
  pure { budget with functions }

end ComplexityBudget

mutual
/-- The number of nodes of a schema. -/
def HostTypeSchema.nodes : HostTypeSchema → Nat
  | .array inner | .map inner | .optional inner => 1 + inner.nodes
  | .callable params result => 1 + HostTypeSchema.listNodes params + result.nodes
  | .named _ fields => 1 + HostTypeSchema.fieldNodes fields
  | _ => 1

def HostTypeSchema.listNodes : List HostTypeSchema → Nat
  | [] => 0
  | schema :: schemas => schema.nodes + HostTypeSchema.listNodes schemas

def HostTypeSchema.fieldNodes : List (String × HostTypeSchema) → Nat
  | [] => 0
  | (_, schema) :: fields => schema.nodes + HostTypeSchema.fieldNodes fields
end

theorem HostTypeSchema.nodes_pos (schema : HostTypeSchema) : 0 < schema.nodes := by
  cases schema <;> simp only [HostTypeSchema.nodes] <;> omega

/-- The nodes a traversal stack still holds. -/
def pendingNodes : List (HostTypeSchema × Nat) → Nat
  | [] => 0
  | (schema, _) :: pending => schema.nodes + pendingNodes pending

/-- Push schemas so that the first one ends up on top of the stack. -/
def pushSchemas (schemas : List HostTypeSchema) (depth : Nat)
    (pending : List (HostTypeSchema × Nat)) : List (HostTypeSchema × Nat) :=
  match schemas with
  | [] => pending
  | schema :: schemas => (schema, depth) :: pushSchemas schemas depth pending

def pushFields (fields : List (String × HostTypeSchema)) (depth : Nat)
    (pending : List (HostTypeSchema × Nat)) : List (HostTypeSchema × Nat) :=
  match fields with
  | [] => pending
  | (_, schema) :: fields => (schema, depth) :: pushFields fields depth pending

theorem pendingNodes_pushSchemas (schemas : List HostTypeSchema) (depth : Nat)
    (pending : List (HostTypeSchema × Nat)) :
    pendingNodes (pushSchemas schemas depth pending) =
      HostTypeSchema.listNodes schemas + pendingNodes pending := by
  induction schemas with
  | nil => simp [pushSchemas, HostTypeSchema.listNodes]
  | cons schema schemas ih =>
    simp only [pushSchemas, pendingNodes, HostTypeSchema.listNodes]
    omega

theorem pendingNodes_pushFields (fields : List (String × HostTypeSchema)) (depth : Nat)
    (pending : List (HostTypeSchema × Nat)) :
    pendingNodes (pushFields fields depth pending) =
      HostTypeSchema.fieldNodes fields + pendingNodes pending := by
  induction fields with
  | nil => simp [pushFields, HostTypeSchema.fieldNodes]
  | cons field fields ih =>
    simp only [pushFields, pendingNodes, HostTypeSchema.fieldNodes]
    omega

/-- The traversal loop: pop a node, check its depth, charge it, push its children.
The head of `pending` is the top of the source's stack. -/
def validatePending (pending : List (HostTypeSchema × Nat)) (budget : ComplexityBudget)
    (containsResource : Bool) : Except HostSchemaValidationError (Bool × ComplexityBudget) :=
  match pending with
  | [] => .ok (containsResource, budget)
  | (current, depth) :: pending => do
      if depth > maxHostSchemaDepth then throw (.nestingDepthExceeded maxHostSchemaDepth)
      let budget ← budget.chargeNodes 1
      match current with
      | .resource _ => validatePending pending budget true
      | .array inner | .map inner | .optional inner =>
        validatePending ((inner, depth + 1) :: pending) budget containsResource
      | .callable params result => do
          let budget ← budget.chargeProperties params.length
          validatePending (pushSchemas params (depth + 1) ((result, depth + 1) :: pending))
            budget containsResource
      | .named _ fields => do
          let budget ← budget.chargeProperties fields.length
          validatePending (pushFields fields (depth + 1) pending) budget containsResource
      | _ => validatePending pending budget containsResource
termination_by pendingNodes pending
decreasing_by
  all_goals simp only [pendingNodes, pendingNodes_pushSchemas, pendingNodes_pushFields,
    HostTypeSchema.nodes]
  all_goals first
    | omega
    | exact Nat.lt_add_of_pos_left (HostTypeSchema.nodes_pos _)

def validateTypeSchemaWithBudget (schema : HostTypeSchema) (budget : ComplexityBudget) :
    Except HostSchemaValidationError (Bool × ComplexityBudget) :=
  validatePending [(schema, 1)] budget false

def boundedStringError (field : String) (len limit : Nat) : Except HostSchemaValidationError Unit :=
  if len > limit then .error (.stringTooLong field len limit) else .ok ()

def validateParameterName (name : String) : Except HostSchemaValidationError Unit :=
  boundedStringError "parameter name" (utf8 name).length maxHostParameterNameLen

def validateImportParams : List HostImportParam → ComplexityBudget →
    Except HostSchemaValidationError ComplexityBudget
  | [], budget => .ok budget
  | param :: params, budget => do
      validateParameterName param.name
      let (_, budget) ← validateTypeSchemaWithBudget param.schema budget
      validateImportParams params budget

def validateImportShape (schema : HostImportSchema) (budget : ComplexityBudget) :
    Except HostSchemaValidationError ComplexityBudget := do
  match validateFunctionName schema.name with
  | .error reason => throw (.invalidFunctionName schema.name reason)
  | .ok () => pure ()
  boundedStringError "function name" (utf8 schema.name).length maxHostFunctionNameLen
  let budget ← budget.chargeParameters schema.params.length
  let budget ← validateImportParams schema.params budget
  let (_, budget) ← validateTypeSchemaWithBudget schema.returnType budget
  pure budget

/-- Validates the bounded structure of one compiled import schema. -/
def HostImportSchema.validate (schema : HostImportSchema) :
    Except HostSchemaValidationError Unit := do
  let _ ← validateImportShape schema {}

def validateHostImportSchemaIter : List HostImportSchema → ComplexityBudget →
    Except HostSchemaValidationError Unit
  | [], _ => .ok ()
  | schema :: schemas, budget => do
      let budget ← budget.chargeFunctions 1
      let budget ← validateImportShape schema budget
      validateHostImportSchemaIter schemas budget

/-- Validates all present import schemas with one aggregate budget. -/
def validateOptionalHostImportSchemas (schemas : List (Option HostImportSchema)) :
    Except HostSchemaValidationError Unit :=
  validateHostImportSchemaIter (schemas.filterMap id) {}

end RustScript
