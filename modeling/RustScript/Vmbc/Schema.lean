import RustScript.Vmbc.Wire

/-!
# Type schemas on the wire

The writer follows a schema to any depth; the reader stops at `maxSchemaDepth`
levels and debits one aggregate item per node.  Object fields are written in name
order and inserted into a map one by one when they are read.

`schemaFormat_lawful` is the codec law at every level; the limits of a schema
(`SchemaLimits`) are exactly what the reader enforces and the writer does not.
-/

namespace RustScript.Vmbc

open ByteCodec Format Budget ResourceTypeKey TypeSchema

mutual
def writeSchema : TypeSchema → Output
  | .unknown => .ok [0]
  | .null => .ok [1]
  | .int => .ok [2]
  | .float => .ok [3]
  | .number => .ok [4]
  | .bool => .ok [5]
  | .string => .ok [6]
  | .bytes => .ok [7]
  | .optional inner => appendBytes (.ok [16]) (writeSchema inner)
  | .genericParam name => appendBytes (.ok [8]) (writeString "schema generic" name)
  | .named name typeArgs =>
    appendBytes (.ok [9]) (appendBytes (writeString "schema name" name)
      (appendBytes (writeU32Count "schema type args" typeArgs.length) (writeSchemas typeArgs)))
  | .array item => appendBytes (.ok [10]) (writeSchema item)
  | .arrayTuple items =>
    appendBytes (.ok [11]) (appendBytes (writeU32Count "schema tuple items" items.length)
      (writeSchemas items))
  | .arrayTupleRest pre rest =>
    appendBytes (.ok [12]) (appendBytes
      (appendBytes (writeU32Count "schema tuple prefix" pre.length) (writeSchemas pre))
      (writeSchema rest))
  | .map item => appendBytes (.ok [13]) (writeSchema item)
  | .object fields =>
    -- The source sorts the entries by name; the fields are stored in that order.
    appendBytes (.ok [14]) (appendBytes (writeU32Count "schema object fields" fields.length)
      (writeSchemaFields fields))
  | .callable params result =>
    appendBytes (.ok [15]) (appendBytes
      (appendBytes (writeU32Count "schema callable params" params.length) (writeSchemas params))
      (writeSchema result))
  | .resource key => appendBytes (.ok [17]) (writeString "schema resource key" key.name)

def writeSchemas : List TypeSchema → Output
  | [] => .ok []
  | schema :: schemas => appendBytes (writeSchema schema) (writeSchemas schemas)

def writeSchemaFields : List (String × TypeSchema) → Output
  | [] => .ok []
  | (name, value) :: fields =>
    appendBytes (appendBytes (writeString "schema object field" name) (writeSchema value))
      (writeSchemaFields fields)
end

def readResourceKey : WireReader ResourceTypeKey := do
  let keyText ← readString
  liftResult (match ResourceTypeKey.new keyText with
    | .ok key => .ok key
    | .error err => .error (.invalidResourceKey err))

/-- What `read_schema` reads after a tag; `nested` reads one level deeper. -/
def readSchemaPayload (nested : WireReader TypeSchema) (tag : UInt8) : WireReader TypeSchema :=
  match tag with
  | 0 => pure .unknown
  | 1 => pure .null
  | 2 => pure .int
  | 3 => pure .float
  | 4 => pure .number
  | 5 => pure .bool
  | 6 => pure .string
  | 7 => pure .bytes
  | 16 => do
      let inner ← nested
      pure (.optional inner)
  | 8 => do
      let name ← readString
      pure (.genericParam name)
  | 9 => do
      let name ← readString
      let count ← readCount "schema type args" 1
      let typeArgs ← replicateM count nested
      pure (.named name typeArgs)
  | 10 => do
      let item ← nested
      pure (.array item)
  | 11 => do
      let count ← readCount "schema tuple items" 1
      let items ← replicateM count nested
      pure (.arrayTuple items)
  | 12 => do
      let count ← readCountWithOverhead "schema tuple prefix" 1 1
      let pre ← replicateM count nested
      let rest ← nested
      pure (.arrayTupleRest pre rest)
  | 13 => do
      let item ← nested
      pure (.map item)
  | 14 => do
      let count ← readCount "schema object fields" 5
      let fields ← replicateM count do
        let name ← readString
        let value ← nested
        pure (name, value)
      pure (.object (SortedAssoc.insertAll fields []))
  | 15 => do
      let count ← readCountWithOverhead "schema callable params" 1 1
      let params ← replicateM count nested
      let result ← nested
      pure (.callable params result)
  | 17 => do
      let key ← readResourceKey
      pure (.resource key)
  | other => throw (.invalidValueType other)

/-- `read_schema`, with the nesting levels that are left. -/
def readSchema : Nat → WireReader TypeSchema
  | 0 => throw (.lengthTooLarge "schema nesting depth" maxSchemaDepth)
  | levels + 1 => do
      debitCount "schema nodes" 1
      let tag ← readU8
      readSchemaPayload (readSchema levels) tag

theorem writeSchemas_eq (schemas : List TypeSchema) :
    writeSchemas schemas = writeAll writeSchema schemas := by
  induction schemas with
  | nil => rfl
  | cons schema schemas ih => simp [writeSchemas, writeAll, ih]

theorem writeSchemaFields_eq (fields : List (String × TypeSchema)) :
    writeSchemaFields fields = writeAll (fun field =>
      appendBytes (writeString "schema object field" field.1) (writeSchema field.2)) fields := by
  induction fields with
  | nil => rfl
  | cons field fields ih => simp [writeSchemaFields, writeAll, ih]

/-! ## What a schema demands of the decoder -/

/-- At most `levels` levels deep, with every text and every count within its ceiling. -/
def SchemaLimits : Nat → TypeSchema → Prop
  | 0, _ => False
  | levels + 1, schema =>
    match schema with
    | .optional inner | .array inner | .map inner => SchemaLimits levels inner
    | .genericParam name => (utf8 name).length ≤ maxWireBlobBytes
    | .named name typeArgs => (utf8 name).length ≤ maxWireBlobBytes ∧
        typeArgs.length ≤ maxWireCount ∧ ∀ arg ∈ typeArgs, SchemaLimits levels arg
    | .arrayTuple items => items.length ≤ maxWireCount ∧ ∀ item ∈ items, SchemaLimits levels item
    | .arrayTupleRest items last | .callable items last =>
      (items.length ≤ maxWireCount ∧ ∀ item ∈ items, SchemaLimits levels item) ∧
        SchemaLimits levels last
    | .object fields => fields.length ≤ maxWireCount ∧ ∀ field ∈ fields,
        (utf8 field.1).length ≤ maxWireBlobBytes ∧ SchemaLimits levels field.2
    | .resource key => (utf8 key.name).length ≤ maxWireBlobBytes
    | _ => True

mutual
/-- The cost of the parts of a schema: one aggregate item for every node and every
listed part. -/
def schemaPayloadCost : TypeSchema → Budget
  | .optional inner | .array inner | .map inner => .ofItems 1 + schemaPayloadCost inner
  | .named _ items | .arrayTuple items => .ofItems items.length + schemasCost items
  | .arrayTupleRest items last | .callable items last =>
    Budget.ofItems items.length + schemasCost items + (.ofItems 1 + schemaPayloadCost last)
  | .object fields => .ofItems fields.length + schemaFieldsCost fields
  | _ => 0

def schemasCost : List TypeSchema → Budget
  | [] => 0
  | schema :: schemas => .ofItems 1 + schemaPayloadCost schema + schemasCost schemas

def schemaFieldsCost : List (String × TypeSchema) → Budget
  | [] => 0
  | (_, schema) :: fields =>
    Budget.ofItems 1 + schemaPayloadCost schema + schemaFieldsCost fields
end

/-- The cost of a schema: its own node and its parts. -/
def schemaCost (schema : TypeSchema) : Budget := Budget.ofItems 1 + schemaPayloadCost schema

mutual
/-- The number of bytes a schema takes. -/
def schemaSize : TypeSchema → Nat
  | .optional inner | .array inner | .map inner => 1 + schemaSize inner
  | .genericParam name => 1 + (4 + (utf8 name).length)
  | .named name items => 1 + (4 + (utf8 name).length + (4 + schemasSize items))
  | .arrayTuple items => 1 + (4 + schemasSize items)
  | .arrayTupleRest items last | .callable items last =>
    1 + (4 + schemasSize items + schemaSize last)
  | .object fields => 1 + (4 + schemaFieldsSize fields)
  | .resource key => 1 + (4 + (utf8 key.name).length)
  | _ => 1

def schemasSize : List TypeSchema → Nat
  | [] => 0
  | schema :: schemas => schemaSize schema + schemasSize schemas

def schemaFieldsSize : List (String × TypeSchema) → Nat
  | [] => 0
  | (name, schema) :: fields =>
    4 + (utf8 name).length + schemaSize schema + schemaFieldsSize fields
end

variable {levels : Nat} {schemas : List TypeSchema}

theorem schemasCost_eq : schemasCost schemas = (schemas.map schemaCost).sum :=
  List.eq_sum_of_cons rfl (fun _ _ => rfl) _

theorem schemaFieldsCost_eq (fields : List (String × TypeSchema)) :
    schemaFieldsCost fields = (fields.map fun field => schemaCost field.2).sum :=
  List.eq_sum_of_cons rfl (fun _ _ => rfl) _

theorem schemasSize_eq : schemasSize schemas = (schemas.map schemaSize).sum :=
  List.eq_sum_of_cons rfl (fun _ _ => rfl) _

theorem schemaFieldsSize_eq {fields : List (String × TypeSchema)} : schemaFieldsSize fields =
      (fields.map fun field => 4 + (utf8 field.1).length + schemaSize field.2).sum :=
  List.eq_sum_of_cons rfl (fun _ _ => rfl) _

theorem schemaSize_pos (schema : TypeSchema) : 1 ≤ schemaSize schema := by
  cases schema <;> simp only [schemaSize] <;> omega

mutual
theorem writeSchema_hasLength : ∀ schema : TypeSchema,
    HasLength (writeSchema schema) (schemaSize schema)
  | .unknown | .null | .int | .float | .number | .bool | .string | .bytes => .ok [_]
  | .optional inner | .array inner | .map inner =>
    (HasLength.ok [_]).append (writeSchema_hasLength inner)
  | .genericParam name => (HasLength.ok [_]).append (writeString_hasLength _ name)
  | .named name typeArgs =>
    (HasLength.ok [_]).append ((writeString_hasLength _ name).append
      ((writeU32Count_hasLength _ _).append (writeSchemas_hasLength typeArgs)))
  | .arrayTuple items =>
    (HasLength.ok [_]).append ((writeU32Count_hasLength _ _).append (writeSchemas_hasLength items))
  | .arrayTupleRest items last | .callable items last =>
    (HasLength.ok [_]).append (((writeU32Count_hasLength _ _).append
      (writeSchemas_hasLength items)).append (writeSchema_hasLength last))
  | .object fields =>
    (HasLength.ok [_]).append
      ((writeU32Count_hasLength _ _).append (writeSchemaFields_hasLength fields))
  | .resource key => (HasLength.ok [_]).append (writeString_hasLength _ key.name)

theorem writeSchemas_hasLength : ∀ schemas : List TypeSchema,
    HasLength (writeSchemas schemas) (schemasSize schemas)
  | [] => .ok []
  | schema :: schemas => (writeSchema_hasLength schema).append (writeSchemas_hasLength schemas)

theorem writeSchemaFields_hasLength : ∀ fields : List (String × TypeSchema),
    HasLength (writeSchemaFields fields) (schemaFieldsSize fields)
  | [] => .ok []
  | (name, schema) :: fields =>
    ((writeString_hasLength _ name).append (writeSchema_hasLength schema)).append
      (writeSchemaFields_hasLength fields)
end

/-! ## The codec law -/

def schemaFormat (levels : Nat) : WireFormat TypeSchema where
  write := writeSchema
  read := readSchema levels
  valid := TypeSchema.WellFormed
  limits := SchemaLimits levels
  cost := schemaCost
  size := schemaSize
  tail _ := 0

/-- A schema whose node has been debited: the tag and the payload. -/
def schemaNodeFormat (levels : Nat) : WireFormat TypeSchema where
  write := writeSchema
  read := readU8 >>= readSchemaPayload (readSchema levels)
  valid := TypeSchema.WellFormed
  limits := SchemaLimits (levels + 1)
  cost := schemaPayloadCost
  size := schemaSize
  tail _ := 0

/-- A list of schemas; `fixed` bytes follow it. -/
def schemasFormat (field : String) (levels fixed : Nat) : WireFormat (List TypeSchema) :=
  .counted (countFormat field field 1 fixed) (schemaFormat levels) fixed

/-- A list of schemas and one more schema. -/
def schemasThenFormat (field : String) (levels : Nat) : WireFormat (List TypeSchema × TypeSchema) :=
  .field (schemasFormat field levels 1) Prod.fst fun items =>
    .last (schemaFormat levels) Prod.snd fun last => (items, last)

def namedFormat (levels : Nat) : WireFormat (String × List TypeSchema) :=
  .field (stringFormat "schema name" "string") Prod.fst fun name =>
    .last (schemasFormat "schema type args" levels 0) Prod.snd fun typeArgs => (name, typeArgs)

def schemaFieldFormat (levels : Nat) : WireFormat (String × TypeSchema) :=
  .field (stringFormat "schema object field" "string") Prod.fst fun name =>
    .last (schemaFormat levels) Prod.snd fun value => (name, value)

/-- The fields of an object type. -/
def schemaFieldsFormat (levels : Nat) : WireFormat (List (String × TypeSchema)) :=
  .collected (.counted (countFormat "schema object fields" "schema object fields" 5 0)
    (schemaFieldFormat levels) 0)

def resourceKeyFormat : WireFormat ResourceTypeKey :=
  .parsed (stringFormat "schema resource key" "string") ResourceTypeKey.name fun text =>
    match ResourceTypeKey.new text with
    | .ok key => .ok key
    | .error err => .error (.invalidResourceKey err)

section Parts

variable (ih : (schemaFormat levels).Lawful)
include ih

theorem schemasFormat_lawful {field : String} {fixed : Nat} :
    (schemasFormat field levels fixed).Lawful :=
  counted_lawful _ _ ih schemaSize_pos (Nat.le_refl _) fun _ => Nat.zero_le _

theorem schemasThenFormat_lawful {field : String} : (schemasThenFormat field levels).Lawful :=
  field_lawful (schemasFormat_lawful ih) (fun _ => last_lawful ih fun _ => rfl)
    fun _ x hx => ⟨hx.2 ▸ rfl, schemaSize_pos x.2⟩

theorem namedFormat_lawful : (namedFormat levels).Lawful :=
  field_lawful stringFormat_lawful (fun _ => last_lawful (schemasFormat_lawful ih) fun _ => rfl)
    fun _ _ hx => ⟨hx.2 ▸ rfl, Nat.zero_le _⟩

theorem schemaFieldFormat_lawful : (schemaFieldFormat levels).Lawful :=
  field_lawful stringFormat_lawful (fun _ => last_lawful ih fun _ => rfl)
    fun _ _ hx => ⟨hx.2 ▸ rfl, Nat.zero_le _⟩

theorem schemaFieldsFormat_lawful : (schemaFieldsFormat levels).Lawful := by
  refine collected_lawful (counted_lawful _ _ (schemaFieldFormat_lawful ih)
    (fun field => ?_) (Nat.le_refl _) fun _ => Nat.le_refl _)
    (counted_collectable countFormat_antitone)
  have size : (schemaFieldFormat levels).size field =
      4 + (utf8 field.1).length + schemaSize field.2 := rfl
  have := schemaSize_pos field.2
  omega

end Parts

theorem resourceKeyFormat_lawful : resourceKeyFormat.Lawful := by
  refine parsed_lawful stringFormat_lawful (fun key => ?_) fun text key h => ?_
  · rw [new_name]
  · cases hnew : new text with
    | error err => rw [hnew] at h; cases h
    | ok key' =>
      rw [hnew] at h
      cases h
      exact name_of_new hnew

section Alternatives

/-- The tag alternatives of a schema node. -/
abbrev SchemaAlternative {α : Type} (levels : Nat) (tag : UInt8) (G : WireFormat α)
    (f : α → TypeSchema) : Prop :=
  Alternative (schemaNodeFormat levels) (readSchemaPayload (readSchema levels)) tag G f

/-- The schemas without parts, by tag. -/
def scalarSchemas : List (UInt8 × TypeSchema) :=
  [(0, .unknown), (1, .null), (2, .int), (3, .float), (4, .number), (5, .bool), (6, .string),
    (7, .bytes)]

theorem scalar_alternative (i : Fin 8) :
    SchemaAlternative levels (scalarSchemas.get i).1 .unit fun _ => (scalarSchemas.get i).2 := by
  match i with
  | 0 | 1 | 2 | 3 | 4 | 5 | 6 | 7 => exact .of_eq unit_lawful rfl fun _ => ⟨rfl, Nat.le_refl _⟩

theorem optional_alternative (ih : (schemaFormat levels).Lawful) :
    SchemaAlternative levels 16 (schemaFormat levels) .optional :=
  .of_eq ih rfl fun _ => ⟨rfl, Nat.le_refl _⟩

theorem schemaArray_alternative (ih : (schemaFormat levels).Lawful) :
    SchemaAlternative levels 10 (schemaFormat levels) .array :=
  .of_eq ih rfl fun _ => ⟨rfl, Nat.le_refl _⟩

theorem schemaMap_alternative (ih : (schemaFormat levels).Lawful) :
    SchemaAlternative levels 13 (schemaFormat levels) .map :=
  .of_eq ih rfl fun _ => ⟨rfl, Nat.le_refl _⟩

theorem genericParam_alternative : SchemaAlternative levels 8
    (stringFormat "schema generic" "string") .genericParam :=
  .of_eq stringFormat_lawful rfl fun _ => ⟨rfl, Nat.le_refl _⟩

theorem resource_alternative : SchemaAlternative levels 17 resourceKeyFormat .resource :=
  .of_eq resourceKeyFormat_lawful rfl fun _ => ⟨rfl, Nat.le_refl _⟩

theorem schemas_valid {items : List TypeSchema} {field : String} {fixed : Nat} :
    (schemasFormat field levels fixed).valid items ↔ AllWellFormed items := by
  rw [allWellFormed_iff]
  exact ⟨fun h => h.2, fun h => ⟨trivial, h⟩⟩

section

variable (ih : (schemaFormat levels).Lawful)

include ih

theorem arrayTuple_alternative :
    SchemaAlternative levels 11 (schemasFormat "schema tuple items" levels 0) .arrayTuple where
  law := schemasFormat_lawful ih
  limits _ := Iff.rfl
  tail _ := Nat.le_refl _
  read := (bind_assoc _ _ _).symm
  write items := by
    change appendBytes (.ok [11]) (appendBytes _ (writeSchemas items)) = _
    rw [writeSchemas_eq]
    rfl
  valid items := schemas_valid.symm
  cost items := congrArg (.ofItems items.length + ·) schemasCost_eq
  size items := congrArg (fun n => 1 + (4 + n)) schemasSize_eq

theorem named_alternative :
    SchemaAlternative levels 9 (namedFormat levels) fun x => .named x.1 x.2 where
  law := namedFormat_lawful ih
  limits _ := Iff.rfl
  tail _ := Nat.le_refl _
  read := by
    simp only [namedFormat, schemasFormat, field, last, counted, bind_assoc]
    rfl
  write x := by
    change appendBytes (.ok [9]) (appendBytes _ (appendBytes _ (writeSchemas x.2))) = _
    rw [writeSchemas_eq]
    rfl
  valid x := by
    change AllWellFormed x.2 ↔ True ∧ (schemasFormat _ levels 0).valid x.2 ∧ _
    rw [schemas_valid, true_and, and_iff_left rfl]
  cost x := by
    change ofItems x.2.length + schemasCost x.2 = 0 + (ofItems x.2.length + _)
    rw [schemasCost_eq, zero_add]
    rfl
  size x := by
    change 1 + (4 + (utf8 x.1).length + (4 + schemasSize x.2)) = _
    rw [schemasSize_eq]
    rfl

theorem schemasThen_alternative {field : String} {tag : UInt8}
    {f : List TypeSchema → TypeSchema → TypeSchema}
    (hread : readSchemaPayload (readSchema levels) tag =
      readCountWithOverhead field 1 1 >>= fun count =>
        replicateM count (readSchema levels) >>= fun items =>
          readSchema levels >>= fun last => pure (f items last))
    (hwrite : ∀ items last, writeSchema (f items last) =
      appendBytes (.ok [tag]) (appendBytes (appendBytes (writeU32Count field items.length)
        (writeSchemas items)) (writeSchema last)))
    (hvalid : ∀ items last, (f items last).WellFormed ↔ AllWellFormed items ∧ last.WellFormed)
    (hlimits : ∀ items last, SchemaLimits (levels + 1) (f items last) ↔
      (items.length ≤ maxWireCount ∧ ∀ item ∈ items, SchemaLimits levels item) ∧
        SchemaLimits levels last)
    (hcost : ∀ items last, schemaPayloadCost (f items last) =
      ofItems items.length + schemasCost items + schemaCost last)
    (hsize : ∀ items last, schemaSize (f items last) =
      1 + (4 + schemasSize items + schemaSize last)) :
    SchemaAlternative levels tag (schemasThenFormat field levels) fun x => f x.1 x.2 where
  law := schemasThenFormat_lawful ih
  tail _ := Nat.le_refl _
  read := by
    simp only [schemasThenFormat, schemasFormat, Format.field, Format.last, Format.counted,
      bind_assoc]
    exact hread
  write x := by
    change writeSchema (f x.1 x.2) = _
    rw [hwrite, writeSchemas_eq]
    rfl
  valid x := by
    change (f x.1 x.2).WellFormed ↔ (schemasFormat field levels 1).valid x.1 ∧ x.2.WellFormed ∧ _
    rw [hvalid, schemas_valid, and_iff_left (a := x.2.WellFormed) rfl]
  limits x := hlimits x.1 x.2
  cost x := by
    change schemaPayloadCost (f x.1 x.2) = _
    rw [hcost, schemasCost_eq]
    rfl
  size x := by
    change schemaSize (f x.1 x.2) = _
    rw [hsize, schemasSize_eq]
    rfl

theorem arrayTupleRest_alternative :
    SchemaAlternative levels 12 (schemasThenFormat "schema tuple prefix" levels)
      fun x => .arrayTupleRest x.1 x.2 :=
  schemasThen_alternative ih rfl (fun _ _ => rfl) (fun _ _ => Iff.rfl) (fun _ _ => Iff.rfl)
    (fun _ _ => rfl) fun _ _ => rfl

theorem callable_alternative :
    SchemaAlternative levels 15 (schemasThenFormat "schema callable params" levels)
      fun x => .callable x.1 x.2 :=
  schemasThen_alternative ih rfl (fun _ _ => rfl) (fun _ _ => Iff.rfl) (fun _ _ => Iff.rfl)
    (fun _ _ => rfl) fun _ _ => rfl

end

theorem schemaFieldFormat_cost :
    (schemaFieldFormat levels).cost = fun field => schemaCost field.2 := by
  funext field
  exact zero_add _

theorem object_alternative (ih : (schemaFormat levels).Lawful) :
    SchemaAlternative levels 14 (schemaFieldsFormat levels) .object where
  law := schemaFieldsFormat_lawful ih
  limits _ := Iff.rfl
  tail _ := Nat.le_refl _
  read := by
    simp only [schemaFieldsFormat, collected, counted, bind_assoc]
    rfl
  write fields := by
    change appendBytes (.ok [14]) (appendBytes _ (writeSchemaFields fields)) = _
    rw [writeSchemaFields_eq]
    rfl
  valid fields := by
    change (_ ∧ FieldsWellFormed fields) ↔ _
    rw [fieldsWellFormed_iff]
    exact ⟨fun h => ⟨h.1, trivial, fun field hf => ⟨trivial, h.2 field hf, rfl⟩⟩,
      fun h => ⟨h.1, fun field hf => (h.2.2 field hf).2.1⟩⟩
  cost fields := by
    change ofItems fields.length + schemaFieldsCost fields =
      ofItems fields.length + (fields.map (schemaFieldFormat levels).cost).sum
    rw [schemaFieldsCost_eq, schemaFieldFormat_cost]
  size fields := congrArg (fun n => 1 + (4 + n)) schemaFieldsSize_eq

end Alternatives

/-! ### All alternatives -/

theorem schemaNode_decodes (ih : (schemaFormat levels).Lawful)
    {schema : TypeSchema} {bs : List UInt8} (hv : schema.WellFormed)
    (hw : writeSchema schema = .ok bs) :
    Decodes (readU8 >>= readSchemaPayload (readSchema levels)) bs schema
      (SchemaLimits (levels + 1) schema) (schemaPayloadCost schema) 0 := by
  cases schema with
  | unknown => exact ((scalar_alternative 0).decodes (x := ()) _ hv hw).1
  | null => exact ((scalar_alternative 1).decodes (x := ()) _ hv hw).1
  | int => exact ((scalar_alternative 2).decodes (x := ()) _ hv hw).1
  | float => exact ((scalar_alternative 3).decodes (x := ()) _ hv hw).1
  | number => exact ((scalar_alternative 4).decodes (x := ()) _ hv hw).1
  | bool => exact ((scalar_alternative 5).decodes (x := ()) _ hv hw).1
  | string => exact ((scalar_alternative 6).decodes (x := ()) _ hv hw).1
  | bytes => exact ((scalar_alternative 7).decodes (x := ()) _ hv hw).1
  | optional inner => exact ((optional_alternative ih).decodes _ hv hw).1
  | genericParam name => exact (genericParam_alternative.decodes _ hv hw).1
  | named name typeArgs => exact ((named_alternative ih).decodes (x := (name, typeArgs)) _ hv hw).1
  | array item => exact ((schemaArray_alternative ih).decodes _ hv hw).1
  | arrayTuple items => exact ((arrayTuple_alternative ih).decodes _ hv hw).1
  | arrayTupleRest pre rest =>
    exact ((arrayTupleRest_alternative ih).decodes (x := (pre, rest)) _ hv hw).1
  | map item => exact ((schemaMap_alternative ih).decodes _ hv hw).1
  | object fields => exact ((object_alternative ih).decodes _ hv hw).1
  | callable params result =>
    exact ((callable_alternative ih).decodes (x := (params, result)) _ hv hw).1
  | resource key => exact (resource_alternative.decodes _ hv hw).1

theorem schemaNode_accepts (ih : (schemaFormat levels).Lawful) :
    Accepts (readU8 >>= readSchemaPayload (readSchema levels))
      (Covers (fun s => s.WellFormed ∧ SchemaLimits (levels + 1) s ∧
        ∃ bs, writeSchema s = .ok bs) schemaPayloadCost schemaSize) := by
  refine .bind (.readByte _) ?_
  rintro tag k n ⟨rfl, rfl⟩
  unfold readSchemaPayload
  split
  · exact (scalar_alternative 0).accepts
  · exact (scalar_alternative 1).accepts
  · exact (scalar_alternative 2).accepts
  · exact (scalar_alternative 3).accepts
  · exact (scalar_alternative 4).accepts
  · exact (scalar_alternative 5).accepts
  · exact (scalar_alternative 6).accepts
  · exact (scalar_alternative 7).accepts
  · exact (optional_alternative ih).accepts
  · exact genericParam_alternative.accepts
  · exact (named_alternative ih).accepts
  · exact (schemaArray_alternative ih).accepts
  · exact (arrayTuple_alternative ih).accepts
  · exact (arrayTupleRest_alternative ih).accepts
  · exact (schemaMap_alternative ih).accepts
  · exact (object_alternative ih).accepts
  · exact (callable_alternative ih).accepts
  · exact resource_alternative.accepts
  · exact .throw

/-- **Schemas round-trip within the reader's limits, and what is accepted can be written
again.** -/
theorem schemaFormat_lawful : (schemaFormat levels).Lawful := by
  induction levels with
  | zero =>
    exact ⟨fun _ _ => ⟨fun h => h.elim, fun _ _ _ _ h => (Reader.throw_ok.mp h).elim⟩,
      fun _ hw => writeSchema_hasLength _ _ hw, Accepts.throw⟩
  | succ levels ih =>
    refine ⟨fun hv hw => ?_, fun _ hw => writeSchema_hasLength _ _ hw, ?_⟩
    · have node := schemaNode_decodes ih hv hw
      refine (Decodes.bind (debitCount_decodes _ 1) node (Nat.zero_le _)).congr ?_
      exact and_iff_right (by decide)
    · refine .bind (debitCount_accepts _ 1) ?_
      rintro _ k n ⟨_, rfl, rfl⟩
      refine (schemaNode_accepts ih).mono ?_
      rintro s k n ⟨hs, ⟨slack, rfl⟩, hsize⟩
      exact ⟨hs, ⟨slack, (add_assoc _ _ _).symm⟩, by simpa [schemaFormat] using hsize⟩

end RustScript.Vmbc
