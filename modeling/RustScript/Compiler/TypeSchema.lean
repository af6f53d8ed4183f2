import RustScript.HostApi.Schema
import RustScript.Lib.SortedAssoc

/-!
# Type schemas

The compiler's structural types.  An object type is a finite map from field
names to schemas; it is represented by its entries in increasing name order, so
that two object types with the same fields are equal.
-/

namespace RustScript

inductive TypeSchema where
  | unknown
  | null
  | int
  | float
  | number
  | bool
  | string
  | bytes
  | optional (inner : TypeSchema)
  | genericParam (name : String)
  | named (name : String) (typeArgs : List TypeSchema)
  | array (item : TypeSchema)
  | arrayTuple (items : List TypeSchema)
  | arrayTupleRest (pre : List TypeSchema) (rest : TypeSchema)
  | map (item : TypeSchema)
  | object (fields : List (String × TypeSchema))
  | callable (params : List TypeSchema) (result : TypeSchema)
  | resource (key : ResourceTypeKey)

mutual
/-- The fields of every object type come in increasing name order. -/
def TypeSchema.WellFormed : TypeSchema → Prop
  | .optional inner | .array inner | .map inner => inner.WellFormed
  | .named _ items | .arrayTuple items => TypeSchema.AllWellFormed items
  | .arrayTupleRest items last | .callable items last =>
    TypeSchema.AllWellFormed items ∧ last.WellFormed
  | .object fields => SortedAssoc.SortedKeys fields ∧ TypeSchema.FieldsWellFormed fields
  | _ => True

def TypeSchema.AllWellFormed : List TypeSchema → Prop
  | [] => True
  | schema :: schemas => schema.WellFormed ∧ TypeSchema.AllWellFormed schemas

def TypeSchema.FieldsWellFormed : List (String × TypeSchema) → Prop
  | [] => True
  | (_, schema) :: fields => schema.WellFormed ∧ TypeSchema.FieldsWellFormed fields
end

theorem TypeSchema.allWellFormed_iff {schemas : List TypeSchema} :
    TypeSchema.AllWellFormed schemas ↔ ∀ s ∈ schemas, s.WellFormed :=
  List.iff_forall_of_cons trivial (fun _ _ => Iff.rfl) _

theorem TypeSchema.fieldsWellFormed_iff {fields : List (String × TypeSchema)} :
    TypeSchema.FieldsWellFormed fields ↔ ∀ f ∈ fields, f.2.WellFormed :=
  List.iff_forall_of_cons trivial (fun _ _ => Iff.rfl) _

/-- A guest struct declaration; it is always stored under its own name. -/
structure StructDecl where
  typeParams : List String
  bodySchema : TypeSchema

end RustScript
