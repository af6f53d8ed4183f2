import RustScript.Lib.AssocMap

/-!
# Runtime values

The values a program computes with, and the map type they share.  Strings,
byte strings, arrays and maps are reference counted in the source; sharing is
not observable except through map keys, where two arrays (or two maps) are the
same key only when they are the same heap object.  Keys that are decoded from a
wire artifact are fresh objects, so `mapKeyEq` never identifies two arrays or
two maps.  Floats are kept as their bit patterns.

A `VmMap` is modelled by the list of its entries in iteration order.  The order
carries no meaning: `Value.Same` identifies two values that differ only in the
order in which their maps list their entries.
-/

namespace RustScript

/-- What a callable value was made from. -/
inductive CallableKind where
  | functionItem
  | closure
  | hostFunction
  deriving DecidableEq, Repr

/-- A callable value: its prototype and the identity of its captured environment. -/
structure CallableValue where
  prototypeId : UInt32
  kind : CallableKind
  env : Option Nat
  deriving DecidableEq, Repr

inductive Value where
  | null
  | int (value : Int64)
  | float (bits : UInt64)
  | bool (value : Bool)
  | string (value : String)
  | bytes (value : List UInt8)
  | array (values : List Value)
  | map (entries : List (Value × Value))
  | callable (value : CallableValue)

/-- The static type tags carried by type maps and imports. -/
inductive ValueType where
  | unknown
  | null
  | int
  | float
  | bool
  | string
  | bytes
  | array
  | map
  | callable
  deriving DecidableEq, Repr

/-! ## Map keys -/

/-- Both zeroes are one key; every other float is its bit pattern. -/
def canonicalFloatKeyBits (bits : UInt64) : UInt64 :=
  if bits = 0 ∨ bits = 0x8000000000000000 then 0 else bits

def mapKeyEq : Value → Value → Bool
  | .null, .null => true
  | .int lhs, .int rhs => lhs == rhs
  | .float lhs, .float rhs => canonicalFloatKeyBits lhs == canonicalFloatKeyBits rhs
  | .bool lhs, .bool rhs => lhs == rhs
  | .string lhs, .string rhs => lhs == rhs
  | .bytes lhs, .bytes rhs => lhs == rhs
  | .callable lhs, .callable rhs => lhs == rhs
  -- `Arc::ptr_eq` on two distinct heap objects.
  | .array _, .array _ => false
  | .map _, .map _ => false
  | _, _ => false

theorem mapKeyEq_symm (a b : Value) : mapKeyEq a b = mapKeyEq b a := by
  cases a <;> cases b <;> simp only [mapKeyEq, Bool.beq_comm]

/-- The map's entries, in iteration order. -/
abbrev VmMap := List (Value × Value)

namespace VmMap

/-- `HashMap::insert` of every entry in turn: an equal key keeps its place and takes
the new value. -/
def fromEntries (entries : List (Value × Value)) : VmMap :=
  AssocMap.fromEntries mapKeyEq entries

/-- No two entries have the same key. -/
abbrev KeysDistinct (m : VmMap) : Prop := AssocMap.KeysDistinct mapKeyEq m

end VmMap

/-! ## Well-formed values -/

mutual
/-- Every map in the value has distinct keys, as the source's hash map guarantees. -/
def Value.WellFormed : Value → Prop
  | .array values => Value.AllWellFormed values
  | .map entries => VmMap.KeysDistinct entries ∧ Value.EntriesWellFormed entries
  | _ => True

def Value.AllWellFormed : List Value → Prop
  | [] => True
  | v :: vs => v.WellFormed ∧ Value.AllWellFormed vs

def Value.EntriesWellFormed : List (Value × Value) → Prop
  | [] => True
  | (k, v) :: es => k.WellFormed ∧ v.WellFormed ∧ Value.EntriesWellFormed es
end

theorem Value.allWellFormed_iff {vs : List Value} :
    Value.AllWellFormed vs ↔ ∀ v ∈ vs, v.WellFormed :=
  List.iff_forall_of_cons trivial (fun _ _ => Iff.rfl) _

theorem Value.entriesWellFormed_iff {es : List (Value × Value)} :
    Value.EntriesWellFormed es ↔ ∀ e ∈ es, e.1.WellFormed ∧ e.2.WellFormed :=
  List.iff_forall_of_cons trivial (fun _ _ => and_assoc.symm) _

/-! ## Values up to the order of map entries -/

mutual
/-- Equal up to the order in which maps list their entries. -/
inductive Value.Same : Value → Value → Prop
  | null : Value.Same .null .null
  | int (value : Int64) : Value.Same (.int value) (.int value)
  | float (bits : UInt64) : Value.Same (.float bits) (.float bits)
  | bool (value : Bool) : Value.Same (.bool value) (.bool value)
  | string (value : String) : Value.Same (.string value) (.string value)
  | bytes (value : List UInt8) : Value.Same (.bytes value) (.bytes value)
  | callable (value : CallableValue) : Value.Same (.callable value) (.callable value)
  | array {vs ws : List Value} : Value.AllSame vs ws → Value.Same (.array vs) (.array ws)
  | map {es fs gs : List (Value × Value)} :
      Value.EntriesSame es fs → fs.Perm gs → Value.Same (.map es) (.map gs)

inductive Value.AllSame : List Value → List Value → Prop
  | nil : Value.AllSame [] []
  | cons {v w : Value} {vs ws : List Value} :
      Value.Same v w → Value.AllSame vs ws → Value.AllSame (v :: vs) (w :: ws)

inductive Value.EntriesSame : List (Value × Value) → List (Value × Value) → Prop
  | nil : Value.EntriesSame [] []
  | cons {k l v w : Value} {es fs : List (Value × Value)} :
      Value.Same k l → Value.Same v w → Value.EntriesSame es fs →
      Value.EntriesSame ((k, v) :: es) ((l, w) :: fs)
end

mutual
theorem Value.Same.refl : ∀ v : Value, Value.Same v v
  | .null => .null
  | .int value => .int value
  | .float bits => .float bits
  | .bool value => .bool value
  | .string value => .string value
  | .bytes value => .bytes value
  | .callable value => .callable value
  | .array values => .array (Value.AllSame.refl values)
  | .map entries => .map (Value.EntriesSame.refl entries) (List.Perm.refl entries)

theorem Value.AllSame.refl : ∀ vs : List Value, Value.AllSame vs vs
  | [] => .nil
  | v :: vs => .cons (Value.Same.refl v) (Value.AllSame.refl vs)

theorem Value.EntriesSame.refl : ∀ es : List (Value × Value), Value.EntriesSame es es
  | [] => .nil
  | (k, v) :: es =>
    .cons (Value.Same.refl k) (Value.Same.refl v) (Value.EntriesSame.refl es)
end

end RustScript
