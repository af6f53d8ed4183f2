import RustScript.Compiler.Linker

/-!
# Type states of local slots

Type inference keeps, for each local slot, a bound type, a schema, an optional
flag and the function or closure the slot is known to hold.  Where two branches
meet, their states are merged.

A slot holds a value, or nothing: the null of an optional that is missing.  A state allows
the latter when the slot is optional, and a value when the bound type, the schema and the known
callable all fit it.  An unknown type fits every value, and a container type without an element
type fits the empty container.  What a schema and a known callable mean is left open.

The merge goes over the typed slots of the branches.  It allows whatever one of the branches
allows in a slot, unless the slot is optional and typed in neither (`allowed_mergeFromBranches`).
-/

namespace RustScript

open TypeSchema

theorem TypeSchema.eq_of_beq_mutual : (∀ a b : TypeSchema, a.beq b = true → a = b) ∧
      (∀ as bs, beqFields as bs = true → as = bs) ∧
      ∀ as bs, beqAll as bs = true → as = bs := by
  apply beq.mutual_induct <;> intros <;> simp_all [beq, beqAll, beqFields]
  rename_i a b h
  cases a
  cases b
  cases h
  rfl

theorem TypeSchema.eq_some_of_beq {a b : Option TypeSchema} {schema : TypeSchema}
    (same : (a == b) = true) (h : a = some schema) : b = some schema := by
  subst h
  cases b with
  | none => cases same
  | some b => rw [eq_of_beq_mutual.1 _ _ same]

namespace Compiler

/-! ## Bound types -/

inductive SimpleType where
  | null
  | int
  | float
  | bool
  | string
  | bytes
  deriving DecidableEq, Repr

inductive BoundType where
  | unknown
  | null
  | int
  | float
  | number
  | bool
  | string
  | bytes
  | array
  | arrayOf (element : Option SimpleType)
  | map
  | mapOf (element : Option SimpleType)
  | callable
  deriving DecidableEq, Repr

/-- The merge of two containers with element types; a container that nothing was
stored in takes the element type of the other. -/
def mergeElementTypes (container : BoundType) (containerOf : Option SimpleType → BoundType) :
    Option SimpleType → Option SimpleType → BoundType
  | some lhs, some rhs => if lhs = rhs then containerOf (some lhs) else container
  | none, some element | some element, none => containerOf (some element)
  | none, none => containerOf none

def mergeContainerElementTypes := mergeElementTypes .array .arrayOf

def mergeMapElementTypes := mergeElementTypes .map .mapOf

def mergeBoundTypes (lhs rhs : BoundType) : BoundType :=
  if lhs = rhs then lhs
  else
    match lhs, rhs with
    | .number, .int | .int, .number | .number, .float | .float, .number => .number
    | .arrayOf lhs, .arrayOf rhs => mergeContainerElementTypes lhs rhs
    | .array, .arrayOf _ | .arrayOf _, .array => .array
    | .mapOf lhs, .mapOf rhs => mergeMapElementTypes lhs rhs
    | .map, .mapOf _ | .mapOf _, .map => .map
    | _, _ => .unknown

/-! ## Type states -/

inductive InferredCallable where
  | function (index : UInt16)
  | closure (frame : ClosureFrame) (body : Expr)

/-- The tables of the slots.  A slot that is known to hold a callable is typed as one. -/
structure LocalTypeState where
  bySlot : LocalSlot → Option BoundType
  schemas : LocalSlot → Option TypeSchema
  declaredSchemaSlots : LocalSlot → Bool
  optionalSlots : LocalSlot → Bool
  callables : LocalSlot → Option InferredCallable
  typed : ∀ slot, callables slot ≠ none → bySlot slot = some .callable

namespace LocalTypeState

def get (state : LocalTypeState) (slot : LocalSlot) : BoundType :=
  (state.bySlot slot).getD .unknown

def empty : LocalTypeState where
  bySlot _ := none
  schemas _ := none
  declaredSchemaSlots _ := false
  optionalSlots _ := false
  callables _ := none
  typed _ := absurd rfl

def setWithOptionalSchemaOrigin (state : LocalTypeState) (slot : LocalSlot) (ty : BoundType)
    (schema : Option TypeSchema) (fromDeclaredSchema optional : Bool) : LocalTypeState where
  bySlot := Function.update state.bySlot slot (if ty = .unknown then none else some ty)
  schemas := Function.update state.schemas slot schema
  declaredSchemaSlots := Function.update state.declaredSchemaSlots slot fromDeclaredSchema
  optionalSlots := Function.update state.optionalSlots slot optional
  callables := Function.update state.callables slot none
  typed := by
    intro other known
    by_cases here : other = slot
    · simp [here] at known
    · simpa [here] using state.typed other (by simpa [here] using known)

/-- Whether the merge visits the slot: it goes over the typed slots of both branches. -/
def visited (lhs rhs : LocalTypeState) (slot : LocalSlot) : Bool :=
  (lhs.bySlot slot).isSome || (rhs.bySlot slot).isSome

/-- The callable that both branches know: the same function, never a closure. -/
def mergedCallable : Option InferredCallable → Option InferredCallable → Option InferredCallable
  | some (.function lhs), some (.function rhs) =>
    if lhs = rhs then some (.function lhs) else none
  | _, _ => none

theorem mergedCallable_eq_some {lhs rhs : Option InferredCallable} {callable : InferredCallable}
    (h : mergedCallable lhs rhs = some callable) : lhs = some callable ∧ rhs = some callable := by
  unfold mergedCallable at h
  grind

def mergeFromBranches (lhs rhs : LocalTypeState) : LocalTypeState where
  bySlot slot :=
    if visited lhs rhs slot && mergeBoundTypes (lhs.get slot) (rhs.get slot) != .unknown then
      some (mergeBoundTypes (lhs.get slot) (rhs.get slot))
    else none
  schemas slot :=
    if visited lhs rhs slot && lhs.schemas slot == rhs.schemas slot then lhs.schemas slot
    else none
  declaredSchemaSlots slot :=
    visited lhs rhs slot && (lhs.declaredSchemaSlots slot && rhs.declaredSchemaSlots slot)
  optionalSlots slot :=
    visited lhs rhs slot && (lhs.optionalSlots slot || rhs.optionalSlots slot)
  callables slot := mergedCallable (lhs.callables slot) (rhs.callables slot)
  typed := by
    intro slot known
    obtain ⟨callable, h⟩ := Option.ne_none_iff_exists'.mp known
    obtain ⟨hl, hr⟩ := mergedCallable_eq_some h
    have typed_l := lhs.typed slot (by simp [hl])
    have typed_r := rhs.typed slot (by simp [hr])
    simp [visited, get, typed_l, typed_r, mergeBoundTypes]

end LocalTypeState

/-! ## What a type state allows -/

def SimpleType.valueType : SimpleType → ValueType
  | .null => .null
  | .int => .int
  | .float => .float
  | .bool => .bool
  | .string => .string
  | .bytes => .bytes

def BoundType.valueType : BoundType → ValueType
  | .unknown | .number => .unknown
  | .null => .null
  | .int => .int
  | .float => .float
  | .bool => .bool
  | .string => .string
  | .bytes => .bytes
  | .array | .arrayOf _ => .array
  | .map | .mapOf _ => .map
  | .callable => .callable

/-- What is stored in a container. -/
def elements : Vm.Value → List Vm.Value
  | .array _ values => values
  | .map _ entries => entries.map Prod.snd
  | _ => []

def BoundType.Admits (ty : BoundType) (value : Vm.Value) : Prop :=
  match ty with
  | .unknown => True
  | .number => value.valueType = .int ∨ value.valueType = .float
  | .arrayOf element | .mapOf element =>
    value.valueType = ty.valueType ∧
      ∀ stored ∈ elements value, some stored.valueType = element.map SimpleType.valueType
  | _ => value.valueType = ty.valueType

theorem admits_mergeBoundTypes {lhs rhs : BoundType} {value : Vm.Value}
    (h : lhs.Admits value ∨ rhs.Admits value) : (mergeBoundTypes lhs rhs).Admits value := by
  unfold mergeBoundTypes
  split
  · simp_all
  split <;> try trivial
  case h_5 | h_8 =>
    simp only [mergeContainerElementTypes, mergeMapElementTypes]
    unfold mergeElementTypes
    grind [BoundType.Admits, BoundType.valueType]
  all_goals grind [BoundType.Admits, BoundType.valueType]

/-- The meaning of the schemas and of the known callables. -/
structure Meaning where
  conforms : TypeSchema → Vm.Value → Prop
  denotes : InferredCallable → Vm.Value → Prop

namespace LocalTypeState

/-- The type, schema and callable facts of a slot hold of a value. -/
structure Facts (meaning : Meaning) (state : LocalTypeState) (slot : LocalSlot)
    (value : Vm.Value) : Prop where
  type : (state.get slot).Admits value
  schema : ∀ schema ∈ state.schemas slot, meaning.conforms schema value
  callable : ∀ callable ∈ state.callables slot, meaning.denotes callable value

/-- A state allows a value in a slot, or a missing optional. -/
def Allows (meaning : Meaning) (state : LocalTypeState) (slot : LocalSlot) :
    Option Vm.Value → Prop
  | none => state.optionalSlots slot = true
  | some value => state.Facts meaning slot value

/-- What a state allows in a slot. -/
def allowed (meaning : Meaning) (state : LocalTypeState) (slot : LocalSlot) :
    Set (Option Vm.Value) :=
  {content | state.Allows meaning slot content}

variable {meaning : Meaning} {lhs rhs : LocalTypeState} {slot : LocalSlot} {value : Vm.Value}

theorem get_mergeFromBranches :
    (mergeFromBranches lhs rhs).get slot = mergeBoundTypes (lhs.get slot) (rhs.get slot) := by
  cases visits : visited lhs rhs slot with
  | false =>
    have untyped : lhs.bySlot slot = none ∧ rhs.bySlot slot = none := by
      simpa [visited] using visits
    simp [get, mergeFromBranches, visits, untyped, mergeBoundTypes]
  | true =>
    show ((mergeFromBranches lhs rhs).bySlot slot).getD .unknown = _
    by_cases unknown : mergeBoundTypes (lhs.get slot) (rhs.get slot) = .unknown <;>
      simp [mergeFromBranches, visits, unknown]

/-- The facts of the merge follow from those of either branch. -/
theorem Facts.merge (h : lhs.Facts meaning slot value ∨ rhs.Facts meaning slot value) :
    (mergeFromBranches lhs rhs).Facts meaning slot value where
  type := by
    rw [get_mergeFromBranches]
    exact admits_mergeBoundTypes (h.imp Facts.type Facts.type)
  schema := by
    intro schema held
    simp only [mergeFromBranches, Option.mem_def, Option.ite_none_right_eq_some,
      Bool.and_eq_true] at held
    obtain ⟨⟨-, same⟩, hl⟩ := held
    exact h.elim (·.schema _ hl) (·.schema _ (eq_some_of_beq same hl))
  callable := by
    intro callable held
    obtain ⟨hl, hr⟩ := mergedCallable_eq_some held
    exact h.elim (·.callable _ hl) (·.callable _ hr)

theorem visited_iff :
    visited lhs rhs slot = true ↔ lhs.bySlot slot ≠ none ∨ rhs.bySlot slot ≠ none := by
  simp [visited, Option.isSome_iff_ne_none]

theorem optionalSlots_merge : (mergeFromBranches lhs rhs).optionalSlots slot = true ↔
    visited lhs rhs slot = true ∧
      (lhs.optionalSlots slot = true ∨ rhs.optionalSlots slot = true) := by
  simp [mergeFromBranches]

/-- **When the merge of two branches is an upper bound**: it allows whatever one of the branches
allows in a slot, unless the slot is optional in one of them and typed in neither. -/
theorem allowed_mergeFromBranches (meaning : Meaning) (lhs rhs : LocalTypeState)
    (slot : LocalSlot) :
    lhs.allowed meaning slot ∪ rhs.allowed meaning slot ⊆
        (mergeFromBranches lhs rhs).allowed meaning slot ↔
      (lhs.optionalSlots slot = true ∨ rhs.optionalSlots slot = true →
        lhs.bySlot slot ≠ none ∨ rhs.bySlot slot ≠ none) := by
  rw [← visited_iff]
  constructor
  · intro upper optional
    have missing : none ∈ lhs.allowed meaning slot ∪ rhs.allowed meaning slot := optional
    exact (optionalSlots_merge.mp (upper missing)).1
  · intro visits content held
    cases content with
    | none => exact optionalSlots_merge.mpr ⟨visits held, held⟩
    | some value => exact Facts.merge held

/-- A slot that is optional, of a type that is not known. -/
def untypedOptional : LocalTypeState := empty.setWithOptionalSchemaOrigin 0 .unknown none false true

/-- Both branches allow that the optional is missing, and their merge does not. -/
theorem merge_forgets_optional :
    none ∈ untypedOptional.allowed ⟨fun _ _ => True, fun _ _ => True⟩ 0 ∧
      none ∉ (mergeFromBranches untypedOptional untypedOptional).allowed
        ⟨fun _ _ => True, fun _ _ => True⟩ 0 :=
  ⟨rfl, Bool.false_ne_true⟩

/-! ## Loops -/

def stabilizeLoopState (runIteration : LocalTypeState → LocalTypeState)
    (state : LocalTypeState) : LocalTypeState :=
  let first := runIteration state
  let second := runIteration first
  mergeFromBranches state (mergeFromBranches first second)

/-- **The state after a loop** covers up to two iterations, and all of them if the third
changes nothing.  A slot that is typed before the loop and in the first iteration is optional after
it exactly if it is in one of these states; one that is typed in none of them is not. -/
theorem stabilizeLoopState_covers (run : LocalTypeState → LocalTypeState) (state : LocalTypeState) :
    (∀ n ≤ 2, (run^[n] state).Facts meaning slot value →
      (stabilizeLoopState run state).Facts meaning slot value) ∧
    (run^[3] state = run^[2] state → ∀ n, (run^[n] state).Facts meaning slot value →
      (stabilizeLoopState run state).Facts meaning slot value) ∧
    (state.bySlot slot ≠ none → (run state).bySlot slot ≠ none →
      ((stabilizeLoopState run state).optionalSlots slot = true ↔
        ∃ n ≤ 2, (run^[n] state).optionalSlots slot = true)) ∧
    ((∀ n ≤ 2, (run^[n] state).bySlot slot = none) →
      (stabilizeLoopState run state).optionalSlots slot = false) := by
  have covers : ∀ n ≤ 2, (run^[n] state).Facts meaning slot value →
      (stabilizeLoopState run state).Facts meaning slot value := by
    intro n few facts
    interval_cases n
    · exact .merge (.inl facts)
    · exact .merge (.inr (.merge (.inl facts)))
    · exact .merge (.inr (.merge (.inr facts)))
  refine ⟨covers, ?_, ?_, ?_⟩
  · intro stable n facts
    rcases Nat.le_total n 2 with few | many
    · exact covers n few facts
    · obtain ⟨k, rfl⟩ := Nat.exists_eq_add_of_le' many
      rw [Function.iterate_add_apply, Function.iterate_fixed stable k] at facts
      exact covers 2 le_rfl facts
  · intro before first
    simp only [stabilizeLoopState, optionalSlots_merge, visited_iff.mpr (.inl before),
      visited_iff.mpr (.inl first), true_and]
    constructor
    · rintro (zero | one | two)
      · exact ⟨0, by decide, zero⟩
      · exact ⟨1, by decide, one⟩
      · exact ⟨2, by decide, two⟩
    · rintro ⟨n, few, optional⟩
      interval_cases n
      · exact .inl optional
      · exact .inr (.inl optional)
      · exact .inr (.inr optional)
  · intro untyped
    rw [← Bool.not_eq_true, stabilizeLoopState, optionalSlots_merge, visited_iff]
    have before : state.bySlot slot = none := untyped 0 (by decide)
    have first : (run state).bySlot slot = none := untyped 1 (by decide)
    have second : (run (run state)).bySlot slot = none := untyped 2 (by decide)
    simp [before, mergeFromBranches, visited, first, second]

/-- A loop that assigns an integer which may be missing: its third iteration changes nothing. -/
theorem stabilizeLoopState_assigned :
    (stabilizeLoopState (fun _ => empty.setWithOptionalSchemaOrigin 0 .int none false true)
        (empty.setWithOptionalSchemaOrigin 0 .int none false false)).Facts
      ⟨fun _ _ => True, fun _ _ => True⟩ 0 (.int 3) ∧
    (stabilizeLoopState (fun _ => empty.setWithOptionalSchemaOrigin 0 .int none false true)
      (empty.setWithOptionalSchemaOrigin 0 .int none false false)).optionalSlots 0 = true := by
  obtain ⟨-, all, optional, -⟩ := @stabilizeLoopState_covers ⟨fun _ _ => True, fun _ _ => True⟩ 0
    (.int 3) (fun _ => empty.setWithOptionalSchemaOrigin 0 .int none false true)
    (empty.setWithOptionalSchemaOrigin 0 .int none false false)
  refine ⟨all rfl 5 ⟨rfl, ?_, ?_⟩, (optional (by decide) (by decide)).mpr ⟨1, by decide, rfl⟩⟩
  · rintro _ ⟨⟩
  · rintro _ ⟨⟩

end LocalTypeState

end Compiler

end RustScript
