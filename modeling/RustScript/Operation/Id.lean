import RustScript.Resource.Handle

/-!
# Operation ids

An operation id is one positive 63-bit integer that packs the tag of a registry, a slot
of it and a generation of that slot.  `OperationId` carries the checks of `from_raw`: no
field of an id is zero.  `encode` succeeds exactly on fields in range, and the fields of
the id are the ones that went in (`encode_eq_some_iff`); an id is determined by its
fields (`OperationId.ext_fields`).

The errors and cancellation reasons of the operation modules are here too.
-/

namespace RustScript.Operation

/-! ## Errors and reasons -/

inductive OperationErrorCode where
  | invalidConfiguration
  | operationLimitExceeded
  | invalidOperationId
  | operationWrongRegistry
  | operationStale
  | operationNotFound
  | operationPending
  | operationNotPending
  | operationIdExhausted
  | operationRegistryTagExhausted
  | operationCleanupFailed
  | operationRegistrySealed
  | operationDriverFailed
  deriving DecidableEq, Repr

def OperationErrorCode.asStr : OperationErrorCode → String
  | .invalidConfiguration => "invalid_configuration"
  | .operationLimitExceeded => "operation_limit_exceeded"
  | .invalidOperationId => "invalid_operation_id"
  | .operationWrongRegistry => "operation_wrong_registry"
  | .operationStale => "operation_stale"
  | .operationNotFound => "operation_not_found"
  | .operationPending => "operation_pending"
  | .operationNotPending => "operation_not_pending"
  | .operationIdExhausted => "operation_id_exhausted"
  | .operationRegistryTagExhausted => "operation_registry_tag_exhausted"
  | .operationCleanupFailed => "operation_cleanup_failed"
  | .operationRegistrySealed => "operation_registry_sealed"
  | .operationDriverFailed => "operation_driver_failed"

structure OperationError where
  code : OperationErrorCode
  operation : String
  message : String
  limit : Option Nat
  value : Option Nat
  deriving DecidableEq, Repr

namespace OperationError

/-- Every error of the operation modules is raised in `vm::operation`. -/
def new (code : OperationErrorCode) (message : String) : OperationError :=
  ⟨code, "vm::operation", message, none, none⟩

def withLimit (error : OperationError) (limit : Nat) : OperationError :=
  { error with limit := some limit }

def withValue (error : OperationError) (value : Nat) : OperationError :=
  { error with value := some value }

/-- The text of an error. -/
def display (error : OperationError) : String :=
  "operation error [" ++ error.code.asStr ++ "] in " ++ error.operation ++ ": " ++ error.message ++
    (match error.limit with
      | some limit => " (limit: " ++ toString limit ++ ")"
      | none => "") ++
    (match error.value with
      | some value => " (value: " ++ toString value ++ ")"
      | none => "")

end OperationError

abbrev OperationResult (α : Type) := Except OperationError α

inductive OperationCancelReason where
  | requested
  | deadline
  | vmReset
  | parent
  | resourceClosed
  | vmDrop
  deriving DecidableEq, Repr

/-! ## The packed fields -/

def regTagBits : Nat := 20

def slotBits : Nat := 21

def genBits : Nat := 22

def regTagShift : Nat := slotBits + genBits

def slotShift : Nat := genBits

def regTagMask : Nat := ((1 <<< regTagBits) - 1) <<< regTagShift

def slotMask : Nat := ((1 <<< slotBits) - 1) <<< slotShift

def genMask : Nat := (1 <<< genBits) - 1

def maxRegistryTag : Nat := (1 <<< regTagBits) - 1

def maxSlotIdentity : Nat := (1 <<< slotBits) - 1

def maxGeneration : Nat := (1 <<< genBits) - 1

namespace Raw

def registryTag (raw : Nat) : Nat := (raw &&& regTagMask) >>> regTagShift

def slotIdentity (raw : Nat) : Nat := (raw &&& slotMask) >>> slotShift

def generation (raw : Nat) : Nat := raw &&& genMask

theorem registryTag_eq (raw : Nat) : registryTag raw = raw / 2 ^ 43 % 2 ^ 20 :=
  Packed.masked_eq raw 43 20

theorem slotIdentity_eq (raw : Nat) : slotIdentity raw = raw / 2 ^ 22 % 2 ^ 21 :=
  Packed.masked_eq raw 22 21

theorem generation_eq (raw : Nat) : generation raw = raw % 2 ^ 22 :=
  Nat.and_two_pow_sub_one_eq_mod _ 22

/-- What `from_raw` accepts: the sign bit is clear, and no field is zero.  A field is never
above its maximum. -/
def Valid (raw : Nat) : Prop :=
  raw ≠ 0 ∧ raw < 2 ^ 63 ∧ registryTag raw ≠ 0 ∧ slotIdentity raw ≠ 0 ∧ generation raw ≠ 0

instance (raw : Nat) : Decidable (Valid raw) := inferInstanceAs (Decidable (_ ∧ _))

end Raw

/-! ## Ids -/

structure OperationId where
  raw : Nat
  valid : Raw.Valid raw
  deriving DecidableEq

namespace OperationId

def fromRaw (raw : UInt64) : OperationResult OperationId :=
  if valid : Raw.Valid raw.toNat then return ⟨raw.toNat, valid⟩
  else throw ((OperationError.new .invalidOperationId "invalid packed operation id").withValue
    raw.toNat)

def registryTag (id : OperationId) : Nat := Raw.registryTag id.raw

def slotIndex (id : OperationId) : Nat := Raw.slotIdentity id.raw - 1

def generation (id : OperationId) : Nat := Raw.generation id.raw

/-- The fields that an id can hold. -/
def Encodable (registryTag slotIndex generation : Nat) : Prop :=
  registryTag ≠ 0 ∧ registryTag ≤ maxRegistryTag ∧ slotIndex + 1 ≤ maxSlotIdentity ∧
    generation ≠ 0 ∧ generation ≤ maxGeneration

instance (registryTag slotIndex generation : Nat) :
    Decidable (Encodable registryTag slotIndex generation) :=
  inferInstanceAs (Decidable (_ ∧ _))

def pack (registryTag slotIdentity generation : Nat) : Nat :=
  (registryTag <<< regTagShift) ||| (slotIdentity <<< slotShift) ||| generation

variable {t i g : Nat} {id : OperationId}

theorem pack_fields (h : Encodable t i g) :
    Raw.registryTag (pack t (i + 1) g) = t ∧ Raw.slotIdentity (pack t (i + 1) g) = i + 1 ∧
      Raw.generation (pack t (i + 1) g) = g ∧ pack t (i + 1) g < 2 ^ 63 := by
  obtain ⟨-, ht, hi, -, hg⟩ := h
  have ht' : t ≤ 2 ^ 20 - 1 := ht
  have hi' : i + 1 ≤ 2 ^ 21 - 1 := hi
  have hg' : g ≤ 2 ^ 22 - 1 := hg
  have slotFits : i + 1 < 2 ^ 21 := by omega
  have generationFits : g < 2 ^ 22 := by omega
  have packed : pack t (i + 1) g = t * 2 ^ (21 + 22) + (i + 1) * 2 ^ 22 + g :=
    Packed.pack_eq slotFits generationFits
  rw [Raw.registryTag_eq, Raw.slotIdentity_eq, Raw.generation_eq, packed]
  omega

theorem pack_valid (h : Encodable t i g) : Raw.Valid (pack t (i + 1) g) := by
  obtain ⟨tag, slot, generation, bound⟩ := pack_fields h
  obtain ⟨ht, -, -, hg, -⟩ := h
  generalize pack t (i + 1) g = raw at tag slot generation bound
  have positive : raw ≠ 0 := by
    rw [Raw.slotIdentity_eq] at slot
    omega
  refine ⟨positive, bound, ?_, ?_, ?_⟩
  · rwa [tag]
  · rw [slot]
    exact Nat.succ_ne_zero i
  · rwa [generation]

def encode (registryTag slotIndex generation : Nat) : Option OperationId :=
  if h : Encodable registryTag slotIndex generation then
    some ⟨pack registryTag (slotIndex + 1) generation, pack_valid h⟩
  else none

/-- An id is determined by its fields. -/
theorem ext_fields {id' : OperationId} (tag : id.registryTag = id'.registryTag)
    (slot : id.slotIndex = id'.slotIndex) (generation : id.generation = id'.generation) :
    id = id' := by
  obtain ⟨raw, _, bound, _, hs, _⟩ := id
  obtain ⟨raw', _, bound', _, hs', _⟩ := id'
  simp only [registryTag, slotIndex, OperationId.generation, Raw.registryTag_eq,
    Raw.slotIdentity_eq, Raw.generation_eq] at tag slot generation hs hs'
  have same : raw = raw' := by omega
  subst same
  rfl

/-- **Encoding is exact.** An id is encoded exactly from fields in range, and it holds the
fields it was encoded from. -/
theorem encode_eq_some_iff :
    encode t i g = some id ↔ Encodable t i g ∧ id.registryTag = t ∧ id.slotIndex = i ∧
      id.generation = g := by
  by_cases h : Encodable t i g
  · obtain ⟨tag, slot, generation, _⟩ := pack_fields h
    have slotIndex : Raw.slotIdentity (pack t (i + 1) g) - 1 = i := by omega
    simp only [encode, h, dif_pos, Option.some.injEq, true_and]
    constructor
    · rintro rfl
      exact ⟨tag, slotIndex, generation⟩
    · rintro ⟨ht, hi, hg⟩
      exact ext_fields (tag.trans ht.symm) (slotIndex.trans hi.symm) (generation.trans hg.symm)
  · simp [encode, h]

theorem encodable_fields (id : OperationId) :
    Encodable id.registryTag id.slotIndex id.generation := by
  obtain ⟨raw, _, _, ht, hs, hg⟩ := id
  rw [Raw.slotIdentity_eq] at hs
  refine ⟨ht, ?_, ?_, hg, Nat.and_le_right⟩
  · rw [registryTag, Raw.registryTag_eq]
    exact Nat.le_pred_of_lt (Nat.mod_lt _ (Nat.two_pow_pos 20))
  · rw [slotIndex, Raw.slotIdentity_eq, show maxSlotIdentity = 2 ^ 21 - 1 from rfl]
    omega

theorem fromRaw_eq_ok_iff {raw : UInt64} {id : OperationId} :
    fromRaw raw = .ok id ↔ id.raw = raw.toNat := by
  constructor
  · intro decoded
    unfold fromRaw at decoded
    split_ifs at decoded
    cases decoded
    rfl
  · intro same
    obtain ⟨_, valid⟩ := id
    cases same
    exact dif_pos valid

/-- **Handles and ids are packed one to one.** -/
theorem packing_bijective :
    Packed.Bijective (fun (a, i, g) => Resource.ResourceHandle.Encodable a i g)
        (fun (a, i, g) => Resource.ResourceHandle.encode a i g) Resource.ResourceHandle.fromRaw
        (fun h => (h.arenaId, h.slotIndex, h.generation)) (·.raw) (·) ∧
      Packed.Bijective (fun (t, i, g) => Encodable t i g) (fun (t, i, g) => encode t i g) fromRaw
        (fun id => (id.registryTag, id.slotIndex, id.generation)) raw UInt64.toNat := by
  refine ⟨Resource.ResourceHandle.bijective, .of ?_ ?_ encodable_fields
    (fun _ _ => fromRaw_eq_ok_iff) fun id => ?_⟩
  · rintro ⟨t, i, g⟩ fits
    exact ⟨_, dif_pos fits⟩
  · rintro ⟨t, i, g⟩ id
    simp [encode_eq_some_iff]
  · obtain ⟨raw, nonzero, bound, _⟩ := id
    refine ⟨⟨.ofNat raw, UInt64.toNat_ofNat_of_lt ?_⟩, Nat.pos_of_ne_zero nonzero, bound⟩
    exact Nat.lt_trans bound (by decide)

end OperationId

end RustScript.Operation
