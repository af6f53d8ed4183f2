import RustScript.HostApi.Schema
import RustScript.Lib.Packed

/-!
# Resource handles

A handle is one positive signed integer that packs the arena of a table, a slot
of it and a generation of that slot.  `ResourceHandle` carries the checks of
`from_raw`: no field of a handle is zero.  `encode` succeeds exactly on fields
in range, and the fields of the handle are the ones that went in
(`encode_eq_some_iff`), so two handles with the same fields are the same
(`ResourceHandle.ext_fields`).

The errors and close reasons of the resource modules are here too.
-/

namespace RustScript.Resource

/-! ## Errors and reasons -/

inductive ResourceErrorCode where
  | invalidConfiguration
  | resourceLimitExceeded
  | invalidResourceHandle
  | resourceHandleWrongTable
  | resourceTypeMismatch
  | resourceTypeKeyMismatch
  | resourceStale
  | resourceAlreadyClosed
  | resourceIdExhausted
  | resourceAccessConflict
  | resourceTableArenaExhausted
  | resourceCleanupFailed
  | resourceNotClosing
  | resourceCloseInProgress
  | resourceClosePending
  deriving DecidableEq, Repr

structure ResourceError where
  code : ResourceErrorCode
  operation : String
  message : String
  limit : Option Nat
  value : Option Nat
  deriving DecidableEq, Repr

namespace ResourceError

def new (code : ResourceErrorCode) (operation message : String) : ResourceError :=
  ⟨code, operation, message, none, none⟩

def withLimit (error : ResourceError) (limit : Nat) : ResourceError :=
  { error with limit := some limit }

def withValue (error : ResourceError) (value : Nat) : ResourceError :=
  { error with value := some value }

end ResourceError

abbrev ResourceResult (α : Type) := Except ResourceError α

inductive ResourceCloseReason where
  | requested
  | deadline
  | vmReset
  | parent
  | resourceClosed
  | vmDrop
  deriving DecidableEq, Repr

def ResourceCloseReason.asStr : ResourceCloseReason → String
  | .requested => "requested"
  | .deadline => "deadline"
  | .vmReset => "vm_reset"
  | .parent => "parent"
  | .resourceClosed => "resource_closed"
  | .vmDrop => "vm_drop"

/-! ## The packed fields -/

def handleGenerationBits : Nat := 25

def handleSlotBits : Nat := 18

def handleArenaBits : Nat := 63 - handleGenerationBits - handleSlotBits

def handleSlotShift : Nat := handleGenerationBits

def handleArenaShift : Nat := handleSlotShift + handleSlotBits

def handleGenerationMask : Nat := (1 <<< handleGenerationBits) - 1

def handleSlotMask : Nat := (1 <<< handleSlotBits) - 1

def handleArenaMask : Nat := (1 <<< handleArenaBits) - 1

def maxResourceSlots : Nat := handleSlotMask

def maxHandleArenaId : Nat := handleArenaMask

def maxHandleGeneration : Nat := handleGenerationMask

namespace Raw

def arenaId (raw : Nat) : Nat := (raw >>> handleArenaShift) &&& handleArenaMask

def slotIdentity (raw : Nat) : Nat := (raw >>> handleSlotShift) &&& handleSlotMask

def generation (raw : Nat) : Nat := raw &&& handleGenerationMask

def pack (arenaId slotIdentity generation : Nat) : Nat :=
  (arenaId <<< handleArenaShift) ||| (slotIdentity <<< handleSlotShift) ||| generation

theorem arenaId_eq (raw : Nat) : arenaId raw = raw / 2 ^ 43 % 2 ^ 20 :=
  Packed.shifted_eq raw 43 20

theorem slotIdentity_eq (raw : Nat) : slotIdentity raw = raw / 2 ^ 25 % 2 ^ 18 :=
  Packed.shifted_eq raw 25 18

theorem generation_eq (raw : Nat) : generation raw = raw % 2 ^ 25 :=
  Nat.and_two_pow_sub_one_eq_mod _ 25

/-- Fields in range do not overlap. -/
theorem pack_eq {a s g : Nat} (hs : s < 2 ^ 18) (hg : g < 2 ^ 25) :
    pack a s g = a * 2 ^ (18 + 25) + s * 2 ^ 25 + g := by
  have shift : handleArenaShift = 18 + 25 := rfl
  rw [pack, shift]
  exact Packed.pack_eq hs hg

end Raw

/-! ## Handles -/

def invalidHandle (message : String) : ResourceError :=
  .new .invalidResourceHandle "resource::handle" message

/-- What `from_raw` accepts. -/
def Raw.Valid (raw : Nat) : Prop :=
  0 < raw ∧ raw < 2 ^ 63 ∧ arenaId raw ≠ 0 ∧ slotIdentity raw ≠ 0 ∧ generation raw ≠ 0

instance (raw : Nat) : Decidable (Raw.Valid raw) := inferInstanceAs (Decidable (_ ∧ _))

structure ResourceHandle where
  raw : Nat
  valid : Raw.Valid raw
  deriving DecidableEq

namespace ResourceHandle

def fromRaw (raw : Nat) : ResourceResult ResourceHandle :=
  if raw = 0 ∨ ¬raw < 2 ^ 63 then
    throw (invalidHandle "resource handle token must be a positive signed integer")
  else if valid : Raw.Valid raw then return ⟨raw, valid⟩
  else throw (invalidHandle "resource handle token has an invalid encoding")

def arenaId (handle : ResourceHandle) : Nat := Raw.arenaId handle.raw

def generation (handle : ResourceHandle) : Nat := Raw.generation handle.raw

def slotIndex (handle : ResourceHandle) : Nat := Raw.slotIdentity handle.raw - 1

/-- The fields that a handle can hold. -/
def Encodable (arenaId slotIndex generation : Nat) : Prop :=
  arenaId ≠ 0 ∧ arenaId ≤ handleArenaMask ∧ slotIndex + 1 ≤ handleSlotMask ∧
    generation ≠ 0 ∧ generation ≤ handleGenerationMask

instance (arenaId slotIndex generation : Nat) :
    Decidable (Encodable arenaId slotIndex generation) :=
  inferInstanceAs (Decidable (_ ∧ _))

variable {a i g : Nat}

theorem pack_fields (h : Encodable a i g) :
    Raw.arenaId (Raw.pack a (i + 1) g) = a ∧ Raw.slotIdentity (Raw.pack a (i + 1) g) = i + 1 ∧
      Raw.generation (Raw.pack a (i + 1) g) = g ∧ Raw.pack a (i + 1) g < 2 ^ 63 := by
  obtain ⟨-, ha, hi, -, hg⟩ := h
  have ha' : a ≤ 2 ^ 20 - 1 := ha
  have hi' : i + 1 ≤ 2 ^ 18 - 1 := hi
  have hg' : g ≤ 2 ^ 25 - 1 := hg
  rw [Raw.arenaId_eq, Raw.slotIdentity_eq, Raw.generation_eq, Raw.pack_eq (by omega) (by omega)]
  omega

theorem pack_valid (h : Encodable a i g) : Raw.Valid (Raw.pack a (i + 1) g) := by
  obtain ⟨arena, slot, generation, bound⟩ := pack_fields h
  obtain ⟨ha, -, -, hg, -⟩ := h
  generalize Raw.pack a (i + 1) g = raw at arena slot generation bound
  have positive : 0 < raw := by
    rw [Raw.slotIdentity_eq] at slot
    omega
  refine ⟨positive, bound, ?_, ?_, ?_⟩
  · rwa [arena]
  · rw [slot]
    exact Nat.succ_ne_zero i
  · rwa [generation]

def encode (arenaId slotIndex generation : Nat) : Option ResourceHandle :=
  if h : Encodable arenaId slotIndex generation then
    some ⟨Raw.pack arenaId (slotIndex + 1) generation, pack_valid h⟩
  else none

/-- A handle is determined by its fields. -/
theorem ext_fields {h h' : ResourceHandle} (arena : h.arenaId = h'.arenaId)
    (slot : h.slotIndex = h'.slotIndex) (generation : h.generation = h'.generation) : h = h' := by
  obtain ⟨raw, _, bound, _, hs, _⟩ := h
  obtain ⟨raw', _, bound', _, hs', _⟩ := h'
  simp only [arenaId, slotIndex, ResourceHandle.generation, Raw.arenaId_eq, Raw.slotIdentity_eq,
    Raw.generation_eq] at arena slot generation hs hs'
  have same : raw = raw' := by omega
  subst same
  rfl

/-- **Encoding is exact.** A handle is encoded exactly from fields in range, and it holds
the fields it was encoded from. -/
theorem encode_eq_some_iff {handle : ResourceHandle} :
    encode a i g = some handle ↔ Encodable a i g ∧ handle.arenaId = a ∧ handle.slotIndex = i ∧
      handle.generation = g := by
  by_cases h : Encodable a i g
  · obtain ⟨arena, slot, generation, _⟩ := pack_fields h
    have slotIndex : Raw.slotIdentity (Raw.pack a (i + 1) g) - 1 = i := by omega
    simp only [encode, h, dif_pos, Option.some.injEq, true_and]
    constructor
    · rintro rfl
      exact ⟨arena, slotIndex, generation⟩
    · rintro ⟨ha, hi, hg⟩
      exact ext_fields (arena.trans ha.symm) (slotIndex.trans hi.symm) (generation.trans hg.symm)
  · simp [encode, h]

theorem encodable_fields (h : ResourceHandle) : Encodable h.arenaId h.slotIndex h.generation := by
  obtain ⟨raw, _, _, ha, hs, hg⟩ := h
  rw [Raw.slotIdentity_eq] at hs
  refine ⟨ha, Nat.and_le_right, ?_, hg, Nat.and_le_right⟩
  rw [slotIndex, Raw.slotIdentity_eq, show handleSlotMask = 2 ^ 18 - 1 from rfl]
  omega

theorem fromRaw_eq_ok_iff {raw : Nat} {h : ResourceHandle} :
    fromRaw raw = .ok h ↔ h.raw = raw := by
  constructor
  · intro decoded
    unfold fromRaw at decoded
    split_ifs at decoded
    cases decoded
    rfl
  · rintro rfl
    have signed : ¬(h.raw = 0 ∨ ¬h.raw < 2 ^ 63) := by
      have := h.valid.1
      have := h.valid.2.1
      omega
    simp only [fromRaw, signed, h.valid, if_false, dif_pos]
    rfl

theorem bijective : Packed.Bijective (fun (a, i, g) => Encodable a i g)
    (fun (a, i, g) => encode a i g) fromRaw (fun h => (h.arenaId, h.slotIndex, h.generation)) raw
    id := by
  refine .of ?_ ?_ encodable_fields (fun _ _ => fromRaw_eq_ok_iff)
    fun h => ⟨⟨_, rfl⟩, h.valid.1, h.valid.2.1⟩
  · rintro ⟨a, i, g⟩ fits
    exact ⟨_, dif_pos fits⟩
  · rintro ⟨a, i, g⟩ h
    simp [encode_eq_some_iff]

end ResourceHandle

end RustScript.Resource
