import RustScript.Lib.Wp
import RustScript.Operation.Id
import RustScript.Resource.Table

/-!
# The operation registry

A bounded generational arena of host operations in flight.  An occupied slot owns a
driver, whose hooks are arbitrary and act on a world `W` that stands for everything
outside the registry, an optional deadline, an optional cleanup, and a status.  Hooks
have no access to the registry.

The operations are those of the source, as computations over the registry and the
world; an `expect` that fails is a `Panic`.  The list `events` is a history: it records
the operations that were started, the calls of the cancel hooks and of the cleanups, and
the releases of slots, and no operation reads it.
-/

namespace RustScript.Operation

open Resource (Poll Entry)
open Wp (expect)

/-! ## Operations -/

inductive OperationOutcome where
  | completed
  | failed (error : OperationError)
  | cancelled (reason : OperationCancelReason)
  deriving DecidableEq, Repr

/-- The hooks of the drivers, the cleanups, and the clock. -/
structure HostOperation (W D C : Type) where
  poll : D → W → Poll (OperationResult Unit) × D × W
  cancel : D → OperationCancelReason → W → OperationResult Unit × D × W
  cancelAndWait : D → OperationCancelReason → W → OperationResult Unit × D × W
  isQuiescent : D → W → Bool
  pollQuiescent : D → W → Poll Unit × D × W
  cleanup : C → OperationOutcome → W → OperationResult Unit × W
  now : W → Nat

structure OperationSpec (D C : Type) where
  deadline : Option Nat
  driver : D
  cleanup : Option C

inductive OperationStatus where
  | pending
  | completed
  | cancelled (reason : OperationCancelReason)
  | failed (error : OperationError)
  deriving DecidableEq, Repr

namespace OperationStatus

def isTerminal : OperationStatus → Bool
  | .pending => false
  | _ => true

def terminalOutcome : OperationStatus → Option OperationOutcome
  | .pending => none
  | .completed => some .completed
  | .cancelled reason => some (.cancelled reason)
  | .failed error => some (.failed error)

end OperationStatus

structure OperationRecord (D C : Type) where
  driver : D
  deadline : Option Nat
  cleanup : Option C
  status : OperationStatus

structure OperationSlot (D C : Type) where
  generation : Nat
  operation : Option (OperationRecord D C)

def OperationSlot.isPending {D C : Type} (slot : OperationSlot D C) : Bool :=
  slot.operation.any fun operation => !operation.status.isTerminal

/-- A tag that `allocate_registry_tag` hands out. -/
structure RegistryTag where
  value : Nat
  positive : value ≠ 0
  bounded : value ≤ maxRegistryTag

structure OperationRegistry (D C : Type) where
  maxPending : Nat
  tag : RegistryTag
  «sealed» : Bool
  slots : List (OperationSlot D C)
  /-- The free list, as a stack: the next slot to be used stands first. -/
  free : List Nat

/-- The counter of the tags, which starts at one; the answer has the counter for the next
call. -/
def allocateRegistryTag (next : Nat) (started : next ≠ 0) : OperationResult (RegistryTag × Nat) :=
  if bounded : next ≤ maxRegistryTag then return (⟨next, started, bounded⟩, next + 1)
  else throw (((OperationError.new .operationRegistryTagExhausted
    "operation registry tag identity space is exhausted").withLimit maxRegistryTag).withValue next)

/-- A registry as `with_limit` makes it, once it has a tag. -/
def OperationRegistry.new {D C : Type} (maxPending : Nat) (tag : RegistryTag) :
    OperationRegistry D C :=
  ⟨maxPending, tag, false, [], []⟩

def OperationRegistry.withLimit {D C : Type} (maxPending next : Nat) (started : next ≠ 0) :
    OperationResult (OperationRegistry D C × Nat) := do
  if maxPending = 0 then
    throw (.new .invalidConfiguration "operation registry capacity must be positive")
  else do
    let (tag, next) ← allocateRegistryTag next started
    return (.new maxPending tag, next)

/-- What happens to one operation. -/
inductive Happening where
  | started (hasCleanup : Bool)
  | cancel (reason : OperationCancelReason) (answer : OperationResult Unit)
  | cleanup (outcome : OperationOutcome) (answer : OperationResult Unit)
  | released (outcome : OperationOutcome)

/-- An operation is its slot and its generation. -/
structure OperationEvent where
  entry : Entry
  happening : Happening

structure RegistryState (W D C : Type) where
  registry : OperationRegistry D C
  world : W
  events : List OperationEvent

/-- An `expect` that failed. -/
structure Panic where
  message : String

abbrev RegM (W D C : Type) := EStateM Panic (RegistryState W D C)

/-! ## Error constructors -/

def operationNotFound (id : OperationId) : OperationError :=
  (OperationError.new .operationNotFound
    ("operation " ++ toString id.raw ++ " is not registered")).withValue id.raw

def operationWrongRegistry (id : OperationId) : OperationError :=
  (OperationError.new .operationWrongRegistry
    ("operation " ++ toString id.raw ++ " belongs to a different registry")).withValue id.raw

def operationStale (id : OperationId) : OperationError :=
  (OperationError.new .operationStale
    ("operation " ++ toString id.raw ++ " refers to a stale slot generation")).withValue id.raw

def pendingOutcome (id : OperationId) : OperationError :=
  (OperationError.new .operationPending
    ("operation " ++ toString id.raw ++
      " is still pending and has no terminal outcome")).withValue id.raw

def driverFailure (error : OperationError) : OperationError :=
  .new .operationDriverFailed error.display

def cleanupFailure (error : OperationError) : OperationError :=
  .new .operationCleanupFailed error.display

/-! ## Reading the registry -/

namespace OperationRegistry

variable {D C : Type} (registry : OperationRegistry D C)

def operationAt (slotIndex : Nat) : Option (OperationRecord D C) :=
  registry.slots[slotIndex]?.bind OperationSlot.operation

/-- The current or next occupant of a slot. -/
def entryAt (slotIndex : Nat) : Entry :=
  ⟨slotIndex, match registry.slots[slotIndex]? with
    | some slot => slot.generation
    | none => 0⟩

def activeCount : Nat := registry.slots.countP OperationSlot.isPending

def isEmpty : Bool := registry.slots.all fun slot => slot.operation.isNone

def location (id : OperationId) : OperationResult Nat :=
  if id.registryTag ≠ registry.tag.value then throw (operationWrongRegistry id)
  else match registry.slots[id.slotIndex]? with
    | none => throw (operationNotFound id)
    | some slot =>
      if slot.generation < id.generation then throw (operationNotFound id)
      else if id.generation < slot.generation ∨ slot.operation.isNone then
        throw (operationStale id)
      else return id.slotIndex

def isPendingAt (slotIndex : Nat) : Bool :=
  (registry.operationAt slotIndex).any fun operation => !operation.status.isTerminal

def isTerminalAt (slotIndex : Nat) : Bool :=
  (registry.operationAt slotIndex).any fun operation => operation.status.isTerminal

def isPendingId (id : OperationId) : Bool :=
  match registry.location id with
  | .error _ => false
  | .ok slotIndex => registry.isPendingAt slotIndex

/-! ## Changing the registry -/

def setOperation (slotIndex : Nat) (operation : Option (OperationRecord D C)) :
    OperationRegistry D C :=
  { registry with
    slots := registry.slots.modify slotIndex fun slot => { slot with operation } }

/-- The slot loses its occupant, and is used again under the next generation while it has
one left. -/
def release (slotIndex : Nat) : OperationRegistry D C :=
  let emptied := registry.setOperation slotIndex none
  if (registry.entryAt slotIndex).generation < maxGeneration then
    { emptied with
      slots := emptied.slots.modify slotIndex fun slot =>
        { slot with generation := slot.generation + 1 }
      free := slotIndex :: emptied.free }
  else emptied

end OperationRegistry

/-! ## Primitive computations -/

section Operations

variable {W D C : Type}

def getRegistry : RegM W D C (OperationRegistry D C) := do return (← get).registry

def modifyRegistry (f : OperationRegistry D C → OperationRegistry D C) : RegM W D C Unit :=
  modify fun s => { s with registry := f s.registry }

def record (entry : Entry) (happening : Happening) : RegM W D C Unit :=
  modify fun s => { s with events := s.events ++ [⟨entry, happening⟩] }

/-- Call a hook of the driver in a slot, which may change the driver and the world. -/
def callDriver {α : Type} (slotIndex : Nat) (operation : OperationRecord D C)
    (hook : D → W → α × D × W) : RegM W D C α := do
  let (answer, driver, world) := hook operation.driver (← get).world
  modify fun s => { s with
    world
    registry := s.registry.setOperation slotIndex (some { operation with driver }) }
  return answer

variable (hooks : HostOperation W D C)

/-- The cancel hook, with or without the wait for the worker. -/
def callCancel (slotIndex : Nat) (operation : OperationRecord D C) (reason : OperationCancelReason)
    (waitForWorker : Bool) : RegM W D C (OperationResult Unit) := do
  let entry := (← getRegistry).entryAt slotIndex
  let answer ← callDriver slotIndex operation fun driver =>
    if waitForWorker then hooks.cancelAndWait driver reason else hooks.cancel driver reason
  record entry (.cancel reason answer)
  return answer

/-- A cleanup that has been taken out of its operation. -/
def callCleanup (slotIndex : Nat) (cleanup : C) (outcome : OperationOutcome) :
    RegM W D C (OperationResult Unit) := do
  let entry := (← getRegistry).entryAt slotIndex
  let (answer, world) := hooks.cleanup cleanup outcome (← get).world
  modify fun s => { s with world }
  record entry (.cleanup outcome answer)
  return answer

/-- Release a slot whose outcome leaves the registry. -/
def releaseSlot (slotIndex : Nat) (outcome : OperationOutcome) : RegM W D C Unit := do
  let entry := (← getRegistry).entryAt slotIndex
  record entry (.released outcome)
  modifyRegistry fun registry => registry.release slotIndex

/-! ## Starting an operation -/

def acquireSlot : RegM W D C (OperationResult Nat) := do
  let registry ← getRegistry
  match registry.free with
  | slotIndex :: rest => do
      modifyRegistry fun registry => { registry with free := rest }
      return .ok slotIndex
  | [] =>
    if maxSlotIdentity ≤ registry.slots.length then
      return .error (.new .operationIdExhausted "operation slot identity space exhausted")
    else do
      modifyRegistry fun registry =>
        { registry with slots := registry.slots ++ [⟨1, none⟩] }
      return .ok registry.slots.length

/-- The new operation is put in the slot that was acquired for it. -/
def installOperation (tag slotIndex : Nat) (spec : OperationSpec D C) :
    RegM W D C (OperationResult OperationId) := do
  let entry := (← getRegistry).entryAt slotIndex
  let id ← expect (OperationId.encode tag slotIndex entry.generation) ⟨"registry id encodes"⟩
  modifyRegistry fun registry =>
    registry.setOperation slotIndex (some ⟨spec.driver, spec.deadline, spec.cleanup, .pending⟩)
  record entry (.started spec.cleanup.isSome)
  return .ok id

def start (spec : OperationSpec D C) : RegM W D C (OperationResult OperationId) := do
  let registry ← getRegistry
  if registry.sealed then
    return .error (.new .operationRegistrySealed
      "operation registry is sealed and rejects new operations")
  else if registry.maxPending ≤ registry.activeCount then
    return .error ((OperationError.new .operationLimitExceeded
      "pending operation capacity has been reached").withLimit registry.maxPending)
  else
    match ← acquireSlot with
    | .error error => return .error error
    | .ok slotIndex => installOperation registry.tag.value slotIndex spec

/-! ## Terminal transitions -/

/-- Run a cleanup; if it fails, the operation has failed. -/
def runCleanup (slotIndex : Nat) (cleanup : C) (outcome : OperationOutcome) :
    RegM W D C (OperationResult Unit) := do
  match ← callCleanup hooks slotIndex cleanup outcome with
  | .ok _ => return .ok ()
  | .error error => do
      let wrapped := cleanupFailure error
      modifyRegistry fun registry =>
        match registry.operationAt slotIndex with
        | some operation =>
          registry.setOperation slotIndex (some { operation with status := .failed wrapped })
        | none => registry
      return .error wrapped

def finishTerminal (id : OperationId) (status : OperationStatus) (outcome : OperationOutcome) :
    RegM W D C (OperationResult Bool) := do
  let registry ← getRegistry
  match registry.location id with
  | .error error => return .error error
  | .ok slotIndex =>
    match registry.operationAt slotIndex with
    | none => return .ok false
    | some operation =>
      if operation.status.isTerminal then return .ok false
      else do
        modifyRegistry fun registry =>
          registry.setOperation slotIndex (some { operation with status, cleanup := none })
        match operation.cleanup with
        | none => return .ok true
        | some cleanup => return (← runCleanup hooks slotIndex cleanup outcome).map fun _ => true

def complete (id : OperationId) : RegM W D C (OperationResult Bool) :=
  finishTerminal hooks id .completed .completed

def fail (id : OperationId) (error : OperationError) : RegM W D C (OperationResult Bool) :=
  finishTerminal hooks id (.failed error) (.failed error)

/-- The cancel hook failed: the operation has failed, and its cleanup runs. -/
def failCancellation (slotIndex : Nat) (first : OperationError) : RegM W D C Unit := do
  let operation ← expect ((← getRegistry).operationAt slotIndex) ⟨"pending above"⟩
  modifyRegistry fun registry => registry.setOperation slotIndex
    (some { operation with status := .failed first, cleanup := none })
  match operation.cleanup with
  | none => pure ()
  | some cleanup => do
      let _ ← callCleanup hooks slotIndex cleanup (.failed first)

def cancelWithWait (id : OperationId) (reason : OperationCancelReason) (waitForWorker : Bool) :
    RegM W D C (OperationResult Bool) := do
  let registry ← getRegistry
  match registry.location id with
  | .error error => return .error error
  | .ok slotIndex =>
    match registry.operationAt slotIndex with
    | none => return .ok false
    | some operation =>
      if operation.status.isTerminal then return .ok false
      else
        match ← callCancel hooks slotIndex operation reason waitForWorker with
        | .ok _ =>
          return (← finishTerminal hooks id (.cancelled reason) (.cancelled reason)).map
            fun _ => true
        | .error error => do
            failCancellation hooks slotIndex (driverFailure error)
            return .error (driverFailure error)

def cancel (id : OperationId) (reason : OperationCancelReason) :
    RegM W D C (OperationResult Bool) :=
  cancelWithWait hooks id reason false

/-! ## Outcomes -/

def takeOutcome (id : OperationId) : RegM W D C (OperationResult OperationOutcome) := do
  let registry ← getRegistry
  match registry.location id with
  | .error error => return .error error
  | .ok slotIndex =>
    match registry.operationAt slotIndex with
    | none => return .error (operationStale id)
    | some operation =>
      if ¬ hooks.isQuiescent operation.driver (← get).world then
        return .error (pendingOutcome id)
      else
        match operation.status.terminalOutcome with
        | none => return .error (pendingOutcome id)
        | some outcome => do
            releaseSlot slotIndex outcome
            return .ok outcome

def takeOutcomeAfterCancelAndWait (id : OperationId) :
    RegM W D C (OperationResult OperationOutcome) := do
  let registry ← getRegistry
  match registry.location id with
  | .error error => return .error error
  | .ok slotIndex =>
    match (registry.operationAt slotIndex).bind fun operation =>
        operation.status.terminalOutcome with
    | none => return .error (pendingOutcome id)
    | some outcome => do
        releaseSlot slotIndex outcome
        return .ok outcome

def consumeTerminal (slotIndex : Nat) : RegM W D C OperationOutcome := do
  let operation ← expect ((← getRegistry).operationAt slotIndex) ⟨"terminal slot remains occupied"⟩
  let outcome ← expect operation.status.terminalOutcome ⟨"terminal status has an outcome"⟩
  releaseSlot slotIndex outcome
  return outcome

def pollTerminal (slotIndex : Nat) : RegM W D C (Poll (OperationResult OperationOutcome)) := do
  let operation ← expect ((← getRegistry).operationAt slotIndex) ⟨"terminal slot remains occupied"⟩
  match ← callDriver slotIndex operation hooks.pollQuiescent with
  | .ready _ => return .ready (.ok (← consumeTerminal slotIndex))
  | .pending => return .pending

def remove (id : OperationId) : RegM W D C (OperationResult OperationStatus) := do
  let registry ← getRegistry
  match registry.location id with
  | .error error => return .error error
  | .ok slotIndex =>
    match registry.operationAt slotIndex with
    | none => return .error (pendingOutcome id)
    | some operation =>
      match operation.status.terminalOutcome with
      | none => return .error (pendingOutcome id)
      | some outcome =>
        if ¬ hooks.isQuiescent operation.driver (← get).world then
          return .error (pendingOutcome id)
        else do
          releaseSlot slotIndex outcome
          return .ok operation.status

/-! ## Polling -/

/-- The operation has just reached a terminal status. -/
def pollFinished (id : OperationId) : RegM W D C (Poll (OperationResult OperationOutcome)) := do
  match (← getRegistry).location id with
  | .error error => return .ready (.error error)
  | .ok slotIndex => pollTerminal hooks slotIndex

def deadlineElapsed (operation : OperationRecord D C) (world : W) : Bool :=
  operation.deadline.any fun deadline => decide (deadline ≤ hooks.now world)

def poll (id : OperationId) : RegM W D C (Poll (OperationResult OperationOutcome)) := do
  let registry ← getRegistry
  match registry.location id with
  | .error error => return .ready (.error error)
  | .ok slotIndex =>
    if registry.isTerminalAt slotIndex then pollTerminal hooks slotIndex
    else do
      let operation ← expect (registry.operationAt slotIndex) ⟨"slot occupied"⟩
      match ← callDriver slotIndex operation hooks.poll with
      | .pending =>
        if deadlineElapsed hooks operation (← get).world then do
          let _ ← cancel hooks id .deadline
          pollFinished hooks id
        else return .pending
      | .ready (.ok _) => do
          let _ ← finishTerminal hooks id .completed .completed
          pollFinished hooks id
      | .ready (.error error) => do
          let _ ← finishTerminal hooks id (.failed error) (.failed error)
          pollFinished hooks id

def pollQuiescent (id : OperationId) : RegM W D C (Poll (OperationResult OperationOutcome)) := do
  let registry ← getRegistry
  match registry.location id with
  | .error error => return .ready (.error error)
  | .ok slotIndex =>
    if registry.isTerminalAt slotIndex then pollTerminal hooks slotIndex else return .pending

/-! ## Aborts and sweeps -/

/-- An operation that was pending has crossed the wait boundary of its driver; any other is
taken as usual. -/
def takeAborted (id : OperationId) (pending : Bool) :
    RegM W D C (OperationResult OperationOutcome) :=
  if pending then takeOutcomeAfterCancelAndWait id else takeOutcome hooks id

def abortResult : OperationResult Bool → OperationResult OperationOutcome → OperationResult Bool
  | .error error, _ => .error error
  | .ok _, .error error => .error error
  | .ok cancelled, .ok _ => .ok cancelled

def abort (id : OperationId) (reason : OperationCancelReason) :
    RegM W D C (OperationResult Bool) := do
  let registry ← getRegistry
  match registry.location id with
  | .error error => return .error error
  | .ok slotIndex => do
      let pending := registry.isPendingAt slotIndex
      let cancelled ← cancelWithWait hooks id reason true
      let taken ← takeAborted hooks id pending
      return abortResult cancelled taken

structure OperationCancelSummary where
  matched : Nat
  cancelled : Nat
  failed : Nat
  firstError : Option OperationError
  deriving DecidableEq, Repr

def OperationCancelSummary.empty : OperationCancelSummary := ⟨0, 0, 0, none⟩

def OperationCancelSummary.record (summary : OperationCancelSummary)
    (result : OperationResult Bool) : OperationCancelSummary :=
  let summary := { summary with matched := summary.matched + 1 }
  match result with
  | .ok true => { summary with cancelled := summary.cancelled + 1 }
  | .ok false => summary
  | .error error =>
    { summary with
      failed := summary.failed + 1
      firstError := summary.firstError <|> some error }

/-- The ids of the occupied slots, in the order of the slots. -/
def occupiedIds : RegM W D C (List OperationId) := do
  let registry ← getRegistry
  let occupied := (List.range registry.slots.length).filter fun slotIndex =>
    (registry.operationAt slotIndex).isSome
  occupied.mapM fun slotIndex =>
    expect (OperationId.encode registry.tag.value slotIndex
      (registry.entryAt slotIndex).generation) ⟨"occupied slot encodes a registry id"⟩

/-- Cancel the operations that are still pending, one after the other. -/
def cancelPending (cancel : OperationId → RegM W D C (OperationResult Bool)) :
    List OperationId → OperationCancelSummary → RegM W D C OperationCancelSummary
  | [], summary => return summary
  | id :: ids, summary => do
      if (← getRegistry).isPendingId id then do
        let result ← cancel id
        cancelPending cancel ids (summary.record result)
      else cancelPending cancel ids summary

def cancelAllAndWait (reason : OperationCancelReason) : RegM W D C OperationCancelSummary := do
  cancelPending (fun id => abort hooks id reason) (← occupiedIds) .empty

def cancelAll (reason : OperationCancelReason) : RegM W D C OperationCancelSummary := do
  cancelPending (fun id => cancel hooks id reason) (← occupiedIds) .empty

/-- Release the terminal operations whose drivers have become quiescent. -/
def drainQuiescent : List OperationId → RegM W D C Unit
  | [] => pure ()
  | id :: ids => do
      let registry ← getRegistry
      match registry.location id with
      | .error _ => drainQuiescent ids
      | .ok slotIndex =>
        if registry.isTerminalAt slotIndex then do
          let _ ← pollTerminal hooks slotIndex
          drainQuiescent ids
        else drainQuiescent ids

def pollQuiescence : RegM W D C Bool := do
  drainQuiescent hooks (← occupiedIds)
  return (← getRegistry).isEmpty

def «seal» : RegM W D C Unit := modifyRegistry fun registry => { registry with «sealed» := true }

/-! ## Calls -/

/-- What an owner of a registry can do.  Between the calls the world may change. -/
inductive RegistryCall (W D C : Type) where
  | start (spec : OperationSpec D C)
  | status (id : OperationId)
  | takeOutcome (id : OperationId)
  | poll (id : OperationId)
  | pollQuiescent (id : OperationId)
  | cancel (id : OperationId) (reason : OperationCancelReason)
  | abort (id : OperationId) (reason : OperationCancelReason)
  | cancelAllAndWait (reason : OperationCancelReason)
  | cancelAll (reason : OperationCancelReason)
  | pollQuiescence
  | complete (id : OperationId)
  | fail (id : OperationId) (error : OperationError)
  | remove (id : OperationId)
  | «seal»
  | world (change : W → W)

inductive RegistryReply where
  | id (result : OperationResult OperationId)
  | status (result : OperationResult OperationStatus)
  | outcome (result : OperationResult OperationOutcome)
  | poll (result : Poll (OperationResult OperationOutcome))
  | flag (result : OperationResult Bool)
  | summary (summary : OperationCancelSummary)
  | empty (empty : Bool)
  | unit

def OperationRegistry.status (registry : OperationRegistry D C) (id : OperationId) :
    OperationResult OperationStatus := do
  let slotIndex ← registry.location id
  match registry.operationAt slotIndex with
  | none => throw (operationStale id)
  | some operation => return operation.status

def runCall : RegistryCall W D C → RegM W D C RegistryReply
  | .start spec => do return .id (← start spec)
  | .status id => do return .status ((← getRegistry).status id)
  | .takeOutcome id => do return .outcome (← takeOutcome hooks id)
  | .poll id => do return .poll (← poll hooks id)
  | .pollQuiescent id => do return .poll (← pollQuiescent hooks id)
  | .cancel id reason => do return .flag (← cancel hooks id reason)
  | .abort id reason => do return .flag (← abort hooks id reason)
  | .cancelAllAndWait reason => do return .summary (← cancelAllAndWait hooks reason)
  | .cancelAll reason => do return .summary (← cancelAll hooks reason)
  | .pollQuiescence => do return .empty (← pollQuiescence hooks)
  | .complete id => do return .flag (← complete hooks id)
  | .fail id error => do return .flag (← fail hooks id error)
  | .remove id => do return .status (← remove hooks id)
  | .seal => do
      «seal»
      return .unit
  | .world change => do
      modify fun s => { s with world := change s.world }
      return .unit

/-- A sequence of calls, with their replies. -/
def runCalls : List (RegistryCall W D C) → RegM W D C (List (RegistryCall W D C × RegistryReply))
  | [] => return []
  | call :: calls => do
      let reply ← runCall hooks call
      let rest ← runCalls calls
      return (call, reply) :: rest

end Operations

end RustScript.Operation
