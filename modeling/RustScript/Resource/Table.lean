import RustScript.Lib.Arena
import RustScript.Resource.Handle

/-!
# The resource table

The typed generational table that owns the resources of one execution scope.  A
slot is vacant, open, or closing; the close hooks of a resource are arbitrary and
act on a world `W` that stands for everything outside the table, the waker of the
caller included.

The operations are those of the source, as computations over the table and the
world.  The list `events` is a history: it records the insertions, the takes and
the hook calls with their answers, and no operation reads it.

A slot is only borrowed for the length of one host call, and every operation
below holds the table exclusively, so a borrow conflict cannot occur and is left
out; so is the typed scope state, which no slot operation reads.
-/

namespace RustScript.Resource

/-! ## Resources and slots -/

inductive CloseProgress where
  | ready
  | pending
  deriving DecidableEq, Repr

inductive Poll (α : Type) where
  | ready (value : α)
  | pending
  deriving DecidableEq, Repr

/-- The close hooks of the resources. -/
structure HostResource (W R : Type) where
  beginClose : R → ResourceCloseReason → W → ResourceResult CloseProgress × R × W
  pollClose : R → W → Poll (ResourceResult Unit) × R × W

abbrev TypeId := Nat

/-- What a concrete resource type declares. -/
structure ResourceType where
  typeId : TypeId
  resourceTypeKey : Option String
  deriving DecidableEq, Repr

inductive SlotState (R : Type) where
  | vacant
  | open (resource : R)
  | closing (resource : R)
  deriving DecidableEq, Repr

namespace SlotState

variable {R : Type}

def isVacant : SlotState R → Bool
  | .vacant => true
  | _ => false

def isOpen : SlotState R → Bool
  | .open _ => true
  | _ => false

def isClosing : SlotState R → Bool
  | .closing _ => true
  | _ => false

end SlotState

structure ResourceSlot (R : Type) where
  generation : Nat
  typeId : TypeId
  resourceTypeKey : Option String
  state : SlotState R
  deriving DecidableEq, Repr

/-- What a close-all sweep adds up. -/
structure SweepTotals where
  closed : Nat
  failed : Nat
  firstError : Option ResourceError
  deriving DecidableEq, Repr

structure CloseAllState where
  reason : ResourceCloseReason
  totals : SweepTotals
  deriving DecidableEq, Repr

structure ResourceTable (R : Type) where
  arenaId : Nat
  maxEntries : Nat
  slots : List (ResourceSlot R)
  /-- The free list, as a stack: the next slot to be used stands first. -/
  vacantSlots : List Nat
  activeEntries : Nat
  closeAll : Option CloseAllState
  deriving DecidableEq, Repr

/-- A table without resources. -/
def ResourceTable.fresh {R : Type} (arenaId maxEntries : Nat) : ResourceTable R :=
  ⟨arenaId, maxEntries, [], [], 0, none⟩

/-- An occupant of a table: the slot, and the generation it was inserted under. -/
@[ext]
structure Entry where
  slotIndex : Nat
  generation : Nat
  deriving DecidableEq, Repr

inductive TableEvent where
  | inserted (entry : Entry)
  | taken (entry : Entry)
  | beginClose (entry : Entry) (answer : ResourceResult CloseProgress)
  | pollClose (entry : Entry) (answer : Poll (ResourceResult Unit))

structure TableState (W R : Type) where
  table : ResourceTable R
  world : W
  events : List TableEvent

abbrev TableM (W R : Type) := StateM (TableState W R)

/-! ## Error constructors -/

def wrongArenaError (handle : ResourceHandle) : ResourceError :=
  (ResourceError.new .resourceHandleWrongTable "resource::table"
    "resource handle does not belong to this table's arena").withValue handle.raw

def staleHandleError (handle : ResourceHandle) : ResourceError :=
  (ResourceError.new .resourceStale "resource::table"
    "resource handle refers to a stale slot generation").withValue handle.raw

def alreadyClosedError (handle : ResourceHandle) : ResourceError :=
  (ResourceError.new .resourceAlreadyClosed "resource::table"
    "resource is already closed or closing").withValue handle.raw

def typeMismatch (handle : ResourceHandle) (expected : TypeId) : ResourceError :=
  (ResourceError.new .resourceTypeMismatch "resource::table"
    s!"resource type does not match expected type {expected}").withValue handle.raw

def resourceTypeKeyMismatch (handle : ResourceHandle) (actual : Option String)
    (expected : String) : ResourceError :=
  (ResourceError.new .resourceTypeKeyMismatch "resource::table"
    ("resource type key does not match expected key '" ++ expected ++ "'; actual key is '" ++
      actual.getD "<none>" ++ "'")).withValue handle.raw

def notClosingError (handle : ResourceHandle) : ResourceError :=
  (ResourceError.new .resourceNotClosing "resource::table"
    "resource is not in the closing state").withValue handle.raw

def closeInProgressError (reason inProgress : ResourceCloseReason) : ResourceError :=
  .new .resourceCloseInProgress "resource::poll_close_all"
    ("a close-all sweep is already in progress with reason \x60" ++ inProgress.asStr ++
      "\x60; requested reason \x60" ++ reason.asStr ++ "\x60 was rejected")

/-! ## Reading the table -/

namespace ResourceTable

variable {R : Type} (table : ResourceTable R)

def len : Nat := table.activeEntries

def isEmpty : Bool := table.activeEntries == 0

def stateAt (slotIndex : Nat) : SlotState R :=
  match table.slots[slotIndex]? with
  | some slot => slot.state
  | none => .vacant

/-- The occupant of a slot. -/
def entryAt (slotIndex : Nat) : Entry :=
  ⟨slotIndex, match table.slots[slotIndex]? with
    | some slot => slot.generation
    | none => 0⟩

def indicesWhere (p : SlotState R → Bool) : List Nat :=
  (List.range table.slots.length).filter fun slotIndex => p (table.stateAt slotIndex)

def openIndices : List Nat := table.indicesWhere SlotState.isOpen

def closingIndices : List Nat := table.indicesWhere SlotState.isClosing

def liveIndices : List Nat := table.indicesWhere fun state => !state.isVacant

def resolveIndex (handle : ResourceHandle) : ResourceResult Nat :=
  if handle.arenaId ≠ table.arenaId then throw (wrongArenaError handle)
  else match table.slots[handle.slotIndex]? with
    | none => throw (staleHandleError handle)
    | some slot =>
      if slot.generation ≠ handle.generation then throw (staleHandleError handle)
      else return handle.slotIndex

def checkType (typeId : TypeId) (slotIndex : Nat) (handle : ResourceHandle) : ResourceResult Unit :=
  if (table.slots[slotIndex]?).map ResourceSlot.typeId ≠ some typeId then
    throw (typeMismatch handle typeId)
  else return ()

/-- A live, open resource of the given concrete type. -/
def validateActive (typeId : TypeId) (handle : ResourceHandle) : ResourceResult Nat := do
  let slotIndex ← table.resolveIndex handle
  table.checkType typeId slotIndex handle
  if (table.stateAt slotIndex).isOpen then return slotIndex
  else throw (alreadyClosedError handle)

def typed (typeId : TypeId) (handle : ResourceHandle) : ResourceResult ResourceHandle := do
  let _ ← table.validateActive typeId handle
  return handle

def validateResourceTypeKey (handle : ResourceHandle) (expected : String) :
    ResourceResult Unit := do
  let slotIndex ← table.resolveIndex handle
  if ¬(table.stateAt slotIndex).isOpen then throw (alreadyClosedError handle)
  let actual := (table.slots[slotIndex]?).bind ResourceSlot.resourceTypeKey
  if actual ≠ some expected then throw (resourceTypeKeyMismatch handle actual expected)

/-- The handles of the current occupants. -/
def liveHandles : ResourceResult (List ResourceHandle) :=
  table.liveIndices.mapM fun slotIndex =>
    let entry := table.entryAt slotIndex
    match ResourceHandle.encode table.arenaId entry.slotIndex entry.generation with
    | some handle => return handle
    | none => throw (.new .resourceIdExhausted "resource::snapshot"
        "live resource handle cannot be encoded")

/-! ## Changing the table -/

def setState (slotIndex : Nat) (state : SlotState R) : ResourceTable R :=
  { table with slots := table.slots.modify slotIndex fun slot => { slot with state } }

def reclaim (slotIndex : Nat) : ResourceTable R :=
  { table.setState slotIndex .vacant with
    vacantSlots :=
      if (table.entryAt slotIndex).generation < maxHandleGeneration then
        slotIndex :: table.vacantSlots
      else table.vacantSlots
    activeEntries := table.activeEntries - 1 }

/-- `allocate`, up to the encoding of the handle: the slot and generation of the new
occupant. -/
def place (type : ResourceType) (value : R) : ResourceResult (Entry × ResourceTable R) :=
  if table.maxEntries ≤ table.activeEntries then
    throw ((ResourceError.new .resourceLimitExceeded "resource::push"
      "resource table capacity has been reached").withLimit table.maxEntries)
  else match table.vacantSlots with
    | slotIndex :: rest =>
      let generation := (table.entryAt slotIndex).generation + 1
      let slot := ⟨generation, type.typeId, type.resourceTypeKey, .open value⟩
      return (⟨slotIndex, generation⟩,
        { table with
          slots := table.slots.modify slotIndex fun _ => slot
          vacantSlots := rest
          activeEntries := table.activeEntries + 1 })
    | [] =>
      if maxResourceSlots ≤ table.slots.length then
        throw (.new .resourceIdExhausted "resource::push" "resource table slot space is exhausted")
      else
        let slot := ⟨1, type.typeId, type.resourceTypeKey, .open value⟩
        return (⟨table.slots.length, 1⟩,
          { table with
            slots := table.slots ++ [slot]
            activeEntries := table.activeEntries + 1 })

end ResourceTable

/-! ## Primitive computations -/

section Operations

variable {W R : Type} (hooks : HostResource W R)

def getTable : TableM W R (ResourceTable R) := fun s => (s.table, s)

def modifyTable (f : ResourceTable R → ResourceTable R) : TableM W R Unit :=
  fun s => ((), { s with table := f s.table })

def record (event : TableEvent) : TableM W R Unit :=
  fun s => ((), { s with events := s.events ++ [event] })

def replaceSlotState (slotIndex : Nat) (state : SlotState R) : TableM W R (SlotState R) := do
  let table ← getTable
  modifyTable fun table => table.setState slotIndex state
  return table.stateAt slotIndex

def putSlotState (slotIndex : Nat) (state : SlotState R) : TableM W R Unit :=
  modifyTable fun table => table.setState slotIndex state

def reclaim (slotIndex : Nat) : TableM W R Unit :=
  modifyTable fun table => table.reclaim slotIndex

/-- The begin-close hook of the occupant of a slot. -/
def callBeginClose (slotIndex : Nat) (resource : R) (reason : ResourceCloseReason) :
    TableM W R (ResourceResult CloseProgress × R) := do
  let entry := (← getTable).entryAt slotIndex
  let (answer, resource) ← (fun s =>
    let (answer, resource, world) := hooks.beginClose resource reason s.world
    ((answer, resource), { s with world }))
  record (.beginClose entry answer)
  return (answer, resource)

/-- The poll-close hook of the occupant of a slot. -/
def callPollClose (slotIndex : Nat) (resource : R) :
    TableM W R (Poll (ResourceResult Unit) × R) := do
  let entry := (← getTable).entryAt slotIndex
  let (answer, resource) ← (fun s =>
    let (answer, resource, world) := hooks.pollClose resource s.world
    ((answer, resource), { s with world }))
  record (.pollClose entry answer)
  return (answer, resource)

/-! ## Insertion, access and removal -/

def push (type : ResourceType) (value : R) : TableM W R (ResourceResult ResourceHandle) := do
  let table ← getTable
  match table.place type value with
  | .error error => return .error error
  | .ok (entry, table) =>
    modifyTable fun _ => table
    record (.inserted entry)
    match ResourceHandle.encode table.arenaId entry.slotIndex entry.generation with
    | some handle => return .ok handle
    | none => return .error (.new .resourceIdExhausted "resource::push"
        "resource handle encoding overflowed")

/-- A shared borrow, which ends with the resource unchanged. -/
def getResource (typeId : TypeId) (handle : ResourceHandle) : TableM W R (ResourceResult R) := do
  let table ← getTable
  return (do
    let slotIndex ← table.validateActive typeId handle
    match table.stateAt slotIndex with
    | .open resource => return resource
    | _ => throw (alreadyClosedError handle))

/-- A mutable borrow, through which the host changes the resource by `update`. -/
def getMut (typeId : TypeId) (handle : ResourceHandle) (update : R → R) :
    TableM W R (ResourceResult R) := do
  let table ← getTable
  match table.validateActive typeId handle with
  | .error error => return .error error
  | .ok slotIndex =>
    match table.stateAt slotIndex with
    | .open resource =>
      putSlotState slotIndex (.open (update resource))
      return .ok (update resource)
    | _ => return .error (alreadyClosedError handle)

/-- The checks of an operation on a handle, before it touches the slot. -/
def ResourceTable.checked (table : ResourceTable R) (typeId : TypeId) (handle : ResourceHandle) :
    ResourceResult Nat := do
  let slotIndex ← table.resolveIndex handle
  table.checkType typeId slotIndex handle
  return slotIndex

def take (typeId : TypeId) (handle : ResourceHandle) : TableM W R (ResourceResult R) := do
  match (← getTable).checked typeId handle with
  | .error error => return .error error
  | .ok slotIndex =>
    match ← replaceSlotState slotIndex .vacant with
    | .open resource =>
      record (.taken ((← getTable).entryAt slotIndex))
      reclaim slotIndex
      return .ok resource
    | .closing resource =>
      putSlotState slotIndex (.closing resource)
      return .error (alreadyClosedError handle)
    | .vacant => return .error (alreadyClosedError handle)

/-! ## Closing one resource -/

def closeOpenSlot (slotIndex : Nat) (handle : ResourceHandle) (reason : ResourceCloseReason) :
    TableM W R (ResourceResult CloseProgress) := do
  match ← replaceSlotState slotIndex .vacant with
  | .open resource =>
    let (answer, resource) ← callBeginClose hooks slotIndex resource reason
    match answer with
    | .ok .ready =>
      reclaim slotIndex
      return .ok .ready
    | .ok .pending =>
      putSlotState slotIndex (.closing resource)
      return .ok .pending
    | .error error =>
      putSlotState slotIndex (.open resource)
      return .error error
  | .closing resource =>
    putSlotState slotIndex (.closing resource)
    return .ok .pending
  | .vacant => return .error (alreadyClosedError handle)

def beginClose (typeId : TypeId) (handle : ResourceHandle) (reason : ResourceCloseReason) :
    TableM W R (ResourceResult CloseProgress) := do
  match (← getTable).checked typeId handle with
  | .error error => return .error error
  | .ok slotIndex => closeOpenSlot hooks slotIndex handle reason

def pollClose (typeId : TypeId) (handle : ResourceHandle) :
    TableM W R (Poll (ResourceResult Unit)) := do
  match (← getTable).checked typeId handle with
  | .error error => return .ready (.error error)
  | .ok slotIndex =>
    match ← replaceSlotState slotIndex .vacant with
    | .closing resource =>
      let (answer, resource) ← callPollClose hooks slotIndex resource
      match answer with
      | .ready result =>
        reclaim slotIndex
        return .ready result
      | .pending =>
        putSlotState slotIndex (.closing resource)
        return .pending
    | .open resource =>
      putSlotState slotIndex (.open resource)
      return .ready (.error (notClosingError handle))
    | .vacant => return .ready (.error (alreadyClosedError handle))

/-! ## Sweeps -/

/-- A resource is disposed of without an error. -/
def SweepTotals.dispose (totals : SweepTotals) : SweepTotals :=
  { totals with closed := totals.closed + 1 }

/-- A resource is disposed of although its hook failed. -/
def SweepTotals.fail (totals : SweepTotals) (error : ResourceError) : SweepTotals where
  closed := totals.closed + 1
  failed := totals.failed + 1
  firstError := totals.firstError <|> some error

def tryBeginClose (reason : ResourceCloseReason) (slotIndex : Nat) (totals : SweepTotals) :
    TableM W R (Bool × SweepTotals) := do
  match ← replaceSlotState slotIndex .vacant with
  | .open resource =>
    let (answer, resource) ← callBeginClose hooks slotIndex resource reason
    match answer with
    | .ok .ready =>
      reclaim slotIndex
      return (true, totals.dispose)
    | .ok .pending =>
      putSlotState slotIndex (.closing resource)
      return (true, totals)
    | .error error =>
      reclaim slotIndex
      return (true, totals.fail error)
  | state =>
    putSlotState slotIndex state
    return (false, totals)

def tryPollClose (slotIndex : Nat) (totals : SweepTotals) : TableM W R (Bool × SweepTotals) := do
  match ← replaceSlotState slotIndex .vacant with
  | .closing resource =>
    let (answer, resource) ← callPollClose hooks slotIndex resource
    match answer with
    | .ready (.ok _) =>
      reclaim slotIndex
      return (true, totals.dispose)
    | .ready (.error error) =>
      reclaim slotIndex
      return (true, totals.fail error)
    | .pending =>
      putSlotState slotIndex (.closing resource)
      return (false, totals)
  | state =>
    putSlotState slotIndex state
    return (false, totals)

/-- Visit the slots in order; the flag says whether one of them made progress. -/
def visitSlots (visit : Nat → SweepTotals → TableM W R (Bool × SweepTotals)) :
    List Nat → Bool → SweepTotals → TableM W R (Bool × SweepTotals)
  | [], progressed, totals => return (progressed, totals)
  | slotIndex :: indices, progressed, totals => do
      let (moved, totals) ← visit slotIndex totals
      visitSlots visit indices (progressed || moved) totals

/-- One pass: begin every open resource, then poll every closing one. -/
def sweepPass (reason : ResourceCloseReason) (totals : SweepTotals) :
    TableM W R (Bool × SweepTotals) := do
  let (progressed, totals) ←
    visitSlots (tryBeginClose hooks reason) (← getTable).openIndices false totals
  visitSlots (tryPollClose hooks) (← getTable).closingIndices progressed totals

/-- Passes until one of them makes no progress. -/
def sweep (reason : ResourceCloseReason) : Nat → SweepTotals → TableM W R SweepTotals
  | 0, totals => return totals
  | fuel + 1, totals => do
      let (progressed, totals) ← sweepPass hooks reason totals
      if progressed then sweep reason fuel totals else return totals

/-- So many passes, whatever they make. -/
def passes (reason : ResourceCloseReason) : Nat → SweepTotals → TableM W R SweepTotals
  | 0, totals => return totals
  | count + 1, totals => do
      let (_, totals) ← sweepPass hooks reason totals
      passes reason count totals

/-- A pass that makes progress takes some slot from open to closing or vacant, or from
closing to vacant, so this many passes are enough. -/
def ResourceTable.sweepFuel (table : ResourceTable R) : Nat := 2 * table.slots.length + 1

def pollCloseAllReport (reason : ResourceCloseReason) :
    TableM W R (Poll (ResourceResult SweepTotals)) := do
  let table ← getTable
  let state := table.closeAll.getD ⟨reason, ⟨0, 0, none⟩⟩
  if state.reason ≠ reason then
    return .ready (.error (closeInProgressError reason state.reason))
  else
    let totals ← sweep hooks reason table.sweepFuel state.totals
    if (← getTable).isEmpty then
      modifyTable fun table => { table with closeAll := none }
      return .ready (.ok totals)
    else
      modifyTable fun table => { table with closeAll := some ⟨reason, totals⟩ }
      return .pending

def pollCloseAll (reason : ResourceCloseReason) : TableM W R (Poll (ResourceResult Nat)) := do
  match ← pollCloseAllReport hooks reason with
  | .pending => return .pending
  | .ready (.error error) => return .ready (.error error)
  | .ready (.ok report) =>
    match report.firstError with
    | some error => return .ready (.error error)
    | none => return .ready (.ok report.closed)

/-- The synchronous sweep; dropping a table runs it with the reason `VmReset`. -/
def closeAll (reason : ResourceCloseReason) : TableM W R (ResourceResult Nat) := do
  match ← pollCloseAll hooks reason with
  | .ready result => return result
  | .pending => return .error (.new .resourceClosePending "resource::close_all"
      "synchronous close-all cannot drive pending resources to quiescence")

/-- The drop sweep launches the close of one slot and keeps it when the hook fails. -/
def launchClose (reason : ResourceCloseReason) (slotIndex : Nat)
    (firstError : Option ResourceError) : TableM W R (Option ResourceError) := do
  match ← replaceSlotState slotIndex .vacant with
  | .open resource =>
    let (answer, resource) ← callBeginClose hooks slotIndex resource reason
    match answer with
    | .ok .ready =>
      reclaim slotIndex
      return firstError
    | .ok .pending =>
      putSlotState slotIndex (.closing resource)
      return firstError
    | .error error =>
      putSlotState slotIndex (.open resource)
      return firstError <|> some error
  | state =>
    putSlotState slotIndex state
    return firstError

def launchAll (reason : ResourceCloseReason) :
    List Nat → Option ResourceError → TableM W R (Option ResourceError)
  | [], firstError => return firstError
  | slotIndex :: indices, firstError => do
      let firstError ← launchClose hooks reason slotIndex firstError
      launchAll reason indices firstError

def beginCloseRemainingForDrop (reason : ResourceCloseReason) :
    TableM W R (ResourceResult Unit) := do
  match ← launchAll hooks reason (← getTable).liveIndices none with
  | some error => return .error error
  | none => return .ok ()

/-- Close an occupant that is not in the snapshot. -/
def closeAdded (before : List ResourceHandle) (slotIndex : Nat) (totals : SweepTotals) :
    TableM W R (Bool × SweepTotals) := do
  let table ← getTable
  let entry := table.entryAt slotIndex
  -- The encoding of a live occupant never fails.
  match ResourceHandle.encode table.arenaId entry.slotIndex entry.generation with
  | none => return (false, totals)
  | some handle =>
    if handle ∈ before then return (false, totals)
    else
      let (began, totals) ← tryBeginClose hooks .requested slotIndex totals
      let (polled, totals) ← tryPollClose hooks slotIndex totals
      return (began || polled, totals)

/-- The close of what a failed completion inserted. -/
def pollCloseAdded (before : List ResourceHandle) (cleanupError : Option ResourceError) :
    TableM W R (Poll (ResourceResult Unit) × Option ResourceError) := do
  let (_, totals) ← visitSlots (closeAdded hooks before) (← getTable).liveIndices false ⟨0, 0, none⟩
  let cleanupError := cleanupError <|> totals.firstError
  match (← getTable).liveHandles with
  | .error error => return (.ready (.error error), cleanupError)
  | .ok handles =>
    if handles.all (· ∈ before) then
      match cleanupError with
      | some error => return (.ready (.error error), cleanupError)
      | none => return (.ready (.ok ()), cleanupError)
    else return (.pending, cleanupError)

/-! ## The operations of a table -/

inductive TableOp (R : Type) where
  | push (type : ResourceType) (value : R)
  | typed (typeId : TypeId) (handle : ResourceHandle)
  | validateResourceTypeKey (handle : ResourceHandle) (expected : String)
  | get (typeId : TypeId) (handle : ResourceHandle)
  | getMut (typeId : TypeId) (handle : ResourceHandle) (update : R → R)
  | take (typeId : TypeId) (handle : ResourceHandle)
  | beginClose (typeId : TypeId) (handle : ResourceHandle) (reason : ResourceCloseReason)
  | pollClose (typeId : TypeId) (handle : ResourceHandle)
  | pollCloseAllReport (reason : ResourceCloseReason)
  | pollCloseAll (reason : ResourceCloseReason)
  | closeAll (reason : ResourceCloseReason)
  | beginCloseRemainingForDrop (reason : ResourceCloseReason)
  | pollCloseAdded (before : List ResourceHandle) (cleanupError : Option ResourceError)

inductive TableReply (R : Type) where
  | handle (result : ResourceResult ResourceHandle)
  | resource (result : ResourceResult R)
  | progress (result : ResourceResult CloseProgress)
  | unit (result : ResourceResult Unit)
  | count (result : ResourceResult Nat)
  | poll (result : Poll (ResourceResult Unit))
  | pollCount (result : Poll (ResourceResult Nat))
  | pollReport (result : Poll (ResourceResult SweepTotals))

def runOp : TableOp R → TableM W R (TableReply R)
  | .push type value => .handle <$> push type value
  | .typed typeId handle => do return .handle ((← getTable).typed typeId handle)
  | .validateResourceTypeKey handle expected => do
      return .unit ((← getTable).validateResourceTypeKey handle expected)
  | .get typeId handle => .resource <$> getResource typeId handle
  | .getMut typeId handle update => .resource <$> getMut typeId handle update
  | .take typeId handle => .resource <$> take typeId handle
  | .beginClose typeId handle reason => .progress <$> beginClose hooks typeId handle reason
  | .pollClose typeId handle => .poll <$> pollClose hooks typeId handle
  | .pollCloseAllReport reason => .pollReport <$> pollCloseAllReport hooks reason
  | .pollCloseAll reason => .pollCount <$> pollCloseAll hooks reason
  | .closeAll reason => .count <$> closeAll hooks reason
  | .beginCloseRemainingForDrop reason => .unit <$> beginCloseRemainingForDrop hooks reason
  | .pollCloseAdded before cleanupError =>
    (fun reply => .poll reply.1) <$> pollCloseAdded hooks before cleanupError

end Operations

end RustScript.Resource
