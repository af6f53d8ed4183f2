import RustScript.Operation.Registry

/-!
# Execution scopes

An execution scope owns a resource table and an operation registry, and closes them
together: `begin_close` stops new insertions and binds the reason, and `poll_close` cancels
the operations, waits until their registry is empty, and then sweeps the table.

The state of a computation has the scope, the world that the hooks of both components act
on, and the log, a history of both in one order: what a computation on a component adds to
the history of the component is added to the log.
-/

namespace RustScript.Scope

open Operation Resource
open Wp (expect zoom)

/-! ## Scopes -/

inductive ScopeState where
  | active
  | closing
  | quiescent
  deriving DecidableEq, Repr

inductive ScopeCloseError where
  | operation (error : OperationError)
  | resource (error : ResourceError)
  deriving DecidableEq, Repr

structure ScopeCloseFailure where
  first : ScopeCloseError
  failed : Nat
  deriving DecidableEq, Repr

inductive ScopeCloseOutcome where
  | success
  | successWithErrors (failure : ScopeCloseFailure)
  deriving DecidableEq, Repr

inductive ExecutionScopeError where
  | closeAlreadyInProgress (current : Option ResourceCloseReason)
      (requestedReason : ResourceCloseReason)
  | scopeClosing
  | scopeNotClosing
  | resource (error : ResourceError)
  | operation (error : OperationError)
  deriving DecidableEq, Repr

abbrev ExecutionScopeResult (α : Type) := Except ExecutionScopeError α

structure ExecutionScope (D C R : Type) where
  operations : OperationRegistry D C
  resources : ResourceTable R
  state : ScopeState
  closeReason : Option ResourceCloseReason
  operationsDrained : Bool
  firstError : Option ScopeCloseError
  failedCount : Nat
  terminal : Option ScopeCloseOutcome

/-- A scope as `new` makes it, once its components have their identities. -/
def ExecutionScope.new {D C R : Type} (arenaId maxEntries maxPending : Nat) (tag : RegistryTag) :
    ExecutionScope D C R :=
  ⟨.new maxPending tag, .fresh arenaId maxEntries, .active, none, false, none, 0, none⟩

inductive ScopeEvent where
  | operation (event : OperationEvent)
  | resource (event : TableEvent)

def operationEvents (log : List ScopeEvent) : List OperationEvent :=
  log.filterMap fun
    | .operation event => some event
    | .resource _ => none

def resourceEvents (log : List ScopeEvent) : List TableEvent :=
  log.filterMap fun
    | .operation _ => none
    | .resource event => some event

structure ScopeRun (W D C R : Type) where
  scope : ExecutionScope D C R
  world : W
  log : List ScopeEvent

/-- The hooks of the operations and of the resources. -/
structure ScopeHooks (W D C R : Type) where
  operations : HostOperation W D C
  resources : HostResource W R

abbrev ScopeM (W D C R : Type) := EStateM Panic (ScopeRun W D C R)

/-! ## Computations on the components -/

section Functions

variable {W D C R α : Type}

namespace ScopeRun

def operationState (s : ScopeRun W D C R) : RegistryState W D C :=
  ⟨s.scope.operations, s.world, operationEvents s.log⟩

def withOperations (s : ScopeRun W D C R) (t : RegistryState W D C) : ScopeRun W D C R where
  scope := { s.scope with operations := t.registry }
  world := t.world
  log := s.log ++ (t.events.drop (operationEvents s.log).length).map .operation

def resourceState (s : ScopeRun W D C R) : TableState W R :=
  ⟨s.scope.resources, s.world, resourceEvents s.log⟩

def withResources (s : ScopeRun W D C R) (t : TableState W R) : ScopeRun W D C R where
  scope := { s.scope with resources := t.table }
  world := t.world
  log := s.log ++ (t.events.drop (resourceEvents s.log).length).map .resource

end ScopeRun

def onOperations (x : RegM W D C α) : ScopeM W D C R α :=
  zoom ScopeRun.operationState ScopeRun.withOperations x

def onResources (x : TableM W R α) : ScopeM W D C R α := fun s =>
  let (a, t) := x s.resourceState
  .ok a (s.withResources t)

def getScope : ScopeM W D C R (ExecutionScope D C R) := do return (← get).scope

def modifyScope (f : ExecutionScope D C R → ExecutionScope D C R) : ScopeM W D C R Unit :=
  modify fun s => { s with scope := f s.scope }

/-! ## Using a scope -/

def ensureAccepting : ScopeM W D C R (ExecutionScopeResult Unit) := do
  if (← getScope).state = .active then return .ok () else return .error .scopeClosing

/-- Insertions of the three kinds. -/
inductive InsertCall (D C R : Type) where
  | pushResource (type : ResourceType) (value : R)
  | startOperation (spec : OperationSpec D C)
  | scopeState

inductive Inserted where
  | handle (handle : ResourceHandle)
  | id (id : OperationId)
  | state

def pushResource (type : ResourceType) (value : R) :
    ScopeM W D C R (ExecutionScopeResult ResourceHandle) := do
  match ← ensureAccepting with
  | .error error => return .error error
  | .ok _ => return (← onResources (push type value)).mapError .resource

def startOperation (spec : OperationSpec D C) :
    ScopeM W D C R (ExecutionScopeResult OperationId) := do
  match ← ensureAccepting with
  | .error error => return .error error
  | .ok _ => return (← onOperations (start spec)).mapError .operation

/-- The typed state of a scope lives apart from the slots of the table; only its admission
is modelled. -/
def scopeStateOrInsertWith : ScopeM W D C R (ExecutionScopeResult Unit) := ensureAccepting

def insert : InsertCall D C R → ScopeM W D C R (ExecutionScopeResult Inserted)
  | .pushResource type value => do return (← pushResource type value).map .handle
  | .startOperation spec => do return (← startOperation spec).map .id
  | .scopeState => do return (← scopeStateOrInsertWith).map fun _ => .state

variable (hooks : ScopeHooks W D C R)

def takeResource (typeId : TypeId) (handle : ResourceHandle) :
    ScopeM W D C R (ExecutionScopeResult R) := do
  return (← onResources (take typeId handle)).mapError .resource

def resourceMut (typeId : TypeId) (handle : ResourceHandle) (update : R → R) :
    ScopeM W D C R (ResourceResult R) :=
  onResources (getMut typeId handle update)

def closeResource (typeId : TypeId) (handle : ResourceHandle) (reason : ResourceCloseReason) :
    ScopeM W D C R (ExecutionScopeResult CloseProgress) := do
  match (← getScope).resources.typed typeId handle with
  | .error error => return .error (.resource error)
  | .ok token =>
    return (← onResources (Resource.beginClose hooks.resources typeId token reason)).mapError
      .resource

def pollResourceClose (typeId : TypeId) (handle : ResourceHandle) :
    ScopeM W D C R (Poll (ExecutionScopeResult Unit)) := do
  match ← onResources (Resource.pollClose hooks.resources typeId handle) with
  | .pending => return .pending
  | .ready result => return .ready (result.mapError .resource)

def cancelOperation (id : OperationId) (reason : OperationCancelReason) :
    ScopeM W D C R (ExecutionScopeResult Bool) := do
  return (← onOperations (cancel hooks.operations id reason)).mapError .operation

def completeOperation (id : OperationId) : ScopeM W D C R (ExecutionScopeResult Bool) := do
  return (← onOperations (complete hooks.operations id)).mapError .operation

def takeOperationOutcome (id : OperationId) :
    ScopeM W D C R (ExecutionScopeResult OperationOutcome) := do
  return (← onOperations (takeOutcome hooks.operations id)).mapError .operation

def pollOperation (id : OperationId) :
    ScopeM W D C R (Poll (ExecutionScopeResult OperationOutcome)) := do
  match ← onOperations (poll hooks.operations id) with
  | .pending => return .pending
  | .ready result => return .ready (result.mapError .operation)

def pollOperationQuiescence (id : OperationId) :
    ScopeM W D C R (Poll (ExecutionScopeResult OperationOutcome)) := do
  match ← onOperations (pollQuiescent hooks.operations id) with
  | .pending => return .pending
  | .ready result => return .ready (result.mapError .operation)

def abortOperation (id : OperationId) (reason : OperationCancelReason) :
    ScopeM W D C R (ExecutionScopeResult Bool) := do
  return (← onOperations (abort hooks.operations id reason)).mapError .operation

/-! ## Closing -/

def operationReason : ResourceCloseReason → OperationCancelReason
  | .requested => .requested
  | .deadline => .deadline
  | .vmReset => .vmReset
  | .parent => .parent
  | .resourceClosed => .resourceClosed
  | .vmDrop => .vmDrop

def beginClose (reason : ResourceCloseReason) : ScopeM W D C R (ExecutionScopeResult Bool) := do
  let scope ← getScope
  match scope.state with
  | .active => do
      modifyScope fun scope => { scope with state := .closing, closeReason := some reason }
      onOperations «seal»
      return .ok true
  | .closing | .quiescent =>
    if scope.closeReason = some reason then return .ok false
    else return .error (.closeAlreadyInProgress scope.closeReason reason)

namespace ExecutionScope

/-- The first failure is kept, and every failure is counted. -/
def recordFailure (scope : ExecutionScope D C R) (error : ScopeCloseError) : ExecutionScope D C R :=
  { scope with
    firstError := scope.firstError <|> some error
    failedCount := scope.failedCount + 1 }

/-- A number of failures, of which the first is known if there is one. -/
def recordFailures (scope : ExecutionScope D C R) (first : Option ScopeCloseError)
    (failed : Nat) : ExecutionScope D C R :=
  let recorded := match first with
    | some error => scope.recordFailure error
    | none => scope
  { recorded with
    failedCount := recorded.failedCount + (failed - if first.isSome then 1 else 0) }

def recordOperationSummary (scope : ExecutionScope D C R) (summary : OperationCancelSummary) :
    ExecutionScope D C R :=
  scope.recordFailures (summary.firstError.map .operation) summary.failed

def finishClose (scope : ExecutionScope D C R) : ExecutionScope D C R :=
  { scope with
    state := .quiescent
    firstError := none
    terminal := some (match scope.firstError with
      | some first => .successWithErrors ⟨first, scope.failedCount⟩
      | none => .success) }

end ExecutionScope

/-- The operations are cancelled in the first poll of a close. -/
def cancelOperations (reason : ResourceCloseReason) : ScopeM W D C R Unit := do
  if (← getScope).operationsDrained then pure ()
  else do
    let summary ← onOperations (cancelAll hooks.operations (operationReason reason))
    modifyScope fun scope =>
      { scope.recordOperationSummary summary with operationsDrained := true }

/-- The resources are swept once no operation is left. -/
def closeResources (reason : ResourceCloseReason) :
    ScopeM W D C R (Poll (ExecutionScopeResult ScopeCloseOutcome)) := do
  match ← onResources (pollCloseAllReport hooks.resources reason) with
  | .pending => return .pending
  | .ready result => do
      modifyScope fun scope =>
        (match result with
          | .ok report => scope.recordFailures (report.firstError.map .resource) report.failed
          | .error error => scope.recordFailure (.resource error)).finishClose
      return .ready (.ok (← expect (← getScope).terminal ⟨"finish_close set terminal"⟩))

/-- Once the operations have been cancelled, their drivers are polled, and the resources
wait for them. -/
def closeDrained (reason : ResourceCloseReason) :
    ScopeM W D C R (Poll (ExecutionScopeResult ScopeCloseOutcome)) := do
  if ¬ (← onOperations (pollQuiescence hooks.operations)) then return .pending
  else if ¬ (← getScope).operations.isEmpty then return .pending
  else closeResources hooks reason

def pollClose : ScopeM W D C R (Poll (ExecutionScopeResult ScopeCloseOutcome)) := do
  let scope ← getScope
  match scope.state with
  | .active => return .ready (.error .scopeNotClosing)
  | .quiescent => return .ready (.ok (← expect scope.terminal ⟨"quiescent has terminal"⟩))
  | .closing => do
      let reason ← expect scope.closeReason ⟨"closing scope has a bound reason"⟩
      cancelOperations hooks reason
      closeDrained hooks reason

/-! ## Calls -/

/-- What can be done with an open scope. -/
inductive UseCall (W D C R : Type) where
  | insert (call : InsertCall D C R)
  | takeResource (typeId : TypeId) (handle : ResourceHandle)
  | resourceMut (typeId : TypeId) (handle : ResourceHandle) (update : R → R)
  | closeResource (typeId : TypeId) (handle : ResourceHandle) (reason : ResourceCloseReason)
  | pollResourceClose (typeId : TypeId) (handle : ResourceHandle)
  | pollCloseAdded (before : List ResourceHandle) (cleanupError : Option ResourceError)
  | cancelOperation (id : OperationId) (reason : OperationCancelReason)
  | completeOperation (id : OperationId)
  | takeOperationOutcome (id : OperationId)
  | pollOperation (id : OperationId)
  | pollOperationQuiescence (id : OperationId)
  | abortOperation (id : OperationId) (reason : OperationCancelReason)
  | pollClose
  | world (change : W → W)

def changeWorld (change : W → W) : ScopeM W D C R Unit :=
  modify fun s => { s with world := change s.world }

def runUse : UseCall W D C R → ScopeM W D C R Unit
  | .insert call => discard (insert call)
  | .takeResource typeId handle => discard (takeResource typeId handle)
  | .resourceMut typeId handle update => discard (resourceMut typeId handle update)
  | .closeResource typeId handle reason => discard (closeResource hooks typeId handle reason)
  | .pollResourceClose typeId handle => discard (pollResourceClose hooks typeId handle)
  | .pollCloseAdded before cleanupError =>
    discard (onResources (Resource.pollCloseAdded hooks.resources before cleanupError))
  | .cancelOperation id reason => discard (cancelOperation hooks id reason)
  | .completeOperation id => discard (completeOperation hooks id)
  | .takeOperationOutcome id => discard (takeOperationOutcome hooks id)
  | .pollOperation id => discard (pollOperation hooks id)
  | .pollOperationQuiescence id => discard (pollOperationQuiescence hooks id)
  | .abortOperation id reason => discard (abortOperation hooks id reason)
  | .pollClose => discard (pollClose hooks)
  | .world change => changeWorld change

/-- What can be done with a scope while it is being closed. -/
inductive CloseCall (W D C R : Type) where
  | insert (call : InsertCall D C R)
  | beginClose (reason : ResourceCloseReason)
  | pollClose
  | world (change : W → W)

inductive CloseReply where
  | insert (result : ExecutionScopeResult Inserted)
  | begin (result : ExecutionScopeResult Bool)
  | poll (result : Poll (ExecutionScopeResult ScopeCloseOutcome))
  | unit

def runClose : CloseCall W D C R → ScopeM W D C R CloseReply
  | .insert call => do return .insert (← insert call)
  | .beginClose reason => do return .begin (← beginClose reason)
  | .pollClose => do return .poll (← pollClose hooks)
  | .world change => do
      changeWorld change
      return .unit

def runCloses : List (CloseCall W D C R) → ScopeM W D C R (List (CloseCall W D C R × CloseReply))
  | [] => return []
  | call :: calls => do
      let reply ← runClose hooks call
      let rest ← runCloses calls
      return (call, reply) :: rest

end Functions

end RustScript.Scope
