import RustScript.Lib.Fallible
import RustScript.Operation.Registry
import RustScript.Vm.Run

/-!
# Invocations as streams

An invocation starts a callable and turns what it does into a stream of items: the events
that it emits, then its result or an error.  Polling drives the run.  An event that has been
emitted waits in the phase of the invocation until a poll hands it out, and the call of
`stream::emit` that made it is executed again when the run resumes.

The state of the invocation lies in the world of the interpreter, since `stream::emit` is a
function of the host.  What belongs to neither the interpreter nor the invocation is a
parameter (`StreamHooks`): the other host functions, the scope, the operations that the
machine waits for, and the callable streams that run callbacks while it waits.

`Stream.accepted` is a history of the events that `stream::emit` has accepted.
-/

namespace RustScript.Vm

open Operation (OperationCancelReason Panic)
open Resource (Poll)
open Engine (VmStatus)
open Wp (expect)
open Fallible

/-! ## Event payloads -/

inductive RuntimeErrorCode where
  | invalidConfiguration
  | eventPayloadTooLarge
  | eventDepthExceeded
  | resourceLimitExceeded
  | invalidResourceHandle
  | resourceHandleWrongTable
  | resourceTypeMismatch
  | resourceStale
  | resourceAlreadyClosed
  | resourceIdExhausted
  | resourceCleanupFailed
  | operationLimitExceeded
  | operationNotFound
  | operationAlreadyFinished
  | operationCancelled
  | operationFailed
  | operationIdExhausted
  | operationCleanupFailed
  deriving DecidableEq, Repr

def RuntimeErrorCode.asStr : RuntimeErrorCode → String
  | .invalidConfiguration => "invalid_configuration"
  | .eventPayloadTooLarge => "event_payload_too_large"
  | .eventDepthExceeded => "event_depth_exceeded"
  | .resourceLimitExceeded => "resource_limit_exceeded"
  | .invalidResourceHandle => "invalid_resource_handle"
  | .resourceHandleWrongTable => "resource_handle_wrong_table"
  | .resourceTypeMismatch => "resource_type_mismatch"
  | .resourceStale => "resource_stale"
  | .resourceAlreadyClosed => "resource_already_closed"
  | .resourceIdExhausted => "resource_id_exhausted"
  | .resourceCleanupFailed => "resource_cleanup_failed"
  | .operationLimitExceeded => "operation_limit_exceeded"
  | .operationNotFound => "operation_not_found"
  | .operationAlreadyFinished => "operation_already_finished"
  | .operationCancelled => "operation_cancelled"
  | .operationFailed => "operation_failed"
  | .operationIdExhausted => "operation_id_exhausted"
  | .operationCleanupFailed => "operation_cleanup_failed"

structure RuntimeError where
  code : RuntimeErrorCode
  operation : String
  message : String
  limit : Option Nat
  value : Option Nat
  deriving DecidableEq, Repr

namespace RuntimeError

def new (code : RuntimeErrorCode) (operation message : String) : RuntimeError :=
  ⟨code, operation, message, none, none⟩

def withLimit (error : RuntimeError) (limit : Nat) : RuntimeError :=
  { error with limit := some limit }

def withValue (error : RuntimeError) (value : Nat) : RuntimeError :=
  { error with value := some value }

def display (error : RuntimeError) : String :=
  "runtime error [" ++ error.code.asStr ++ "] in " ++ error.operation ++ ": " ++ error.message ++
    (match error.limit with
      | some limit => " (limit: " ++ toString limit ++ ")"
      | none => "") ++
    (match error.value with
      | some value => " (value: " ++ toString value ++ ")"
      | none => "")

end RuntimeError

structure EventLimits where
  maxPayloadBytes : Nat
  maxDepth : Nat
  deriving DecidableEq, Repr

def EventLimits.default : EventLimits := ⟨64 * 1024, 64⟩

def usizeMax : Nat := 2 ^ 64 - 1

def payloadTooLarge (size : Nat) (limits : EventLimits) : RuntimeError :=
  ((RuntimeError.new .eventPayloadTooLarge "stream::emit"
    "event payload exceeds the configured byte bound").withLimit limits.maxPayloadBytes).withValue
      size

def checkedPayloadAdd (current additional : Nat) (limits : EventLimits) : Except RuntimeError Nat :=
  if current + additional > usizeMax then
    .error ((RuntimeError.new .eventPayloadTooLarge "stream::emit"
      "event payload size overflowed").withLimit limits.maxPayloadBytes)
  else if current + additional > limits.maxPayloadBytes then
    .error (payloadTooLarge (current + additional) limits)
  else .ok (current + additional)

def checkDepth (depth : Nat) (limits : EventLimits) : Except RuntimeError Unit :=
  if depth > limits.maxDepth then
    .error (((RuntimeError.new .eventDepthExceeded "stream::emit"
      "event payload nesting exceeds the configured bound").withLimit limits.maxDepth).withValue
        depth)
  else .ok ()

def checkSize (size : Nat) (limits : EventLimits) : Except RuntimeError Nat :=
  if size > limits.maxPayloadBytes then .error (payloadTooLarge size limits) else .ok size

mutual
def measureValue (limits : EventLimits) (depth : Nat) (value : Value) :
    Except RuntimeError Nat := do
  checkDepth depth limits
  match value with
  | .null | .bool _ => checkSize 1 limits
  | .int _ | .float _ => checkSize 9 limits
  | .string text => checkSize (1 + text.utf8ByteSize) limits
  | .bytes bytes => checkSize (1 + bytes.length) limits
  | .callable .. => checkSize 17 limits
  | .array _ values => do checkSize (← measureAll limits depth values 5) limits
  | .map _ entries => do checkSize (← measureEntries limits depth entries 5) limits

def measureAll (limits : EventLimits) (depth : Nat) : List Value → Nat → Except RuntimeError Nat
  | [], size => .ok size
  | value :: values, size => do
      let size ← checkedPayloadAdd size (← measureValue limits (depth + 1) value) limits
      measureAll limits depth values size

def measureEntries (limits : EventLimits) (depth : Nat) :
    List (Value × Value) → Nat → Except RuntimeError Nat
  | [], size => .ok size
  | (key, value) :: entries, size => do
      let size ← checkedPayloadAdd size (← measureValue limits (depth + 1) key) limits
      let size ← checkedPayloadAdd size (← measureValue limits (depth + 1) value) limits
      measureEntries limits depth entries size
end

/-- A value that is small enough for an event. -/
def EventPayload.tryNew (value : Value) (limits : EventLimits) : Except RuntimeError Value := do
  let _ ← measureValue limits 0 value
  return value

/-! ## The size of a payload -/

namespace Value

/-- The values directly inside a value, in the order of the loops. -/
def parts : Value → List Value
  | .array _ values => values
  | .map _ entries => entries.flatMap fun entry => [entry.1, entry.2]
  | _ => []

/-- What a value counts without the values inside it. -/
def ownSize : Value → Nat
  | .null | .bool _ => 1
  | .int _ | .float _ => 9
  | .string text => 1 + text.utf8ByteSize
  | .bytes content => 1 + content.length
  | .callable .. => 17
  | .array .. | .map .. => 5

mutual
/-- The structural size: a shared part counts wherever it occurs. -/
def size : Value → Nat
  | .array _ values => 5 + sizes values
  | .map _ entries => 5 + entrySizes entries
  | value => value.ownSize

def sizes : List Value → Nat
  | [] => 0
  | value :: values => value.size + sizes values

def entrySizes : List (Value × Value) → Nat
  | [] => 0
  | (key, value) :: entries => key.size + (value.size + entrySizes entries)
end

/-- The values inside a value are nested less than `levels` deep. -/
def Nested : Nat → Value → Prop
  | 0, _ => False
  | levels + 1, value => ∀ part ∈ value.parts, Nested levels part

theorem ownSize_pos (value : Value) : 0 < value.ownSize := by
  cases value <;> simp only [ownSize] <;> omega

theorem size_eq (value : Value) : value.size = value.ownSize + sizes value.parts := by
  have entries : ∀ entries, entrySizes entries =
      sizes (entries.flatMap fun entry => [entry.1, entry.2]) := by
    intro entries
    induction entries with
    | nil => rfl
    | cons entry entries ih => simp [entrySizes, sizes, ih]
  cases value <;> simp [size, parts, ownSize, sizes, entries]

end Value

/-- The calls of `measure_value` in a loop, which ends with the first value that does not fit. -/
def visitsAll (limits : EventLimits) (measure : Value → Except RuntimeError Nat)
    (visits : Value → Nat) : List Value → Nat → Nat
  | [], _ => 0
  | value :: values, size => visits value +
      match measure value >>= (checkedPayloadAdd size · limits) with
      | .ok size => visitsAll limits measure visits values size
      | .error _ => 0

/-- The calls of `measure_value` for a value, with the `levels` that the depth bound leaves. -/
def visits (limits : EventLimits) : Nat → Value → Nat
  | 0, _ => 1
  | levels + 1, value => 1 + visitsAll limits (measureValue limits (limits.maxDepth + 1 - levels))
      (visits limits levels) value.parts value.ownSize

variable {limits : EventLimits} {depth levels : Nat}

theorem measureValue_eq (value : Value) :
    measureValue limits depth value = checkDepth depth limits >>= fun _ =>
      measureAll limits depth value.parts value.ownSize >>= (checkSize · limits) := by
  have entries : ∀ entries size, measureEntries limits depth entries size =
      measureAll limits depth (entries.flatMap fun entry => [entry.1, entry.2]) size := by
    intro entries
    induction entries with
    | nil => simp [measureEntries, measureAll]
    | cons entry entries ih => simp [measureEntries, measureAll, ih]
  cases value <;> simp only [measureValue, entries] <;> rfl

theorem checkSize_eq_ok_iff {size n : Nat} :
    checkSize size limits = .ok n ↔ size ≤ limits.maxPayloadBytes ∧ n = size := by
  unfold checkSize
  split <;> simp <;> omega

theorem checkedPayloadAdd_eq_ok_iff (word : limits.maxPayloadBytes ≤ usizeMax) {a b n : Nat} :
    checkedPayloadAdd a b limits = .ok n ↔ a + b ≤ limits.maxPayloadBytes ∧ n = a + b := by
  unfold checkedPayloadAdd
  split_ifs <;> simp <;> omega

/-- A value is measured exactly, and at the cost of its levels or of its size. -/
structure Measured (limits : EventLimits) (levels : Nat) (value : Value) : Prop where
  accepts : ∀ n, measureValue limits (limits.maxDepth + 1 - levels) value = .ok n ↔
    value.Nested levels ∧ value.size ≤ limits.maxPayloadBytes ∧ n = value.size
  few : visits limits levels value ≤ (limits.maxPayloadBytes + 1) * (levels + 1)
  small : visits limits levels value ≤ value.size

/-- The loop over the values inside a value. -/
theorem measureAll_exact (word : limits.maxPayloadBytes ≤ usizeMax) {values : List Value}
    (at' : depth + 1 = limits.maxDepth + 1 - levels)
    (each : ∀ value ∈ values, Measured limits levels value) (size : Nat) :
    (∀ n, measureAll limits depth values size >>= (checkSize · limits) = .ok n ↔
      (∀ value ∈ values, value.Nested levels) ∧
        size + Value.sizes values ≤ limits.maxPayloadBytes ∧ n = size + Value.sizes values) ∧
    visitsAll limits (measureValue limits (depth + 1)) (visits limits levels) values size ≤
      (limits.maxPayloadBytes - size) + (limits.maxPayloadBytes + 1) * (levels + 1) ∧
    visitsAll limits (measureValue limits (depth + 1)) (visits limits levels) values size ≤
      Value.sizes values := by
  induction values generalizing size with
  | nil =>
    refine ⟨fun n => checkSize_eq_ok_iff.trans (by simp [Value.sizes]), ?_⟩
    simp [visitsAll]
  | cons value values ih =>
    have ⟨⟨accepts, few, small⟩, rest⟩ := List.forall_mem_cons.mp each
    rw [← at'] at accepts
    constructor
    · intro n
      simp only [measureAll, bind_assoc, bind_eq_ok, accepts, checkedPayloadAdd_eq_ok_iff word,
        (ih rest _).1, List.forall_mem_cons, Value.sizes, ← Nat.add_assoc]
      constructor
      · rintro ⟨_, ⟨nested, -, rfl⟩, _, ⟨-, rfl⟩, deep, bound, rfl⟩
        exact ⟨⟨nested, deep⟩, bound, rfl⟩
      · rintro ⟨⟨nested, deep⟩, bound, rfl⟩
        exact ⟨_, ⟨nested, by omega, rfl⟩, _, ⟨by omega, rfl⟩, deep, bound, rfl⟩
    · rw [visitsAll, Value.sizes]
      cases added : measureValue limits (depth + 1) value >>= (checkedPayloadAdd size · limits) with
      | error e =>
        dsimp only
        omega
      | ok s =>
        obtain ⟨m, measured, checked⟩ := bind_eq_ok.mp added
        obtain ⟨-, -, rfl⟩ := (accepts m).mp measured
        obtain ⟨fits, rfl⟩ := (checkedPayloadAdd_eq_ok_iff word).mp checked
        obtain ⟨-, fewRest, smallRest⟩ := ih rest (size + value.size)
        dsimp only
        omega

theorem measured (word : limits.maxPayloadBytes ≤ usizeMax) (bound : levels ≤ limits.maxDepth + 1)
    (value : Value) : Measured limits levels value := by
  have positive := value.ownSize_pos
  have size := value.size_eq
  induction levels generalizing value with
  | zero =>
    have deep : checkDepth (limits.maxDepth + 1) limits = .error _ := if_pos (Nat.lt_succ_self _)
    refine ⟨fun n => ?_, by simp [visits], by rw [visits]; omega⟩
    rw [measureValue_eq, Nat.sub_zero, deep]
    simp [Value.Nested]
    nofun
  | succ levels ih =>
    have at' : limits.maxDepth + 1 - (levels + 1) + 1 = limits.maxDepth + 1 - levels := by omega
    have shallow : checkDepth (limits.maxDepth + 1 - (levels + 1)) limits = .ok () :=
      if_neg (by omega)
    obtain ⟨accepts, few, small⟩ := measureAll_exact word at'
      (fun part _ => ih (by omega) part part.ownSize_pos part.size_eq) value.ownSize
    refine ⟨fun n => ?_, ?_, ?_⟩
    · rw [measureValue_eq, shallow, size]
      exact accepts n
    · rw [visits, Nat.mul_succ, ← at']
      omega
    · rw [visits, size, ← at']
      omega

/-- **Event payloads are measured exactly, and at a bounded cost.** A value is accepted
exactly when its nesting and its structural size are within the limits, and the answer is
that size; measuring visits few values also where sharing unfolds to many. -/
theorem payload_admission (limits : EventLimits) (word : limits.maxPayloadBytes ≤ usizeMax)
    (value : Value) :
    (∀ n, measureValue limits 0 value = .ok n ↔ value.Nested (limits.maxDepth + 1) ∧
      value.size ≤ limits.maxPayloadBytes ∧ n = value.size) ∧
    visits limits (limits.maxDepth + 1) value ≤
      (limits.maxPayloadBytes + 1) * (limits.maxDepth + 2) := by
  obtain ⟨accepts, few, -⟩ := measured word (Nat.le_refl _) value
  rw [Nat.sub_self] at accepts
  exact ⟨accepts, few⟩

/-- An array with the same array in it twice. -/
def pairedPayload : Value :=
  .array 1 [.array 2 [.int 3, .string "ab"], .array 2 [.int 3, .string "ab"]]

theorem pairedPayload_admitted :
    measureValue ⟨39, 2⟩ 0 pairedPayload = .ok 39 ∧ measureValue ⟨38, 2⟩ 0 pairedPayload ≠ .ok 39 ∧
      visits ⟨39, 2⟩ 3 pairedPayload ≤ 40 * 4 := by
  have nested : pairedPayload.Nested 3 := by simp [pairedPayload, Value.Nested, Value.parts]
  obtain ⟨accepts, few⟩ := payload_admission ⟨39, 2⟩ (by decide) pairedPayload
  obtain ⟨refuses, -⟩ := payload_admission ⟨38, 2⟩ (by decide) pairedPayload
  refine ⟨(accepts 39).mpr ⟨nested, by decide, by decide⟩, fun admitted => ?_, few⟩
  exact absurd ((refuses 39).mp admitted).2.1 (by decide)

/-! ## The state of an invocation -/

inductive InvocationItem where
  | event (value : Value)
  | complete (value : Value)

inductive InvocationError where
  | cancelled (reason : OperationCancelReason)
  | outOfFuel (needed remaining : Nat)
  | deadlineReached (current deadline : Nat)
  | capability (error : RuntimeError)
  | host (message : String)
  | vm (error : VmError)
  deriving DecidableEq, Repr

inductive InvocationPoll where
  | pending
  | ready (item : Option (Except InvocationError InvocationItem))

inductive InvocationPhase where
  | running
  | eventPending (value : Value)
  | completePending (value : Value)
  | errorPending (error : InvocationError)
  | fused

structure InvocationState where
  phase : InvocationPhase
  emitYieldPending : Bool
  pendingError : Option RuntimeError
  cancelReason : Option OperationCancelReason
  stackBase : Nat
  frameCount : Nat

/-- What lies outside the interpreter. -/
structure Stream (W : Type) where
  invocation : Option InvocationState
  /-- The events that have been accepted. -/
  accepted : List Value
  outer : W

/-- `emit_stream_item`: an event is accepted and the call yields; when the call is executed
again, it returns. -/
def Stream.emitStreamItem {W : Type} (stream : Stream W) (limits : EventLimits) (value : Value) :
    HostAnswer × Stream W :=
  match stream.invocation with
  | none => (.failed (.hostError "stream::emit requires an active invocation") [], stream)
  | some state =>
    match state.phase with
    | .running =>
      if state.emitYieldPending then
        (.returned [],
          { stream with invocation := some { state with emitYieldPending := false } })
      else
        match EventPayload.tryNew value limits with
        | .ok value =>
          (.yielded true,
            { stream with
              invocation := some { state with
                phase := .eventPending value
                emitYieldPending := true }
              accepted := stream.accepted ++ [value] })
        | .error error =>
          (.failed (.hostError error.display) [],
            { stream with invocation := some { state with pendingError := some error } })
    | _ =>
      (.failed (.hostError "stream::emit is only valid while the invocation is running") [], stream)

/-- What a call of `stream::emit` fails with is its own. -/
theorem Stream.emitStreamItem_harmless {W : Type} {stream : Stream W} {limits : EventLimits}
    {value : Value} {error : VmError} {left : List Value}
    (failed : (stream.emitStreamItem limits value).1 = .failed error left) : error.Harmless := by
  unfold emitStreamItem at failed
  split at failed
  · cases failed
    trivial
  · split at failed
    · split at failed
      · cases failed
      · split at failed
        · cases failed
        · cases failed
          trivial
    · cases failed
      trivial

/-! ## The next action -/

inductive InvocationAction where
  | cancelled
  | event
  | complete
  | error
  | fused
  | drive

/-- A cancellation supersedes a pending event and a pending result, unless the bridge still has
to acknowledge it. -/
def InvocationState.action (state : InvocationState) (waitsOnBridge : Bool) : InvocationAction :=
  let superseded := state.cancelReason.isSome && !waitsOnBridge
  match state.phase with
  | .eventPending _ => if superseded then .cancelled else .event
  | .completePending _ => if superseded then .cancelled else .complete
  | .errorPending _ => .error
  | .fused => .fused
  | .running => .drive

/-! ## The surroundings -/

/-- Something that can do anything to a machine, except to the state of the invocation. -/
def Outside (W α : Type) := State (Stream W) → α × State (Stream W)

/-- What polling the operation that the machine waits for can come to. -/
inductive WaitingPoll where
  | pending
  | ready (result : Except VmError Unit)
  /-- A callable stream has an item for its callback. -/
  | callback (callback : Nat × CallableValue) (item : List Value)

structure StreamHooks (W : Type) where
  bindings : Except String Unit
  authorize : UInt16 → UInt8 → Except String Unit
  overrides : UInt16 → Bool
  /-- The host functions besides `stream::emit`. -/
  call : UInt16 → List Value → Instance (Stream W) → HostResult W
  ownErrors : ∀ index args s error left,
    (call index args s).answer = .failed error left → error.Harmless := by rintro _ _ _ _ _ ⟨⟩
  isEmit : UInt16 → Bool
  eventLimits : W → EventLimits
  hasActiveBridgeOperations : W → Bool
  /-- The checks of `ensure_scope_ready`; the streams and the scope that are still closing are
  polled. -/
  scopeReady : W → Except VmError Unit × W
  /-- An operation belongs to the asynchronous bridge. -/
  isHostBridge : W → Nat → Bool
  /-- An operation that the machine waits for is cancelled. -/
  cancelWaiting : OperationCancelReason → Outside W (Except VmError Unit)
  pollWaitingHostOp : Outside W WaitingPoll
  /-- The ends of a callback of a callable stream: inside a poll, and inside a run. -/
  finishCallback : Outside W (Poll (Except VmError Unit))
  failCallback : VmError → Outside W (Poll (Except VmError Unit))
  resumeCallableStream : Outside W (Except VmError VmStatus)
  abortCallableStream : VmError → Outside W VmError

/-- Something that the host does by itself. -/
def onHost {W α : Type} (f : W → α × W) : Outside W α := fun st =>
  let answer := f st.inst.world.outer
  (answer.1, { st with inst := { st.inst with
    world := { st.inst.world with outer := answer.2 } } })

def StreamHooks.cancelWaitingHostOp {W : Type} (hooks : StreamHooks W)
    (reason : OperationCancelReason) : Outside W (Except VmError Unit) := fun st =>
  match st.inst.waitingHostOp with
  | none => (.ok (), st)
  | some _ => hooks.cancelWaiting reason st

def StreamHooks.ensureScopeReady {W : Type} (hooks : StreamHooks W) :
    Outside W (Except VmError Unit) := onHost hooks.scopeReady

/-! ## Ownership of callables -/

def maxCallableOwnershipNodes : Nat := 65536

inductive CallableOwnershipIdentity where
  | array (object : Nat)
  | map (object : Nat)
  | callable (object : Nat)
  | environment (index : Nat)
  deriving DecidableEq, Repr

/-- Values that are still to be looked at, the next one first. -/
def pushPending (pending : List Value) (value : Value) : Except VmError (List Value) :=
  if pending.length ≥ maxCallableOwnershipNodes then .error .invalidCallable
  else .ok (value :: pending)

/-- The values that a callable refers to. -/
def capturedValues {W : Type} (s : Instance W) (environment : Nat) : List Value :=
  ((s.environments[environment]?).getD []).filterMap fun cell => s.cells[cell]?

/-- Look at the pending values, at so many of them; every callable belongs to this machine. -/
def checkOwnership {W : Type} (s : Instance W) :
    Nat → List Value → List CallableOwnershipIdentity → Except VmError Unit
  | _, [], _ => .ok ()
  | 0, _ :: _, _ => .error .invalidCallable
  | left + 1, .array object values :: pending, visited =>
    if .array object ∈ visited then checkOwnership s left pending visited
    else do
      checkOwnership s left (← values.foldlM pushPending pending) (.array object :: visited)
  | left + 1, .map object entries :: pending, visited =>
    if .map object ∈ visited then checkOwnership s left pending visited
    else do
      let pending ← entries.foldlM
        (fun pending entry => do pushPending (← pushPending pending entry.1) entry.2) pending
      checkOwnership s left pending (.map object :: visited)
  | left + 1, .callable object value :: pending, visited =>
    if .callable object ∈ visited then checkOwnership s left pending visited
    else if object ∉ s.ownedCallables then .error .invalidCallable
    else
      match value.env with
      | none => checkOwnership s left pending (.callable object :: visited)
      | some environment =>
        if .environment environment ∈ visited then
          checkOwnership s left pending (.callable object :: visited)
        else do
          let pending ← (capturedValues s environment).foldlM pushPending pending
          checkOwnership s left pending (.environment environment :: .callable object :: visited)
  | left + 1, _ :: pending, visited => checkOwnership s left pending visited

def validateInvocationCallableOwnership {W : Type} (s : Instance W) (callable : Value)
    (args : List Value) : Except VmError Unit :=
  if args.length + 1 > maxCallableOwnershipNodes then .error .invalidCallable
  else checkOwnership s maxCallableOwnershipNodes (callable :: args).reverse []

/-- The checks that come before an invocation is set up. -/
def StreamHooks.checkStart {W : Type} (hooks : StreamHooks W) (callable : Value)
    (args : List Value) : Outside W (Except VmError Unit) := fun st =>
  match validateInvocationCallableOwnership st.inst callable args with
  | .error error => (.error error, st)
  | .ok _ =>
    if hooks.hasActiveBridgeOperations st.inst.world.outer then
      (.error (.hostError "bridge host operation is not quiescent"), st)
    else hooks.ensureScopeReady st

/-- The host of the interpreter. -/
def StreamHooks.toHost {W : Type} (hooks : StreamHooks W) : Host (Stream W) where
  bindings := hooks.bindings
  authorize := hooks.authorize
  overrides := hooks.overrides
  call index args s :=
    if hooks.isEmit index then
      let emitted := s.world.emitStreamItem (hooks.eventLimits s.world.outer) (args.headD .null)
      ⟨emitted.1, emitted.2, s.nextObject⟩
    else
      let result := hooks.call index args s
      ⟨result.answer, { s.world with outer := result.world }, result.nextObject⟩
  ownErrors := by
    intro index args s error left failed
    split at failed
    · exact Stream.emitStreamItem_harmless failed
    · exact hooks.ownErrors index args s error left failed

/-- A machine on which callables can be invoked as streams. -/
structure StreamVm (W : Type) where
  engine : Engine (Stream W)
  hooks : StreamHooks W
  host : engine.host = hooks.toHost

/-- A computation that does not come back: it panicked, or the number of rounds did not
suffice. -/
inductive Stuck where
  | panic (panic : Panic)
  | rounds

abbrev InvM (W : Type) := EStateM Stuck (State (Stream W))

variable {W α : Type}

def panicking (message : String) : Stuck := .panic ⟨message⟩

def getStream : InvM W (Stream W) := do return (← get).inst.world

def modifyStream (f : Stream W → Stream W) : InvM W Unit :=
  modify fun st => { st with inst := { st.inst with world := f st.inst.world } }

/-- The state of the invocation stays as it was. -/
def outside (f : Outside W α) : InvM W α := fun st =>
  let (a, st') := f st
  .ok a { st' with inst := { st'.inst with
    world := { st.inst.world with outer := st'.inst.world.outer } } }

/-- A computation of the interpreter; a failure is an answer. -/
def attempt (x : VmM (Stream W) α) : InvM W (Except VmError α) := fun st =>
  match x st with
  | .ok a st' => .ok (.ok a) st'
  | .error e st' => .ok (.error e) st'

/-- Update the state of the invocation. -/
def modifyInvocation (f : InvocationState → InvocationState) : InvM W Unit := do
  let state ← expect (← getStream).invocation (panicking "invocation state")
  modifyStream fun stream => { stream with invocation := some (f state) }

def setPhase (phase : InvocationPhase) : InvM W Unit :=
  modifyInvocation fun state => { state with phase }

def replaceInvocationPhase (phase : InvocationPhase) : InvM W InvocationPhase := do
  let state ← expect (← getStream).invocation (panicking "invocation state")
  setPhase phase
  return state.phase

/-- The phase in which a state is dropped, with everything that is pending. -/
def InvocationState.dropped (state : InvocationState) : InvocationState :=
  { state with
    phase := .fused
    emitYieldPending := false
    pendingError := none
    cancelReason := none }

def dropInvocationState : InvM W Unit :=
  modifyStream fun stream => { stream with
    invocation := stream.invocation.map InvocationState.dropped }

def mapInvocationError (error : VmError) : InvM W InvocationError := do
  let stream ← getStream
  match stream.invocation.bind InvocationState.pendingError with
  | some runtimeError => do
      modifyStream fun stream => { stream with
        invocation := stream.invocation.map fun state => { state with pendingError := none } }
      return .capability runtimeError
  | none =>
    match error with
    | .outOfFuel needed remaining => return .outOfFuel needed remaining
    | .epochDeadlineReached current deadline => return .deadlineReached current deadline
    | .executionScope message =>
      return .capability (.new .operationFailed "execution_scope" message)
    | .hostError message => return .host message
    | other => return .vm other

def takeInvocationResult : InvM W (Option Value) := do
  let result := (← get).inst.hostReturn
  modify fun st => { st with inst := { st.inst with hostReturn := none } }
  return result

namespace StreamVm

variable (V : StreamVm W)

/-- The machine waits for the asynchronous bridge. -/
def waitsOnBridge : InvM W Bool := do
  let s := (← get).inst
  return (s.waitingHostOp.map (V.hooks.isHostBridge s.world.outer)).getD false

def releaseInvocation : InvM W Unit := do
  let stream ← getStream
  let reason := stream.invocation.bind InvocationState.cancelReason
  let _ ← outside (V.hooks.cancelWaitingHostOp (reason.getD .requested))
  let bridge ← V.waitsOnBridge
  let waiting := (← get).inst.waitingHostOp
  let _ ← attempt (core (Engine.abortHostInvocation
    ((stream.invocation.map InvocationState.stackBase).getD 0)
    ((stream.invocation.map InvocationState.frameCount).getD 0)))
  -- An operation of the bridge is waited for until it acknowledges.
  modify fun st => { st with inst := { st.inst with
    waitingHostOp := if bridge then waiting else none } }
  dropInvocationState

/-! ## Running -/

/-- A computation that starts to run forgets how the last run was interrupted. -/
def begin (x : VmM (Stream W) (Option VmStatus)) : InvM W (Except VmError VmStatus) := do
  modify fun st => { st with runCtx := { st.runCtx with lastYieldReason := none } }
  match ← attempt x with
  | .error error => return .error error
  | .ok (some status) => return .ok status
  | .ok none => throw .rounds

def run (rounds : Nat) : InvM W (Except VmError VmStatus) := do
  match ← outside V.hooks.ensureScopeReady with
  | .error error => return .error error
  | .ok _ =>
    match ← begin (V.engine.runInternal rounds) with
    | .error error => return .error (← outside (V.hooks.abortCallableStream error))
    | .ok .halted => outside V.hooks.resumeCallableStream
    | .ok status => return .ok status

/-- The callback of a callable stream is called and runs. -/
def startCallback (rounds : Nat) (callback : Nat × CallableValue) (item : List Value) :
    VmM (Stream W) (Option VmStatus) := do
  let s := (← get).inst
  let entered ← core (V.engine.enterScriptFrame callback.2.prototypeId (some callback) item
    s.stack.length .returnToHost)
  match ← V.engine.finishStep entered.stepped with
  | .continue => V.engine.runInternal rounds
  | .halted => return some .halted
  | .yielded => return some .yielded
  | .waiting opId => return some (.waiting opId)

def pollWaitingHostOp (rounds : Nat) : InvM W (Poll (Except VmError Unit)) := do
  match ← outside V.hooks.pollWaitingHostOp with
  | .pending => return .pending
  | .ready result => return .ready result
  | .callback callback item =>
    match ← begin (V.startCallback rounds callback item) with
    | .ok .halted => outside V.hooks.finishCallback
    | .ok _ => return .ready (.ok ())
    | .error error => outside (V.hooks.failCallback error)

/-! ## Starting -/

def haltedWithoutResult : VmError :=
  .invalidFrameState "invocation halted without a callable result"

/-- The invocation has failed. -/
def failInvocation (error : VmError) : InvM W Unit := do
  let error ← mapInvocationError error
  V.releaseInvocation
  setPhase (.errorPending error)

def isActive : Option InvocationState → Bool
  | some state =>
    match state.phase with
    | .fused => false
    | _ => true
  | none => false

def startInvocation (rounds : Nat) (callable : Value) (args : List Value) :
    InvM W (Except VmError Unit) := do
  match ← outside (V.hooks.checkStart callable args) with
  | .error error => return .error error
  | .ok _ => do
      if isActive (← getStream).invocation then
        return .error (.invalidFrameState "an invocation is already active on this vm")
      else do
        let s := (← get).inst
        modifyStream fun stream => { stream with
          invocation :=
            some ⟨.running, false, none, none, s.stack.length, s.executionFrames.length⟩ }
        match ← begin (V.engine.startCallable rounds callable args) with
        | .ok .halted =>
          match ← takeInvocationResult with
          | some result => setPhase (.completePending result)
          | none => V.failInvocation haltedWithoutResult
        | .ok .yielded => pure ()
        | .ok (.waiting _) => pure ()
        | .error error => V.failInvocation error
        return .ok ()

/-! ## Polling -/

inductive DriveOutcome where
  | continue
  | pending
  | error (error : InvocationError)

/-- A run that yielded: it was interrupted, it emitted, or the embedder has to go on. -/
def driveYielded : InvM W DriveOutcome := do
  let c := (← get).runCtx
  match c.lastYieldReason with
  | some .fuel => return .error (.outOfFuel c.fuelCheckInterval c.fuelRemaining)
  | some .epoch => do
      modify fun st => { st with runCtx := c.currentEpoch.2 }
      return .error (.deadlineReached c.currentEpoch.1 c.epochDeadline)
  | _ =>
    match (← getStream).invocation.map InvocationState.phase with
    | some (.eventPending _) => return .continue
    | _ => return .pending

/-- A poll of the operation that the machine waits for. -/
def driveWaiting (rounds : Nat) (done : DriveOutcome) : InvM W DriveOutcome := do
  match ← V.pollWaitingHostOp rounds with
  | .pending => return .pending
  | .ready (.ok _) => return done
  | .ready (.error error) => return .error (← mapInvocationError error)

def driveInvocation (rounds : Nat) : InvM W DriveOutcome := do
  match (← getStream).invocation.bind InvocationState.cancelReason with
  | some reason => do
      if ← V.waitsOnBridge then V.driveWaiting rounds (.error (.cancelled reason))
      else return .error (.cancelled reason)
  | none =>
    match ← V.run rounds with
    | .ok .halted =>
      match ← takeInvocationResult with
      | some result => do
          setPhase (.completePending result)
          return .continue
      | none => return .error (.vm haltedWithoutResult)
    | .ok .yielded => driveYielded
    | .ok (.waiting _) => V.driveWaiting rounds .continue
    | .error error => return .error (← mapInvocationError error)

/-- One pass of the loop of a poll: an answer, or another pass. -/
def pollOnce (rounds : Nat) (state : InvocationState) : InvM W (Option InvocationPoll) := do
  match state.action (← V.waitsOnBridge) with
  | .cancelled => do
      let reason ← expect state.cancelReason
        (panicking "a cancelled action requires a cancellation reason")
      setPhase (.errorPending (.cancelled reason))
      return none
  | .event =>
    match ← replaceInvocationPhase .running with
    | .eventPending value => return some (.ready (some (.ok (.event value))))
    | _ => throw (panicking "phase matched above")
  | .complete =>
    match ← replaceInvocationPhase .fused with
    | .completePending value => do
        V.releaseInvocation
        return some (.ready (some (.ok (.complete value))))
    | _ => throw (panicking "phase matched above")
  | .error =>
    match ← replaceInvocationPhase .fused with
    | .errorPending error => do
        V.releaseInvocation
        return some (.ready (some (.error error)))
    | _ => throw (panicking "phase matched above")
  | .fused => return some (.ready none)
  | .drive =>
    match ← V.driveInvocation rounds with
    | .continue => return none
    | .pending => return some .pending
    | .error error => do
        V.releaseInvocation
        setPhase (.errorPending error)
        return none

/-- `poll_invocation_with_context`, with a bound on the passes of its loop. -/
def pollInvocation (rounds : Nat) : Nat → InvM W InvocationPoll
  | 0 => throw .rounds
  | passes + 1 => do
      match (← getStream).invocation with
      | none => return .ready none
      | some state =>
        match ← V.pollOnce rounds state with
        | some answer => return answer
        | none => pollInvocation rounds passes

def cancel (reason : OperationCancelReason) : InvM W (Except VmError Unit) := do
  match (← getStream).invocation with
  | none => return .error (.invalidFrameState "no invocation is active on this vm")
  | some state =>
    match state.phase with
    | .fused => return .error (.invalidFrameState "the active invocation has already fused")
    | _ => do
        modifyInvocation fun state => { state with
          cancelReason := some (state.cancelReason.getD reason) }
        outside (V.hooks.cancelWaitingHostOp (state.cancelReason.getD reason))

/-! ## Schedules -/

/-- What can be done with an invocation. -/
inductive InvocationCall (W : Type) where
  | poll (rounds passes : Nat)
  | cancel (reason : OperationCancelReason)
  | world (change : W → W)

inductive InvocationReply where
  | poll (answer : InvocationPoll)
  | cancel (result : Except VmError Unit)
  | unit

def runCall : InvocationCall W → InvM W InvocationReply
  | .poll rounds passes => do return .poll (← V.pollInvocation rounds passes)
  | .cancel reason => do return .cancel (← V.cancel reason)
  | .world change => do
      modifyStream fun stream => { stream with outer := change stream.outer }
      return .unit

def runCalls : List (InvocationCall W) → InvM W (List (InvocationCall W × InvocationReply))
  | [] => return []
  | call :: calls => do
      let reply ← V.runCall call
      let rest ← runCalls calls
      return (call, reply) :: rest

/-- A callable is invoked and the invocation is used. -/
def invocation (rounds : Nat) (callable : Value) (args : List Value)
    (calls : List (InvocationCall W)) :
    InvM W (Except VmError (List (InvocationCall W × InvocationReply))) := do
  match ← V.startInvocation rounds callable args with
  | .error error => return .error error
  | .ok _ => return .ok (← V.runCalls calls)

end StreamVm

end RustScript.Vm
