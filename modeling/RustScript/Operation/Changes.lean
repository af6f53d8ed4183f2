import RustScript.Operation.Registry

/-!
# What the calls of an operation registry can do

Every call is a sequence of changes of single operations: an operation is started in a
reused or in a new slot, a hook changes its driver, it leaves the pending state, or its
slot is released.  An operation leaves the pending state in one change (`Ending`): its
cancel hook was called or was not, and its cleanup, if it has one, ran with the outcome.

`runCall_changes` gives the changes of every call, and says that no call panics.
Invariants of a registry are proved for one change and hold along every run of calls.
-/

namespace RustScript.Operation

open Resource (Poll Entry)
open Wp OperationRegistry List OperationId OperationStatus Option RegistryState
open Relation (ReflTransGen)

variable {W D C α : Type} {operation : OperationRecord D C} {registry : OperationRegistry D C}
  {slotIndex : Nat} {outcome : OperationOutcome} {id : OperationId}

/-- The operation that an id stands for. -/
def OperationId.entry (id : OperationId) : Entry := ⟨id.slotIndex, id.generation⟩

/-! ## Slots of a changed registry -/

namespace OperationRegistry

theorem exists_slot (occupied : registry.operationAt slotIndex = some operation) :
    ∃ slot, registry.slots[slotIndex]? = some slot ∧ slot.operation = some operation :=
  bind_eq_some_iff.mp occupied

theorem entryAt_eq {slot : OperationSlot D C} (found : registry.slots[slotIndex]? = some slot) :
    registry.entryAt slotIndex = ⟨slotIndex, slot.generation⟩ := by
  simp [entryAt, found]

theorem slots_setOperation (o : Option (OperationRecord D C)) :
    (registry.setOperation slotIndex o).slots =
      registry.slots.modify slotIndex fun slot => { slot with operation := o } := rfl

@[simp] theorem setOperation_setOperation (o o' : Option (OperationRecord D C)) :
    (registry.setOperation slotIndex o).setOperation slotIndex o' =
      registry.setOperation slotIndex o' := by
  simp only [setOperation, modify_modify_eq]
  rfl

@[simp] theorem entryAt_setOperation (o : Option (OperationRecord D C)) (j : Nat) :
    (registry.setOperation slotIndex o).entryAt j = registry.entryAt j := by
  simp only [entryAt, slots_setOperation, getElem?_modify]
  by_cases here : slotIndex = j
  · cases found : registry.slots[j]? <;> simp [here]
  · simp [here]

theorem operationAt_setOperation (o : Option (OperationRecord D C))
    (occupied : registry.operationAt slotIndex = some operation) :
    (registry.setOperation slotIndex o).operationAt slotIndex = o := by
  obtain ⟨slot, found, -⟩ := exists_slot occupied
  rw [operationAt, slots_setOperation, Arena.getElem?_modify_self found]
  rfl

/-- An id is located exactly if it belongs to the registry and names the generation of an
occupied slot. -/
theorem location_eq_ok_iff : registry.location id = .ok slotIndex ↔
    id.registryTag = registry.tag.value ∧ id.slotIndex = slotIndex ∧
      registry.entryAt slotIndex = id.entry ∧ (registry.operationAt slotIndex).isSome := by
  unfold location
  by_cases tag : id.registryTag = registry.tag.value
  · rw [if_neg (not_not.mpr tag)]
    cases found : registry.slots[id.slotIndex]? with
    | none =>
      constructor
      · nofun
      · rintro ⟨-, rfl, -, occupied⟩
        simp [operationAt, found] at occupied
    | some slot =>
      constructor
      · intro h
        dsimp only at h
        split_ifs at h with future stale
        obtain ⟨not_older, occupied⟩ := not_or.mp stale
        cases h
        refine ⟨tag, rfl, ?_, ?_⟩
        · have same : slot.generation = id.generation := by omega
          simp [entryAt, found, entry, same]
        · simpa [operationAt, found, ne_none_iff_isSome] using occupied
      · rintro ⟨-, rfl, entry, occupied⟩
        have same : slot.generation = id.generation := by
          simpa [entryAt, found, OperationId.entry] using entry
        rw [operationAt, found] at occupied
        have present : slot.operation.isNone = false := by simpa using occupied
        simp [same, present, pure, Except.pure]
  · rw [if_pos tag]
    constructor
    · nofun
    · exact fun h => absurd h.1 tag

/-- An id is located in a slot, and this is the operation in the slot. -/
structure Located (registry : OperationRegistry D C) (id : OperationId) (slotIndex : Nat)
    (operation : OperationRecord D C) : Prop where
  located : registry.location id = .ok slotIndex
  occupied : registry.operationAt slotIndex = some operation

theorem exists_located (located : registry.location id = .ok slotIndex) :
    ∃ operation, registry.Located id slotIndex operation := by
  obtain ⟨operation, occupied⟩ := isSome_iff_exists.mp (location_eq_ok_iff.mp located).2.2.2
  exact ⟨operation, located, occupied⟩

theorem Located.setOperation (h : registry.Located id slotIndex operation)
    (operation' : OperationRecord D C) :
    (registry.setOperation slotIndex (some operation')).Located id slotIndex operation' where
  located := by
    obtain ⟨tag, slot, entry, -⟩ := location_eq_ok_iff.mp h.located
    apply location_eq_ok_iff.mpr
    rw [entryAt_setOperation, operationAt_setOperation _ h.occupied]
    exact ⟨tag, slot, entry, rfl⟩
  occupied := operationAt_setOperation _ h.occupied

end OperationRegistry

/-! ## Changed states -/

namespace RegistryState

/-- Something happens to the operation in a slot, outside the registry. -/
def happened (s : RegistryState W D C) (slotIndex : Nat) (world : W)
    (happenings : List Happening) : RegistryState W D C :=
  ⟨s.registry, world, s.events ++ happenings.map (OperationEvent.mk (s.registry.entryAt slotIndex))⟩

/-- An operation is put in a slot while something happens to it. -/
def withOperation (s : RegistryState W D C) (slotIndex : Nat) (operation : OperationRecord D C)
    (world : W) (happenings : List Happening) : RegistryState W D C :=
  ⟨s.registry.setOperation slotIndex (some operation), world,
    s.events ++ happenings.map (OperationEvent.mk (s.registry.entryAt slotIndex))⟩

def released (s : RegistryState W D C) (slotIndex : Nat) (outcome : OperationOutcome) :
    RegistryState W D C :=
  ⟨s.registry.release slotIndex, s.world,
    s.events ++ [⟨s.registry.entryAt slotIndex, .released outcome⟩]⟩

variable (s : RegistryState W D C) (slotIndex : Nat) (operation operation' : OperationRecord D C)
  (world world' : W) (happenings happenings' : List Happening)

@[simp] theorem registry_withOperation :
    (s.withOperation slotIndex operation world happenings).registry =
    s.registry.setOperation slotIndex (some operation) := rfl

@[simp] theorem world_withOperation :
    (s.withOperation slotIndex operation world happenings).world = world := rfl

@[simp] theorem withOperation_withOperation :
    (s.withOperation slotIndex operation world happenings).withOperation slotIndex operation' world'
        happenings' =
      s.withOperation slotIndex operation' world' (happenings ++ happenings') := by
  simp [withOperation]

@[simp] theorem happened_withOperation :
    (s.withOperation slotIndex operation world happenings).happened slotIndex world' happenings' =
      s.withOperation slotIndex operation world' (happenings ++ happenings') := by
  simp [withOperation, happened]

end RegistryState

/-! ## Primitive computations -/

section Primitives

variable {R : Panic → RegistryState W D C → Prop} {s : RegistryState W D C}

@[simp] theorem wp_getRegistry {Q : OperationRegistry D C → RegistryState W D C → Prop} :
    wp getRegistry Q R s ↔ Q s.registry s := Iff.rfl

variable {Q : Unit → RegistryState W D C → Prop}

@[simp] theorem wp_setOperation :
    wp (modifyRegistry fun registry => registry.setOperation slotIndex (some operation)) Q R s ↔
      Q () (s.withOperation slotIndex operation s.world []) := by
  simp [modifyRegistry, withOperation]

@[simp] theorem wp_callDriver {hook : D → W → α × D × W} {Q : α → RegistryState W D C → Prop} :
    wp (callDriver slotIndex operation hook) Q R s ↔
      Q (hook operation.driver s.world).1 (s.withOperation slotIndex
        { operation with driver := (hook operation.driver s.world).2.1 }
        (hook operation.driver s.world).2.2 []) := by
  simp [callDriver, withOperation]

@[simp] theorem wp_releaseSlot :
    wp (releaseSlot slotIndex outcome) Q R s ↔ Q () (s.released slotIndex outcome) := Iff.rfl

variable (hooks : HostOperation W D C)

@[simp] theorem wp_callCleanup {cleanup : C}
    {Q : OperationResult Unit → RegistryState W D C → Prop} :
    wp (callCleanup hooks slotIndex cleanup outcome) Q R s ↔
      Q (hooks.cleanup cleanup outcome s.world).1 (s.happened slotIndex
        (hooks.cleanup cleanup outcome s.world).2
        [.cleanup outcome (hooks.cleanup cleanup outcome s.world).1]) := Iff.rfl

/-- The cancel hook answers, and the operation keeps its status. -/
theorem callCancel_ends {reason : OperationCancelReason} {wait : Bool}
    {Q : OperationResult Unit → RegistryState W D C → Prop}
    (h : ∀ answer driver world, Q answer (s.withOperation slotIndex { operation with driver } world
      [.cancel reason answer])) :
    wp (callCancel hooks slotIndex operation reason wait) Q R s := by
  simp only [callCancel, record]
  have called := h ((if wait then hooks.cancelAndWait operation.driver reason
    else hooks.cancel operation.driver reason) s.world).1
  simpa [withOperation] using called _ _

end Primitives

/-! ## Changes -/

/-- How an operation comes to its end: by itself, or by its cancel hook. -/
inductive Request : List Happening → OperationStatus → Prop where
  | completed : Request [] .completed
  | failed (error : OperationError) : Request [] (.failed error)
  | cancelled (reason : OperationCancelReason) :
      Request [.cancel reason (.ok ())] (.cancelled reason)
  | refused (reason : OperationCancelReason) (error : OperationError) :
      Request [.cancel reason (.error error)] (.failed (driverFailure error))

/-- The cleanup, if there is one, runs with the requested outcome; the operation keeps the
requested status, unless the cleanup fails. -/
inductive Cleaned (requested : OperationStatus) :
    Bool → List Happening → OperationStatus → Prop where
  | none : Cleaned requested false [] requested
  | ran {outcome : OperationOutcome} (answer : OperationResult Unit) :
      requested.terminalOutcome = some outcome →
      Cleaned requested true [.cleanup outcome answer] requested
  | failed {outcome : OperationOutcome} (error : OperationError) :
      requested.terminalOutcome = some outcome →
      Cleaned requested true [.cleanup outcome (.error error)] (.failed (cleanupFailure error))

/-- What happens to an operation that leaves the pending state. -/
inductive Ending (hasCleanup : Bool) : List Happening → OperationStatus → Prop where
  | mk {request cleanups : List Happening} {requested status : OperationStatus} :
      Request request requested → Cleaned requested hasCleanup cleanups status →
      Ending hasCleanup (request ++ cleanups) status

/-- A change of one operation, of the seal, or of the world. -/
inductive Change : RegistryState W D C → RegistryState W D C → Prop where
  | reuse {s : RegistryState W D C} {slotIndex : Nat} {rest : List Nat}
      {operation : OperationRecord D C} : s.registry.free = slotIndex :: rest →
      operation.status = .pending → s.registry.activeCount < s.registry.maxPending →
      Change s (({ s with registry := { s.registry with free := rest } }).withOperation slotIndex
        operation s.world [.started operation.cleanup.isSome])
  | grow {s : RegistryState W D C} {operation : OperationRecord D C} :
      s.registry.free = [] → s.registry.slots.length < maxSlotIdentity →
      operation.status = .pending → s.registry.activeCount < s.registry.maxPending →
      Change s (({ s with
        registry := { s.registry with slots := s.registry.slots ++ [⟨1, none⟩] } } :
          RegistryState W D C).withOperation
          s.registry.slots.length operation s.world [.started operation.cleanup.isSome])
  | touch {s : RegistryState W D C} {slotIndex : Nat} {operation : OperationRecord D C} (driver : D)
      (world : W) : s.registry.operationAt slotIndex = some operation →
      Change s (s.withOperation slotIndex { operation with driver } world [])
  | finish {s : RegistryState W D C} {slotIndex : Nat} {operation : OperationRecord D C}
      (driver : D) (world : W) {happenings : List Happening} {status : OperationStatus} :
      s.registry.operationAt slotIndex = some operation → operation.status = .pending →
      Ending operation.cleanup.isSome happenings status →
      Change s (s.withOperation slotIndex { operation with driver, status, cleanup := none } world
        happenings)
  | release {s : RegistryState W D C} {slotIndex : Nat} {operation : OperationRecord D C}
      {outcome : OperationOutcome} : s.registry.operationAt slotIndex = some operation →
      operation.status.terminalOutcome = some outcome →
      Change s (s.released slotIndex outcome)
  | sealed (s : RegistryState W D C) :
      Change s { s with registry := { s.registry with «sealed» := true } }
  | world (s : RegistryState W D C) (world : W) : Change s { s with world }

/-- Running `x` from `s` does not panic, and ends in `Q`. -/
abbrev Ends {α σ : Type} (x : EStateM Panic σ α) (s : σ) (Q : α → σ → Prop) : Prop :=
  wp x Q (fun _ _ => False) s

variable {σ : Type} {x : EStateM Panic σ α} {s : σ} {Q : α → σ → Prop}

theorem Ends.mono {Q' : α → σ → Prop} (h : Ends x s Q) (ok : ∀ a t, Q a t → Q' a t) : Ends x s Q' :=
  wp_mono h ok fun _ _ h => h

theorem Ends.exists_ok (h : Ends x s Q) : ∃ a t, x s = .ok a t ∧ Q a t := by
  cases result : x s with
  | ok a t => exact ⟨a, t, rfl, by have ended := wp_ok h result; exact ended⟩
  | error e t => exact absurd result fun failed => by have ended := wp_error h failed; exact ended

/-! ## Leaving the pending state -/

theorem Ending.isTerminal {hasCleanup : Bool} {happenings : List Happening}
    {status : OperationStatus} (h : Ending hasCleanup happenings status) :
    status.isTerminal = true := by
  obtain ⟨request, cleaned⟩ := h
  cases cleaned with
  | none | ran answer outcome => cases request <;> rfl
  | failed error outcome => rfl

theorem OperationStatus.exists_terminalOutcome {status : OperationStatus}
    (terminal : status.isTerminal = true) : ∃ outcome, status.terminalOutcome = some outcome := by
  cases status with
  | pending => cases terminal
  | completed | cancelled reason | failed error => exact ⟨_, rfl⟩

theorem OperationStatus.eq_pending {status : OperationStatus} (h : ¬ status.isTerminal = true) :
    status = .pending := by
  cases status with
  | pending => rfl
  | completed | cancelled reason | failed error => exact absurd rfl h

/-- The pending operation in a slot has come to its end. -/
def Finished (slotIndex : Nat) (operation : OperationRecord D C) (s t : RegistryState W D C) :
    Prop :=
  ∃ driver status world happenings, Ending operation.cleanup.isSome happenings status ∧
    t = s.withOperation slotIndex { operation with driver, status, cleanup := none } world
      happenings

section Functions

variable {hooks : HostOperation W D C} {s t : RegistryState W D C}

theorem Finished.change (h : Finished slotIndex operation s t)
    (occupied : s.registry.operationAt slotIndex = some operation)
    (pending : operation.status = .pending) : Change s t := by
  obtain ⟨driver, status, world, happenings, ending, rfl⟩ := h
  exact .finish driver world occupied pending ending

theorem Finished.located (h : Finished slotIndex operation s t)
    (located : s.registry.Located id slotIndex operation) :
    ∃ operation', t.registry.Located id slotIndex operation' ∧
      operation'.status.isTerminal = true := by
  obtain ⟨driver, status, world, happenings, ending, rfl⟩ := h
  exact ⟨_, located.setOperation _, ending.isTerminal⟩

variable {requested : OperationStatus} {reason : OperationCancelReason}

/-- A cleanup answers, and its failure becomes the status of the operation. -/
theorem runCleanup_ends {cleanup : C} {Q : OperationResult Unit → RegistryState W D C → Prop}
    (occupied : s.registry.operationAt slotIndex = some operation)
    (ok : ∀ world, Q (.ok ()) (s.happened slotIndex world [.cleanup outcome (.ok ())]))
    (failed : ∀ error world, Q (.error (cleanupFailure error)) (s.withOperation slotIndex
        { operation with status := .failed (cleanupFailure error) } world
        [.cleanup outcome (.error error)])) :
    Ends (runCleanup hooks slotIndex cleanup outcome) s Q := by
  simp only [runCleanup, wp_bind, wp_callCleanup]
  obtain ⟨answer, world⟩ := hooks.cleanup cleanup outcome s.world
  cases answer with
  | ok _ => exact ok world
  | error error =>
    simpa [modifyRegistry, happened, withOperation, occupied] using failed error world

/-- The reply of a call that finished an operation. -/
def cleanupResult : List Happening → OperationResult Bool
  | [.cleanup _ (.error error)] => .error (cleanupFailure error)
  | _ => .ok true

theorem cleanupResult_map (happenings : List Happening) :
    (cleanupResult happenings).map (fun _ => true) = cleanupResult happenings := by
  unfold cleanupResult
  split <;> rfl

/-- A pending operation takes the requested status, and its cleanup runs. -/
theorem finishTerminal_cleaned (h : s.registry.Located id slotIndex operation)
    (pending : operation.status = .pending)
    (outcome_eq : requested.terminalOutcome = some outcome) :
    Ends (finishTerminal hooks id requested outcome) s fun result t =>
      ∃ status world cleanups, Cleaned requested operation.cleanup.isSome cleanups status ∧
        result = cleanupResult cleanups ∧
        t = s.withOperation slotIndex { operation with status, cleanup := none } world
          cleanups := by
  simp only [finishTerminal, wp_bind, wp_getRegistry, h.located, h.occupied, pending,
    isTerminal, Bool.false_eq_true, if_false, wp_setOperation]
  cases cleanup : operation.cleanup with
  | none => exact ⟨requested, s.world, [], .none, rfl, rfl⟩
  | some run =>
    rw [wp_bind]
    apply runCleanup_ends (h.setOperation _).occupied
    · intro world
      refine ⟨requested, world, _, .ran (.ok ()) outcome_eq, rfl, ?_⟩
      rw [happened_withOperation]
      rfl
    · intro error world
      refine ⟨_, world, _, .failed error outcome_eq, rfl, ?_⟩
      rw [withOperation_withOperation]
      rfl

theorem finishTerminal_finished (h : s.registry.Located id slotIndex operation)
    (pending : operation.status = .pending) (request : Request [] requested)
    (outcome_eq : requested.terminalOutcome = some outcome) :
    Ends (finishTerminal hooks id requested outcome) s
      fun _ t => Finished slotIndex operation s t := by
  apply (finishTerminal_cleaned h pending outcome_eq).mono
  rintro _ t ⟨status, world, cleanups, cleaned, -, rfl⟩
  exact ⟨operation.driver, status, world, cleanups, .mk request cleaned, rfl⟩

/-- The cancel hook failed: its error stays, whatever the cleanup answers. -/
theorem failCancellation_ends {first : OperationError}
    (occupied : s.registry.operationAt slotIndex = some operation) :
    Ends (failCancellation hooks slotIndex first) s fun _ t =>
      ∃ world cleanups, Cleaned (.failed first) operation.cleanup.isSome cleanups (.failed first) ∧
        t = s.withOperation slotIndex { operation with status := .failed first, cleanup := none }
          world cleanups := by
  simp only [failCancellation, wp_bind, wp_getRegistry, wp_expect, occupied, wp_setOperation,
    some.injEq, forall_eq', reduceCtorEq, false_implies, and_true]
  cases cleanup : operation.cleanup with
  | none => exact ⟨s.world, [], .none, rfl⟩
  | some run =>
    rw [wp_bind, wp_callCleanup, happened_withOperation]
    exact ⟨_, _, .ran _ rfl, rfl⟩

/-- What happens to a pending operation that is cancelled, with the reply. -/
inductive Cancellation (reason : OperationCancelReason) (hasCleanup : Bool) :
    List Happening → OperationStatus → OperationResult Bool → Prop where
  | accepted {cleanups : List Happening} {status : OperationStatus} :
      Cleaned (.cancelled reason) hasCleanup cleanups status →
      Cancellation reason hasCleanup (.cancel reason (.ok ()) :: cleanups) status
        (cleanupResult cleanups)
  | refused {cleanups : List Happening} (error : OperationError) :
      Cleaned (.failed (driverFailure error)) hasCleanup cleanups (.failed (driverFailure error)) →
      Cancellation reason hasCleanup (.cancel reason (.error error) :: cleanups)
        (.failed (driverFailure error)) (.error (driverFailure error))

theorem Cancellation.ending {hasCleanup : Bool} {happenings : List Happening}
    {status : OperationStatus} {result : OperationResult Bool}
    (h : Cancellation reason hasCleanup happenings status result) :
    Ending hasCleanup happenings status := by
  cases h with
  | accepted cleaned => exact .mk (.cancelled reason) cleaned
  | refused error cleaned => exact .mk (.refused reason error) cleaned

variable {wait : Bool}

section

variable (h : s.registry.Located id slotIndex operation)

include h

/-- Cancelling a pending operation calls its cancel hook, and finishes it. -/
theorem cancelWithWait_cancelled (pending : operation.status = .pending) :
    Ends (cancelWithWait hooks id reason wait) s fun result t =>
      ∃ driver status world happenings,
        Cancellation reason operation.cleanup.isSome happenings status result ∧
        t = s.withOperation slotIndex { operation with driver, status, cleanup := none } world
          happenings := by
  simp only [cancelWithWait, wp_bind, wp_getRegistry, h.located, h.occupied, pending,
    isTerminal, Bool.false_eq_true, if_false]
  apply callCancel_ends
  intro answer driver world
  have after := h.setOperation { operation with driver }
  have stillPending : ({ operation with driver } : OperationRecord D C).status = .pending := pending
  cases answer with
  | ok _ =>
    rw [wp_bind]
    apply (finishTerminal_cleaned after stillPending rfl).mono
    rintro _ t ⟨status, world', cleanups, cleaned, rfl, rfl⟩
    rw [wp_pure, cleanupResult_map]
    refine ⟨driver, status, world', _, .accepted cleaned, ?_⟩
    rw [withOperation_withOperation]
    rfl
  | error error =>
    rw [wp_bind]
    apply (failCancellation_ends after.occupied).mono
    rintro _ t ⟨world', cleanups, cleaned, rfl⟩
    refine ⟨driver, _, world', _, .refused error cleaned, ?_⟩
    rw [withOperation_withOperation]
    rfl

theorem cancelWithWait_finished (pending : operation.status = .pending) :
    Ends (cancelWithWait hooks id reason wait) s fun _ t => Finished slotIndex operation s t := by
  apply (cancelWithWait_cancelled h pending).mono
  rintro _ t ⟨driver, status, world, happenings, cancellation, rfl⟩
  exact ⟨driver, status, world, happenings, cancellation.ending, rfl⟩

/-! ## Calls that do nothing -/

theorem finishTerminal_terminal (terminal : operation.status.isTerminal = true) :
    finishTerminal hooks id requested outcome s = .ok (.ok false) s := by
  refine (bind_ok rfl).trans ?_
  simp only [h.located, h.occupied, terminal]
  rfl

theorem cancelWithWait_terminal (terminal : operation.status.isTerminal = true) :
    cancelWithWait hooks id reason wait s = .ok (.ok false) s := by
  refine (bind_ok rfl).trans ?_
  simp only [h.located, h.occupied, terminal]
  rfl

end

/-- The id that a call is about. -/
def RegistryCall.target : RegistryCall W D C → Option OperationId
  | .status id | .takeOutcome id | .poll id | .pollQuiescent id | .cancel id _ | .abort id _
  | .complete id | .fail id _ | .remove id => some id
  | _ => none

/-- The error of a call that was rejected. -/
def RegistryReply.rejection : RegistryReply → Option OperationError
  | .id (.error error) | .status (.error error) | .outcome (.error error)
  | .poll (.ready (.error error)) | .flag (.error error) => some error
  | _ => none

variable {slot : OperationSlot D C} {call : RegistryCall W D C} {u : RegistryState W D C}
  {spec : OperationSpec D C} {entry : RegistryCall W D C × RegistryReply}

/-- A call with an id that is not located is rejected and changes nothing. -/
theorem runCall_unlocated {error : OperationError}
    (target : call.target = some id) (unlocated : s.registry.location id = .error error) :
    Ends (runCall hooks call) s fun reply t => reply.rejection = some error ∧ t = s := by
  cases call <;> cases target
  case status =>
    simp only [runCall, wp_bind, wp_getRegistry, wp_pure, status, unlocated]
    exact ⟨rfl, trivial⟩
  all_goals
    simp only [runCall, takeOutcome, poll, pollQuiescent, cancel, cancelWithWait, abort, complete,
      fail, finishTerminal, remove, wp_bind, wp_getRegistry, unlocated, wp_pure,
      RegistryReply.rejection, and_self]

/-! ## Handing out outcomes -/

abbrev Changes : RegistryState W D C → RegistryState W D C → Prop := ReflTransGen Change

/-- After other changes, the outcome of the operation leaves the registry with its slot. -/
def HandsOut (id : OperationId) (outcome : OperationOutcome) (s t : RegistryState W D C) : Prop :=
  ∃ u slotIndex operation, Changes s u ∧ u.registry.Located id slotIndex operation ∧
    operation.status.terminalOutcome = some outcome ∧ t = u.released slotIndex outcome

theorem HandsOut.changes (h : HandsOut id outcome s t) : Changes s t := by
  obtain ⟨u, slotIndex, operation, changes, located, terminal, rfl⟩ := h
  exact changes.tail (.release located.occupied terminal)

theorem HandsOut.after (first : Changes s u)
    (h : HandsOut id outcome u t) : HandsOut id outcome s t := by
  obtain ⟨v, slotIndex, operation, changes, rest⟩ := h
  exact ⟨v, slotIndex, operation, first.trans changes, rest⟩

/-- The outcome is handed out, or there is none and the state has changed otherwise. -/
inductive Delivers (id : OperationId) (s : RegistryState W D C) :
    Option OperationOutcome → RegistryState W D C → Prop where
  | nothing {t : RegistryState W D C} : Changes s t → Delivers id s none t
  | outcome {t : RegistryState W D C} {outcome : OperationOutcome} :
      HandsOut id outcome s t → Delivers id s (some outcome) t

theorem Delivers.changes {delivered : Option OperationOutcome} (h : Delivers id s delivered t) :
    Changes s t := by
  cases h with
  | nothing changes => exact changes
  | outcome handed => exact handed.changes

theorem Delivers.after {delivered : Option OperationOutcome}
    (first : Changes s u) (h : Delivers id u delivered t) : Delivers id s delivered t := by
  cases h with
  | nothing changes => exact .nothing (first.trans changes)
  | outcome handed => exact .outcome (handed.after first)

def delivered : OperationResult OperationOutcome → Option OperationOutcome
  | .ok outcome => some outcome
  | .error _ => none

def polled : Poll (OperationResult OperationOutcome) → Option OperationOutcome
  | .ready result => delivered result
  | .pending => none

def removed : OperationResult OperationStatus → Option OperationOutcome
  | .ok status => status.terminalOutcome
  | .error _ => none

theorem delivers_released (h : s.registry.Located id slotIndex operation)
    (terminal : operation.status.terminalOutcome = some outcome) :
    Delivers id s (some outcome) (s.released slotIndex outcome) :=
  .outcome ⟨s, slotIndex, operation, .refl, h, terminal, rfl⟩

/-- An operation is looked up: its id is refused, or it stands at its slot. -/
theorem ends_located {refuse : OperationRegistry D C → OperationError → RegM W D C α}
    {use : OperationRegistry D C → Nat → RegM W D C α} {Q : α → RegistryState W D C → Prop}
    (refused : ∀ error, Ends (refuse s.registry error) s Q)
    (found : ∀ slotIndex operation, s.registry.Located id slotIndex operation →
      Ends (use s.registry slotIndex) s Q) :
    Ends (getRegistry >>= fun registry => match registry.location id with
      | .error error => refuse registry error
      | .ok slotIndex => use registry slotIndex) s Q := by
  simp only [wp_bind, wp_getRegistry]
  cases located : s.registry.location id with
  | error error => exact refused error
  | ok slotIndex =>
    obtain ⟨operation, h⟩ := exists_located located
    exact found slotIndex operation h

theorem takeOutcome_delivers :
    Ends (takeOutcome hooks id) s fun result t => Delivers id s (delivered result) t := by
  refine ends_located (fun _ => .nothing .refl) fun slotIndex operation h => ?_
  simp only [h.occupied, wp_bind, wp_get, wp_ite]
  refine ⟨fun _ => .nothing .refl, fun _ => ?_⟩
  cases terminal : operation.status.terminalOutcome with
  | none => exact .nothing .refl
  | some outcome => exact delivers_released h terminal

theorem takeOutcomeAfterCancelAndWait_delivers :
    Ends (takeOutcomeAfterCancelAndWait id) s fun result t =>
      Delivers id s (delivered result) t := by
  refine ends_located (fun _ => .nothing .refl) fun slotIndex operation h => ?_
  simp only [h.occupied, bind_some]
  cases terminal : operation.status.terminalOutcome with
  | none => exact .nothing .refl
  | some outcome => exact delivers_released h terminal

theorem remove_delivers :
    Ends (remove hooks id) s fun result t => Delivers id s (removed result) t := by
  refine ends_located (fun _ => .nothing .refl) fun slotIndex operation h => ?_
  simp only [h.occupied]
  cases terminal : operation.status.terminalOutcome with
  | none => exact .nothing .refl
  | some outcome =>
    simp only [wp_bind, wp_get, wp_ite]
    refine ⟨fun _ => .nothing .refl, fun _ => ?_⟩
    simp only [wp_releaseSlot, wp_pure, removed, terminal]
    exact delivers_released h terminal

/-! ## Polling -/

/-- The driver of a terminal operation is polled, and the slot is released once it is
quiescent. -/
theorem pollTerminal_ends (h : s.registry.Located id slotIndex operation)
    (terminal : operation.status.isTerminal = true) :
    Ends (pollTerminal hooks slotIndex) s fun result t => ∃ driver world u,
      u = s.withOperation slotIndex { operation with driver } world [] ∧
      ((result = .pending ∧ t = u) ∨ ∃ outcome, operation.status.terminalOutcome = some outcome ∧
          result = .ready (.ok outcome) ∧ t = u.released slotIndex outcome) := by
  obtain ⟨outcome, outcome_eq⟩ := exists_terminalOutcome terminal
  simp only [pollTerminal, wp_bind, wp_getRegistry, h.occupied, expect, wp_pure, wp_callDriver]
  obtain ⟨answer, driver, world⟩ := hooks.pollQuiescent operation.driver s.world
  refine wp_mono (Q := fun result t =>
    (result = .pending ∧ t = s.withOperation slotIndex { operation with driver } world []) ∨
      ∃ outcome,
        operation.status.terminalOutcome = some outcome ∧ result = .ready (.ok outcome) ∧
          t = (s.withOperation slotIndex { operation with driver } world []).released
            slotIndex outcome)
    ?_ (fun _ _ ended => ⟨driver, world, _, rfl, ended⟩) fun _ _ failed => failed
  cases answer with
  | pending => exact .inl ⟨rfl, rfl⟩
  | ready _ =>
    have after := h.setOperation { operation with driver }
    simp only [consumeTerminal, wp_bind, wp_getRegistry, registry_withOperation,
      after.occupied, expect, wp_pure, outcome_eq]
    exact .inr ⟨outcome, rfl, rfl, rfl⟩

theorem pollTerminal_delivers (h : s.registry.Located id slotIndex operation)
    (terminal : operation.status.isTerminal = true) :
    Ends (pollTerminal hooks slotIndex) s fun result t => Delivers id s (polled result) t := by
  apply (pollTerminal_ends h terminal).mono
  rintro result t ⟨driver, world, u, rfl, ⟨rfl, rfl⟩ | ⟨outcome, outcome_eq, rfl, rfl⟩⟩
  · exact .nothing (.single (.touch driver world h.occupied))
  · have released : Delivers id (s.withOperation slotIndex { operation with driver } world [])
        (some outcome) _ := delivers_released (h.setOperation { operation with driver }) outcome_eq
    exact released.after (.single (.touch driver world h.occupied))

/-- A pending operation is finished, and is then polled as a terminal one. -/
theorem pollFinished_delivers {x : RegM W D C (OperationResult Bool)}
    (h : s.registry.Located id slotIndex operation) (pending : operation.status = .pending)
    (finishes : Ends x s fun _ u => Finished slotIndex operation s u) :
    Ends (x >>= fun _ => pollFinished hooks id) s fun result t =>
      Delivers id s (polled result) t := by
  apply wp_bind.mpr
  apply finishes.mono
  intro _ u finished
  obtain ⟨operation', located, terminal⟩ := finished.located h
  simp only [pollFinished, wp_bind, wp_getRegistry, located.located]
  apply (pollTerminal_delivers located terminal).mono
  intro result t delivers
  exact delivers.after (.single (finished.change h.occupied pending))

theorem isTerminalAt_eq (occupied : s.registry.operationAt slotIndex = some operation) :
    s.registry.isTerminalAt slotIndex = operation.status.isTerminal := by
  simp [isTerminalAt, occupied]

theorem poll_delivers : Ends (poll hooks id) s fun result t => Delivers id s (polled result) t := by
  refine ends_located (fun _ => .nothing .refl) fun slotIndex operation h => ?_
  simp only [isTerminalAt_eq h.occupied, h.occupied, expect, wp_ite]
  refine ⟨pollTerminal_delivers h, fun notTerminal => ?_⟩
  have pending := eq_pending notTerminal
  simp only [wp_bind, wp_pure, wp_callDriver]
  have touched : ∀ driver world,
      Change s (s.withOperation slotIndex { operation with driver } world []) :=
    fun driver world => .touch driver world h.occupied
  obtain ⟨answer, driver, world⟩ := hooks.poll operation.driver s.world
  have pending' : ({ operation with driver } : OperationRecord D C).status = .pending := pending
  have located' : (s.withOperation slotIndex { operation with driver } world []).registry.Located
      id slotIndex { operation with driver } := h.setOperation _
  -- the driver has answered; what follows starts from the touched state
  apply Ends.mono (Q := fun result t => Delivers id
    (s.withOperation slotIndex { operation with driver } world []) (polled result) t)
  swap
  · exact fun result t delivers => delivers.after (.single (touched driver world))
  cases answer with
  | pending =>
    simp only [wp_bind, wp_get, wp_ite]
    refine ⟨fun _ => ?_, fun _ => .nothing .refl⟩
    exact wp_bind.mp (pollFinished_delivers located' pending'
      (cancelWithWait_finished located' pending'))
  | ready result =>
    cases result with
    | ok _ =>
      exact pollFinished_delivers located' pending'
        (finishTerminal_finished located' pending' .completed rfl)
    | error error =>
      exact pollFinished_delivers located' pending'
        (finishTerminal_finished located' pending' (.failed error) rfl)

theorem pollQuiescent_delivers :
    Ends (pollQuiescent hooks id) s fun result t => Delivers id s (polled result) t := by
  refine ends_located (fun _ => .nothing .refl) fun slotIndex operation h => ?_
  simp only [isTerminalAt_eq h.occupied, wp_ite]
  exact ⟨pollTerminal_delivers h, fun _ => .nothing .refl⟩

/-! ## Cancelling and sweeping -/

theorem finishTerminal_changes (request : Request [] requested)
    (outcome_eq : requested.terminalOutcome = some outcome) :
    Ends (finishTerminal hooks id requested outcome) s fun _ t => Changes s t := by
  cases located : s.registry.location id with
  | error error =>
    simp only [finishTerminal, wp_bind, wp_getRegistry, located]
    exact .refl
  | ok slotIndex =>
    obtain ⟨operation, h⟩ := exists_located located
    by_cases terminal : operation.status.isTerminal = true
    · simp only [wp, finishTerminal_terminal h terminal]
      exact .refl
    · have pending := eq_pending terminal
      apply (finishTerminal_finished h pending request outcome_eq).mono
      exact fun _ t finished => .single (finished.change h.occupied pending)

theorem cancelWithWait_changes :
    Ends (cancelWithWait hooks id reason wait) s fun _ t => Changes s t := by
  cases located : s.registry.location id with
  | error error =>
    simp only [cancelWithWait, wp_bind, wp_getRegistry, located]
    exact .refl
  | ok slotIndex =>
    obtain ⟨operation, h⟩ := exists_located located
    by_cases terminal : operation.status.isTerminal = true
    · simp only [wp, cancelWithWait_terminal h terminal]
      exact .refl
    · have pending := eq_pending terminal
      apply (cancelWithWait_finished h pending).mono
      exact fun _ t finished => .single (finished.change h.occupied pending)

theorem takeAborted_changes {pending : Bool} :
    Ends (takeAborted hooks id pending) s fun _ t => Changes s t := by
  apply wp_ite.mpr
  constructor
  · exact fun _ => takeOutcomeAfterCancelAndWait_delivers.mono fun _ _ delivers => delivers.changes
  · exact fun _ => takeOutcome_delivers.mono fun _ _ delivers => delivers.changes

theorem abort_changes : Ends (abort hooks id reason) s fun _ t => Changes s t := by
  simp only [abort, wp_bind, wp_getRegistry]
  cases located : s.registry.location id with
  | error error => exact .refl
  | ok slotIndex =>
    rw [wp_bind]
    apply cancelWithWait_changes.mono
    intro cancelled t first
    rw [wp_bind]
    apply takeAborted_changes.mono
    intro taken u second
    exact first.trans second

theorem cancelPending_changes {cancel : OperationId → RegM W D C (OperationResult Bool)}
    (cancels : ∀ id s, Ends (cancel id) s fun _ t => Changes s t) (ids : List OperationId)
    (summary : OperationCancelSummary) (s : RegistryState W D C) :
    Ends (cancelPending cancel ids summary) s fun _ t => Changes s t := by
  induction ids generalizing summary s with
  | nil => exact .refl
  | cons id ids ih =>
    simp only [cancelPending, wp_bind, wp_getRegistry, wp_ite]
    refine ⟨fun _ => ?_, fun _ => ih summary s⟩
    apply (cancels id s).mono
    intro result t first
    exact (ih _ t).mono fun _ u rest => first.trans rest

theorem drainQuiescent_changes (ids : List OperationId) (s : RegistryState W D C) :
    Ends (drainQuiescent hooks ids) s fun _ t => Changes s t := by
  induction ids generalizing s with
  | nil => exact .refl
  | cons id ids ih =>
    refine ends_located (fun _ => ih s) fun slotIndex operation h => ?_
    simp only [isTerminalAt_eq h.occupied, wp_ite, wp_bind]
    refine ⟨fun terminal => ?_, fun _ => ih s⟩
    apply (pollTerminal_delivers h terminal).mono
    intro _ t delivers
    exact (ih t).mono fun _ u rest => delivers.changes.trans rest

/-! ## Well-formed registries -/

/-- The generations and the slots have ids, the free list holds vacant slots once, and the
pending operations keep to their limit. -/
structure OperationRegistry.WellFormed (registry : OperationRegistry D C) : Prop where
  slots : registry.slots.length ≤ maxSlotIdentity
  generations : ∀ slot ∈ registry.slots, slot.generation ≠ 0 ∧ slot.generation ≤ maxGeneration
  free_nodup : registry.free.Nodup
  free_vacant : ∀ slotIndex ∈ registry.free,
    ∃ slot, registry.slots[slotIndex]? = some slot ∧ slot.operation = none
  pending : registry.activeCount ≤ registry.maxPending

theorem OperationRegistry.WellFormed.generation (wf : registry.WellFormed)
    (found : registry.slots[slotIndex]? = some slot) :
    slot.generation ≠ 0 ∧ slot.generation ≤ maxGeneration :=
  wf.generations slot (mem_of_getElem? found)

theorem OperationRegistry.WellFormed.encodable (wf : registry.WellFormed)
    (found : registry.slots[slotIndex]? = some slot) :
    OperationId.Encodable registry.tag.value slotIndex slot.generation := by
  have bound : slotIndex < registry.slots.length := (List.getElem?_eq_some_iff.mp found).1
  exact ⟨registry.tag.positive, registry.tag.bounded, bound.trans_le wf.slots, wf.generation found⟩

theorem mapM_expect_ends {ids : List Nat} {encode : Nat → Option OperationId} {panic : Panic}
    (encodes : ∀ slotIndex ∈ ids, (encode slotIndex).isSome) :
    Ends (ids.mapM fun slotIndex => expect (encode slotIndex) panic) s fun result t =>
      t = s ∧ result.map some = ids.map encode := by
  induction ids with
  | nil => exact ⟨rfl, rfl⟩
  | cons slotIndex ids ih =>
    obtain ⟨id, encoded⟩ := isSome_iff_exists.mp (encodes slotIndex mem_cons_self)
    rw [mapM_cons, encoded]
    apply wp_bind.mpr
    change wp (_ >>= _) _ _ _
    rw [wp_bind]
    apply (ih fun slotIndex mem => encodes slotIndex (mem_cons_of_mem _ mem)).mono
    rintro result t ⟨same, rest⟩
    exact ⟨same, by simp [encoded, rest]⟩

/-- The ids of the occupied slots, and of no others. -/
theorem occupiedIds_ends (wf : s.registry.WellFormed) : Ends occupiedIds s fun ids t => t = s ∧
      (∀ id ∈ ids, id.registryTag = s.registry.tag.value) ∧
      ∀ slotIndex, (s.registry.operationAt slotIndex).isSome →
        ∃ id ∈ ids, id.entry = s.registry.entryAt slotIndex := by
  have encoded : ∀ slotIndex, (s.registry.operationAt slotIndex).isSome →
      ∃ id, encode s.registry.tag.value slotIndex
        (s.registry.entryAt slotIndex).generation = some id := by
    intro slotIndex occupied
    obtain ⟨operation, occupied⟩ := isSome_iff_exists.mp occupied
    obtain ⟨slot, found, -⟩ := exists_slot occupied
    simp [encode, entryAt, found, wf.encodable found]
  have fields : ∀ {slotIndex id}, encode s.registry.tag.value slotIndex
      (s.registry.entryAt slotIndex).generation = some id →
      id.registryTag = s.registry.tag.value ∧ id.entry = s.registry.entryAt slotIndex := by
    intro slotIndex id encoded
    obtain ⟨-, tag, slot, generation⟩ := encode_eq_some_iff.mp encoded
    refine ⟨tag, ?_⟩
    rw [entry, slot, generation]
    rfl
  apply (mapM_expect_ends fun slotIndex mem => ?_).mono
  · rintro ids t ⟨rfl, ids_eq⟩
    refine ⟨rfl, fun id mem => ?_, fun slotIndex occupied => ?_⟩
    · have mapped := mem_map_of_mem (f := some) mem
      rw [ids_eq] at mapped
      obtain ⟨slotIndex, -, encoded⟩ := mem_map.mp mapped
      exact (fields encoded).1
    · obtain ⟨id, encodes⟩ := encoded slotIndex occupied
      have bound : slotIndex < t.registry.slots.length := by
        obtain ⟨operation, occupied⟩ := isSome_iff_exists.mp occupied
        obtain ⟨slot, found, -⟩ := exists_slot occupied
        exact (List.getElem?_eq_some_iff.mp found).1
      have mapped : some id ∈ ids.map some := by
        rw [ids_eq]
        exact mem_map.mpr ⟨slotIndex, by simp [bound, occupied], encodes⟩
      obtain ⟨id', mem, same⟩ := mem_map.mp mapped
      obtain rfl : id' = id := by simpa using same
      exact ⟨id', mem, (fields encodes).2⟩
  · obtain ⟨id, encodes⟩ := encoded slotIndex (mem_filter.mp mem).2
    simp [encodes]

/-- A new operation has the id, and nothing else has happened. -/
def Opens (id : OperationId) (s t : RegistryState W D C) : Prop :=
  id.registryTag = s.registry.tag.value ∧
    ∃ hasCleanup, t.events = s.events ++ [⟨id.entry, .started hasCleanup⟩]

/-- The operation of a specification, as it is started. -/
def OperationSpec.opened (spec : OperationSpec D C) : OperationRecord D C :=
  ⟨spec.driver, spec.deadline, spec.cleanup, .pending⟩

theorem installOperation_ends {tag : Nat} (found : s.registry.slots[slotIndex]? = some slot)
    (encodable : OperationId.Encodable tag slotIndex slot.generation) :
    Ends (installOperation tag slotIndex spec) s fun result t =>
      ∃ id, result = .ok id ∧ id.registryTag = tag ∧ id.entry = s.registry.entryAt slotIndex ∧
        t = s.withOperation slotIndex spec.opened s.world [.started spec.cleanup.isSome] := by
  have entry := entryAt_eq found
  obtain ⟨id, encoded⟩ : ∃ id, encode tag slotIndex slot.generation = some id := by
    simp [encode, encodable]
  obtain ⟨-, tag_eq, slot_eq, generation_eq⟩ := encode_eq_some_iff.mp encoded
  simp only [installOperation, wp_bind, wp_getRegistry, entry, encoded]
  refine ⟨id, rfl, tag_eq, ?_, ?_⟩
  · rw [OperationId.entry, slot_eq, generation_eq]
  · simp [withOperation, OperationSpec.opened, entry]

/-- Starting an operation is one change, or changes nothing. -/
theorem start_ends (wf : s.registry.WellFormed) :
    Ends (start spec) s fun result t => (∃ error, result = .error error ∧ t = s) ∨
      ∃ id, result = .ok id ∧ Change s t ∧ Opens id s t := by
  simp only [start, wp_bind, wp_getRegistry, wp_ite]
  refine ⟨fun _ => .inl ⟨_, rfl, rfl⟩, fun _ => ⟨fun _ => .inl ⟨_, rfl, rfl⟩, fun below => ?_⟩⟩
  simp only [acquireSlot, wp_bind, wp_getRegistry]
  cases free : s.registry.free with
  | nil =>
    rw [wp_ite]
    refine ⟨fun _ => .inl ⟨_, rfl, rfl⟩, fun room => ?_⟩
    have found : (s.registry.slots ++ [(⟨1, none⟩ : OperationSlot D C)])[s.registry.slots.length]? =
        some ⟨1, none⟩ := by simp
    apply (installOperation_ends found
      ⟨s.registry.tag.positive, s.registry.tag.bounded, ?_, ?_⟩).mono
    · rintro _ t ⟨id, rfl, tag, entry, rfl⟩
      refine .inr ⟨id, rfl, .grow free (not_le.mp room) rfl (not_le.mp below), tag,
        spec.cleanup.isSome, ?_⟩
      rw [entry]
      rfl
    · exact not_le.mp room
    · exact (by decide : 1 ≠ 0 ∧ 1 ≤ maxGeneration)
  | cons slotIndex rest =>
    obtain ⟨slot, found, -⟩ := wf.free_vacant slotIndex (by simp [free])
    apply (installOperation_ends (s := { s with registry := { s.registry with free := rest } })
      found (wf.encodable found)).mono
    rintro _ t ⟨id, rfl, tag, entry, rfl⟩
    refine .inr ⟨id, rfl, .reuse free rfl (not_le.mp below), tag, spec.cleanup.isSome, ?_⟩
    rw [entry]
    rfl

/-! ## Calls -/

/-- The id of the operation that a call started. -/
def startedId : RegistryCall W D C × RegistryReply → Option OperationId
  | (.start _, .id (.ok id)) => some id
  | _ => none

/-- The outcome that a call handed out, with the id it is of. -/
def handedOut : RegistryCall W D C × RegistryReply → Option (OperationId × OperationOutcome)
  | (.takeOutcome id, .outcome result) => (delivered result).map (Prod.mk id)
  | (.poll id, .poll result) => (polled result).map (Prod.mk id)
  | (.pollQuiescent id, .poll result) => (polled result).map (Prod.mk id)
  | (.remove id, .status result) => (removed result).map (Prod.mk id)
  | _ => none

/-- The outcome that a call reported of an id: one that it handed out, or one that it read. -/
def reported : RegistryCall W D C × RegistryReply → Option (OperationId × OperationOutcome)
  | (.status id, .status result) => (removed result).map (Prod.mk id)
  | entry => handedOut entry

/-- In between the operation of the id has the outcome. -/
def Shows (id : OperationId) (outcome : OperationOutcome) (s t : RegistryState W D C) : Prop :=
  ∃ u slotIndex operation, Changes s u ∧ u.registry.Located id slotIndex operation ∧
    operation.status.terminalOutcome = some outcome ∧ Changes u t

theorem HandsOut.shows (h : HandsOut id outcome s t) : Shows id outcome s t := by
  obtain ⟨u, slotIndex, operation, changes, located, terminal, rfl⟩ := h
  exact ⟨u, slotIndex, operation, changes, located, terminal,
    .single (.release located.occupied terminal)⟩

/-- What a call does, with what its reply says. -/
structure CallSpec (s : RegistryState W D C) (entry : RegistryCall W D C × RegistryReply)
    (t : RegistryState W D C) : Prop where
  changes : Changes s t
  started : ∀ id, startedId entry = some id → Opens id s t
  handed : ∀ id outcome, handedOut entry = some (id, outcome) → HandsOut id outcome s t
  shown : ∀ id outcome, reported entry = some (id, outcome) → Shows id outcome s t

theorem CallSpec.quiet (changes : Changes s t)
    (noId : startedId entry = none) (noOutcome : reported entry = none)
    (sameOutcome : reported entry = handedOut entry) : CallSpec s entry t where
  changes := changes
  started id h := by simp [noId] at h
  handed id outcome h := by simp [← sameOutcome, noOutcome] at h
  shown id outcome h := by simp [noOutcome] at h

theorem CallSpec.delivers
    {outcome : Option OperationOutcome} (delivers : Delivers id s outcome t)
    (noId : startedId entry = none) (handed : handedOut entry = outcome.map (Prod.mk id))
    (sameOutcome : reported entry = handedOut entry) : CallSpec s entry t := by
  have handsOut : ∀ id' outcome', handedOut entry = some (id', outcome') →
      HandsOut id' outcome' s t := by
    intro id' outcome' h
    cases delivers with
    | nothing changes => simp [handed] at h
    | outcome handsOut =>
      obtain ⟨rfl, rfl⟩ : id = id' ∧ _ = outcome' := by simpa [handed] using h
      exact handsOut
  refine ⟨delivers.changes, fun id h => by simp [noId] at h, handsOut, ?_⟩
  intro id' outcome' h
  exact (handsOut id' outcome' (sameOutcome ▸ h)).shows

theorem CallSpec.status (id : OperationId) (s : RegistryState W D C) :
    CallSpec s (.status id, .status (s.registry.status id)) s := by
  refine ⟨.refl, nofun, nofun, ?_⟩
  intro id' outcome h
  simp only [reported, OperationRegistry.status] at h
  cases located : s.registry.location id with
  | error error => simp [located, bind, Except.bind, removed] at h
  | ok slotIndex =>
    obtain ⟨operation, found⟩ := OperationRegistry.exists_located located
    obtain ⟨terminal, rfl⟩ : operation.status.terminalOutcome = some outcome ∧ id = id' := by
      simpa [located, found.occupied, bind, Except.bind, pure, Except.pure, removed] using h
    exact ⟨s, slotIndex, operation, .refl, found, terminal, .refl⟩

/-- **A call is a sequence of changes.** No call panics, an id in a reply is the one of a
new operation, and an outcome in a reply leaves the registry with its operation. -/
theorem runCall_changes {hooks : HostOperation W D C} (wf : s.registry.WellFormed) :
    Ends (runCall hooks call) s fun reply t => CallSpec s (call, reply) t := by
  cases call with
  | start spec =>
    apply wp_bind.mpr
    apply (start_ends wf).mono
    rintro result t (⟨error, rfl, rfl⟩ | ⟨id, rfl, change, opens⟩)
    · exact .quiet .refl rfl rfl rfl
    · refine ⟨.single change, ?_, nofun, nofun⟩
      rintro _ ⟨⟩
      exact opens
  | status id => exact .status id s
  | takeOutcome id =>
    exact wp_bind.mpr (takeOutcome_delivers.mono fun _ _ delivers => .delivers delivers rfl rfl rfl)
  | poll id =>
    exact wp_bind.mpr (poll_delivers.mono fun _ _ delivers => .delivers delivers rfl rfl rfl)
  | pollQuiescent id =>
    exact wp_bind.mpr
      (pollQuiescent_delivers.mono fun _ _ delivers => .delivers delivers rfl rfl rfl)
  | cancel id reason =>
    exact wp_bind.mpr (cancelWithWait_changes.mono fun _ _ changes => .quiet changes rfl rfl rfl)
  | abort id reason =>
    exact wp_bind.mpr (abort_changes.mono fun _ _ changes => .quiet changes rfl rfl rfl)
  | cancelAllAndWait reason =>
    apply wp_bind.mpr
    apply wp_bind.mpr
    apply (occupiedIds_ends wf).mono
    rintro ids t ⟨rfl, -⟩
    exact (cancelPending_changes (fun _ _ => abort_changes) ids _ t).mono
      fun _ _ changes => .quiet changes rfl rfl rfl
  | cancelAll reason =>
    apply wp_bind.mpr
    apply wp_bind.mpr
    apply (occupiedIds_ends wf).mono
    rintro ids t ⟨rfl, -⟩
    exact (cancelPending_changes (fun _ _ => cancelWithWait_changes) ids _ t).mono
      fun _ _ changes => .quiet changes rfl rfl rfl
  | pollQuiescence =>
    apply wp_bind.mpr
    apply wp_bind.mpr
    apply (occupiedIds_ends wf).mono
    rintro ids t ⟨rfl, -⟩
    apply wp_bind.mpr
    exact (drainQuiescent_changes ids t).mono fun _ _ changes => .quiet changes rfl rfl rfl
  | complete id =>
    exact wp_bind.mpr ((finishTerminal_changes .completed rfl).mono
      fun _ _ changes => .quiet changes rfl rfl rfl)
  | fail id error =>
    exact wp_bind.mpr ((finishTerminal_changes (.failed error) rfl).mono
      fun _ _ changes => .quiet changes rfl rfl rfl)
  | remove id =>
    exact wp_bind.mpr (remove_delivers.mono fun _ _ delivers => .delivers delivers rfl rfl rfl)
  | «seal» => exact .quiet (.single (.sealed s)) rfl rfl rfl
  | world change => exact .quiet (.single (.world s (change s.world))) rfl rfl rfl

end Functions

end RustScript.Operation
