import RustScript.Operation.Ledger

/-!
# Cancelling and draining all operations

The two sweeps of a shutdown.  `cancel_all` calls the cancel hook of every pending
operation once, in the order of the slots, with one reason; its summary counts the
operations whose cancellation failed and keeps the first error.  `CancelSwept` says this of a
part of the sweep, in terms of the history; it holds for one call and composes
(`cancelAll_swept`).

`poll_quiescence` then only releases slots (`pollQuiescence_drained`).
-/

namespace RustScript.Operation

open Resource (Poll Entry)
open Wp OperationRegistry Happening List

variable {W D C : Type}

/-! ## Failures -/

/-- The error with which a cancellation failed.  A cleanup that runs after the cancel hook
has failed does not fail the operation again. -/
def Happening.failure : Happening → Option OperationError
  | .cancel _ (.error error) => some (driverFailure error)
  | .cleanup (.cancelled _) (.error error) => some (cleanupFailure error)
  | _ => none

/-- The operations whose cancellation failed, with their errors. -/
def operationFailures (events : List OperationEvent) : List (Entry × OperationError) :=
  events.filterMap fun event => event.happening.failure.map (Prod.mk event.entry)

@[simp] theorem operationFailures_append (l l' : List OperationEvent) :
    operationFailures (l ++ l') = operationFailures l ++ operationFailures l' :=
  filterMap_append

theorem operationFailures_map_mk (entry : Entry) (happenings : List Happening) :
    operationFailures (happenings.map (OperationEvent.mk entry)) =
      (happenings.filterMap failure).map (Prod.mk entry) := by
  simp [operationFailures, map_filterMap]

/-- A call of the cancel hook, and a reply that is an error exactly if the cancellation
failed. -/
structure CancelCall (reason : OperationCancelReason) (happenings : List Happening)
    (result : OperationResult Bool) : Prop where
  cancels : ∃ answer, cancels happenings = [(reason, answer)]
  result : (result = .ok true ∧ happenings.filterMap Happening.failure = []) ∨
    ∃ error, result = .error error ∧ happenings.filterMap Happening.failure = [error]

variable {happenings : List Happening} {hasCleanup : Bool} {operation : OperationRecord D C}
  {slotIndex : Nat}

theorem Cancellation.call {reason : OperationCancelReason}
    {status : OperationStatus} {result : OperationResult Bool}
    (h : Cancellation reason hasCleanup happenings status result) :
    CancelCall reason happenings result := by
  cases h with
  | accepted cleaned =>
    cases cleaned with
    | none => exact ⟨⟨_, rfl⟩, .inl ⟨rfl, rfl⟩⟩
    | ran answer outcome =>
      cases outcome
      cases answer with
      | ok _ => exact ⟨⟨_, rfl⟩, .inl ⟨rfl, rfl⟩⟩
      | error error => exact ⟨⟨_, rfl⟩, .inr ⟨_, rfl, rfl⟩⟩
    | failed error outcome =>
      cases outcome
      exact ⟨⟨_, rfl⟩, .inr ⟨_, rfl, rfl⟩⟩
  | refused error cleaned =>
    cases cleaned with
    | none => exact ⟨⟨_, rfl⟩, .inr ⟨_, rfl, rfl⟩⟩
    | ran answer outcome =>
      cases outcome
      exact ⟨⟨_, rfl⟩, .inr ⟨_, rfl, rfl⟩⟩

/-- Only the cleanup of a cancelled operation can fail it. -/
theorem Cleaned.failed_once {requested status : OperationStatus}
    {happenings : List Happening} (h : Cleaned requested hasCleanup happenings status) :
    (happenings.filterMap failure).length ≤ 1 ∧
      ((∀ reason, requested ≠ .cancelled reason) → happenings.filterMap failure = []) := by
  constructor
  · apply (length_filterMap_le _ _).trans
    cases h <;> simp
  · intro other
    cases h with
    | none => rfl
    | ran answer outcome | failed error outcome =>
      cases requested with
      | cancelled reason => exact absurd rfl (other reason)
      | _ => cases outcome <;> rfl

theorem Ending.failed_once {status : OperationStatus} (h : Ending hasCleanup happenings status) :
    (happenings.filterMap failure).length ≤ 1 := by
  obtain ⟨request, cleaned⟩ := h
  cases request with
  | completed | failed error | cancelled reason => exact cleaned.failed_once.1
  | refused reason error =>
    rw [filterMap_append, cleaned.failed_once.2 nofun]
    exact le_rfl

/-- A life has at most one failure. -/
theorem Life.failed_once {stage : Stage} (life : Life happenings stage) :
    (happenings.filterMap failure).length ≤ 1 := by
  cases life with
  | unborn | started hasCleanup => exact Nat.zero_le 1
  | finished ending => exact ending.failed_once
  | released ending outcome =>
    rw [filterMap_append, length_append]
    exact ending.failed_once

theorem count_operationFailures (events : List OperationEvent) (entry : Entry) :
    ((operationFailures events).map Prod.fst).count entry =
      ((history events entry).filterMap failure).length := by
  induction events with
  | nil => rfl
  | cons event events ih =>
    have cons : ∀ l : List OperationEvent, event :: l = [event] ++ l := fun _ => rfl
    rw [cons, operationFailures_append, history_append, map_append, count_append,
      filterMap_append, length_append, ih]
    by_cases same : event.entry = entry
    iterate 2
      cases failed : event.happening.failure <;> simp [operationFailures, history, same, failed]

/-- **No operation fails twice.** -/
theorem Ledger.operationFailures_nodup {s : RegistryState W D C} (ledger : Ledger s)
    {before after : List OperationEvent} (events : s.events = before ++ after) :
    ((operationFailures after).map Prod.fst).Nodup := by
  apply nodup_iff_count_le_one.mpr
  intro entry
  have once := (ledger.life entry).failed_once
  rw [events, history_append, filterMap_append, length_append] at once
  rw [count_operationFailures]
  omega

/-! ## Pending operations -/

namespace OperationRegistry

variable {registry : OperationRegistry D C} {entry : Entry} {operation' : OperationRecord D C}

theorem operationAt_setOperation_ne {j : Nat} {o : Option (OperationRecord D C)}
    (ne : slotIndex ≠ j) :
    (registry.setOperation slotIndex o).operationAt j = registry.operationAt j := by
  rw [operationAt, slots_setOperation, getElem?_modify_ne _ _ ne]
  rfl

theorem pendingEntry_at (occupied : registry.operationAt slotIndex = some operation) :
    registry.PendingEntry (registry.entryAt slotIndex) ↔ operation.status.isTerminal = false := by
  simp [PendingEntry, isPendingAt, entryAt, occupied]

/-- Only the operation in the slot can become pending or cease to be. -/
theorem pendingEntry_setOperation (ne : entry ≠ registry.entryAt slotIndex) :
    (registry.setOperation slotIndex (some operation')).PendingEntry entry ↔
      registry.PendingEntry entry := by
  by_cases same : entry.slotIndex = slotIndex
  · subst same
    simp [PendingEntry, Ne.symm ne]
  · simp [PendingEntry, isPendingAt, operationAt_setOperation_ne (Ne.symm same)]

theorem pendingEntry_of_setOperation (occupied : registry.operationAt slotIndex = some operation)
    (status : operation'.status.isTerminal = true)
    (pending : (registry.setOperation slotIndex (some operation')).PendingEntry entry) :
    entry ≠ registry.entryAt slotIndex ∧ registry.PendingEntry entry := by
  have ne : entry ≠ registry.entryAt slotIndex := by
    rintro rfl
    have here := pendingEntry_at (operationAt_setOperation (some operation') occupied)
    simp [status] at here
    exact here pending
  exact ⟨ne, (pendingEntry_setOperation ne).mp pending⟩

theorem pendingEntry_of_release (occupied : registry.operationAt slotIndex = some operation)
    (pending : (registry.release slotIndex).PendingEntry entry) : registry.PendingEntry entry := by
  obtain ⟨slot, found, -⟩ := exists_slot occupied
  have ne : slotIndex ≠ entry.slotIndex := by
    rintro rfl
    have none := pending.2
    simp [isPendingAt, operationAt, getElem?_release found] at none
  simpa only [PendingEntry, isPendingAt, entryAt, operationAt, getElem?_release_ne found ne]
    using pending

end OperationRegistry

/-! ## The cancelling sweep -/

/-- A part of a cancelling sweep: the summary follows the failures in the history, and the
operations that ceased to be pending are those whose cancel hook was called, once, with the
reason of the sweep. -/
structure CancelSwept (reason : OperationCancelReason) (s : RegistryState W D C)
    (summary : OperationCancelSummary) (t : RegistryState W D C)
    (summary' : OperationCancelSummary) (new : List OperationEvent) : Prop where
  events : t.events = s.events ++ new
  failed : summary'.failed = summary.failed + (operationFailures new).length
  firstError : summary'.firstError =
    summary.firstError.or ((operationFailures new).map Prod.snd).head?
  tag : t.registry.tag = s.registry.tag
  no_start : ∀ event ∈ new, event.happening.isStart = false
  pending : ∀ entry, t.registry.PendingEntry entry → s.registry.PendingEntry entry
  cancelled : ∀ entry, cancels (history new entry) ≠ [] → s.registry.PendingEntry entry ∧
    ¬t.registry.PendingEntry entry ∧ ∃ answer, cancels (history new entry) = [(reason, answer)]
  settled : ∀ entry, s.registry.PendingEntry entry → ¬t.registry.PendingEntry entry →
    cancels (history new entry) ≠ []

variable {id : OperationId} {reason : OperationCancelReason} {new : List OperationEvent}
  {t s : RegistryState W D C}

namespace CancelSwept

variable {u : RegistryState W D C} {summary summary' summary'' : OperationCancelSummary}
  {new' : List OperationEvent}

theorem refl (s : RegistryState W D C) (summary : OperationCancelSummary) :
    CancelSwept reason s summary s summary [] where
  events := (append_nil _).symm
  failed := rfl
  firstError := by simp [operationFailures]
  tag := rfl
  no_start := fun _ mem => (not_mem_nil mem).elim
  pending _ h := h
  cancelled _ h := absurd rfl h
  settled _ h h' := absurd h h'

theorem trans (first : CancelSwept reason s summary t summary' new)
    (second : CancelSwept reason t summary' u summary'' new') :
    CancelSwept reason s summary u summary'' (new ++ new') where
  events := by rw [second.events, first.events, append_assoc]
  failed := by
    rw [second.failed, first.failed, operationFailures_append, length_append, Nat.add_assoc]
  firstError := by
    rw [second.firstError, first.firstError, operationFailures_append, map_append,
      head?_append, Option.or_assoc]
  tag := second.tag.trans first.tag
  no_start event mem := (mem_append.mp mem).elim (first.no_start event) (second.no_start event)
  pending entry h := first.pending entry (second.pending entry h)
  cancelled entry called := by
    rw [history_append, cancels_append] at called ⊢
    by_cases early : cancels (history new entry) = []
    · rw [early, nil_append] at called ⊢
      obtain ⟨pending, settled, only⟩ := second.cancelled entry called
      exact ⟨first.pending entry pending, settled, only⟩
    · obtain ⟨pending, settled, only⟩ := first.cancelled entry early
      have late : cancels (history new' entry) = [] := by
        by_contra late
        exact settled (second.cancelled entry late).1
      rw [late, append_nil]
      exact ⟨pending, fun h => settled (second.pending entry h), only⟩
  settled entry pending settled none := by
    rw [history_append, cancels_append, append_eq_nil_iff] at none
    by_cases middle : t.registry.PendingEntry entry
    · exact second.settled entry middle settled none.2
    · exact first.settled entry pending middle none.1

/-- One operation is cancelled. -/
theorem cancel {slotIndex : Nat} {operation operation' : OperationRecord D C} {world : W}
    {result : OperationResult Bool} (h : s.registry.Located id slotIndex operation)
    (pending : operation.status = .pending) (call : CancelCall reason happenings result)
    (terminal : operation'.status.isTerminal = true)
    (no_start : happenings.countP isStart = 0) :
    CancelSwept reason s summary (s.withOperation slotIndex operation' world happenings)
      (summary.record result)
      (happenings.map (OperationEvent.mk (s.registry.entryAt slotIndex))) where
  events := rfl
  failed := by
    rw [operationFailures_map_mk, length_map]
    rcases call.result with ⟨rfl, none⟩ | ⟨error, rfl, one⟩
    · rw [none]
      rfl
    · rw [one]
      rfl
  firstError := by
    rw [operationFailures_map_mk]
    rcases call.result with ⟨rfl, none⟩ | ⟨error, rfl, one⟩
    · simp [none, OperationCancelSummary.record]
    · simp [one, OperationCancelSummary.record]
  tag := rfl
  no_start := by
    intro event mem
    obtain ⟨happening, here, rfl⟩ := mem_map.mp mem
    simpa using countP_eq_zero.mp no_start happening here
  pending entry h' := (pendingEntry_of_setOperation h.occupied terminal h').2
  cancelled entry called := by
    rw [history_map_mk] at called ⊢
    by_cases here : entry = s.registry.entryAt slotIndex
    · subst here
      rw [if_pos rfl]
      refine ⟨(pendingEntry_at h.occupied).mpr (by rw [pending]; rfl), ?_, call.cancels⟩
      intro still
      exact (pendingEntry_of_setOperation h.occupied terminal still).1 rfl
    · rw [if_neg here] at called
      exact absurd rfl called
  settled entry before after := by
    rw [history_map_mk]
    by_cases here : entry = s.registry.entryAt slotIndex
    · obtain ⟨answer, only⟩ := call.cancels
      rw [if_pos here, only]
      exact cons_ne_nil _ _
    · exact absurd ((pendingEntry_setOperation here).mpr before) after

end CancelSwept

section Sweeps

variable {hooks : HostOperation W D C}

/-- An id of a pending operation is located. -/
theorem OperationRegistry.PendingEntry.located {registry : OperationRegistry D C}
    (pending : registry.PendingEntry id.entry) (tag : id.registryTag = registry.tag.value) :
    ∃ operation, registry.Located id id.slotIndex operation ∧ operation.status = .pending := by
  obtain ⟨here, status⟩ := pending
  change registry.isPendingAt id.slotIndex = true at status
  unfold isPendingAt at status
  cases occupied : registry.operationAt id.slotIndex with
  | none => simp [occupied] at status
  | some operation =>
    refine ⟨operation, ⟨location_eq_ok_iff.mpr ⟨tag, rfl, here, by simp [occupied]⟩, occupied⟩, ?_⟩
    exact OperationStatus.eq_pending (by simpa [occupied] using status)

theorem cancel_swept
    (summary : OperationCancelSummary) (h : s.registry.Located id slotIndex operation)
    (pending : operation.status = .pending) : Ends (cancel hooks id reason) s fun result t =>
      ∃ new, CancelSwept reason s summary t (summary.record result) new ∧
        ¬t.registry.PendingEntry id.entry := by
  apply (cancelWithWait_cancelled h pending).mono
  rintro result t ⟨driver, status, world, happenings, cancellation, rfl⟩
  have terminal := cancellation.ending.isTerminal
  refine ⟨_, .cancel h pending cancellation.call terminal cancellation.ending.ended.no_start, ?_⟩
  obtain ⟨-, -, entry, -⟩ := location_eq_ok_iff.mp h.located
  intro still
  exact (pendingEntry_of_setOperation h.occupied terminal still).1 entry.symm

theorem cancelPending_swept (ids : List OperationId) (summary : OperationCancelSummary)
    (s : RegistryState W D C) (tags : ∀ id ∈ ids, id.registryTag = s.registry.tag.value) :
    Ends (cancelPending (fun id => cancel hooks id reason) ids summary) s fun summary' t =>
      ∃ new, CancelSwept reason s summary t summary' new ∧
        ∀ id ∈ ids, ¬t.registry.PendingEntry id.entry := by
  induction ids generalizing summary s with
  | nil => exact ⟨[], .refl s summary, fun _ mem => (not_mem_nil mem).elim⟩
  | cons id ids ih =>
    have tags' : ∀ id ∈ ids, id.registryTag = s.registry.tag.value :=
      fun id mem => tags id (mem_cons_of_mem _ mem)
    simp only [cancelPending, wp_bind, wp_getRegistry]
    by_cases pending : s.registry.PendingEntry id.entry
    · obtain ⟨operation, h, status⟩ := pending.located (tags id mem_cons_self)
      have flag : s.registry.isPendingId id = true := by
        simp only [isPendingId, h.located]
        exact pending.2
      rw [if_pos flag, wp_bind]
      apply (cancel_swept summary h status).mono
      rintro result t ⟨new, first, settled⟩
      apply (ih (summary.record result) t (by rwa [first.tag])).mono
      rintro summary' u ⟨new', rest, others⟩
      refine ⟨new ++ new', first.trans rest, forall_mem_cons.mpr ⟨?_, others⟩⟩
      exact fun still => settled (rest.pending _ still)
    · have flag : ¬s.registry.isPendingId id = true := by
        intro flag
        unfold isPendingId at flag
        cases located : s.registry.location id with
        | error error => simp [located] at flag
        | ok slotIndex =>
          obtain ⟨-, slot, entry, -⟩ := location_eq_ok_iff.mp located
          subst slot
          rw [located] at flag
          exact pending ⟨entry, flag⟩
      rw [if_neg flag]
      apply (ih summary s tags').mono
      rintro summary' t ⟨new, rest, others⟩
      refine ⟨new, rest, forall_mem_cons.mpr ⟨?_, others⟩⟩
      exact fun still => pending (rest.pending _ still)

/-- **The cancelling sweep.** Every pending operation has its cancel hook called once, with
the reason of the sweep, and is not pending afterwards; the summary counts the failures. -/
theorem cancelAll_swept (ledger : Ledger s) : Ends (cancelAll hooks reason) s fun summary t =>
      Ledger t ∧ ∃ new, CancelSwept reason s .empty t summary new ∧
        ∀ entry, ¬t.registry.PendingEntry entry := by
  apply wp_bind.mpr
  apply (occupiedIds_ends ledger.wellFormed).mono
  rintro ids _ ⟨rfl, tags, ids_mem⟩
  apply wp_mono (wp_and (cancelPending_swept ids _ _ tags)
    (cancelPending_changes (fun _ _ => cancelWithWait_changes) ids _ _))
  swap
  · exact fun _ _ failed => failed.1
  rintro summary t ⟨⟨new, swept, settled⟩, changes⟩
  refine ⟨ledger.changes changes, new, swept, fun entry still => ?_⟩
  obtain ⟨here, status⟩ := swept.pending entry still
  have occupied : (_ : Option (OperationRecord D C)).isSome := Option.isSome_of_any status
  obtain ⟨id, mem, entry_eq⟩ := ids_mem entry.slotIndex occupied
  exact settled id mem (by rwa [entry_eq, here])

/-! ## Draining -/

/-- Slots are released, and nothing else happens. -/
structure Drained (s t : RegistryState W D C) (new : List OperationEvent) : Prop where
  events : t.events = s.events ++ new
  released : ∀ event ∈ new, ∃ outcome, event.happening = .released outcome
  tag : t.registry.tag = s.registry.tag
  pending : ∀ entry, t.registry.PendingEntry entry → s.registry.PendingEntry entry

theorem Drained.refl (s : RegistryState W D C) : Drained s s [] :=
  ⟨(append_nil _).symm, fun _ mem => (not_mem_nil mem).elim, rfl, fun _ h => h⟩

theorem Drained.trans {u : RegistryState W D C} {new' : List OperationEvent}
    (first : Drained s t new) (second : Drained t u new') : Drained s u (new ++ new') where
  events := by rw [second.events, first.events, append_assoc]
  released event mem := (mem_append.mp mem).elim (first.released event) (second.released event)
  tag := second.tag.trans first.tag
  pending entry h := first.pending entry (second.pending entry h)

theorem Drained.cancels (h : Drained s t new) (entry : Entry) :
    cancels (history new entry) = [] := by
  apply filterMap_eq_nil_iff.mpr
  intro happening mem
  obtain ⟨outcome, released⟩ := h.released _ (mem_history.mp mem)
  dsimp only at released
  rw [released]
  rfl

theorem Drained.failures (h : Drained s t new) : operationFailures new = [] := by
  apply filterMap_eq_nil_iff.mpr
  intro event mem
  obtain ⟨outcome, released⟩ := h.released event mem
  rw [released]
  rfl

theorem pollTerminal_drained (h : s.registry.Located id slotIndex operation)
    (terminal : operation.status.isTerminal = true) :
    Ends (pollTerminal hooks slotIndex) s fun _ t => ∃ new, Drained s t new := by
  apply (pollTerminal_ends h terminal).mono
  rintro result t ⟨driver, world, u, rfl, ended⟩
  have stillTerminal : ({ operation with driver } : OperationRecord D C).status.isTerminal = true :=
    terminal
  have touched : Drained s (s.withOperation slotIndex { operation with driver } world []) [] :=
    ⟨rfl, fun _ mem => (not_mem_nil mem).elim, rfl, fun entry pending =>
      (pendingEntry_of_setOperation h.occupied stillTerminal pending).2⟩
  rcases ended with ⟨-, rfl⟩ | ⟨outcome, -, -, rfl⟩
  · exact ⟨[], touched⟩
  · have after := h.setOperation { operation with driver }
    refine ⟨[⟨s.registry.entryAt slotIndex, .released outcome⟩], ?_, ?_, ?_, ?_⟩
    · simp [RegistryState.released, RegistryState.withOperation]
    · simp
    · exact configuration_release.1
    · intro entry pending
      exact touched.pending entry (pendingEntry_of_release after.occupied pending)

theorem drainQuiescent_drained (ids : List OperationId) (s : RegistryState W D C) :
    Ends (drainQuiescent hooks ids) s fun _ t => ∃ new, Drained s t new := by
  induction ids generalizing s with
  | nil => exact ⟨[], .refl s⟩
  | cons id ids ih =>
    refine ends_located (fun _ => ih s) fun slotIndex operation h => ?_
    simp only [isTerminalAt_eq h.occupied, wp_ite, wp_bind]
    refine ⟨fun terminal => ?_, fun _ => ih s⟩
    apply (pollTerminal_drained h terminal).mono
    rintro _ t ⟨new, first⟩
    apply (ih t).mono
    rintro _ u ⟨new', rest⟩
    exact ⟨new ++ new', first.trans rest⟩

/-- **The draining sweep.** Slots are released, and the reply says whether the registry is
empty. -/
theorem pollQuiescence_drained (ledger : Ledger s) : Ends (pollQuiescence hooks) s fun empty t =>
      empty = t.registry.isEmpty ∧ Ledger t ∧ ∃ new, Drained s t new := by
  apply wp_bind.mpr
  apply (occupiedIds_ends ledger.wellFormed).mono
  rintro ids _ ⟨rfl, -⟩
  rw [wp_bind]
  apply wp_mono (wp_and (drainQuiescent_drained ids _) (drainQuiescent_changes ids _))
  · rintro _ t ⟨drained, changes⟩
    exact ⟨rfl, ledger.changes changes, drained⟩
  · exact fun _ _ failed => failed.1

/-- There is nothing to drain in an empty registry. -/
theorem pollQuiescence_empty (empty : s.registry.isEmpty = true) :
    pollQuiescence hooks s = .ok true s := by
  have vacant : ∀ slotIndex, (s.registry.operationAt slotIndex).isSome = false := by
    intro slotIndex
    cases occupied : s.registry.operationAt slotIndex with
    | none => rfl
    | some operation =>
      obtain ⟨slot, found, here⟩ := exists_slot occupied
      have none := all_eq_true.mp empty slot (mem_of_getElem? found)
      simp [here] at none
  have ids : occupiedIds s = .ok [] s := by
    refine (bind_ok (rfl : getRegistry s = .ok s.registry s)).trans ?_
    simp only [vacant, filter_false]
    rfl
  refine (bind_ok ids).trans ?_
  exact congrArg (fun empty => EStateM.Result.ok empty s) empty

end Sweeps

/-- **`cancel_all` settles every operation**, after any calls: each pending operation has its
cancel hook called, once, none is pending afterwards, and no failure is counted twice. -/
theorem cancel_all_settles (hooks : HostOperation W D C) (tag : RegistryTag) (maxPending : Nat)
    (world : W) (calls : List (RegistryCall W D C)) (reason : OperationCancelReason) :
    ∃ transcript s summary t new,
      runCalls hooks calls (.new tag maxPending world) = .ok transcript s ∧
      cancelAll hooks reason s = .ok summary t ∧ CancelSwept reason s .empty t summary new ∧
      (∀ entry, ¬t.registry.PendingEntry entry) ∧
      ((operationFailures new).map Prod.fst).Nodup := by
  have fresh := ledger_new (D := D) (C := C) tag maxPending world
  obtain ⟨transcript, s, ran, spec⟩ := (runCalls_spec hooks calls fresh).exists_ok
  have swept : Ends (cancelAll hooks reason) s _ := cancelAll_swept (fresh.changes spec.changes)
  obtain ⟨summary, t, cancelled, ledger, new, swept, settled⟩ := swept.exists_ok
  exact ⟨transcript, s, summary, t, new, ran, cancelled, swept, settled,
    ledger.operationFailures_nodup swept.events⟩

end RustScript.Operation
