import RustScript.Scope.Open

/-!
# Shutting down a scope

A close goes through four phases (`Phase`).  It has begun; the operations have been
cancelled and are being drained; no operation is left and the resources are being swept; or
the scope is quiescent.  Every call keeps the close in one of the phases
(`runClose_step`), and the log since the begin of the close is what the operations did,
followed by what the resources did.

`scope_shutdown` reads this off: for every use of a scope before it is closed and every
sequence of calls after, whatever the hooks answer.
-/

namespace RustScript.Scope

open Operation Resource ExecutionScope List Option ScopeCloseError ScopeRun
open Wp

variable {W D C R : Type}

/-! ## The report -/

/-- The entry and the error of a close hook that failed. -/
def resourceFailure : TableEvent → Option (Entry × ResourceError)
  | .beginClose entry (.error error) => some (entry, error)
  | .pollClose entry (.ready (.error error)) => some (entry, error)
  | _ => none

def resourceFailures (events : List TableEvent) : List (Entry × ResourceError) :=
  events.filterMap resourceFailure

theorem map_snd_resourceFailures (events : List TableEvent) :
    (resourceFailures events).map Prod.snd = failures events := by
  rw [resourceFailures, failures, map_filterMap]
  congr 1
  funext event
  cases event with
  | inserted entry | taken entry => rfl
  | beginClose entry answer => cases answer <;> rfl
  | pollClose entry answer => rcases answer with (_ | _) | _ <;> rfl

theorem length_resourceFailures (events : List TableEvent) :
    (resourceFailures events).length = (failures events).length := by
  rw [← map_snd_resourceFailures, length_map]

/-- A resource whose hook failed in a sweep is disposed of. -/
theorem map_fst_resourceFailures_sublist {events : List TableEvent} :
    ((resourceFailures events).map Prod.fst).Sublist (disposals events) := by
  induction events with
  | nil => exact .slnil
  | cons event events ih =>
    have cons : ∀ l : List TableEvent, event :: l = [event] ++ l := fun _ => rfl
    rw [cons, resourceFailures, filterMap_append, map_append, disposals_append]
    apply Sublist.append _ ih
    cases event with
    | inserted entry | taken entry => exact .refl _
    | beginClose entry answer =>
      rcases answer with error | (_ | _)
      · exact .refl _
      · exact nil_sublist _
      · exact .refl _
    | pollClose entry answer =>
      rcases answer with (error | _) | _
      · exact .refl _
      · exact nil_sublist _
      · exact .refl _

/-- The failures of a close, in the order in which they happened. -/
def scopeFailures (operations : List OperationEvent) (resources : List TableEvent) :
    List ScopeCloseError :=
  (operationFailures operations).map (fun failure => .operation failure.2) ++
    (resourceFailures resources).map fun failure => .resource failure.2

/-- The first failure and their number. -/
def closeOutcome : List ScopeCloseError → ScopeCloseOutcome
  | [] => .success
  | first :: rest => .successWithErrors ⟨first, rest.length + 1⟩

theorem ExecutionScope.recordFailures_eq (scope : ExecutionScope D C R)
    (l : List ScopeCloseError) : scope.recordFailures l.head? l.length =
      { scope with
        firstError := scope.firstError.or l.head?
        failedCount := scope.failedCount + l.length } := by
  cases l with
  | nil => simp [recordFailures]
  | cons first rest =>
    have kept : (scope.firstError <|> some first) = scope.firstError.or (some first) := by
      cases scope.firstError <;> rfl
    simp only [recordFailures, recordFailure, head?_cons, length_cons,
      isSome_some, if_true, Nat.add_sub_cancel, kept]
    rw [Nat.add_assoc, Nat.add_comm 1]

/-! ## The phases of a close -/

/-- What the log of a close says: the operations that were pending have been cancelled, once
and with the reason of the close, and all that the resources did came after. -/
structure CloseLog (reason : ResourceCloseReason) (s₀ s : ScopeRun W D C R)
    (operations : List OperationEvent) (resources : List TableEvent) : Prop where
  log : s.log = s₀.log ++ operations.map .operation ++ resources.map .resource
  ledger : Operation.Ledger s.operationState
  bound : s.scope.closeReason = some reason
  drained : s.scope.operationsDrained = true
  settled : ∀ entry, ¬s.scope.operations.PendingEntry entry
  cancelled : ∀ entry, s₀.scope.operations.PendingEntry entry →
    ∃ answer, cancels (history operations entry) = [(operationReason reason, answer)]
  others : ∀ entry, ¬s₀.scope.operations.PendingEntry entry →
    cancels (history operations entry) = []

/-- The failures of the operations have been recorded. -/
structure Recorded (s : ScopeRun W D C R) (operations : List OperationEvent) : Prop where
  state : s.scope.state = .closing
  firstError : s.scope.firstError = (scopeFailures operations []).head?
  failedCount : s.scope.failedCount = (scopeFailures operations []).length

/-- How far a close has come that began in the state `s₀`. -/
inductive Phase (reason : ResourceCloseReason) (s₀ : ScopeRun W D C R) :
    ScopeRun W D C R → Prop where
  | begun {s : ScopeRun W D C R} : s.scope.state = .closing → s.scope.closeReason = some reason →
      s.scope.operationsDrained = false → s.scope.firstError = none → s.scope.failedCount = 0 →
      s.log = s₀.log → s.scope.operations = { s₀.scope.operations with «sealed» := true } →
      s.scope.resources = s₀.scope.resources → Phase reason s₀ s
  | draining {s : ScopeRun W D C R} {operations : List OperationEvent} :
      CloseLog reason s₀ s operations [] → Recorded s operations →
      s.scope.resources = s₀.scope.resources → Phase reason s₀ s
  | sweeping {s : ScopeRun W D C R} {operations : List OperationEvent}
      {resources : List TableEvent} {totals : SweepTotals} :
      CloseLog reason s₀ s operations resources → Recorded s operations →
      s.scope.operations.isEmpty = true →
      Swept ⟨0, 0, none⟩ s₀.resourceState totals s.resourceState resources →
      s.scope.resources.closeAll = some ⟨reason, totals⟩ → Phase reason s₀ s
  | quiescent {s : ScopeRun W D C R} {operations : List OperationEvent}
      {resources : List TableEvent} {totals : SweepTotals} :
      CloseLog reason s₀ s operations resources → s.scope.state = .quiescent →
      s.scope.operations.isEmpty = true →
      Swept ⟨0, 0, none⟩ s₀.resourceState totals s.resourceState resources →
      s.scope.resources.isEmpty = true →
      s.scope.terminal = some (closeOutcome (scopeFailures operations resources)) →
      Phase reason s₀ s

variable {operations : List OperationEvent} {resources : List TableEvent} {totals : SweepTotals}
  {reason : ResourceCloseReason} {hooks : ScopeHooks W D C R}

section Steps

variable {s₀ s : ScopeRun W D C R}

/-- The reply of a poll, and the state of the scope after it. -/
def Polled (reply : Poll (ExecutionScopeResult ScopeCloseOutcome)) (t : ScopeRun W D C R) : Prop :=
  reply = .pending ∨ ∃ outcome, reply = .ready (.ok outcome) ∧ t.scope.state = .quiescent ∧
    t.scope.terminal = some outcome

/-- The table goes on while the close does. -/
theorem CloseLog.withResources {calls : List TableEvent} {table : TableState W R}
    (h : CloseLog reason s₀ s operations resources)
    (events : table.events = s.resourceState.events ++ calls) :
    CloseLog reason s₀ (s.withResources table) operations (resources ++ calls) where
  log := by rw [(withResources_spec events).2, h.log, map_append, append_assoc, append_assoc]
  ledger := by
    rw [operationState_withResources]
    exact Ledger.world h.ledger _
  bound := h.bound
  drained := h.drained
  settled := h.settled
  cancelled := h.cancelled
  others := h.others

theorem ScopeRun.withOperations_self : s.withOperations s.operationState = s := by
  simp [withOperations, operationState]

theorem terminal_finishClose {scope : ExecutionScope D C R} {l : List ScopeCloseError}
    (first : scope.firstError = l.head?) (failed : scope.failedCount = l.length) :
    scope.finishClose.terminal = some (closeOutcome l) := by
  simp only [finishClose, first, failed]
  cases l <;> rfl

theorem wp_onResources {α : Type} {x : TableM W R α} {Q P} : wp (onResources x) Q P s ↔
    Q (x s.resourceState).1 (s.withResources (x s.resourceState).2) :=
  Iff.rfl

/-- The resources are swept on, from the totals so far. -/
theorem closeResources_phase (log : CloseLog reason s₀ s operations resources)
    (recorded : Recorded s operations) (empty : s.scope.operations.isEmpty = true)
    (swept : Swept ⟨0, 0, none⟩ s₀.resourceState totals s.resourceState resources)
    (accepted : s.scope.resources.closeAll.getD ⟨reason, ⟨0, 0, none⟩⟩ = ⟨reason, totals⟩) :
    Ends (closeResources hooks reason) s fun reply t =>
      Phase reason s₀ t ∧ t.scope.operationsDrained = true ∧ Polled reply t := by
  obtain ⟨calls, totals', sweptOn, ended⟩ :=
    poll_swept hooks.resources (s := s.resourceState) swept.wellFormed accepted
  rw [Ends, closeResources, wp_bind, wp_onResources]
  generalize pollCloseAllReport hooks.resources reason s.resourceState = out at sweptOn ended ⊢
  obtain ⟨reply, table⟩ := out
  have whole := swept.trans sweptOn
  have log' := log.withResources sweptOn.events
  rw [← (withResources_spec sweptOn.events).1] at whole
  rcases ended with ⟨ready, isEmpty⟩ | ⟨pending, -, running⟩
  · obtain rfl : reply = .ready (.ok totals') := ready
    set found := (resourceFailures (resources ++ calls)).map fun failure => resource failure.2
      with isFound
    have failed : totals'.failed = found.length := by
      rw [whole.totals, isFound, length_map, length_resourceFailures]
      simp [SweepTotals.plus]
    have first : totals'.firstError.map resource = found.head? := by
      rw [whole.totals, isFound]
      simp only [SweepTotals.plus, ← map_snd_resourceFailures, head?_map]
      change Option.map _ (Option.map _ _) = _
      rw [Option.map_map]
      rfl
    simp only [modifyScope, getScope, wp_bind, wp_modify, wp_get, wp_pure, wp_expect]
    rw [failed, first, recordFailures_eq]
    have terminal : (finishClose { (s.withResources table).scope with
          firstError := (s.withResources table).scope.firstError.or found.head?
          failedCount := (s.withResources table).scope.failedCount + found.length }).terminal =
        some (closeOutcome (scopeFailures operations (resources ++ calls))) := by
      apply terminal_finishClose
      · change s.scope.firstError.or _ = _
        rw [recorded.firstError]
        simp [scopeFailures, resourceFailures, isFound]
      · change s.scope.failedCount + _ = _
        rw [recorded.failedCount]
        simp [scopeFailures, resourceFailures, isFound]
    refine ⟨fun outcome reported => ?_, fun none => ?_⟩
    · obtain rfl := some.inj (terminal.symm.trans reported)
      exact ⟨.quiescent { log' with } rfl empty whole isEmpty terminal, log'.drained,
        .inr ⟨_, rfl, rfl, terminal⟩⟩
    · cases terminal.symm.trans none
  · obtain rfl : reply = .pending := pending
    exact ⟨.sweeping log' { recorded with } empty whole running, log'.drained, .inl rfl⟩

/-- The operations are drained, and the resources are swept once no operation is left. -/
theorem closeDrained_phase (log : CloseLog reason s₀ s operations [])
    (recorded : Recorded s operations) (resources : s.scope.resources = s₀.scope.resources)
    (idle : s₀.scope.resources.closeAll = none)
    (wf : s₀.scope.resources.arena.WellFormed maxHandleGeneration) :
    Ends (closeDrained hooks reason) s fun reply t =>
      Phase reason s₀ t ∧ t.scope.operationsDrained = true ∧ Polled reply t := by
  apply wp_bind.mpr
  apply wp_zoom.mpr
  apply (pollQuiescence_drained log.ledger).mono
  rintro empty u ⟨rfl, ledger, new, drained⟩
  obtain ⟨operationState, log', resourceState⟩ := withOperations_spec drained.events
  have closeLog : CloseLog reason s₀ (s.withOperations u) (operations ++ new) [] := by
    refine ⟨?_, ?_, log.bound, log.drained, ?_, ?_, ?_⟩
    · rw [log', log.log]
      simp
    · rw [operationState]
      exact ledger
    · exact fun entry pending => log.settled entry (drained.pending entry pending)
    · intro entry pending
      rw [history_append, cancels_append, drained.cancels, append_nil]
      exact log.cancelled entry pending
    · intro entry other
      rw [history_append, cancels_append, drained.cancels, append_nil]
      exact log.others entry other
  have recorded' : Recorded (s.withOperations u) (operations ++ new) := by
    have same : scopeFailures (operations ++ new) [] = scopeFailures operations [] := by
      simp [scopeFailures, drained.failures]
    exact ⟨recorded.state, by rw [same]; exact recorded.firstError,
      by rw [same]; exact recorded.failedCount⟩
  have draining : Phase reason s₀ (s.withOperations u) := .draining closeLog recorded' resources
  simp only [getScope, wp_bind, wp_get, wp_pure, wp_ite]
  refine ⟨fun _ => ⟨draining, log.drained, .inl rfl⟩, fun _ => ?_⟩
  refine ⟨fun _ => ⟨draining, log.drained, .inl rfl⟩, fun empty => ?_⟩
  apply closeResources_phase closeLog recorded' (by simpa using empty)
  · rw [resourceState, show s.resourceState = { s₀.resourceState with world := s.world } by
      simp [ScopeRun.resourceState, log.log, resources]]
    exact Swept.ofWorld (.refl _ wf)
  · change s.scope.resources.closeAll.getD _ = _
    rw [resources, idle]
    rfl

/-- The first poll cancels the operations and records how many hooks failed. -/
theorem cancelOperations_recorded (opened : Open s₀) (closing : s.scope.state = .closing)
    (bound : s.scope.closeReason = some reason) (waiting : s.scope.operationsDrained = false)
    (first : s.scope.firstError = none) (failed : s.scope.failedCount = 0)
    (log : s.log = s₀.log)
    (operations : s.scope.operations = { s₀.scope.operations with «sealed» := true })
    (resources : s.scope.resources = s₀.scope.resources) :
    Ends (cancelOperations hooks reason) s fun _ t => ∃ operations,
      CloseLog reason s₀ t operations [] ∧ Recorded t operations ∧
        t.scope.resources = s₀.scope.resources := by
  have pendingEntry : ∀ entry, s.scope.operations.PendingEntry entry ↔
      s₀.scope.operations.PendingEntry entry := by
    intro entry
    rw [operations]
    rfl
  have ledger : Ledger s.operationState := by
    have kept := (Ledger.world opened.ledger s.world).changes (.single (.sealed _))
    simp only [operationState, operations, log]
    exact kept
  simp only [cancelOperations, getScope, wp_bind, wp_get, wp_pure, wp_ite, waiting]
  refine ⟨fun drained => (Bool.false_ne_true drained).elim, fun _ => ?_⟩
  apply wp_zoom.mpr
  apply (cancelAll_swept ledger).mono
  rintro summary u ⟨ledger', new, swept, settled⟩
  obtain ⟨operationState, log', -⟩ := withOperations_spec swept.events
  have failedCount : summary.failed =
      ((operationFailures new).map fun failure => operation failure.2).length := by
    rw [swept.failed, length_map]
    exact Nat.zero_add _
  have firstError : summary.firstError.map operation =
      ((operationFailures new).map fun failure => .operation failure.2).head? := by
    rw [swept.firstError]
    change Option.map _ (head? _) = _
    rw [← List.head?_map, List.map_map]
    rfl
  simp only [modifyScope, wp_modify, recordOperationSummary]
  rw [failedCount, firstError, recordFailures_eq]
  refine ⟨new, ⟨?_, ?_, bound, rfl, settled, ?_, ?_⟩, ⟨closing, ?_, ?_⟩, resources⟩
  · rw [log', log]
    simp
  · rw [← operationState] at ledger'
    exact ledger'
  · intro entry pending
    have cancelled := swept.settled entry ((pendingEntry entry).mpr pending) (settled entry)
    exact (swept.cancelled entry cancelled).2.2
  · intro entry other
    by_contra cancelled
    exact other ((pendingEntry entry).mp (swept.cancelled entry cancelled).1)
  · change s.scope.firstError.or _ = _
    rw [first]
    simp [scopeFailures, resourceFailures]
  · change s.scope.failedCount + _ = _
    rw [failed]
    simp [scopeFailures, resourceFailures]

/-- A registry without operations is drained. -/
theorem closeDrained_swept (log : CloseLog reason s₀ s operations resources)
    (recorded : Recorded s operations) (empty : s.scope.operations.isEmpty = true)
    (swept : Swept ⟨0, 0, none⟩ s₀.resourceState totals s.resourceState resources)
    (running : s.scope.resources.closeAll = some ⟨reason, totals⟩) :
    Ends (closeDrained hooks reason) s fun reply t =>
      Phase reason s₀ t ∧ t.scope.operationsDrained = true ∧ Polled reply t := by
  have drained : pollQuiescence hooks.operations s.operationState = .ok true s.operationState :=
    pollQuiescence_empty empty
  apply wp_bind.mpr
  apply wp_zoom.mpr
  rw [wp, drained]
  dsimp only
  rw [withOperations_self]
  simp only [getScope, wp_bind, wp_get, wp_pure, wp_ite, empty]
  refine ⟨fun unfinished => absurd trivial unfinished, fun _ => ?_⟩
  refine ⟨fun unfinished => absurd trivial unfinished, fun _ => ?_⟩
  apply closeResources_phase log recorded empty swept
  rw [running]
  rfl

/-- **One poll of a close.** -/
theorem pollClose_phase (opened : Open s₀) (phase : Phase reason s₀ s) :
    Ends (pollClose hooks) s fun reply t =>
      Phase reason s₀ t ∧ t.scope.operationsDrained = true ∧ Polled reply t := by
  cases phase with
  | begun closing bound waiting first failed log operations resources =>
    simp only [pollClose, getScope, wp_bind, wp_get, wp_pure, closing, bound,
      wp_expect_some]
    apply (cancelOperations_recorded opened closing bound waiting first failed log operations
      resources).mono
    rintro _ t ⟨operations, log', recorded, resources'⟩
    exact closeDrained_phase log' recorded resources' opened.unswept opened.wellFormed
  | draining log recorded resources =>
    simp only [pollClose, getScope, wp_bind, wp_get, wp_pure, recorded.state, log.bound,
      wp_expect_some, cancelOperations, wp_ite, log.drained]
    refine ⟨fun _ => ?_, fun waiting => absurd trivial waiting⟩
    exact closeDrained_phase log recorded resources opened.unswept opened.wellFormed
  | sweeping log recorded empty swept running =>
    simp only [pollClose, getScope, wp_bind, wp_get, wp_pure, recorded.state, log.bound,
      wp_expect_some, cancelOperations, wp_ite, log.drained]
    refine ⟨fun _ => ?_, fun waiting => absurd trivial waiting⟩
    exact closeDrained_swept log recorded empty swept running
  | quiescent log quiescent empty swept isEmpty terminal =>
    simp only [pollClose, getScope, wp_bind, wp_get, wp_pure, quiescent, terminal,
      wp_expect_some]
    exact ⟨.quiescent log quiescent empty swept isEmpty terminal, log.drained,
      .inr ⟨_, rfl, quiescent, terminal⟩⟩

theorem getScope_eq : getScope s = .ok s.scope s := rfl

/-- The report of a quiescent scope is final. -/
theorem pollClose_quiescent {outcome : ScopeCloseOutcome} (quiescent : s.scope.state = .quiescent)
    (terminal : s.scope.terminal = some outcome) :
    pollClose hooks s = .ok (.ready (.ok outcome)) s := by
  rw [pollClose, bind_ok getScope_eq, quiescent, terminal]
  rfl

end Steps

/-! ## Runs -/

section Runs

variable {s₀ s t u : ScopeRun W D C R}

namespace Phase

theorem bound (phase : Phase reason s₀ s) : s.scope.closeReason = some reason := by
  cases phase with
  | begun _ bound => exact bound
  | draining log | sweeping log | quiescent log => exact log.bound

theorem not_active (phase : Phase reason s₀ s) : s.scope.state ≠ .active := by
  cases phase with
  | begun closing => simp [closing]
  | draining _ recorded | sweeping _ recorded => simp [recorded.state]
  | quiescent _ quiescent => simp [quiescent]

theorem terminal (phase : Phase reason s₀ s) (quiescent : s.scope.state = .quiescent) :
    ∃ outcome, s.scope.terminal = some outcome := by
  cases phase with
  | begun closing => simp [closing] at quiescent
  | draining _ recorded | sweeping _ recorded => simp [recorded.state] at quiescent
  | quiescent _ _ _ _ _ terminal => exact ⟨_, terminal⟩

theorem world (phase : Phase reason s₀ s) (world : W) : Phase reason s₀ { s with world } := by
  have keep : ∀ {operations resources}, CloseLog reason s₀ s operations resources →
      CloseLog reason s₀ { s with world } operations resources := fun log =>
    { log with ledger := Ledger.world log.ledger world }
  have keepSwept : ∀ {totals resources},
      Swept ⟨0, 0, none⟩ s₀.resourceState totals s.resourceState resources →
      Swept ⟨0, 0, none⟩ s₀.resourceState totals (resourceState { s with world }) resources :=
    fun swept => { swept with }
  cases phase with
  | begun closing bound waiting first failed log operations resources =>
    exact .begun closing bound waiting first failed log operations resources
  | draining log recorded resources => exact .draining (keep log) { recorded with } resources
  | sweeping log recorded empty swept running =>
    exact .sweeping (keep log) { recorded with } empty (keepSwept swept) running
  | quiescent log quiescent empty swept isEmpty terminal =>
    exact .quiescent (keep log) quiescent empty (keepSwept swept) isEmpty terminal

end Phase

/-- A scope that has begun to close accepts nothing. -/
theorem insert_refused (phase : Phase reason s₀ s) (call : InsertCall D C R) :
    insert call s = .ok (.error .scopeClosing) s := by
  have refused : ensureAccepting s = .ok (.error .scopeClosing) s := by
    apply (bind_ok (show getScope s = .ok s.scope s from rfl)).trans
    rw [if_neg phase.not_active]
    rfl
  cases call with
  | pushResource type value =>
    have push : pushResource type value s = .ok (.error .scopeClosing) s := bind_ok refused
    exact bind_ok push
  | startOperation spec =>
    have start : startOperation spec s = .ok (.error .scopeClosing) s := bind_ok refused
    exact bind_ok start
  | scopeState => exact bind_ok refused

/-- A close that has begun keeps its reason. -/
theorem beginClose_again (phase : Phase reason s₀ s) {again : ResourceCloseReason} :
    beginClose again s = .ok (if again = reason then .ok false
      else .error (.closeAlreadyInProgress (some reason) again)) s := by
  have refused : (if s.scope.closeReason = some again then pure (.ok false)
      else pure (.error (.closeAlreadyInProgress s.scope.closeReason again)) :
        ScopeM W D C R (ExecutionScopeResult Bool)) s =
      .ok (if again = reason then .ok false
        else .error (.closeAlreadyInProgress (some reason) again)) s := by
    rw [phase.bound]
    by_cases same : again = reason
    · rw [if_pos (congrArg some same.symm), if_pos same]
      rfl
    · rw [if_neg (fun h => same (some.inj h).symm), if_neg same]
      rfl
  rw [beginClose, bind_ok getScope_eq]
  cases state : s.scope.state with
  | active => exact (phase.not_active state).elim
  | closing | quiescent => exact refused

/-- What the calls after the begin of a close are answered; `t` is a later state. -/
inductive Answered (reason : ResourceCloseReason) (t : ScopeRun W D C R) :
    CloseCall W D C R → CloseReply → Prop where
  | insert (call : InsertCall D C R) :
      Answered reason t (.insert call) (.insert (.error .scopeClosing))
  | begin (again : ResourceCloseReason) :
      Answered reason t (.beginClose again) (.begin (if again = reason then .ok false
        else .error (.closeAlreadyInProgress (some reason) again)))
  | poll {reply : Poll (ExecutionScopeResult ScopeCloseOutcome)} :
      Polled reply t → Answered reason t .pollClose (.poll reply)
  | world (change : W → W) : Answered reason t (.world change) .unit

/-- A quiescent scope stays quiescent, with its report. -/
def Keeps (s t : ScopeRun W D C R) : Prop :=
  s.scope.state = .quiescent → t.scope.state = .quiescent ∧ t.scope.terminal = s.scope.terminal

theorem Keeps.trans (first : Keeps s t) (second : Keeps t u) : Keeps s u := by
  intro quiescent
  obtain ⟨quiescent', same⟩ := first quiescent
  obtain ⟨quiescent'', same'⟩ := second quiescent'
  exact ⟨quiescent'', same'.trans same⟩

variable {call : CloseCall W D C R}

theorem Answered.later {reply : CloseReply} (keeps : Keeps t u)
    (answered : Answered reason t call reply) : Answered reason u call reply := by
  cases answered with
  | insert call => exact .insert call
  | begin again => exact .begin again
  | world change => exact .world change
  | poll polled =>
    rcases polled with pending | ⟨outcome, ready, quiescent, terminal⟩
    · exact .poll (.inl pending)
    · obtain ⟨quiescent', same⟩ := keeps quiescent
      exact .poll (.inr ⟨outcome, ready, quiescent', same.trans terminal⟩)

def CloseCall.isPoll : CloseCall W D C R → Bool
  | .pollClose => true
  | _ => false

/-- **Every call keeps the close in one of its phases**, and only polls go on with it. -/
theorem runClose_step (opened : Open s₀) (phase : Phase reason s₀ s) :
    Ends (runClose hooks call) s fun reply t => Phase reason s₀ t ∧ Answered reason t call reply ∧
      Keeps s t ∧ t.scope.operationsDrained = (s.scope.operationsDrained || call.isPoll) := by
  cases call with
  | insert call =>
    apply wp_bind.mpr
    apply wp_of_ok (insert_refused phase call)
    exact ⟨phase, .insert call, fun quiescent => ⟨quiescent, rfl⟩, (Bool.or_false _).symm⟩
  | beginClose again =>
    apply wp_bind.mpr
    apply wp_of_ok (beginClose_again phase)
    exact ⟨phase, .begin again, fun quiescent => ⟨quiescent, rfl⟩, (Bool.or_false _).symm⟩
  | pollClose =>
    have polls : Ends (pollClose hooks) s _ := pollClose_phase opened phase
    obtain ⟨reply, t, polledOk, phase', drained, polled⟩ := polls.exists_ok
    apply wp_bind.mpr
    apply wp_of_ok polledOk
    refine ⟨phase', .poll polled, fun quiescent => ?_, drained.trans (Bool.or_true _).symm⟩
    obtain ⟨outcome, terminal⟩ := phase.terminal quiescent
    cases polledOk.symm.trans (pollClose_quiescent quiescent terminal)
    exact ⟨quiescent, rfl⟩
  | world change =>
    exact ⟨phase.world _, .world change, fun quiescent => ⟨quiescent, rfl⟩, (Bool.or_false _).symm⟩

/-- **Every sequence of calls** keeps the close in one of its phases. -/
theorem runCloses_phase (opened : Open s₀) (phase : Phase reason s₀ s)
    (calls : List (CloseCall W D C R)) :
    Ends (runCloses hooks calls) s fun transcript t => Phase reason s₀ t ∧ Keeps s t ∧
      (∀ call reply, (call, reply) ∈ transcript → Answered reason t call reply) ∧
      t.scope.operationsDrained = (s.scope.operationsDrained || calls.any CloseCall.isPoll) := by
  induction calls generalizing s with
  | nil =>
    exact ⟨phase, fun quiescent => ⟨quiescent, rfl⟩, fun _ _ mem => (not_mem_nil mem).elim,
      (Bool.or_false _).symm⟩
  | cons call calls ih =>
    apply wp_bind.mpr
    apply (runClose_step opened phase).mono
    rintro reply u ⟨phase', answered, keeps, drained⟩
    rw [wp_bind]
    apply (ih phase').mono
    rintro transcript t ⟨phase'', keeps', answers, drained'⟩
    refine ⟨phase'', keeps.trans keeps', fun call' reply' mem => ?_, ?_⟩
    · rcases mem_cons.mp mem with same | mem
      · cases same
        exact answered.later keeps'
      · exact answers call' reply' mem
    · rw [drained', drained, Bool.or_assoc]
      rfl

theorem beginClose_phase (opened : Open s) :
    Ends (beginClose reason) s fun reply t => reply = .ok true ∧ Phase reason s t ∧
      t.scope.operationsDrained = false := by
  have events : ({ s.operationState with
      registry := { s.scope.operations with «sealed» := true } } : RegistryState W D C).events =
        s.operationState.events ++ [] := (append_nil _).symm
  simp only [beginClose, getScope, wp_bind, wp_get, wp_pure, opened.state]
  refine ⟨rfl, ?_, opened.drained⟩
  refine .begun rfl rfl opened.drained opened.firstError opened.failedCount ?_ rfl rfl
  exact (withOperations_spec events).2.1.trans (append_nil _)

/-! ## The shutdown of a scope -/

theorem CloseLog.nodup (log : CloseLog reason s₀ s operations resources) :
    ((operationFailures operations).map Prod.fst).Nodup := by
  have events : s.operationState.events = operationEvents s₀.log ++ operations := by
    simp [operationState, log.log]
  exact log.ledger.operationFailures_nodup events

theorem Swept.resourceFailures_nodup {table table' : TableState W R}
    (swept : Swept ⟨0, 0, none⟩ table totals table' resources) :
    ((resourceFailures resources).map Prod.fst).Nodup :=
  swept.nodup.sublist map_fst_resourceFailures_sublist

/-- What a close that began in the state `s₀` with the reason `reason` has done by the state
`t`: `operations` is what the operations did since then, and `resources` what the resources
did. -/
structure Closed (reason : ResourceCloseReason) (s₀ t : ScopeRun W D C R)
    (operations : List OperationEvent) (resources : List TableEvent) : Prop where
  /-- The resources wait for the operations. -/
  log : t.log = s₀.log ++ operations.map .operation ++ resources.map .resource
  waited : resources ≠ [] → t.scope.operations.isEmpty = true ∧ t.scope.operationsDrained = true
  /-- The operations are cancelled once, with the reason of the close. -/
  cancelled : t.scope.operationsDrained = true → ∀ entry, s₀.scope.operations.PendingEntry entry →
      ∃ answer, cancels (history operations entry) = [(operationReason reason, answer)]
  others : ∀ entry, ¬(t.scope.operationsDrained = true ∧
    s₀.scope.operations.PendingEntry entry) → cancels (history operations entry) = []
  /-- The report covers every failure. -/
  report : t.scope.state = .quiescent → t.scope.operations.isEmpty = true ∧
    t.scope.resources.liveEntries = [] ∧
    t.scope.terminal = some (closeOutcome (scopeFailures operations resources))
  /-- No operation and no resource fails twice. -/
  operationsOnce : ((operationFailures operations).map Prod.fst).Nodup
  resourcesOnce : ((resourceFailures resources).map Prod.fst).Nodup

theorem Phase.closed (phase : Phase reason s₀ s) :
    ∃ operations resources, Closed reason s₀ s operations resources := by
  have others : ∀ {operations resources}, CloseLog reason s₀ s operations resources →
      ∀ entry, ¬(s.scope.operationsDrained = true ∧ s₀.scope.operations.PendingEntry entry) →
        cancels (history operations entry) = [] := fun log entry other =>
    log.others entry fun pending => other ⟨log.drained, pending⟩
  cases phase with
  | begun closing bound waiting first failed log operations resources =>
    refine ⟨[], [], ⟨by simp [log], fun h => (h rfl).elim, ?_, fun _ _ => rfl, ?_, ?_, ?_⟩⟩
    · simp [waiting]
    · simp [closing]
    · simp [operationFailures]
    · simp [resourceFailures]
  | draining log recorded resources =>
    refine ⟨_, [], ⟨log.log, fun h => (h rfl).elim, fun _ => log.cancelled, others log, ?_,
      log.nodup, ?_⟩⟩
    · simp [recorded.state]
    · simp [resourceFailures]
  | sweeping log recorded empty swept running =>
    refine ⟨_, _, ⟨log.log, fun _ => ⟨empty, log.drained⟩, fun _ => log.cancelled, others log,
      ?_, log.nodup, Swept.resourceFailures_nodup swept⟩⟩
    simp [recorded.state]
  | quiescent log quiescent empty swept isEmpty terminal =>
    exact ⟨_, _, ⟨log.log, fun _ => ⟨empty, log.drained⟩, fun _ => log.cancelled, others log,
      fun _ => ⟨empty, (liveEntries_eq_nil_iff swept.wellFormed).mpr isEmpty, terminal⟩,
      log.nodup, Swept.resourceFailures_nodup swept⟩⟩

theorem any_isPoll {calls : List (CloseCall W D C R)} :
    calls.any CloseCall.isPoll = true ↔ .pollClose ∈ calls := by
  rw [List.any_eq_true]
  constructor
  · rintro ⟨call, mem, poll⟩
    cases call with
    | pollClose => exact mem
    | insert call | beginClose again | world change => cases poll
  · exact fun mem => ⟨_, mem, rfl⟩

end Runs

/-- **The shutdown of a scope.** A scope is used in any way, and then closed for a reason; what
follows are polls, insertions, further requests to close it and changes of the world, in any
order.

Nothing is inserted any more.  Every operation that was pending is cancelled by the first
poll, once and for the first reason, and no resource does anything before the last operation
is gone.  A poll that is ready finds both components empty; it reports the first failure and
the number of failures of the operations and the resources, of which none fails twice; and
from then on every poll reports the same. -/
theorem scope_shutdown (hooks : ScopeHooks W D C R) (arenaId maxEntries maxPending : Nat)
    (tag : RegistryTag) (world : W) (uses : List (UseCall W D C R)) (reason : ResourceCloseReason)
    (calls : List (CloseCall W D C R)) :
    ∃ s₀ transcript t operations resources,
      uses.forM (runUse hooks) ⟨.new arenaId maxEntries maxPending tag, world, []⟩ = .ok () s₀ ∧
      runCloses hooks (.beginClose reason :: calls) s₀ =
        .ok ((.beginClose reason, .begin (.ok true)) :: transcript) t ∧
      Closed reason s₀ t operations resources ∧
      (t.scope.operationsDrained = true ↔ .pollClose ∈ calls) ∧
      (∀ call, insert call t = .ok (.error .scopeClosing) t) ∧
      (∀ call reply, (.insert call, reply) ∈ transcript → reply = .insert (.error .scopeClosing)) ∧
      ∀ result, (.pollClose, .poll (.ready result)) ∈ transcript → t.scope.state = .quiescent ∧
        result = .ok (closeOutcome (scopeFailures operations resources)) ∧
        pollClose hooks t = .ok (.ready result) t := by
  obtain ⟨_, s₀, used, opened⟩ :=
    (forM_runUse (open_new arenaId maxEntries maxPending tag world) hooks uses).exists_ok
  have begins : Ends (beginClose reason) s₀ _ := beginClose_phase opened
  obtain ⟨_, s, began, rfl, begun, waiting⟩ := begins.exists_ok
  have runs : Ends (runCloses hooks calls) s _ := runCloses_phase opened begun calls
  obtain ⟨transcript, t, ran, phase, -, answers, drained⟩ := runs.exists_ok
  obtain ⟨operations, resources, closed⟩ := phase.closed
  refine ⟨s₀, transcript, t, operations, resources, used, ?_, closed, ?_, insert_refused phase,
    ?_, ?_⟩
  · have first : runClose hooks (.beginClose reason) s₀ = .ok (.begin (.ok true)) s :=
      bind_ok began
    exact (bind_ok first).trans (bind_ok ran)
  · rw [drained, waiting, Bool.false_or, any_isPoll]
  · intro call reply mem
    cases answers _ _ mem
    rfl
  · intro result mem
    cases answers _ _ mem with
    | poll polled =>
      rcases polled with pending | ⟨outcome, ready, quiescent, terminal⟩
      · cases pending
      · cases ready
        obtain ⟨-, -, reported⟩ := closed.report quiescent
        cases some.inj (terminal.symm.trans reported)
        exact ⟨quiescent, rfl, pollClose_quiescent quiescent terminal⟩

end RustScript.Scope
