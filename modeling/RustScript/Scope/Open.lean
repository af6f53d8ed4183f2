import RustScript.Operation.Sweep
import RustScript.Resource.CloseAll
import RustScript.Scope.ExecutionScope

/-!
# Open scopes

What holds of a scope that has been used in any way but has not been closed (`Open`): its
registry keeps its ledger, its table is well formed, and the table has never been swept.
The last point is what a close relies on, since a sweep that was left unfinished with
another reason would refuse it: only `poll_close` sweeps the table, and an open scope refuses
to be polled.
-/

namespace RustScript.Scope

open Operation Resource List Scope
open Wp

variable {W D C R α β : Type} {s : ScopeRun W D C R}

/-! ## The components of a state -/

@[simp] theorem operationEvents_append (l l' : List ScopeEvent) :
    operationEvents (l ++ l') = operationEvents l ++ operationEvents l' := filterMap_append

@[simp] theorem resourceEvents_append (l l' : List ScopeEvent) :
    resourceEvents (l ++ l') = resourceEvents l ++ resourceEvents l' := filterMap_append

@[simp] theorem operationEvents_operation (events : List OperationEvent) :
    operationEvents (events.map .operation) = events := by
  simp [operationEvents]

@[simp] theorem operationEvents_resource (events : List TableEvent) :
    operationEvents (events.map .resource) = [] := by
  simp [operationEvents]

@[simp] theorem resourceEvents_resource (events : List TableEvent) :
    resourceEvents (events.map .resource) = events := by
  simp [resourceEvents]

@[simp] theorem resourceEvents_operation (events : List OperationEvent) :
    resourceEvents (events.map .operation) = [] := by
  simp [resourceEvents]

namespace ScopeRun

/-- The registry goes on, and the table stays. -/
theorem withOperations_spec {t : RegistryState W D C} {new : List OperationEvent}
    (events : t.events = s.operationState.events ++ new) :
    (s.withOperations t).operationState = t ∧
      (s.withOperations t).log = s.log ++ new.map .operation ∧
      (s.withOperations t).resourceState = { s.resourceState with world := t.world } := by
  have added : t.events.drop (operationEvents s.log).length = new := by
    rw [events]
    exact drop_left
  refine ⟨?_, ?_, ?_⟩
  · simp only [operationState, withOperations, added, operationEvents_append,
      operationEvents_operation]
    rw [← (show t.events = operationEvents s.log ++ new from events)]
  · rw [withOperations, added]
  · simp only [resourceState, withOperations, resourceEvents_append, resourceEvents_operation,
      append_nil]

/-- The table goes on, and the registry stays. -/
theorem withResources_spec {t : TableState W R} {new : List TableEvent}
    (events : t.events = s.resourceState.events ++ new) :
    (s.withResources t).resourceState = t ∧
      (s.withResources t).log = s.log ++ new.map .resource := by
  have added : t.events.drop (resourceEvents s.log).length = new := by
    rw [events]
    exact drop_left
  refine ⟨?_, ?_⟩
  · simp only [resourceState, withResources, added, resourceEvents_append, resourceEvents_resource]
    rw [← (show t.events = resourceEvents s.log ++ new from events)]
  · rw [withResources, added]

@[simp] theorem operationState_withResources (t : TableState W R) :
    (s.withResources t).operationState = { s.operationState with world := t.world } := by
  simp only [operationState, withResources, operationEvents_append, operationEvents_resource,
    append_nil]

end ScopeRun

theorem Ledger.world {s : RegistryState W D C} (ledger : Ledger s) (world : W) :
    Ledger { s with world } := ⟨ledger.wellFormed, ledger.life⟩

/-! ## Open scopes -/

structure Open (s : ScopeRun W D C R) : Prop where
  state : s.scope.state = .active
  drained : s.scope.operationsDrained = false
  firstError : s.scope.firstError = none
  failedCount : s.scope.failedCount = 0
  ledger : Operation.Ledger s.operationState
  wellFormed : s.scope.resources.arena.WellFormed maxHandleGeneration
  unswept : s.scope.resources.closeAll = none

namespace Open

/-- The registry of an open scope is used. -/
theorem onOperations {x : RegM W D C α} (h : Open s)
    (changes : Ends x s.operationState fun _ t => Changes s.operationState t) :
    Ends (onOperations x) s fun _ t => Open t := by
  apply wp_zoom.mpr
  apply changes.mono
  intro _ t changes
  obtain ⟨new, events⟩ := changes.events
  have ledger := h.ledger.changes changes
  rw [← (ScopeRun.withOperations_spec events).1] at ledger
  exact { h with ledger }

/-- The table of an open scope is used. -/
theorem onResources {x : TableM W R α} (h : Open s) (hooks : HostResource W R) (op : TableOp R)
    (same : (x s.resourceState).2 = (runOp hooks op s.resourceState).2)
    (single : op.sweeps = false) : Ends (onResources x) s fun _ t => Open t := by
  have touches : Touches hooks s.resourceState (x s.resourceState).2 := by
    rw [same]
    exact runOp_touches single
  have ledger := Ledger.world h.ledger (x s.resourceState).2.world
  rw [← ScopeRun.operationState_withResources] at ledger
  exact
    { h with
      ledger
      wellFormed := touches.effects.wellFormed h.wellFormed
      unswept := touches.closeAll.trans h.unswept }

theorem insert (h : Open s) (call : InsertCall D C R) (hooks : ScopeHooks W D C R) :
    Ends (insert call) s fun _ t => Open t := by
  have accepting : ∀ {Q : ExecutionScopeResult Unit → ScopeRun W D C R → Prop},
      Q (.ok ()) s → Ends ensureAccepting s Q := by
    intro Q accepted
    simp only [ensureAccepting, getScope, wp_bind, wp_get, wp_pure, wp_ite, h.state]
    exact ⟨fun _ => accepted, fun refused => absurd trivial refused⟩
  cases call with
  | pushResource type value =>
    simp only [Scope.insert, pushResource, wp_bind]
    apply accepting
    exact h.onResources hooks.resources (.push type value) rfl rfl
  | startOperation spec =>
    simp only [Scope.insert, startOperation, wp_bind]
    apply accepting
    rw [wp_bind]
    apply h.onOperations
    apply (start_ends h.ledger.wellFormed).mono
    rintro _ t (⟨error, -, rfl⟩ | ⟨id, -, change, -⟩)
    · exact .refl
    · exact .single change
  | scopeState =>
    simp only [Scope.insert, wp_bind]
    exact accepting h

theorem ends_discard {x : ScopeM W D C R α} {P : ScopeRun W D C R → Prop}
    (h : Ends x s fun _ t => P t) : Ends (discard x) s fun _ t => P t :=
  wp_map.mpr h

/-- **A scope stays open** until it is closed, whatever is done with it. -/
theorem runUse (h : Open s) (hooks : ScopeHooks W D C R) (call : UseCall W D C R) :
    Ends (runUse hooks call) s fun _ t => Open t := by
  cases call with
  | insert call => exact ends_discard (h.insert call hooks)
  | takeResource typeId handle =>
    apply ends_discard
    exact h.onResources hooks.resources (.take typeId handle) rfl rfl
  | resourceMut typeId handle update =>
    exact h.onResources hooks.resources (.getMut typeId handle update) rfl rfl
  | closeResource typeId handle reason =>
    apply wp_bind.mpr
    simp only [Scope.closeResource, getScope, wp_bind, wp_get, wp_pure]
    cases s.scope.resources.typed typeId handle with
    | error error => exact h
    | ok token => exact h.onResources hooks.resources (.beginClose typeId token reason) rfl rfl
  | pollResourceClose typeId handle =>
    apply ends_discard
    apply wp_bind.mpr
    have used : Ends (Scope.onResources (Resource.pollClose hooks.resources typeId handle)) s
        fun _ t => Open t :=
      h.onResources hooks.resources (.pollClose typeId handle) rfl rfl
    apply used.mono
    intro result t h'
    cases result <;> exact h'
  | pollCloseAdded before cleanupError =>
    exact h.onResources hooks.resources (.pollCloseAdded before cleanupError) rfl rfl
  | cancelOperation id reason =>
    exact ends_discard (wp_bind.mpr (h.onOperations cancelWithWait_changes))
  | completeOperation id =>
    exact ends_discard (wp_bind.mpr (h.onOperations (finishTerminal_changes .completed rfl)))
  | takeOperationOutcome id =>
    apply ends_discard
    apply wp_bind.mpr
    exact h.onOperations (takeOutcome_delivers.mono fun _ _ delivers => delivers.changes)
  | pollOperation id =>
    apply ends_discard
    apply wp_bind.mpr
    apply (h.onOperations (poll_delivers.mono fun _ _ delivers => delivers.changes)).mono
    intro result t h'
    cases result <;> exact h'
  | pollOperationQuiescence id =>
    apply ends_discard
    apply wp_bind.mpr
    apply (h.onOperations (pollQuiescent_delivers.mono fun _ _ delivers => delivers.changes)).mono
    intro result t h'
    cases result <;> exact h'
  | abortOperation id reason => exact ends_discard (wp_bind.mpr (h.onOperations abort_changes))
  | pollClose =>
    apply ends_discard
    simp only [pollClose, getScope, wp_bind, wp_get, wp_pure, h.state]
    exact h
  | world change => exact { h with ledger := Ledger.world h.ledger _ }

end Open

theorem open_new (arenaId maxEntries maxPending : Nat) (tag : RegistryTag) (world : W) :
    Open (⟨.new arenaId maxEntries maxPending tag, world, []⟩ : ScopeRun W D C R) :=
  ⟨rfl, rfl, rfl, rfl, ledger_new tag _ world, Arena.wellFormed_empty, rfl⟩

/-- A scope that has been used in any way is open. -/
theorem forM_runUse {s : ScopeRun W D C R} (h : Open s) (hooks : ScopeHooks W D C R)
    (calls : List (UseCall W D C R)) :
    Ends (calls.forM (runUse hooks)) s fun _ t => Open t :=
  wp_forM (fun call _ _ h => h.runUse hooks call) h

end RustScript.Scope
