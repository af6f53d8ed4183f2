import RustScript.Resource.Table

/-!
# What the operations of a resource table can do

Every operation is a sequence of effects on single slots (`runOp_effects`): a
resource is inserted, taken or changed in place, its begin-close hook is called
while it is open, or its poll-close hook while it is closing, and the slot then
becomes what the answer of the hook says.  Invariants of a table are proved for
one effect and hold along every run of operations.

Two lemmas carry the operations that start or poll a close: `beginSlot_effect`
and `pollSlot_effect`.
-/

namespace RustScript.Resource

open ResourceTable SlotState List ResourceHandle SweepTotals TableState

variable {W R : Type}

/-! ## Slots of a changed table -/

namespace ResourceTable

variable (table : ResourceTable R) (slotIndex : Nat)

@[simp] theorem slots_setState (state : SlotState R) : (table.setState slotIndex state).slots =
    table.slots.modify slotIndex fun slot => { slot with state } := rfl

@[simp] theorem vacantSlots_setState (state : SlotState R) :
    (table.setState slotIndex state).vacantSlots = table.vacantSlots := rfl

@[simp] theorem activeEntries_setState (state : SlotState R) :
    (table.setState slotIndex state).activeEntries = table.activeEntries := rfl

@[simp] theorem setState_setState (state state' : SlotState R) :
    (table.setState slotIndex state).setState slotIndex state' =
      table.setState slotIndex state' := by
  simp only [setState, modify_modify_eq]
  rfl

@[simp] theorem entryAt_setState (state : SlotState R) :
    (table.setState slotIndex state).entryAt slotIndex = table.entryAt slotIndex := by
  cases found : table.slots[slotIndex]? with
  | none | some slot => simp [entryAt, found]

@[simp] theorem reclaim_setState (state : SlotState R) :
    (table.setState slotIndex state).reclaim slotIndex = table.reclaim slotIndex := by
  simp [reclaim]

/-- Putting back the state that is there changes nothing. -/
@[simp] theorem setState_stateAt : table.setState slotIndex (table.stateAt slotIndex) = table := by
  have same : (table.slots.modify slotIndex fun slot =>
      { slot with state := table.stateAt slotIndex }) = table.slots := by
    apply ext_getElem?
    intro j
    rw [getElem?_modify]
    by_cases here : slotIndex = j
    · subst here
      cases found : table.slots[slotIndex]? with
      | none => rfl
      | some slot => simp [stateAt, found]
    · simp [here]
  simp [setState, same]

end ResourceTable

theorem SlotState.isOpen_cases (state : SlotState R) :
    (∃ resource, state = .open resource) ∨ state.isOpen = false := by
  cases state <;> simp [isOpen]

theorem SlotState.isClosing_cases (state : SlotState R) :
    (∃ resource, state = .closing resource) ∨ state.isClosing = false := by
  cases state <;> simp [isClosing]

namespace ResourceTable

theorem setState_of_stateAt {table : ResourceTable R} {slotIndex : Nat} {state : SlotState R}
    (at' : table.stateAt slotIndex = state) : table.setState slotIndex state = table := by
  rw [← at', setState_stateAt]

end ResourceTable

/-! ## Effects -/

/-- The state after a hook was called. -/
def TableState.answered (s : TableState W R) (world : W) (event : TableEvent) : TableState W R :=
  { s with world, events := s.events ++ [event] }

/-- A change of the table alone. -/
def TableState.withTable (s : TableState W R) (table : ResourceTable R) : TableState W R :=
  { s with table }

namespace ResourceTable

/-- The table after an answer of the begin-close hook, where a failure keeps the slot open. -/
def keeping (table : ResourceTable R) (slotIndex : Nat) (resource : R) :
    ResourceResult CloseProgress → ResourceTable R
  | .ok .ready => table.reclaim slotIndex
  | .ok .pending => table.setState slotIndex (.closing resource)
  | .error _ => table.setState slotIndex (.open resource)

/-- The table after an answer of the begin-close hook, where a failure gives the slot up. -/
def sweeping (table : ResourceTable R) (slotIndex : Nat) (resource : R) :
    ResourceResult CloseProgress → ResourceTable R
  | .ok .ready => table.reclaim slotIndex
  | .ok .pending => table.setState slotIndex (.closing resource)
  | .error _ => table.reclaim slotIndex

/-- The table after an answer of the poll-close hook. -/
def polling (table : ResourceTable R) (slotIndex : Nat) (resource : R) :
    Poll (ResourceResult Unit) → ResourceTable R
  | .ready _ => table.reclaim slotIndex
  | .pending => table.setState slotIndex (.closing resource)

end ResourceTable

inductive Effect (hooks : HostResource W R) : TableState W R → TableState W R → Prop where
  | insert {s : TableState W R} {type : ResourceType} {value : R} {entry : Entry}
      {table : ResourceTable R} : s.table.place type value = .ok (entry, table) →
      Effect hooks s ((s.answered s.world (.inserted entry)).withTable table)
  | update {s : TableState W R} {slotIndex : Nat} {resource : R} (resource' : R) :
      s.table.stateAt slotIndex = .open resource →
      Effect hooks s (s.withTable (s.table.setState slotIndex (.open resource')))
  | take {s : TableState W R} {slotIndex : Nat} {resource : R} :
      s.table.stateAt slotIndex = .open resource →
      Effect hooks s ((s.answered s.world
        (.taken (s.table.entryAt slotIndex))).withTable (s.table.reclaim slotIndex))
  /-- The begin-close hook has answered; a failed close keeps the slot open in an
  explicit close and in the drop sweep, and gives it up in the other sweeps. -/
  | beginClose {s : TableState W R} {slotIndex : Nat} {resource resource' : R}
      {reason : ResourceCloseReason} {answer : ResourceResult CloseProgress} {world : W}
      {table : ResourceTable R} : s.table.stateAt slotIndex = .open resource →
      hooks.beginClose resource reason s.world = (answer, resource', world) →
      table = s.table.keeping slotIndex resource' answer ∨
        table = s.table.sweeping slotIndex resource' answer →
      Effect hooks s ((s.answered world
        (.beginClose (s.table.entryAt slotIndex) answer)).withTable table)
  | pollClose {s : TableState W R} {slotIndex : Nat} {resource resource' : R}
      {answer : Poll (ResourceResult Unit)} {world : W} :
      s.table.stateAt slotIndex = .closing resource →
      hooks.pollClose resource s.world = (answer, resource', world) →
      Effect hooks s ((s.answered world (.pollClose (s.table.entryAt slotIndex) answer)).withTable
        (s.table.polling slotIndex resource' answer))
  /-- The running sweep is started, updated or finished. -/
  | sweepState {s : TableState W R} (closeAll : Option CloseAllState) :
      Effect hooks s (s.withTable { s.table with closeAll })

abbrev Effects (hooks : HostResource W R) : TableState W R → TableState W R → Prop :=
  Relation.ReflTransGen (Effect hooks)

/-- Effects that start, change or finish no sweep. -/
abbrev Touches (hooks : HostResource W R) : TableState W R → TableState W R → Prop :=
  Relation.ReflTransGen fun s s' => Effect hooks s s' ∧ s'.table.closeAll = s.table.closeAll

/-! ## Running a computation -/

variable {answer : ResourceResult CloseProgress} {handle : ResourceHandle}
  {reason : ResourceCloseReason} {hooks : HostResource W R} {slotIndex : Nat}
  {resource' resource : R} {totals : SweepTotals} {s : TableState W R} {world : W} {typeId : TypeId}

section Run

variable {α β : Type} (s : TableState W R)

@[simp] theorem TableState.withTable_table (table : ResourceTable R) :
    (s.withTable table).table = table := rfl

@[simp] theorem TableState.withTable_world (table : ResourceTable R) :
    (s.withTable table).world = s.world := rfl

@[simp] theorem TableState.withTable_withTable (table table' : ResourceTable R) :
    (s.withTable table).withTable table' = s.withTable table' := rfl

@[simp] theorem TableState.withTable_self : s.withTable s.table = s := rfl

@[simp] theorem TableState.withTable_events (table : ResourceTable R) :
    (s.withTable table).events = s.events := rfl

@[simp] theorem TableState.answered_table (world : W) (event : TableEvent) :
    (s.answered world event).table = s.table := rfl

@[simp] theorem TableState.answered_events (world : W) (event : TableEvent) :
    (s.answered world event).events = s.events ++ [event] := rfl

@[simp] theorem TableState.withTable_answered (table : ResourceTable R) (world : W)
    (event : TableEvent) :
    (s.withTable table).answered world event = (s.answered world event).withTable table := rfl

@[simp] theorem run_bind (x : TableM W R α) (f : α → TableM W R β) :
    (x >>= f) s = f (x s).1 (x s).2 := rfl

@[simp] theorem run_map (f : α → β) (x : TableM W R α) : (f <$> x) s = (f (x s).1, (x s).2) := rfl

@[simp] theorem run_pure (a : α) : (pure a : TableM W R α) s = (a, s) := rfl

@[simp] theorem run_getTable : getTable s = (s.table, s) := rfl

@[simp] theorem run_modifyTable (f : ResourceTable R → ResourceTable R) :
    modifyTable f s = ((), s.withTable (f s.table)) := rfl

@[simp] theorem run_record (event : TableEvent) :
    record event s = ((), s.answered s.world event) := rfl

@[simp] theorem run_replaceSlotState (slotIndex : Nat) (state : SlotState R) :
    replaceSlotState slotIndex state s =
      (s.table.stateAt slotIndex, s.withTable (s.table.setState slotIndex state)) := rfl

@[simp] theorem run_putSlotState (slotIndex : Nat) (state : SlotState R) :
    putSlotState slotIndex state s = ((), s.withTable (s.table.setState slotIndex state)) := rfl

@[simp] theorem run_reclaim (slotIndex : Nat) :
    reclaim slotIndex s = ((), s.withTable (s.table.reclaim slotIndex)) := rfl

variable {s}

theorem run_callBeginClose {reason : ResourceCloseReason}
    (called : hooks.beginClose resource reason s.world = (answer, resource', world)) :
    callBeginClose hooks slotIndex resource reason s =
      ((answer, resource'), s.answered world (.beginClose (s.table.entryAt slotIndex) answer)) := by
  simp only [callBeginClose, run_bind, run_getTable, called]
  rfl

theorem run_callPollClose {answer : Poll (ResourceResult Unit)}
    (called : hooks.pollClose resource s.world = (answer, resource', world)) :
    callPollClose hooks slotIndex resource s =
      ((answer, resource'), s.answered world (.pollClose (s.table.entryAt slotIndex) answer)) := by
  simp only [callPollClose, run_bind, run_getTable, called]
  rfl

end Run

/-! ## Closing one slot -/

/-- What a sweep counts for an answer of the begin-close hook. -/
def SweepTotals.began (totals : SweepTotals) : ResourceResult CloseProgress → SweepTotals
  | .ok .ready => totals.dispose
  | .ok .pending => totals
  | .error error => totals.fail error

/-- What a sweep counts for an answer of the poll-close hook. -/
def SweepTotals.polled (totals : SweepTotals) : Poll (ResourceResult Unit) → SweepTotals
  | .ready (.ok _) => totals.dispose
  | .ready (.error error) => totals.fail error
  | .pending => totals

section Slot

section Begun

variable {firstError : Option ResourceError} (at' : s.table.stateAt slotIndex = .open resource)
  (called : hooks.beginClose resource reason s.world = (answer, resource', world))
include at' called

theorem tryBeginClose_open : tryBeginClose hooks reason slotIndex totals s =
    ((true, totals.began answer),
      (s.answered world (.beginClose (s.table.entryAt slotIndex) answer)).withTable
        (s.table.sweeping slotIndex resource' answer)) := by
  simp only [tryBeginClose, run_bind, run_replaceSlotState, at']
  rw [run_callBeginClose (by simpa using called)]
  rcases answer with error | (_ | _) <;> simp [began, sweeping]

theorem launchClose_open : (launchClose hooks reason slotIndex firstError s).2 =
      (s.answered world (.beginClose (s.table.entryAt slotIndex) answer)).withTable
        (s.table.keeping slotIndex resource' answer) := by
  simp only [launchClose, run_bind, run_replaceSlotState, at']
  rw [run_callBeginClose (by simpa using called)]
  rcases answer with error | (_ | _) <;> simp [keeping]

/-- An explicit close answers what the hook answers. -/
theorem closeOpenSlot_open : closeOpenSlot hooks slotIndex handle reason s = (answer,
      (s.answered world (.beginClose (s.table.entryAt slotIndex) answer)).withTable
        (s.table.keeping slotIndex resource' answer)) := by
  simp only [closeOpenSlot, run_bind, run_replaceSlotState, at']
  rw [run_callBeginClose (by simpa using called)]
  rcases answer with error | (_ | _) <;> simp [keeping]

end Begun

theorem tryBeginClose_other (other : (s.table.stateAt slotIndex).isOpen = false) :
    tryBeginClose hooks reason slotIndex totals s = ((false, totals), s) := by
  simp only [tryBeginClose, run_bind, run_replaceSlotState]
  cases at' : s.table.stateAt slotIndex with
  | «open» resource => simp [at', isOpen] at other
  | _ => simp [setState_of_stateAt at']

theorem tryPollClose_closing {answer : Poll (ResourceResult Unit)}
    (at' : s.table.stateAt slotIndex = .closing resource)
    (called : hooks.pollClose resource s.world = (answer, resource', world)) :
    tryPollClose hooks slotIndex totals s =
      ((!(answer matches .pending), totals.polled answer),
        (s.answered world (.pollClose (s.table.entryAt slotIndex) answer)).withTable
          (s.table.polling slotIndex resource' answer)) := by
  simp only [tryPollClose, run_bind, run_replaceSlotState, at']
  rw [run_callPollClose (by simpa using called)]
  rcases answer with (error | _) | _ <;> simp [polled, polling]

theorem tryPollClose_other (other : (s.table.stateAt slotIndex).isClosing = false) :
    tryPollClose hooks slotIndex totals s = ((false, totals), s) := by
  simp only [tryPollClose, run_bind, run_replaceSlotState]
  cases at' : s.table.stateAt slotIndex with
  | closing resource => simp [at', isClosing] at other
  | _ => simp [setState_of_stateAt at']

theorem launchClose_other {firstError : Option ResourceError}
    (other : (s.table.stateAt slotIndex).isOpen = false) :
    (launchClose hooks reason slotIndex firstError s).2 = s := by
  simp only [launchClose, run_bind, run_replaceSlotState]
  cases at' : s.table.stateAt slotIndex with
  | «open» resource => simp [at', isOpen] at other
  | _ => simp [setState_of_stateAt at']

theorem closeOpenSlot_closing (at' : s.table.stateAt slotIndex = .closing resource) :
    closeOpenSlot hooks slotIndex handle reason s = (.ok .pending, s) := by
  simp [closeOpenSlot, at', setState_of_stateAt at']

theorem closeOpenSlot_vacant (at' : s.table.stateAt slotIndex = .vacant) :
    closeOpenSlot hooks slotIndex handle reason s = (.error (alreadyClosedError handle), s) := by
  simp [closeOpenSlot, at', setState_of_stateAt at']

variable {error : ResourceError}

theorem take_error (checked : s.table.checked typeId handle = .error error) :
    take typeId handle s = (.error error, s) := by
  simp [take, checked]

theorem take_open (checked : s.table.checked typeId handle = .ok slotIndex)
    (at' : s.table.stateAt slotIndex = .open resource) :
    take typeId handle s = (.ok resource, (s.answered s.world
      (.taken (s.table.entryAt slotIndex))).withTable (s.table.reclaim slotIndex)) := by
  simp [take, checked, at']

theorem take_other (checked : s.table.checked typeId handle = .ok slotIndex)
    (other : (s.table.stateAt slotIndex).isOpen = false) :
    take typeId handle s = (.error (alreadyClosedError handle), s) := by
  cases at' : s.table.stateAt slotIndex with
  | «open» resource => simp [at', isOpen] at other
  | _ => simp [take, checked, at', setState_of_stateAt at']

theorem beginClose_error (checked : s.table.checked typeId handle = .error error) :
    beginClose hooks typeId handle reason s = (.error error, s) := by
  simp [beginClose, checked]

theorem beginClose_checked (checked : s.table.checked typeId handle = .ok slotIndex) :
    beginClose hooks typeId handle reason s = closeOpenSlot hooks slotIndex handle reason s := by
  simp [beginClose, checked]

theorem pollClose_error (checked : s.table.checked typeId handle = .error error) :
    pollClose hooks typeId handle s = (.ready (.error error), s) := by
  simp [pollClose, checked]

section

variable (checked : s.table.checked typeId handle = .ok slotIndex)

include checked

theorem pollClose_closing {answer : Poll (ResourceResult Unit)}
    (at' : s.table.stateAt slotIndex = .closing resource)
    (called : hooks.pollClose resource s.world = (answer, resource', world)) :
    pollClose hooks typeId handle s = (answer,
      (s.answered world (.pollClose (s.table.entryAt slotIndex) answer)).withTable
        (s.table.polling slotIndex resource' answer)) := by
  simp only [pollClose, run_bind, run_getTable, checked, run_replaceSlotState, at']
  rw [run_callPollClose (by simpa using called)]
  cases answer with
  | ready result | pending => simp [polling]

theorem pollClose_open (at' : s.table.stateAt slotIndex = .open resource) :
    pollClose hooks typeId handle s = (.ready (.error (notClosingError handle)), s) := by
  simp [pollClose, checked, at', setState_of_stateAt at']

theorem pollClose_vacant (at' : s.table.stateAt slotIndex = .vacant) :
    pollClose hooks typeId handle s = (.ready (.error (alreadyClosedError handle)), s) := by
  simp [pollClose, checked, at', setState_of_stateAt at']

end

end Slot

/-! ## Operations are sequences of effects -/

section Operations

variable {s' : TableState W R} {op : TableOp R}

theorem Touches.effects (h : Touches hooks s s') : Effects hooks s s' :=
  Relation.ReflTransGen.mono (fun _ _ => And.left) _ _ h

theorem Touches.closeAll (h : Touches hooks s s') : s'.table.closeAll = s.table.closeAll := by
  induction h with
  | refl => rfl
  | tail _ touch ih => exact touch.2.trans ih

theorem touches_beginClose
    {table : ResourceTable R} (at' : s.table.stateAt slotIndex = .open resource)
    (answered : hooks.beginClose resource reason s.world = (answer, resource', world))
    (left : table = s.table.keeping slotIndex resource' answer ∨
      table = s.table.sweeping slotIndex resource' answer) : Touches hooks s ((s.answered world
      (.beginClose (s.table.entryAt slotIndex) answer)).withTable table) := by
  refine .single ⟨.beginClose at' answered left, ?_⟩
  rcases left with rfl | rfl <;> rcases answer with _ | (_ | _) <;> rfl

theorem touches_pollClose
    {answer : Poll (ResourceResult Unit)}
    (at' : s.table.stateAt slotIndex = .closing resource)
    (answered : hooks.pollClose resource s.world = (answer, resource', world)) :
    Touches hooks s ((s.answered world (.pollClose (s.table.entryAt slotIndex) answer)).withTable
      (s.table.polling slotIndex resource' answer)) := by
  refine .single ⟨.pollClose at' answered, ?_⟩
  cases answer <;> rfl

theorem tryBeginClose_touches (reason : ResourceCloseReason) (slotIndex : Nat)
    (totals : SweepTotals) :
    Touches hooks s (tryBeginClose hooks reason slotIndex totals s).2 := by
  rcases (s.table.stateAt slotIndex).isOpen_cases with ⟨resource, at'⟩ | other
  · rw [tryBeginClose_open at' rfl]
    exact touches_beginClose at' rfl (.inr rfl)
  · rw [tryBeginClose_other other]

theorem tryPollClose_touches (slotIndex : Nat) (totals : SweepTotals) :
    Touches hooks s (tryPollClose hooks slotIndex totals s).2 := by
  rcases (s.table.stateAt slotIndex).isClosing_cases with ⟨resource, at'⟩ | other
  · rw [tryPollClose_closing at' rfl]
    exact touches_pollClose at' rfl
  · rw [tryPollClose_other other]

theorem launchClose_touches
    {firstError : Option ResourceError} :
    Touches hooks s (launchClose hooks reason slotIndex firstError s).2 := by
  rcases (s.table.stateAt slotIndex).isOpen_cases with ⟨resource, at'⟩ | other
  · rw [launchClose_open at' rfl]
    exact touches_beginClose at' rfl (.inl rfl)
  · rw [launchClose_other other]

theorem closeOpenSlot_touches :
    Touches hooks s (closeOpenSlot hooks slotIndex handle reason s).2 := by
  cases at' : s.table.stateAt slotIndex with
  | «open» resource =>
    rw [closeOpenSlot_open at' rfl]
    exact touches_beginClose at' rfl (.inl rfl)
  | vacant => rw [closeOpenSlot_vacant at']
  | closing resource => rw [closeOpenSlot_closing at']

theorem visitSlots_touches {visit : Nat → SweepTotals → TableM W R (Bool × SweepTotals)}
    (each : ∀ slotIndex totals s, Touches hooks s (visit slotIndex totals s).2) :
    ∀ (indices : List Nat) (progressed : Bool) (totals : SweepTotals) (s : TableState W R),
      Touches hooks s (visitSlots visit indices progressed totals s).2 := by
  intro indices
  induction indices with
  | nil => intro progressed totals s; exact .refl
  | cons slotIndex indices ih =>
    intro progressed totals s
    exact (each slotIndex totals s).trans (ih _ _ _)

theorem sweepPass_effects : Effects hooks s (sweepPass hooks reason totals s).2 :=
  Touches.effects ((visitSlots_touches (fun _ _ _ => tryBeginClose_touches ..) _ _ _ _).trans
    (visitSlots_touches (fun _ _ _ => tryPollClose_touches ..) _ _ _ _))

theorem sweep_effects : ∀ (fuel : Nat) (totals : SweepTotals) (s : TableState W R),
      Effects hooks s (sweep hooks reason fuel totals s).2 := by
  intro fuel
  induction fuel with
  | zero => intro totals s; exact .refl
  | succ fuel ih =>
    intro totals s
    apply sweepPass_effects.trans
    simp only [sweep, run_bind]
    split
    · exact ih _ _
    · exact .refl

/-- A sweep with another reason than the running one is refused. -/
theorem pollCloseAllReport_conflict {running : CloseAllState}
    (started : s.table.closeAll = some running) (conflict : running.reason ≠ reason) :
    pollCloseAllReport hooks reason s =
      (.ready (.error (closeInProgressError reason running.reason)), s) := by
  simp [pollCloseAllReport, started, conflict]

/-- A sweep that starts or goes on. -/
theorem pollCloseAllReport_accepted
    (accepted : s.table.closeAll.getD ⟨reason, ⟨0, 0, none⟩⟩ = ⟨reason, totals⟩) :
    pollCloseAllReport hooks reason s =
      let out := sweep hooks reason s.table.sweepFuel totals s
      if out.2.table.isEmpty then
        (.ready (.ok out.1), out.2.withTable { out.2.table with closeAll := none })
      else
        (.pending, out.2.withTable { out.2.table with closeAll := some ⟨reason, out.1⟩ }) := by
  simp only [pollCloseAllReport, run_bind, run_getTable, accepted]
  by_cases empty : (sweep hooks reason s.table.sweepFuel totals s).2.table.isEmpty = true
  · simp [empty]
  · simp [empty]

/-- Either the running sweep has another reason, or it has this one or is started. -/
theorem ResourceTable.sweep_cases (table : ResourceTable R) (reason : ResourceCloseReason) :
    (∃ running, table.closeAll = some running ∧ running.reason ≠ reason) ∨
      ∃ totals, table.closeAll.getD ⟨reason, ⟨0, 0, none⟩⟩ = ⟨reason, totals⟩ := by
  cases started : table.closeAll with
  | none => exact .inr ⟨_, rfl⟩
  | some running =>
    by_cases same : running.reason = reason
    · subst same
      exact .inr ⟨running.totals, rfl⟩
    · exact .inl ⟨running, rfl, same⟩

theorem pollCloseAllReport_effects : Effects hooks s (pollCloseAllReport hooks reason s).2 := by
  rcases s.table.sweep_cases reason with ⟨running, started, conflict⟩ | ⟨totals, accepted⟩
  · rw [pollCloseAllReport_conflict started conflict]
  · rw [pollCloseAllReport_accepted accepted]
    apply (sweep_effects _ _ s).trans
    dsimp only
    split
    · exact .single (.sweepState _)
    · exact .single (.sweepState _)

theorem pollCloseAll_effects : Effects hooks s (pollCloseAll hooks reason s).2 := by
  apply pollCloseAllReport_effects.trans
  simp only [pollCloseAll, run_bind]
  rcases (pollCloseAllReport hooks reason s).1 with (error | ⟨_, _, _ | _⟩) | _ <;> exact .refl

theorem closeAll_effects : Effects hooks s (closeAll hooks reason s).2 := by
  apply pollCloseAll_effects.trans
  simp only [closeAll, run_bind]
  rcases (pollCloseAll hooks reason s).1 with _ | _ <;> exact .refl

theorem launchAll_touches :
    ∀ (indices : List Nat) (firstError : Option ResourceError) (s : TableState W R),
      Touches hooks s (launchAll hooks reason indices firstError s).2 := by
  intro indices
  induction indices with
  | nil => intro firstError s; exact .refl
  | cons slotIndex indices ih =>
    intro firstError s
    exact launchClose_touches.trans (ih _ _)

theorem closeAdded_touches {before : List ResourceHandle} :
    Touches hooks s (closeAdded hooks before slotIndex totals s).2 := by
  simp only [closeAdded, run_bind, run_getTable]
  cases encode s.table.arenaId (s.table.entryAt slotIndex).slotIndex
      (s.table.entryAt slotIndex).generation with
  | none => exact .refl
  | some handle =>
    by_cases known : handle ∈ before
    · simp only [known]
      exact .refl
    · simp only [known]
      exact (tryBeginClose_touches ..).trans (tryPollClose_touches ..)

section Place

variable {table table' : ResourceTable R} {type : ResourceType} {value : R} {entry : Entry}

/-- A resource is placed in the first vacant slot, or in a new one. -/
theorem place_eq_ok (placed : table.place type value = .ok (entry, table')) :
    (∃ rest, table.vacantSlots = entry.slotIndex :: rest ∧
      entry.generation = (table.entryAt entry.slotIndex).generation + 1 ∧
      table' = { table with
        slots := table.slots.modify entry.slotIndex fun _ =>
          ⟨entry.generation, type.typeId, type.resourceTypeKey, .open value⟩
        vacantSlots := rest
        activeEntries := table.activeEntries + 1 }) ∨
    (table.vacantSlots = [] ∧ table.slots.length < maxResourceSlots ∧
      entry = ⟨table.slots.length, 1⟩ ∧
      table' = { table with
        slots := table.slots ++ [⟨1, type.typeId, type.resourceTypeKey, .open value⟩]
        activeEntries := table.activeEntries + 1 }) := by
  unfold place at placed
  split at placed
  · cases placed
  · split at placed
    · rename_i slotIndex rest free
      cases placed
      exact .inl ⟨rest, free, rfl, rfl⟩
    · rename_i free
      split at placed
      · cases placed
      · rename_i room
        cases placed
        exact .inr ⟨free, not_le.mp room, rfl, rfl⟩

theorem closeAll_place (placed : table.place type value = .ok (entry, table')) :
    table'.closeAll = table.closeAll := by
  rcases place_eq_ok placed with ⟨_, _, _, rfl⟩ | ⟨_, _, _, rfl⟩ <;> rfl

end Place

theorem push_touches {type : ResourceType} {value : R} : Touches hooks s (push type value s).2 := by
  simp only [push, run_bind, run_getTable]
  cases placed : s.table.place type value with
  | error error => exact .refl
  | ok placement =>
    obtain ⟨entry, table⟩ := placement
    have touch : Touches hooks s _ := .single ⟨.insert placed, closeAll_place placed⟩
    dsimp only
    cases encode table.arenaId entry.slotIndex entry.generation with
    | none | some handle => exact touch

theorem getMut_touches {update : R → R} : Touches hooks s (getMut typeId handle update s).2 := by
  simp only [getMut, run_bind, run_getTable]
  cases s.table.validateActive typeId handle with
  | error error => exact .refl
  | ok slotIndex =>
    cases at' : s.table.stateAt slotIndex with
    | «open» resource =>
      simp only [at']
      exact .single ⟨.update _ at', rfl⟩
    | closing resource | vacant =>
      simp only [at']
      exact .refl

theorem take_touches : Touches hooks s (take typeId handle s).2 := by
  cases checked : s.table.checked typeId handle with
  | error error => rw [take_error checked]
  | ok slotIndex =>
    rcases (s.table.stateAt slotIndex).isOpen_cases with ⟨resource, at'⟩ | other
    · rw [take_open checked at']
      exact .single ⟨.take at', rfl⟩
    · rw [take_other checked other]

theorem pollClose_touches : Touches hooks s (pollClose hooks typeId handle s).2 := by
  cases checked : s.table.checked typeId handle with
  | error error => rw [pollClose_error checked]
  | ok slotIndex =>
    cases at' : s.table.stateAt slotIndex with
    | closing resource =>
      rw [pollClose_closing checked at' rfl]
      exact touches_pollClose at' rfl
    | «open» resource => rw [pollClose_open checked at']
    | vacant => rw [pollClose_vacant checked at']

/-- The operations that sweep the whole table. -/
def TableOp.sweeps : TableOp R → Bool
  | .pollCloseAllReport _ | .pollCloseAll _ | .closeAll _ => true
  | _ => false

theorem runOp_touches (single : op.sweeps = false) {s : TableState W R} :
    Touches hooks s (runOp hooks op s).2 := by
  cases op with
  | push type value => exact push_touches
  | typed typeId handle | validateResourceTypeKey handle expected | get typeId handle => exact .refl
  | getMut typeId handle update => exact getMut_touches
  | take typeId handle => exact take_touches
  | beginClose typeId handle reason =>
    simp only [runOp, run_map]
    cases checked : s.table.checked typeId handle with
    | error error => rw [beginClose_error checked]
    | ok slotIndex =>
      rw [beginClose_checked checked]
      exact closeOpenSlot_touches
  | pollClose typeId handle => exact pollClose_touches
  | pollCloseAllReport | pollCloseAll | closeAll => cases single
  | beginCloseRemainingForDrop reason =>
    apply (launchAll_touches _ none s).trans
    simp only [runOp, beginCloseRemainingForDrop, run_map, run_bind, run_getTable]
    rcases (launchAll hooks reason s.table.liveIndices none s).1 with _ | _ <;> exact .refl
  | pollCloseAdded before cleanupError =>
    have each : ∀ slotIndex totals s,
        Touches hooks s (closeAdded hooks before slotIndex totals s).2 :=
      fun slotIndex totals _ => closeAdded_touches
    apply (visitSlots_touches each _ false _ s).trans
    simp only [runOp, pollCloseAdded, run_map, run_bind, run_getTable]
    generalize visitSlots (closeAdded hooks before) s.table.liveIndices false ⟨0, 0, none⟩ s = out
    cases out.2.table.liveHandles with
    | error error => exact .refl
    | ok handles =>
      by_cases known : handles.all (fun handle => decide (handle ∈ before)) = true
      · simp only [known]
        cases (cleanupError <|> out.1.2.firstError) with
        | none | some error => exact .refl
      · simp only [known]
        exact .refl

/-- **Operations are sequences of effects.** -/
theorem runOp_effects (s : TableState W R) : Effects hooks s (runOp hooks op s).2 := by
  cases op with
  | pollCloseAllReport reason => exact pollCloseAllReport_effects
  | pollCloseAll reason => exact pollCloseAll_effects
  | closeAll reason => exact closeAll_effects
  | _ => exact (runOp_touches rfl).effects

end Operations

end RustScript.Resource
