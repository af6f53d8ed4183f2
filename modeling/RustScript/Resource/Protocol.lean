import RustScript.Resource.Aliasing

/-!
# The close protocol of resources

The history of a table records every insertion, every take and every hook call.
`Protocol` says what such a history must look like for the entry of each resource:
its begin-close hook is accepted at most once, its poll-close hook is called only
while its close is pending, and after it was taken nothing happens to it.

The link between a history and the table it led to is `Consistent`: an entry that
was never issued has no history, an open one was not accepted for closing, and a
closing one has a pending close.  Each effect keeps it (`Effect.consistent`), so it
holds after every sequence of operations; `close_protocol` is the result, together
with the fact that a refused operation changes nothing.
-/

namespace RustScript.Resource

open ResourceTable List

variable {W R : Type}

/-! ## Histories -/

namespace TableEvent

def entry : TableEvent → Entry
  | .inserted entry => entry
  | .taken entry => entry
  | .beginClose entry _ => entry
  | .pollClose entry _ => entry

def isInsertion : TableEvent → Bool
  | .inserted _ => true
  | _ => false

def isTake : TableEvent → Bool
  | .taken _ => true
  | _ => false

/-- The begin-close hook accepted to close the resource. -/
def accepts : TableEvent → Bool
  | .beginClose _ (.ok _) => true
  | _ => false

/-- A hook reported that the resource is closed. -/
def completes : TableEvent → Bool
  | .beginClose _ (.ok .ready) => true
  | .pollClose _ (.ready _) => true
  | _ => false

end TableEvent

open TableEvent

/-- The close protocol. -/
structure Protocol (events : List TableEvent) : Prop where
  insertedOnce : ∀ entry, events.countP (fun event => event.isInsertion && event.entry == entry) ≤ 1
  acceptedOnce : ∀ entry, events.countP (fun event => event.accepts && event.entry == entry) ≤ 1
  polled : ∀ before entry answer after, events = before ++ .pollClose entry answer :: after →
    .beginClose entry (.ok .pending) ∈ before ∧
      ∀ event ∈ before, event.entry = entry → event.completes = false
  taken : ∀ before entry after, events = before ++ .taken entry :: after →
    ∀ event ∈ after, event.entry ≠ entry

/-- What the last event adds to the protocol. -/
structure Permitted (events : List TableEvent) (last : TableEvent) : Prop where
  notTaken : ∀ event ∈ events, event.isTake = true → event.entry ≠ last.entry
  inserted : last.isInsertion = true → ∀ event ∈ events, event.entry ≠ last.entry
  accepts : last.accepts = true → ∀ event ∈ events, event.entry = last.entry → event.accepts = false
  polls : ∀ answer, last = .pollClose last.entry answer →
    .beginClose last.entry (.ok .pending) ∈ events ∧
      ∀ event ∈ events, event.entry = last.entry → event.completes = false

variable {α : Type} {l : List α} {a : α} {table' : ResourceTable R} {state : SlotState R}
  {resource' : R} {s' : TableState W R}

/-- Where an element of a list with one more element stands. -/
theorem snoc_eq_append_cons {before after : List α} {b : α} (eq : l ++ [a] = before ++ b :: after) :
    (before = l ∧ b = a ∧ after = []) ∨ ∃ rest, after = rest ++ [a] ∧ l = before ++ b :: rest := by
  rcases append_eq_append_iff.mp eq with ⟨rest, rfl, eq⟩ | ⟨rest, rfl, eq⟩
  · cases rest <;> simp_all
  · cases rest <;> simp_all

theorem countP_snoc_le {p : α → Bool} (le : l.countP p ≤ 1)
    (fresh : p a = true → ∀ b ∈ l, p b = false) : (l ++ [a]).countP p ≤ 1 := by
  by_cases holds : p a = true
  · have none : l.countP p = 0 := by
      rw [countP_eq_zero]
      intro b mem
      simp [fresh holds b mem]
    simp [holds, none]
  · simpa [holds] using le

theorem Protocol.nil : Protocol [] where
  insertedOnce := by simp
  acceptedOnce := by simp
  polled := by simp
  taken := by simp

variable {events : List TableEvent} {slotIndex : Nat} {slot : ResourceSlot R}
  {table : ResourceTable R} {last : TableEvent}

theorem Protocol.snoc (protocol : Protocol events) (permitted : Permitted events last) :
    Protocol (events ++ [last]) where
  insertedOnce := by
    intro entry
    apply countP_snoc_le (protocol.insertedOnce entry)
    intro holds event mem
    simp only [Bool.and_eq_true, beq_iff_eq] at holds
    have ne := permitted.inserted holds.1 event mem
    simp [← holds.2, ne]
  acceptedOnce := by
    intro entry
    apply countP_snoc_le (protocol.acceptedOnce entry)
    intro holds event mem
    simp only [Bool.and_eq_true, beq_iff_eq] at holds
    by_cases same : event.entry = last.entry
    · simp [permitted.accepts holds.1 event mem same]
    · simp [← holds.2, same]
  polled := by
    intro before entry answer after eq
    rcases snoc_eq_append_cons eq with ⟨rfl, rfl, rfl⟩ | ⟨rest, -, rfl⟩
    · exact permitted.polls answer rfl
    · exact protocol.polled before entry answer rest rfl
  taken := by
    intro before entry after eq event mem
    rcases snoc_eq_append_cons eq with ⟨-, -, rfl⟩ | ⟨rest, rfl, rfl⟩
    · cases mem
    · rcases mem_append.mp mem with mem | mem
      · exact protocol.taken before entry rest rfl event mem
      · obtain rfl := mem_singleton.mp mem
        exact (permitted.notTaken (.taken entry) (by simp) rfl).symm

/-! ## Histories and tables -/

/-- The history of the occupant of a slot agrees with the state of the slot. -/
def SlotConsistent (slotIndex : Nat) (slot : ResourceSlot R) (events : List TableEvent) : Prop :=
  match slot.state with
  | .vacant => True
  | .open _ => ∀ event ∈ events, event.entry = ⟨slotIndex, slot.generation⟩ →
      event.isTake = false ∧ event.completes = false ∧ event.accepts = false
  | .closing _ => .beginClose ⟨slotIndex, slot.generation⟩ (.ok .pending) ∈ events ∧
      ∀ event ∈ events, event.entry = ⟨slotIndex, slot.generation⟩ →
        event.isTake = false ∧ event.completes = false

structure Consistent (table : ResourceTable R) (events : List TableEvent) : Prop where
  fresh : ∀ entry : Entry, ¬table.arena.Issued entry.slotIndex entry.generation →
    ∀ event ∈ events, event.entry ≠ entry
  slots : ∀ slotIndex slot, table.slots[slotIndex]? = some slot →
    SlotConsistent slotIndex slot events

theorem SlotConsistent.snoc (consistent : SlotConsistent slotIndex slot events)
    (elsewhere : last.entry ≠ ⟨slotIndex, slot.generation⟩) :
    SlotConsistent slotIndex slot (events ++ [last]) := by
  unfold SlotConsistent at consistent ⊢
  cases state : slot.state with
  | vacant => trivial
  | «open» resource =>
    simp only [state] at consistent
    intro event mem same
    rcases mem_append.mp mem with mem | mem
    · exact consistent event mem same
    · obtain rfl := mem_singleton.mp mem
      exact absurd same elsewhere
  | closing resource =>
    simp only [state] at consistent
    refine ⟨mem_append_left _ consistent.1, ?_⟩
    intro event mem same
    rcases mem_append.mp mem with mem | mem
    · exact consistent.2 event mem same
    · obtain rfl := mem_singleton.mp mem
      exact absurd same elsewhere

/-- One event about the occupant of one slot. -/
theorem Consistent.snoc (consistent : Consistent table events)
    (others : ∀ j, j ≠ last.entry.slotIndex → table'.slots[j]? = table.slots[j]?)
    (evolves : table.arena.Evolves table'.arena)
    (issued : table'.arena.Issued last.entry.slotIndex last.entry.generation)
    (here : ∀ slot, table'.slots[last.entry.slotIndex]? = some slot →
        SlotConsistent last.entry.slotIndex slot (events ++ [last])) :
    Consistent table' (events ++ [last]) where
  fresh := by
    intro entry notIssued event mem
    rcases mem_append.mp mem with mem | mem
    · exact consistent.fresh entry (fun h => notIssued (evolves.issued h)) event mem
    · obtain rfl := mem_singleton.mp mem
      rintro rfl
      exact notIssued issued
  slots := by
    intro j slot found
    by_cases same : j = last.entry.slotIndex
    · subst same
      exact here slot found
    · rw [others j same] at found
      apply (consistent.slots j slot found).snoc
      intro eq
      exact same (congrArg Entry.slotIndex eq).symm

/-- A change inside one slot that leaves its history alone. -/
theorem Consistent.setState (consistent : Consistent table events)
    (occupied : (table.stateAt slotIndex).isVacant = false) (stays : state.isVacant = false)
    (here : ∀ slot, table.slots[slotIndex]? = some slot →
        SlotConsistent slotIndex { slot with state } events) :
    Consistent (table.setState slotIndex state) events where
  fresh := by
    intro entry
    rw [arena_setState occupied stays]
    exact consistent.fresh entry
  slots := by
    intro j slot found
    simp only [slots_setState, List.getElem?_modify] at found
    by_cases same : slotIndex = j
    · subst same
      simp only [Option.map_eq_map, Option.map_eq_some_iff] at found
      obtain ⟨old, found, rfl⟩ := found
      exact here old found
    · simp only [same] at found
      exact consistent.slots j slot (by simpa using found)

theorem entryAt_eq (found : table.slots[slotIndex]? = some slot) :
    table.entryAt slotIndex = ⟨slotIndex, slot.generation⟩ := by
  simp [entryAt, found]

/-- An occupant and a later table that still knows its name. -/
structure Occupied (table : ResourceTable R) (slotIndex : Nat) (slot : ResourceSlot R) : Prop where
  found : table.slots[slotIndex]? = some slot
  state : slot.state = table.stateAt slotIndex
  issued : table.arena.Issued slotIndex slot.generation

theorem occupied_of_state (wf : table.arena.WellFormed maxHandleGeneration)
    (at' : table.stateAt slotIndex = state) (occupied : state.isVacant = false) :
    ∃ slot, Occupied table slotIndex slot := by
  subst at'
  obtain ⟨slot, found, state⟩ := exists_slot rfl occupied
  have bounds := wf.generations _ (mem_of_getElem? (arena_found found))
  exact ⟨slot, found, state, slot.arenaSlot, arena_found found, bounds.1, Nat.le_refl _⟩

variable {resource : R}

section Slot

section

variable (consistent : Consistent table events) (occupied : Occupied table slotIndex slot)

include consistent occupied

/-- The last event about an occupant whose slot is given up. -/
theorem Consistent.reclaim (about : last.entry = ⟨slotIndex, slot.generation⟩) :
    Consistent (table.reclaim slotIndex) (events ++ [last]) := by
  have abstracted := arena_found occupied.found
  have arena := arena_reclaim occupied.found
  apply consistent.snoc
  · intro j ne
    rw [about] at ne
    simp [ResourceTable.reclaim, Ne.symm ne]
  · rw [arena]
    exact Arena.evolves_release
  · rw [arena, about]
    exact Arena.issued_release.mpr occupied.issued
  · intro slot' found
    rw [about] at found
    simp only [ResourceTable.reclaim, ResourceTable.slots_setState, List.getElem?_modify_eq,
      occupied.found, Option.map_eq_map, Option.map_some, Option.some.injEq] at found
    subst found
    trivial

/-- An event about an occupant that stays in its slot. -/
theorem Consistent.stays {state : SlotState R} (about : last.entry = ⟨slotIndex, slot.generation⟩)
    (vacant : (table.stateAt slotIndex).isVacant = false) (stays : state.isVacant = false)
    (here : SlotConsistent slotIndex { slot with state } (events ++ [last])) :
    Consistent (table.setState slotIndex state) (events ++ [last]) := by
  have arena := arena_setState vacant stays
  apply consistent.snoc
  · intro j ne
    rw [about] at ne
    simp [Ne.symm ne]
  · rw [arena]
    exact .refl _
  · rw [arena, about]
    exact occupied.issued
  · intro slot' found
    rw [about] at found ⊢
    simp only [slots_setState, List.getElem?_modify_eq, occupied.found,
      Option.map_eq_map, Option.map_some, Option.some.injEq] at found
    subst found
    exact here

/-- The history of an open occupant. -/
theorem Consistent.at_open (at' : table.stateAt slotIndex = .open resource) :
    ∀ event ∈ events, event.entry = ⟨slotIndex, slot.generation⟩ →
      event.isTake = false ∧ event.completes = false ∧ event.accepts = false := by
  have here := consistent.slots slotIndex slot occupied.found
  simpa only [SlotConsistent, occupied.state, at'] using here

/-- The history of a closing occupant. -/
theorem Consistent.at_closing (at' : table.stateAt slotIndex = .closing resource) :
    .beginClose ⟨slotIndex, slot.generation⟩ (.ok .pending) ∈ events ∧
      ∀ event ∈ events, event.entry = ⟨slotIndex, slot.generation⟩ →
        event.isTake = false ∧ event.completes = false := by
  have here := consistent.slots slotIndex slot occupied.found
  simpa only [SlotConsistent, occupied.state, at'] using here

end

end Slot

/-! ## The protocol along effects -/

/-- What holds after every sequence of effects. -/
structure History (s : TableState W R) : Prop where
  wellFormed : s.table.arena.WellFormed maxHandleGeneration
  consistent : Consistent s.table s.events
  protocol : Protocol s.events

theorem forall_mem_snoc {P : α → Prop} (all : ∀ b ∈ l, P b) (here : P a) : ∀ b ∈ l ++ [a], P b :=
  forall_mem_append.mpr ⟨all, forall_mem_singleton.mpr here⟩

/-- The begin-close hook of an open occupant has answered. -/
theorem Consistent.beginClose
    {answer : ResourceResult CloseProgress} (consistent : Consistent table events)
    (occupied : Occupied table slotIndex slot) (at' : table.stateAt slotIndex = .open resource)
    (next : table' = table.keeping slotIndex resource' answer ∨
        table' = table.sweeping slotIndex resource' answer) :
    Consistent table' (events ++ [.beginClose ⟨slotIndex, slot.generation⟩ answer]) := by
  have vacant := occupied_at at' rfl
  have history := consistent.at_open occupied at'
  rcases answer with error | (_ | _)
  · rcases next with rfl | rfl
    · apply consistent.stays occupied rfl vacant rfl
      exact forall_mem_snoc history fun _ => ⟨rfl, rfl, rfl⟩
    · exact consistent.reclaim occupied rfl
  · rcases next with rfl | rfl <;> exact consistent.reclaim occupied rfl
  · rcases next with rfl | rfl
    all_goals
      apply consistent.stays occupied rfl vacant rfl
      exact ⟨by simp, forall_mem_snoc (fun event mem same =>
        ⟨(history event mem same).1, (history event mem same).2.1⟩) fun _ => ⟨rfl, rfl⟩⟩

/-- The poll-close hook of a closing occupant has answered. -/
theorem Consistent.pollClose {answer : Poll (ResourceResult Unit)}
    (consistent : Consistent table events) (occupied : Occupied table slotIndex slot)
    (at' : table.stateAt slotIndex = .closing resource) :
    Consistent (table.polling slotIndex resource' answer)
      (events ++ [.pollClose ⟨slotIndex, slot.generation⟩ answer]) := by
  have vacant := occupied_at at' rfl
  obtain ⟨pending, history⟩ := consistent.at_closing occupied at'
  cases answer with
  | ready result => exact consistent.reclaim occupied rfl
  | pending =>
    apply consistent.stays occupied rfl vacant rfl
    exact ⟨mem_append_left _ pending, forall_mem_snoc history fun _ => ⟨rfl, rfl⟩⟩

variable {hooks : HostResource W R} {s : TableState W R}

/-- **Each effect keeps to the protocol.** -/
theorem Effect.history (effect : Effect hooks s s') (history : History s) : History s' := by
  have wellFormed := effect.keeps.arena.wellFormed (by decide) history.wellFormed
  have evolves := effect.keeps.arena.evolves history.wellFormed
  have consistent := history.consistent
  cases effect with
  | @insert type value entry table placed =>
    obtain ⟨fresh, issued⟩ := place_issues history.wellFormed placed
    obtain ⟨others, here⟩ := place_slots placed
    have unknown := consistent.fresh entry fresh
    refine ⟨wellFormed, consistent.snoc others evolves issued ?_, ?_⟩
    · intro slot found
      obtain ⟨generation, state⟩ := here slot found
      unfold SlotConsistent
      simp only [state]
      apply forall_mem_snoc
      · intro event mem same
        exact absurd (same.trans (by rw [generation]; rfl)) (unknown event mem)
      · exact fun _ => ⟨rfl, rfl, rfl⟩
    · apply history.protocol.snoc
      exact
        { notTaken := fun event mem _ => unknown event mem
          inserted := fun _ => unknown
          accepts := by rintro ⟨⟩
          polls := by rintro _ ⟨⟩ }
  | @update slotIndex resource resource' at' =>
    refine ⟨wellFormed, consistent.setState (occupied_at at' rfl) rfl ?_, history.protocol⟩
    intro slot found
    have here := consistent.slots _ slot found
    have state : slot.state = .open resource := by simpa [stateAt, found] using at'
    simpa only [SlotConsistent, state] using here
  | @take slotIndex resource at' =>
    obtain ⟨slot, occupied⟩ := occupied_of_state history.wellFormed at' rfl
    have about := consistent.at_open occupied at'
    rw [entryAt_eq occupied.found] at wellFormed ⊢
    refine ⟨wellFormed, consistent.reclaim occupied rfl, history.protocol.snoc ?_⟩
    exact
      { notTaken event mem isTake same := by simp [(about event mem same).1] at isTake
        inserted := by rintro ⟨⟩
        accepts := by rintro ⟨⟩
        polls := by rintro _ ⟨⟩ }
  | @beginClose slotIndex resource resource' reason answer world table at' called next =>
    obtain ⟨slot, occupied⟩ := occupied_of_state history.wellFormed at' rfl
    have about := consistent.at_open occupied at'
    rw [entryAt_eq occupied.found] at wellFormed ⊢
    refine ⟨wellFormed, consistent.beginClose occupied at' next, history.protocol.snoc ?_⟩
    exact
      { notTaken event mem isTake same := by simp [(about event mem same).1] at isTake
        inserted := by rintro ⟨⟩
        accepts := fun _ event mem same => (about event mem same).2.2
        polls := by rintro _ ⟨⟩ }
  | @pollClose slotIndex resource resource' answer world at' called =>
    obtain ⟨slot, occupied⟩ := occupied_of_state history.wellFormed at' rfl
    obtain ⟨pending, about⟩ := consistent.at_closing occupied at'
    rw [entryAt_eq occupied.found] at wellFormed ⊢
    refine ⟨wellFormed, consistent.pollClose occupied at', history.protocol.snoc ?_⟩
    exact
      { notTaken event mem isTake same := by simp [(about event mem same).1] at isTake
        inserted := by rintro ⟨⟩
        accepts := by rintro ⟨⟩
        polls := fun _ _ => ⟨pending, fun event mem same => (about event mem same).2⟩ }
  | sweepState closeAll =>
    exact ⟨wellFormed, ⟨consistent.fresh, consistent.slots⟩, history.protocol⟩

theorem Effects.history (effects : Effects hooks s s') (history : History s) : History s' := by
  induction effects with
  | refl => exact history
  | tail _ effect ih => exact effect.history ih

/-! ## Refused operations -/

/-- The handle, type and state checks of an operation. -/
def Admits (table : ResourceTable R) : TableOp R → Prop
  | .push type value => ∃ placement, table.place type value = .ok placement
  | .typed typeId handle => ∃ slotIndex, table.validateActive typeId handle = .ok slotIndex
  | .get typeId handle => ∃ slotIndex, table.validateActive typeId handle = .ok slotIndex
  | .getMut typeId handle _ => ∃ slotIndex, table.validateActive typeId handle = .ok slotIndex
  | .validateResourceTypeKey handle expected =>
    table.validateResourceTypeKey handle expected = .ok ()
  | .take typeId handle => ∃ slotIndex, table.checked typeId handle = .ok slotIndex ∧
      (table.stateAt slotIndex).isOpen = true
  | .beginClose typeId handle _ => ∃ slotIndex, table.checked typeId handle = .ok slotIndex ∧
      (table.stateAt slotIndex).isVacant = false
  | .pollClose typeId handle => ∃ slotIndex, table.checked typeId handle = .ok slotIndex ∧
      (table.stateAt slotIndex).isClosing = true
  | .pollCloseAllReport reason => ∀ running ∈ table.closeAll, running.reason = reason
  | .pollCloseAll reason => ∀ running ∈ table.closeAll, running.reason = reason
  | .closeAll reason => ∀ running ∈ table.closeAll, running.reason = reason
  | .beginCloseRemainingForDrop _ => True
  | .pollCloseAdded _ _ => True

@[simp] def TableReply.isError : TableReply R → Bool
  | .handle (.error _) => true
  | .resource (.error _) => true
  | .progress (.error _) => true
  | .unit (.error _) => true
  | .count (.error _) => true
  | .poll (.ready (.error _)) => true
  | .pollCount (.ready (.error _)) => true
  | .pollReport (.ready (.error _)) => true
  | _ => false

theorem validateActive_error {typeId : TypeId} {handle : ResourceHandle}
    (refused : ¬∃ slotIndex, table.validateActive typeId handle = .ok slotIndex) :
    ∃ error, table.validateActive typeId handle = .error error := by
  cases validated : table.validateActive typeId handle with
  | error error => exact ⟨error, rfl⟩
  | ok slotIndex => exact absurd ⟨slotIndex, validated⟩ refused

/-- A sweep that is refused conflicts with the running one. -/
theorem exists_conflict {reason : ResourceCloseReason}
    (refused : ¬∀ running ∈ table.closeAll, running.reason = reason) :
    ∃ running, table.closeAll = some running ∧ running.reason ≠ reason := by
  cases started : table.closeAll with
  | none => simp [started] at refused
  | some running => exact ⟨running, rfl, by simpa [started] using refused⟩

/-- **A refused operation changes nothing** and calls no hook. -/
theorem refused_unchanged {hooks : HostResource W R} {op : TableOp R} {s : TableState W R}
    (refused : ¬Admits s.table op) :
    (runOp hooks op s).2 = s ∧ (runOp hooks op s).1.isError = true := by
  cases op with
  | push type value =>
    cases placed : s.table.place type value with
    | error error => simp [runOp, push, placed]
    | ok placement => exact absurd ⟨placement, placed⟩ refused
  | typed typeId handle =>
    obtain ⟨error, invalid⟩ := validateActive_error refused
    have untyped : s.table.typed typeId handle = .error error := by simp [typed, invalid]
    simp [runOp, untyped]
  | validateResourceTypeKey handle expected =>
    cases valid : s.table.validateResourceTypeKey handle expected with
    | error error => simp [runOp, valid]
    | ok _ => exact absurd valid refused
  | get typeId handle =>
    obtain ⟨error, invalid⟩ := validateActive_error refused
    refine ⟨rfl, ?_⟩
    simp only [runOp, getResource, run_map, run_bind, run_getTable, invalid]
    rfl
  | getMut typeId handle update =>
    obtain ⟨error, invalid⟩ := validateActive_error refused
    simp [runOp, getMut, invalid]
  | take typeId handle =>
    simp only [runOp]
    cases checked : s.table.checked typeId handle with
    | error error => simp [take_error checked]
    | ok slotIndex =>
      cases isOpen : (s.table.stateAt slotIndex).isOpen with
      | true => exact absurd ⟨slotIndex, checked, isOpen⟩ refused
      | false => simp [take_other checked isOpen]
  | beginClose typeId handle reason =>
    simp only [runOp]
    cases checked : s.table.checked typeId handle with
    | error error => simp [beginClose_error checked]
    | ok slotIndex =>
      cases at' : s.table.stateAt slotIndex with
      | vacant => simp [beginClose_checked checked, closeOpenSlot_vacant at']
      | _ => exact absurd ⟨slotIndex, checked, by simp [at', SlotState.isVacant]⟩ refused
  | pollClose typeId handle =>
    simp only [runOp]
    cases checked : s.table.checked typeId handle with
    | error error => simp [pollClose_error checked]
    | ok slotIndex =>
      cases at' : s.table.stateAt slotIndex with
      | closing resource =>
        exact absurd ⟨slotIndex, checked, by simp [at', SlotState.isClosing]⟩ refused
      | «open» resource => simp [pollClose_open checked at']
      | vacant => simp [pollClose_vacant checked at']
  | pollCloseAllReport reason =>
    obtain ⟨running, started, conflict⟩ := exists_conflict refused
    simp [runOp, pollCloseAllReport_conflict started conflict]
  | pollCloseAll reason =>
    obtain ⟨running, started, conflict⟩ := exists_conflict refused
    simp [runOp, pollCloseAll, pollCloseAllReport_conflict started conflict]
  | closeAll reason =>
    obtain ⟨running, started, conflict⟩ := exists_conflict refused
    simp [runOp, closeAll, pollCloseAll, pollCloseAllReport_conflict started conflict]
  | beginCloseRemainingForDrop reason | pollCloseAdded before cleanupError =>
    exact absurd trivial refused

/-! ## Runs of one table -/

inductive TableAction (W R : Type) where
  | run (op : TableOp R)
  /-- Something happens outside the table. -/
  | elapse (world : W)

def runActions (hooks : HostResource W R) : List (TableAction W R) → TableState W R → TableState W R
  | [], s => s
  | .run op :: actions, s => runActions hooks actions (runOp hooks op s).2
  | .elapse world :: actions, s => runActions hooks actions { s with world }

theorem runActions_history {actions : List (TableAction W R)} (history : History s) :
    History (runActions hooks actions s) := by
  induction actions generalizing s with
  | nil => exact history
  | cons action actions ih =>
    cases action with
    | run op => exact ih ((runOp_effects s).history history)
    | elapse world => exact ih { history with }

theorem history_fresh {arenaId maxEntries : Nat} {world : W} :
    History (⟨.fresh arenaId maxEntries, world, []⟩ : TableState W R) where
  wellFormed := Arena.wellFormed_empty
  consistent := ⟨by simp, by simp [fresh]⟩
  protocol := .nil

/-- **The close protocol.** After any sequence of operations on a table, whatever the hooks
answer: the history of hook calls keeps to the protocol, and an operation that its handle,
type or state checks refuse reports an error, calls no hook and changes nothing. -/
theorem close_protocol (hooks : HostResource W R) (arenaId maxEntries : Nat) (world : W)
    (actions : List (TableAction W R)) :
    let s := runActions hooks actions ⟨.fresh arenaId maxEntries, world, []⟩
    Protocol s.events ∧ ∀ op, ¬Admits s.table op →
      (runOp hooks op s).2 = s ∧ (runOp hooks op s).1.isError = true :=
  ⟨(runActions_history history_fresh).protocol, fun _ => refused_unchanged⟩

end RustScript.Resource
