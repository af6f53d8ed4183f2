import RustScript.Operation.Changes

/-!
# The life of an operation

What happened to one operation, read off the history of the registry, is a word of a small
grammar (`Life`): it is started, it comes to its end once, with one call of its cleanup if
it has one, and its slot is released.  The registry knows at every moment how far the
operation has come (`stage`): an id that has not been issued is unborn, an occupied slot
has a pending or a terminal operation, and a generation that is over is gone.

`Ledger` says that the two agree, for every slot and every generation, in a well-formed
registry.  Every change keeps it (`Ledger.change`), so it holds after every sequence of
calls.  The two main results read it: `operation_ids_never_alias` for ids, slots and
outcomes, and `operations_cleaned_once` for hooks, cleanups and reasons.
-/

namespace RustScript.Operation

open Resource (Poll Entry)
open Wp OperationSlot Arena Happening List OperationRegistry OperationStatus Option

variable {W D C : Type}

/-! ## Stages -/

inductive Stage where
  | unborn
  | pending (hasCleanup : Bool)
  | terminal (status : OperationStatus)
  | gone

def OperationRecord.stage (operation : OperationRecord D C) : Stage :=
  match operation.status with
  | .pending => .pending operation.cleanup.isSome
  | status => .terminal status

/-- Generations are used in their order.  A vacant slot in the free list has a generation
that is still to be used; outside the free list it is retired. -/
def OperationSlot.stage (slot : OperationSlot D C) (free : Bool) (generation : Nat) : Stage :=
  if generation = 0 ∨ slot.generation < generation then .unborn
  else if generation < slot.generation then .gone
  else match slot.operation with
    | some operation => operation.stage
    | none => if free then .unborn else .gone

def OperationRegistry.stage (registry : OperationRegistry D C) (entry : Entry) : Stage :=
  match registry.slots[entry.slotIndex]? with
  | none => .unborn
  | some slot => slot.stage (decide (entry.slotIndex ∈ registry.free)) entry.generation

theorem OperationRecord.stage_terminal {operation : OperationRecord D C}
    (terminal : operation.status.isTerminal = true) :
    operation.stage = .terminal operation.status := by
  unfold stage
  cases status : operation.status with
  | pending => simp [status, isTerminal] at terminal
  | completed | cancelled reason | failed error => rfl

variable {slot : OperationSlot D C} {free : Bool} {reason : OperationCancelReason}
  {id : OperationId} {operation : OperationRecord D C} {slotIndex : Nat}
  {registry : OperationRegistry D C} {entry : Entry}

theorem OperationSlot.stage_of_ne {generation : Nat}
    (ne : generation ≠ slot.generation) : slot.stage free generation =
      if generation = 0 ∨ slot.generation < generation then .unborn else .gone := by
  unfold stage
  by_cases before : generation = 0 ∨ slot.generation < generation
  · simp [before]
  · have after : generation < slot.generation := by omega
    simp [after]

theorem OperationSlot.stage_self
    (positive : slot.generation ≠ 0) : slot.stage free slot.generation =
      match slot.operation with
      | some operation => operation.stage
      | none => if free then .unborn else .gone := by
  simp [stage, positive]

namespace OperationRegistry

variable {registry' : OperationRegistry D C} {slot' : OperationSlot D C}

theorem stage_eq (found : registry.slots[entry.slotIndex]? = some slot) :
    registry.stage entry = slot.stage (decide (entry.slotIndex ∈ registry.free))
      entry.generation := by
  simp [stage, found]

/-- Changes of one slot do not concern the operations in other slots. -/
theorem stage_of_slotIndex_ne
    (slots : registry'.slots[entry.slotIndex]? = registry.slots[entry.slotIndex]?)
    (free : entry.slotIndex ∈ registry'.free ↔ entry.slotIndex ∈ registry.free) :
    registry'.stage entry = registry.stage entry := by
  simp [stage, slots, free]

/-- The state of a slot does not concern the other generations of the slot. -/
theorem stage_of_ne (found : registry.slots[slotIndex]? = some slot)
    (found' : registry'.slots[slotIndex]? = some slot')
    (generation : slot'.generation = slot.generation)
    (slots : ∀ j, j ≠ slotIndex → registry'.slots[j]? = registry.slots[j]?)
    (free : ∀ j, j ≠ slotIndex → (j ∈ registry'.free ↔ j ∈ registry.free))
    (ne : entry ≠ registry.entryAt slotIndex) : registry'.stage entry = registry.stage entry := by
  by_cases same : entry.slotIndex = slotIndex
  · subst same
    have other : entry.generation ≠ slot.generation := by
      rintro generation
      exact ne (by simp [entryAt, found, ← generation])
    have other' : entry.generation ≠ slot'.generation := by rwa [generation]
    rw [stage_eq found', stage_eq found, stage_of_ne other, stage_of_ne other', generation]
  · exact stage_of_slotIndex_ne (slots _ same) (free _ same)

/-- A new occupant of a slot stands at its stage, and the other operations at theirs. -/
theorem stage_setOperation (found : registry.slots[slotIndex]? = some slot)
    (positive : slot.generation ≠ 0) :
    (registry.setOperation slotIndex (some operation)).stage (registry.entryAt slotIndex) =
        operation.stage ∧
      ∀ entry, entry ≠ registry.entryAt slotIndex →
        (registry.setOperation slotIndex (some operation)).stage entry = registry.stage entry := by
  have found' : (registry.setOperation slotIndex (some operation)).slots[slotIndex]? =
      some { slot with operation := some operation } := by
    exact getElem?_modify_self found
  constructor
  · rw [entryAt_eq found, stage_eq found', stage_self]
    exact positive
  · intro entry ne
    apply stage_of_ne found found' rfl _ (fun _ _ => Iff.rfl) ne
    intro j other
    exact getElem?_modify_ne _ _ (Ne.symm other)

/-- An occupied slot is not in the free list. -/
theorem WellFormed.not_free (wf : registry.WellFormed)
    (occupied : registry.operationAt slotIndex = some operation) : slotIndex ∉ registry.free := by
  intro mem
  obtain ⟨slot, found, vacant⟩ := wf.free_vacant slotIndex mem
  simp [operationAt, found, vacant] at occupied

section

variable (found : registry.slots[slotIndex]? = some slot)

include found

theorem slots_release :
    (registry.release slotIndex).slots = registry.slots.modify slotIndex fun slot' =>
      ⟨if slot.generation < maxGeneration then slot'.generation + 1 else slot'.generation,
        none⟩ := by
  unfold release
  rw [entryAt_eq found]
  by_cases reusable : slot.generation < maxGeneration
  · simp [reusable, setOperation, modify_modify_eq, Function.comp_def]
  · simp [reusable, setOperation]

theorem getElem?_release : (registry.release slotIndex).slots[slotIndex]? = some
      ⟨if slot.generation < maxGeneration then slot.generation + 1 else slot.generation, none⟩ := by
  rw [slots_release found, getElem?_modify_self found]

theorem getElem?_release_ne {j : Nat}
    (ne : slotIndex ≠ j) : (registry.release slotIndex).slots[j]? = registry.slots[j]? := by
  rw [slots_release found, getElem?_modify_ne _ _ ne]

theorem free_release : (registry.release slotIndex).free =
      if slot.generation < maxGeneration then slotIndex :: registry.free else registry.free := by
  unfold release
  rw [entryAt_eq found]
  split <;> rfl

end

theorem configuration_release : (registry.release slotIndex).tag = registry.tag ∧
    (registry.release slotIndex).maxPending = registry.maxPending := by
  unfold release
  split <;> exact ⟨rfl, rfl⟩

/-- The operation in a released slot is gone; the next generation is still to come. -/
theorem stage_release (wf : registry.WellFormed)
    (occupied : registry.operationAt slotIndex = some operation) :
    (registry.release slotIndex).stage (registry.entryAt slotIndex) = .gone ∧
      ∀ entry, entry ≠ registry.entryAt slotIndex →
        (registry.release slotIndex).stage entry = registry.stage entry := by
  obtain ⟨slot, found, -⟩ := exists_slot occupied
  have notFree := wf.not_free occupied
  have positive := (wf.generation found).1
  have found' := getElem?_release found
  have free := free_release found
  rw [entryAt_eq found]
  constructor
  · rw [stage_eq found']
    by_cases reusable : slot.generation < maxGeneration
    · simp [OperationSlot.stage, reusable, positive]
    · simp [OperationSlot.stage, reusable, positive, free, notFree]
  · intro entry ne
    by_cases same : entry.slotIndex = slotIndex
    · subst same
      have other : entry.generation ≠ slot.generation := by
        rintro generation
        exact ne (by rw [← generation])
      rw [stage_eq found', stage_eq found, OperationSlot.stage_of_ne other]
      by_cases reusable : slot.generation < maxGeneration
      · by_cases next : entry.generation = slot.generation + 1
        · simp [OperationSlot.stage, reusable, next, free]
        · have bounds : (entry.generation = 0 ∨ slot.generation + 1 < entry.generation) ↔
              (entry.generation = 0 ∨ slot.generation < entry.generation) := by omega
          simp only [reusable, if_true]
          rw [OperationSlot.stage_of_ne next]
          simp [bounds]
      · simp only [reusable]
        exact OperationSlot.stage_of_ne other
    · apply stage_of_slotIndex_ne
      · exact getElem?_release_ne found (Ne.symm same)
      · rw [free]
        split
        · simp [same]
        · rfl

end OperationRegistry

/-! ## Lives -/

/-- What happens to an operation up to a stage of its life. -/
inductive Life : List Happening → Stage → Prop where
  | unborn : Life [] .unborn
  | started (hasCleanup : Bool) : Life [.started hasCleanup] (.pending hasCleanup)
  | finished {hasCleanup : Bool} {happenings : List Happening} {status : OperationStatus} :
      Ending hasCleanup happenings status →
      Life (.started hasCleanup :: happenings) (.terminal status)
  | released {hasCleanup : Bool} {happenings : List Happening} {status : OperationStatus}
      {outcome : OperationOutcome} : Ending hasCleanup happenings status →
      status.terminalOutcome = some outcome →
      Life (.started hasCleanup :: happenings ++ [.released outcome]) .gone

/-- What happened to one operation. -/
def history (events : List OperationEvent) (entry : Entry) : List Happening :=
  events.filterMap fun event => if event.entry = entry then some event.happening else none

theorem history_append (events events' : List OperationEvent) (entry : Entry) :
    history (events ++ events') entry = history events entry ++ history events' entry :=
  filterMap_append

theorem history_map_mk (happenings : List Happening) (entry entry' : Entry) :
    history (happenings.map (OperationEvent.mk entry)) entry' =
      if entry' = entry then happenings else [] := by
  by_cases same : entry' = entry
  · subst same
    simp [history]
  · simp [history, Ne.symm same, same]

theorem mem_history {events : List OperationEvent} {happening : Happening} :
    happening ∈ history events entry ↔ ⟨entry, happening⟩ ∈ events := by
  simp only [history, mem_filterMap, ite_none_right_eq_some, some.injEq]
  constructor
  · rintro ⟨event, mem, rfl, rfl⟩
    exact mem
  · exact fun mem => ⟨_, mem, rfl, rfl⟩

variable {happenings : List Happening} {s t : RegistryState W D C}

/-- Something happens to one operation, and takes it to the next stage of its life. -/
theorem life_advance {registry registry' : OperationRegistry D C} {events : List OperationEvent}
    (life : ∀ entry, Life (history events entry) (registry.stage entry))
    (others : ∀ other, other ≠ entry → registry'.stage other = registry.stage other)
    (next : Life (history events entry) (registry.stage entry) →
        Life (history events entry ++ happenings) (registry'.stage entry)) (entry' : Entry) :
    Life (history (events ++ happenings.map (OperationEvent.mk entry)) entry')
      (registry'.stage entry') := by
  rw [history_append, history_map_mk]
  by_cases same : entry' = entry
  · subst same
    rw [if_pos rfl]
    exact next (life entry')
  · rw [if_neg same, append_nil, others entry' same]
    exact life entry'

/-! ## The ledger -/

/-- The history of every operation is its life up to the stage that the registry has it in. -/
structure Ledger (s : RegistryState W D C) : Prop where
  wellFormed : s.registry.WellFormed
  life : ∀ entry, Life (history s.events entry) (s.registry.stage entry)

namespace OperationRegistry.WellFormed

variable {operation' : OperationRecord D C}

/-- The number of pending operations after a slot has a new occupant. -/
theorem activeCount_setOperation (found : registry.slots[slotIndex]? = some slot) :
    (registry.setOperation slotIndex (some operation)).activeCount +
        (if slot.isPending then 1 else 0) =
      registry.activeCount + (if operation.status.isTerminal then 0 else 1) := by
  have count := countP_modify (p := isPending)
    (f := fun slot => { slot with operation := some operation }) found
  rw [activeCount, activeCount, slots_setOperation, count]
  cases terminal : operation.status.isTerminal <;> simp [isPending, terminal]

theorem setOperation (wf : registry.WellFormed) (found : registry.slots[slotIndex]? = some slot)
    (notFree : slotIndex ∉ registry.free)
    (room : (registry.setOperation slotIndex (some operation)).activeCount ≤ registry.maxPending) :
    (registry.setOperation slotIndex (some operation)).WellFormed where
  slots := by simpa [slots_setOperation] using wf.slots
  generations := by
    apply forall_mem_modify found wf.generations
    exact wf.generations slot (mem_of_getElem? found)
  free_nodup := wf.free_nodup
  free_vacant j mem := by
    have ne : slotIndex ≠ j := by
      rintro rfl
      exact notFree mem
    rw [slots_setOperation, getElem?_modify_ne _ _ ne]
    exact wf.free_vacant j mem
  pending := room

/-- An operation that does not become pending again keeps the registry well-formed. -/
theorem update (wf : registry.WellFormed)
    (occupied : registry.operationAt slotIndex = some operation)
    (status : operation'.status = operation.status ∨ operation'.status.isTerminal = true) :
    (registry.setOperation slotIndex (some operation')).WellFormed := by
  obtain ⟨slot, found, here⟩ := exists_slot occupied
  apply wf.setOperation found (wf.not_free occupied)
  have count : (registry.setOperation slotIndex (some operation')).activeCount +
      (if slot.isPending then 1 else 0) =
        registry.activeCount + (if operation'.status.isTerminal then 0 else 1) :=
    activeCount_setOperation found
  have pending := wf.pending
  rcases status with same | terminal
  · have slotPending : slot.isPending = !operation.status.isTerminal := by simp [isPending, here]
    rw [slotPending, same] at count
    cases terminal : operation.status.isTerminal <;> simp [terminal] at count <;> omega
  · simp only [terminal, if_true] at count
    omega

theorem release (wf : registry.WellFormed)
    (occupied : registry.operationAt slotIndex = some operation)
    (terminal : operation.status.isTerminal = true) : (registry.release slotIndex).WellFormed := by
  obtain ⟨slot, found, here⟩ := exists_slot occupied
  have generation := wf.generation found
  constructor
  · simpa [slots_release found] using wf.slots
  · rw [slots_release found]
    apply forall_mem_modify found wf.generations
    dsimp only
    split_ifs with reusable <;> omega
  · rw [free_release found]
    split_ifs with reusable
    · exact nodup_cons.mpr ⟨wf.not_free occupied, wf.free_nodup⟩
    · exact wf.free_nodup
  · intro j mem
    by_cases same : slotIndex = j
    · subst same
      exact ⟨_, getElem?_release found, rfl⟩
    · rw [getElem?_release_ne found same]
      apply wf.free_vacant j
      rw [free_release found] at mem
      split_ifs at mem with reusable
      · exact (mem_cons.mp mem).resolve_left (Ne.symm same)
      · exact mem
  · have count := countP_modify (p := isPending)
      (f := fun slot' => (⟨if slot.generation < maxGeneration then slot'.generation + 1
        else slot'.generation, none⟩ : OperationSlot D C)) found
    have settled : slot.isPending = false := by simp [isPending, here, terminal]
    rw [settled] at count
    have same : (registry.release slotIndex).activeCount = registry.activeCount := by
      rw [activeCount, activeCount, slots_release found]
      simpa [isPending] using count
    rw [same, configuration_release.2]
    exact wf.pending

end OperationRegistry.WellFormed

variable {outcome : OperationOutcome}

namespace Ledger

section

variable (ledger : Ledger s) (occupied : s.registry.operationAt slotIndex = some operation)

include ledger occupied

/-- The occupant of a slot stands at its stage. -/
theorem stage_occupied : s.registry.stage (s.registry.entryAt slotIndex) = operation.stage := by
  obtain ⟨slot, found, here⟩ := exists_slot occupied
  rw [entryAt_eq found, stage_eq found, stage_self (ledger.wellFormed.generation found).1, here]

/-- The occupant of a slot is replaced, and goes on with its life. -/
theorem withOperation {operation' : OperationRecord D C} {world : W}
    (status : operation'.status = operation.status ∨ operation'.status.isTerminal = true)
    (next : ∀ history, Life history operation.stage →
      Life (history ++ happenings) operation'.stage) :
    Ledger (s.withOperation slotIndex operation' world happenings) where
  wellFormed := ledger.wellFormed.update occupied status
  life := by
    obtain ⟨slot, found, -⟩ := exists_slot occupied
    obtain ⟨here, others⟩ := stage_setOperation found (ledger.wellFormed.generation found).1
    apply life_advance ledger.life others
    rw [here, ledger.stage_occupied occupied]
    exact next _

theorem released (outcome_eq : operation.status.terminalOutcome = some outcome) :
    Ledger (s.released slotIndex outcome) := by
  have terminal : operation.status.isTerminal = true := by
    cases status : operation.status with
    | pending => simp [status, terminalOutcome] at outcome_eq
    | completed | cancelled reason | failed error => rfl
  obtain ⟨here, others⟩ := stage_release ledger.wellFormed occupied
  have next : ∀ happenings, Life happenings (.terminal operation.status) →
      Life (happenings ++ [.released outcome]) .gone := by
    intro happenings life
    cases life with
    | finished ending => exact .released ending outcome_eq
  have advance : Life (history s.events (s.registry.entryAt slotIndex))
      (s.registry.stage (s.registry.entryAt slotIndex)) →
      Life (history s.events (s.registry.entryAt slotIndex) ++ [.released outcome])
        ((s.registry.release slotIndex).stage (s.registry.entryAt slotIndex)) := by
    rw [here, ledger.stage_occupied occupied, OperationRecord.stage_terminal terminal]
    exact next _
  exact ⟨ledger.wellFormed.release occupied terminal, life_advance ledger.life others advance⟩

end

/-- An operation is started in a slot that has been acquired for it. -/
theorem started (ledger : Ledger s) {registry : OperationRegistry D C} {slot : OperationSlot D C}
    (wf : registry.WellFormed) (found : registry.slots[slotIndex]? = some slot)
    (notFree : slotIndex ∉ registry.free) (pending : operation.status = .pending)
    (room : registry.activeCount < registry.maxPending)
    (unborn : s.registry.stage (registry.entryAt slotIndex) = .unborn)
    (others : ∀ entry, entry ≠ registry.entryAt slotIndex →
      registry.stage entry = s.registry.stage entry) :
    Ledger (({ s with registry } : RegistryState W D C).withOperation slotIndex operation s.world
      [.started operation.cleanup.isSome]) where
  wellFormed := by
    apply wf.setOperation found notFree
    have count : (registry.setOperation slotIndex (some operation)).activeCount +
        (if slot.isPending then 1 else 0) =
          registry.activeCount + (if operation.status.isTerminal then 0 else 1) :=
      WellFormed.activeCount_setOperation found
    simp only [pending, isTerminal, Bool.false_eq_true, if_false] at count
    omega
  life := by
    obtain ⟨here, stages⟩ := stage_setOperation found (wf.generation found).1
    have next : ∀ happenings, Life happenings .unborn →
        Life (happenings ++ [.started operation.cleanup.isSome]) operation.stage := by
      intro happenings life
      cases life with
      | unborn =>
        rw [OperationRecord.stage, pending]
        exact .started _
    apply life_advance ledger.life
    · intro entry ne
      exact (stages entry ne).trans (others entry ne)
    · change Life _ (s.registry.stage (registry.entryAt slotIndex)) →
        Life _ ((registry.setOperation slotIndex (some operation)).stage
          (registry.entryAt slotIndex))
      rw [unborn, here]
      exact next _

/-- **Every change keeps the ledger.** -/
theorem change (ledger : Ledger s) (change : Change s t) : Ledger t := by
  obtain ⟨wf, life⟩ := ledger
  cases change with
  | reuse free pending room =>
    rename_i slotIndex rest operation
    have nodup := wf.free_nodup
    rw [free, List.nodup_cons] at nodup
    obtain ⟨slot, found, vacant⟩ := wf.free_vacant slotIndex (by simp [free])
    have acquired : ({ s.registry with free := rest } : OperationRegistry D C).WellFormed :=
      ⟨wf.slots, wf.generations, nodup.2, fun j mem => wf.free_vacant j (by simp [free, mem]),
        wf.pending⟩
    have unborn : s.registry.stage (s.registry.entryAt slotIndex) = .unborn := by
      rw [OperationRegistry.entryAt_eq found, OperationRegistry.stage_eq found,
        stage_self (wf.generation found).1, vacant]
      simp [free]
    have others : ∀ entry, entry ≠ s.registry.entryAt slotIndex →
        ({ s.registry with free := rest } : OperationRegistry D C).stage entry =
          s.registry.stage entry := by
      intro entry ne
      have found' : ({ s.registry with free := rest } : OperationRegistry D C).slots[slotIndex]? =
          some slot := found
      apply OperationRegistry.stage_of_ne found found' rfl (fun _ _ => rfl) _ ne
      intro j other
      simp [free, other]
    exact started ⟨wf, life⟩ acquired found nodup.1 pending room unborn others
  | grow free slots pending room =>
    have found : (s.registry.slots ++ [(⟨1, none⟩ : OperationSlot D C)])[s.registry.slots.length]? =
        some ⟨1, none⟩ := by simp
    have missing : s.registry.slots[s.registry.slots.length]? = none := by simp
    have acquired : ({ s.registry with slots := s.registry.slots ++ [⟨1, none⟩] } :
        OperationRegistry D C).WellFormed := by
      constructor
      · simpa using Nat.succ_le_of_lt slots
      · intro slot mem
        rcases List.mem_append.mp mem with old | new
        · exact wf.generations slot old
        · rw [List.mem_singleton.mp new]
          exact (by decide : 1 ≠ 0 ∧ 1 ≤ maxGeneration)
      · exact wf.free_nodup
      · simp [free]
      · simpa [OperationRegistry.activeCount, isPending] using wf.pending
    have entryAt : ({ s.registry with slots := s.registry.slots ++ [⟨1, none⟩] } :
        OperationRegistry D C).entryAt s.registry.slots.length = _ :=
      OperationRegistry.entryAt_eq found
    apply started ⟨wf, life⟩ acquired found (by simp [free]) pending
    · simpa [OperationRegistry.activeCount, isPending] using room
    · rw [entryAt]
      simp [OperationRegistry.stage]
    · intro entry ne
      rw [entryAt] at ne
      by_cases same : entry.slotIndex = s.registry.slots.length
      · have other : entry.generation ≠ 1 := by
          rintro generation
          exact ne (by rw [← same, ← generation])
        have later : entry.generation = 0 ∨ 1 < entry.generation := by omega
        simp only [OperationRegistry.stage, same, found, missing]
        rw [stage_of_ne other, if_pos later]
      · apply OperationRegistry.stage_of_slotIndex_ne
        · rcases Nat.lt_or_gt_of_ne same with old | beyond
          · exact List.getElem?_append_left old
          · rw [List.getElem?_eq_none, List.getElem?_eq_none]
            · exact beyond.le
            · simpa using Nat.succ_le_of_lt beyond
        · exact Iff.rfl
  | touch driver world occupied =>
    rename_i slotIndex operation
    have same : ({ operation with driver } : OperationRecord D C).stage = operation.stage := rfl
    apply withOperation ⟨wf, life⟩ occupied (.inl (by rfl))
    intro history life
    rw [List.append_nil, same]
    exact life
  | finish driver world occupied pending ending =>
    apply withOperation ⟨wf, life⟩ occupied (.inr ending.isTerminal)
    intro history life
    rw [OperationRecord.stage_terminal ending.isTerminal]
    rw [OperationRecord.stage, pending] at life
    cases life with
    | started => exact .finished ending
  | release occupied terminal => exact released ⟨wf, life⟩ occupied terminal
  | sealed => exact ⟨{ wf with }, life⟩
  | world world => exact ⟨wf, life⟩

theorem changes (ledger : Ledger s) (changes : Changes s t) : Ledger t := by
  induction changes with
  | refl => exact ledger
  | tail _ last ih => exact ih.change last

end Ledger

/-! ## What a life contains -/

namespace Happening

def isStart : Happening → Bool
  | .started _ => true
  | _ => false

/-- The outcome that a cleanup ran with. -/
def cleanup? : Happening → Option OperationOutcome
  | .cleanup outcome _ => some outcome
  | _ => none

/-- The reason and the answer of a call of the cancel hook. -/
def cancel? : Happening → Option (OperationCancelReason × OperationResult Unit)
  | .cancel reason answer => some (reason, answer)
  | _ => none

end Happening

def cleanups (happenings : List Happening) : List OperationOutcome :=
  happenings.filterMap Happening.cleanup?

def cancels (happenings : List Happening) : List (OperationCancelReason × OperationResult Unit) :=
  happenings.filterMap Happening.cancel?

@[simp] theorem cancels_append (l l' : List Happening) :
    cancels (l ++ l') = cancels l ++ cancels l' := filterMap_append

/-- An operation that has come to its end was cleaned up once, if it has a cleanup, and its
cancel hook was called at most once. -/
structure Ended (hasCleanup : Bool) (status : OperationStatus) (happenings : List Happening) :
    Prop where
  cleanups : (cleanups happenings).length = if hasCleanup then 1 else 0
  cancels : (cancels happenings).length ≤ 1
  cancelled : ∀ reason, status = .cancelled reason → .cancel reason (.ok ()) ∈ happenings
  no_start : happenings.countP Happening.isStart = 0
  no_release : ∀ outcome, .released outcome ∉ happenings

variable {hasCleanup : Bool} {status : OperationStatus}

theorem Ending.ended (h : Ending hasCleanup happenings status) :
    Ended hasCleanup status happenings := by
  obtain ⟨request, cleaned⟩ := h
  cases request <;> cases cleaned <;>
    exact ⟨rfl, by first | exact Nat.zero_le 1 | exact le_rfl, by simp, rfl, by simp⟩

variable {stage : Stage}

/-- The facts about a life that the results below read. -/
theorem Life.started_once (life : Life happenings stage) : happenings.countP isStart ≤ 1 := by
  cases life with
  | unborn => exact Nat.zero_le _
  | started hasCleanup => exact le_rfl
  | finished ending | released ending outcome => simp [countP_cons, ending.ended.no_start, isStart]

theorem Life.released_gone (life : Life happenings stage)
    (released : .released outcome ∈ happenings) : stage = .gone := by
  cases life with
  | unborn | started hasCleanup => simp at released
  | finished ending => simp [ending.ended.no_release] at released
  | released ending outcome => rfl

theorem Life.unborn_iff (life : Life happenings stage) :
    stage = .unborn ↔ ∀ hasCleanup, .started hasCleanup ∉ happenings := by
  cases life with
  | unborn => simp
  | started hasCleanup => exact ⟨nofun, fun none => absurd mem_cons_self (none hasCleanup)⟩
  | finished ending | released ending outcome =>
    exact ⟨nofun, fun none => absurd mem_cons_self (none _)⟩

/-- A life has one start, so the start that is found in it is the first. -/
theorem Ended.eq_of_started {hasCleanup' : Bool} {rest : List Happening}
    (ended : Ended hasCleanup status happenings) (noStart : .started hasCleanup' ∉ rest)
    (start : .started hasCleanup' ∈ .started hasCleanup :: happenings ++ rest) :
    hasCleanup' = hasCleanup := by
  have others : .started hasCleanup' ∉ happenings := fun mem =>
    absurd rfl (countP_eq_zero.mp ended.no_start _ mem)
  simpa [others, noStart] using start

/-- The hooks that were called in the life of a started operation. -/
theorem Life.hooks (life : Life happenings stage) (start : .started hasCleanup ∈ happenings) :
    ((∃ b, stage = .pending b) → cleanups happenings = [] ∧ cancels happenings = []) ∧
      ((¬∃ b, stage = .pending b) → (cleanups happenings).length = if hasCleanup then 1 else 0) ∧
      (cancels happenings).length ≤ 1 := by
  cases life with
  | unborn => simp at start
  | started b => exact ⟨fun _ => ⟨rfl, rfl⟩, fun none => absurd ⟨b, rfl⟩ none, Nat.zero_le 1⟩
  | finished ending =>
    have ended := ending.ended
    obtain rfl := ended.eq_of_started not_mem_nil (by simpa using start)
    exact ⟨nofun, fun _ => ended.cleanups, ended.cancels⟩
  | released ending outcome =>
    have ended := ending.ended
    obtain rfl := ended.eq_of_started (by simp) start
    have noCleanup : ∀ happenings outcome, cleanups (happenings ++ [.released outcome]) =
        cleanups happenings := fun happenings outcome => by
      simp [cleanups, cleanup?]
    have noCancel : ∀ happenings outcome, cancels (happenings ++ [.released outcome]) =
        cancels happenings := fun happenings outcome => by
      simp [cancels, cancel?]
    rw [noCleanup, noCancel]
    exact ⟨nofun, fun _ => ended.cleanups, ended.cancels⟩

theorem OperationStatus.eq_cancelled
    (outcome : status.terminalOutcome = some (.cancelled reason)) : status = .cancelled reason := by
  cases status with
  | pending | completed | failed error => cases outcome
  | cancelled reason' =>
    cases outcome
    rfl

/-- An operation that shows as cancelled has had its cancel hook accept the reason. -/
theorem Life.cancelled (life : Life happenings (.terminal (.cancelled reason))) :
    .cancel reason (.ok ()) ∈ happenings := by
  cases life with
  | finished ending => exact mem_cons_of_mem _ (ending.ended.cancelled reason rfl)

/-! ## Runs of calls -/

theorem Change.events (change : Change s t) : ∃ new, t.events = s.events ++ new := by
  cases change with
  | reuse free pending room | grow free slots pending room | touch driver world occupied =>
    exact ⟨_, rfl⟩
  | finish driver world occupied pending ending | release occupied terminal => exact ⟨_, rfl⟩
  | sealed | world world => exact ⟨[], (append_nil _).symm⟩

/-- The configuration of the registry stays. -/
theorem Change.configuration (change : Change s t) :
    t.registry.tag = s.registry.tag ∧ t.registry.maxPending = s.registry.maxPending := by
  cases change with
  | release occupied terminal => exact configuration_release
  | _ => exact ⟨rfl, rfl⟩

theorem Changes.events (changes : Changes s t) : ∃ new, t.events = s.events ++ new := by
  induction changes with
  | refl => exact ⟨[], (append_nil _).symm⟩
  | tail _ last ih =>
    obtain ⟨new, events⟩ := ih
    obtain ⟨new', events'⟩ := last.events
    exact ⟨new ++ new', by rw [events', events, append_assoc]⟩

theorem Changes.mem_events (changes : Changes s t) {event : OperationEvent}
    (mem : event ∈ s.events) : event ∈ t.events := by
  obtain ⟨new, events⟩ := changes.events
  rw [events]
  exact mem_append_left _ mem

theorem Changes.configuration (changes : Changes s t) :
    t.registry.tag = s.registry.tag ∧ t.registry.maxPending = s.registry.maxPending := by
  induction changes with
  | refl => exact ⟨rfl, rfl⟩
  | tail _ last ih => exact ⟨last.configuration.1.trans ih.1, last.configuration.2.trans ih.2⟩

/-- An operation was started under the entry. -/
def Issued (s : RegistryState W D C) (entry : Entry) : Prop :=
  ∃ hasCleanup, ⟨entry, .started hasCleanup⟩ ∈ s.events

/-- The slot of the entry was released. -/
def Released (s : RegistryState W D C) (entry : Entry) : Prop :=
  ∃ outcome, ⟨entry, .released outcome⟩ ∈ s.events

namespace Ledger

theorem stage_located (ledger : Ledger s) (located : s.registry.Located id slotIndex operation) :
    s.registry.stage id.entry = operation.stage := by
  obtain ⟨-, -, entry, -⟩ := location_eq_ok_iff.mp located.located
  rw [← entry]
  exact ledger.stage_occupied located.occupied

/-- An id that is located has not been released. -/
theorem not_released (ledger : Ledger s) (located : s.registry.Located id slotIndex operation) :
    ¬Released s id.entry := by
  rintro ⟨outcome, mem⟩
  have gone := (ledger.life id.entry).released_gone (mem_history.mpr mem)
  rw [ledger.stage_located located, OperationRecord.stage] at gone
  split at gone <;> cases gone

/-- A new operation has an id that was never issued. -/
theorem opens_fresh (ledger : Ledger t) (opens : Opens id s t) :
    ¬Issued s id.entry ∧ Issued t id.entry := by
  obtain ⟨-, hasCleanup, events⟩ := opens
  constructor
  · rintro ⟨earlier, mem⟩
    have once := (ledger.life id.entry).started_once
    have first : 0 < (history s.events id.entry).countP isStart :=
      countP_pos_iff.mpr ⟨_, mem_history.mpr mem, rfl⟩
    have last : (history [⟨id.entry, .started hasCleanup⟩] id.entry).countP isStart = 1 := by
      simp [history, isStart]
    rw [events, history_append, countP_append, last] at once
    omega
  · exact ⟨hasCleanup, by simp [events]⟩

/-- The free list holds the vacant slots whose generation is still to be used. -/
theorem mem_free_iff (ledger : Ledger s) : slotIndex ∈ s.registry.free ↔
    ∃ slot, s.registry.slots[slotIndex]? = some slot ∧ slot.operation = none ∧
      ¬Issued s ⟨slotIndex, slot.generation⟩ := by
  have stage : ∀ slot, s.registry.slots[slotIndex]? = some slot → slot.operation = none →
      s.registry.stage ⟨slotIndex, slot.generation⟩ =
        if slotIndex ∈ s.registry.free then .unborn else .gone := by
    intro slot found vacant
    have positive := (ledger.wellFormed.generation found).1
    rw [stage_eq found, stage_self positive, vacant]
    simp
  have unborn : ∀ entry, s.registry.stage entry = .unborn ↔ ¬Issued s entry := by
    intro entry
    rw [(ledger.life entry).unborn_iff, Issued, not_exists]
    simp [mem_history]
  constructor
  · intro free
    obtain ⟨slot, found, vacant⟩ := ledger.wellFormed.free_vacant slotIndex free
    refine ⟨slot, found, vacant, (unborn _).mp ?_⟩
    rw [stage slot found vacant, if_pos free]
  · rintro ⟨slot, found, vacant, notIssued⟩
    have here := (unborn _).mpr notIssued
    rw [stage slot found vacant] at here
    by_contra notFree
    rw [if_neg notFree] at here
    cases here

end Ledger

/-- What a sequence of calls does: new ids were not issued before, an outcome that is handed
out is of an operation that was not released before, and what is shown was so. -/
structure RunSpec (s : RegistryState W D C)
    (transcript : List (RegistryCall W D C × RegistryReply)) (t : RegistryState W D C) : Prop where
  changes : Changes s t
  started : ∀ id ∈ transcript.filterMap startedId, ¬Issued s id.entry ∧ Issued t id.entry
  started_nodup : (transcript.filterMap startedId).Nodup
  handed : ∀ id outcome, (id, outcome) ∈ transcript.filterMap handedOut →
    ¬Released s id.entry ∧ ⟨id.entry, .released outcome⟩ ∈ t.events
  handed_nodup : ((transcript.filterMap handedOut).map Prod.fst).Nodup
  shown : ∀ id outcome, (id, outcome) ∈ transcript.filterMap reported → Shows id outcome s t

theorem Shows.mono {s' t' : RegistryState W D C} (before : Changes s' s)
    (h : Shows id outcome s t) (after : Changes t t') : Shows id outcome s' t' := by
  obtain ⟨u, slotIndex, operation, first, located, terminal, second⟩ := h
  exact ⟨u, slotIndex, operation, before.trans first, located, terminal, second.trans after⟩

/-- What is handed out was not released before, and is released then. -/
theorem HandsOut.released (h : HandsOut id outcome s t) (ledger : Ledger s) :
    ¬Released s id.entry ∧ ⟨id.entry, .released outcome⟩ ∈ t.events := by
  obtain ⟨u, slotIndex, operation, changes, located, terminal, rfl⟩ := h
  constructor
  · rintro ⟨outcome', mem⟩
    exact (ledger.changes changes).not_released located ⟨outcome', changes.mem_events mem⟩
  · obtain ⟨-, -, entry, -⟩ := location_eq_ok_iff.mp located.located
    simp [RegistryState.released, entry]

theorem Issued.changes (h : Issued s entry) (changes : Changes s t) : Issued t entry := by
  obtain ⟨hasCleanup, mem⟩ := h
  exact ⟨hasCleanup, changes.mem_events mem⟩

theorem Released.changes (h : Released s entry) (changes : Changes s t) : Released t entry := by
  obtain ⟨outcome, mem⟩ := h
  exact ⟨outcome, changes.mem_events mem⟩

/-- A call, and then other calls. -/
theorem RunSpec.cons {u : RegistryState W D C} {entry : RegistryCall W D C × RegistryReply}
    {transcript : List (RegistryCall W D C × RegistryReply)} (ledger : Ledger s)
    (first : CallSpec s entry u) (rest : RunSpec u transcript t) :
    RunSpec s (entry :: transcript) t := by
  have ledger' := ledger.changes first.changes
  have starts : ∀ id, startedId entry = some id → ¬Issued s id.entry ∧ Issued u id.entry :=
    fun id h => ledger'.opens_fresh (first.started id h)
  have hands : ∀ id outcome, handedOut entry = some (id, outcome) →
      ¬Released s id.entry ∧ ⟨id.entry, .released outcome⟩ ∈ u.events :=
    fun id outcome h => (first.handed id outcome h).released ledger
  refine ⟨first.changes.trans rest.changes, ?_, ?_, ?_, ?_, ?_⟩
  · intro id mem
    rcases mem_filterMap.mp mem with ⟨entry', here, h⟩
    rcases mem_cons.mp here with rfl | later
    · exact ⟨(starts id h).1, (starts id h).2.changes rest.changes⟩
    · have fresh := rest.started id (mem_filterMap.mpr ⟨entry', later, h⟩)
      exact ⟨fun issued => fresh.1 (issued.changes first.changes), fresh.2⟩
  · cases h : startedId entry with
    | none => simpa [h] using rest.started_nodup
    | some id =>
      rw [filterMap_cons, h]
      refine nodup_cons.mpr ⟨fun mem => ?_, rest.started_nodup⟩
      exact (rest.started id mem).1 (starts id h).2
  · intro id outcome mem
    rcases mem_filterMap.mp mem with ⟨entry', here, h⟩
    rcases mem_cons.mp here with rfl | later
    · exact ⟨(hands id outcome h).1, rest.changes.mem_events (hands id outcome h).2⟩
    · have fresh := rest.handed id outcome (mem_filterMap.mpr ⟨entry', later, h⟩)
      exact ⟨fun released => fresh.1 (released.changes first.changes), fresh.2⟩
  · cases h : handedOut entry with
    | none => simpa [h] using rest.handed_nodup
    | some handed =>
      obtain ⟨id, outcome⟩ := handed
      rw [filterMap_cons, h, map_cons]
      refine nodup_cons.mpr ⟨fun mem => ?_, rest.handed_nodup⟩
      obtain ⟨⟨id', outcome'⟩, later, rfl⟩ := mem_map.mp mem
      exact (rest.handed id' outcome' later).1 ⟨outcome, (hands id' outcome h).2⟩
  · intro id outcome mem
    rcases mem_filterMap.mp mem with ⟨entry', here, h⟩
    rcases mem_cons.mp here with rfl | later
    · exact (first.shown id outcome h).mono .refl rest.changes
    · exact (rest.shown id outcome (mem_filterMap.mpr ⟨entry', later, h⟩)).mono first.changes .refl

theorem runCalls_spec (hooks : HostOperation W D C) (calls : List (RegistryCall W D C))
    (ledger : Ledger s) :
    Ends (runCalls hooks calls) s fun transcript t => RunSpec s transcript t := by
  induction calls generalizing s with
  | nil => exact ⟨.refl, nofun, nodup_nil, nofun, nodup_nil, nofun⟩
  | cons call calls ih =>
    apply wp_bind.mpr
    apply (runCall_changes ledger.wellFormed).mono
    intro reply u first
    apply wp_bind.mpr
    apply (ih (ledger.changes first.changes)).mono
    intro transcript t rest
    exact .cons ledger first rest

/-! ## The two results -/

/-- A new registry, in some world. -/
def RegistryState.new (tag : RegistryTag) (maxPending : Nat) (world : W) : RegistryState W D C :=
  ⟨.new maxPending tag, world, []⟩

theorem ledger_new (tag : RegistryTag) (maxPending : Nat) (world : W) :
    Ledger (.new tag maxPending world : RegistryState W D C) where
  wellFormed := ⟨Nat.zero_le _, nofun, nodup_nil, nofun, Nat.zero_le _⟩
  life _ := .unborn

/-- **Operation ids never alias, and outcomes are delivered once.** After every sequence of
calls on a new registry: no call has panicked, the ids that were handed to callers are
distinct, an id whose slot was released is rejected by every call, the pending operations
keep to the configured limit, the free list holds every reusable slot once, and no id had
its outcome handed out twice. -/
theorem operation_ids_never_alias (hooks : HostOperation W D C) (tag : RegistryTag)
    (maxPending : Nat) (world : W) (calls : List (RegistryCall W D C)) :
    ∃ transcript t, runCalls hooks calls (.new tag maxPending world) = .ok transcript t ∧
      (transcript.filterMap startedId).Nodup ∧
      (∀ id, Released t id.entry → ∀ call : RegistryCall W D C, call.target = some id →
        ∃ reply error, runCall hooks call t = .ok reply t ∧ reply.rejection = some error) ∧
      t.registry.activeCount ≤ maxPending ∧
      t.registry.free.Nodup ∧
      (∀ slotIndex, slotIndex ∈ t.registry.free ↔
        ∃ slot, t.registry.slots[slotIndex]? = some slot ∧ slot.operation = none ∧
          ¬Issued t ⟨slotIndex, slot.generation⟩) ∧
      ((transcript.filterMap handedOut).map Prod.fst).Nodup ∧
      (∀ id outcome, (id, outcome) ∈ transcript.filterMap handedOut → Released t id.entry) := by
  have start := ledger_new (D := D) (C := C) tag maxPending world
  obtain ⟨transcript, t, result, spec⟩ := (runCalls_spec hooks calls start).exists_ok
  have ledger := start.changes spec.changes
  have limit := ledger.wellFormed.pending
  rw [spec.changes.configuration.2] at limit
  refine ⟨transcript, t, result, spec.started_nodup, ?_, limit, ledger.wellFormed.free_nodup,
    fun _ => ledger.mem_free_iff, spec.handed_nodup, ?_⟩
  · intro id released call target
    cases located : t.registry.location id with
    | ok slotIndex =>
      obtain ⟨operation, located⟩ := exists_located located
      exact absurd released (ledger.not_released located)
    | error error =>
      have rejects : Ends (runCall hooks call) t _ := runCall_unlocated target located
      obtain ⟨reply, t', ran, rejected, rfl⟩ := rejects.exists_ok
      exact ⟨reply, error, ran, rejected⟩
  · intro id outcome mem
    exact ⟨outcome, (spec.handed id outcome mem).2⟩

/-- The operation of the entry is in its slot, and is pending. -/
def OperationRegistry.PendingEntry (registry : OperationRegistry D C) (entry : Entry) : Prop :=
  registry.entryAt entry.slotIndex = entry ∧ registry.isPendingAt entry.slotIndex = true

theorem Ledger.pendingEntry_iff (ledger : Ledger s) :
    s.registry.PendingEntry entry ↔ ∃ hasCleanup, s.registry.stage entry = .pending hasCleanup := by
  constructor
  · rintro ⟨here, pending⟩
    unfold OperationRegistry.isPendingAt at pending
    cases occupied : s.registry.operationAt entry.slotIndex with
    | none => simp [occupied] at pending
    | some operation =>
      have status : operation.status = .pending :=
        OperationStatus.eq_pending (by simpa [occupied] using pending)
      have stage := ledger.stage_occupied occupied
      rw [here, OperationRecord.stage, status] at stage
      exact ⟨_, stage⟩
  · rintro ⟨hasCleanup, stage⟩
    cases found : s.registry.slots[entry.slotIndex]? with
    | none =>
      simp only [OperationRegistry.stage, found] at stage
      cases stage
    | some slot =>
      rw [OperationRegistry.stage_eq found] at stage
      by_cases same : entry.generation = slot.generation
      · have positive := (ledger.wellFormed.generation found).1
        rw [same, stage_self positive] at stage
        refine ⟨by simp [OperationRegistry.entryAt, found, ← same], ?_⟩
        cases occupied : slot.operation with
        | none =>
          rw [occupied] at stage
          dsimp only at stage
          split at stage <;> cases stage
        | some operation =>
          rw [occupied] at stage
          have status : operation.status.isTerminal = false := by
            by_contra terminal
            dsimp only at stage
            rw [OperationRecord.stage_terminal (by simpa using terminal)] at stage
            cases stage
          simp [OperationRegistry.isPendingAt, OperationRegistry.operationAt, found, occupied,
            status]
      · rw [stage_of_ne same] at stage
        split at stage <;> cases stage

/-- **Each operation is cleaned up exactly once.** After every sequence of calls on a new
registry, whatever the drivers and the cleanups answer: while a started operation is
pending, neither its cleanup nor its cancel hook has been called; once it is not pending any
more, its cleanup has run once, if it has one; its cancel hook was called at most once; an
operation that was reported as cancelled for a reason had its one call of the cancel hook
made for that reason and accepted; and a call with an id that is not located changes
nothing. -/
theorem operations_cleaned_once (hooks : HostOperation W D C) (tag : RegistryTag)
    (maxPending : Nat) (world : W) (calls : List (RegistryCall W D C)) :
    ∃ transcript t, runCalls hooks calls (.new tag maxPending world) = .ok transcript t ∧
      (∀ entry hasCleanup, ⟨entry, .started hasCleanup⟩ ∈ t.events →
        (t.registry.PendingEntry entry → cleanups (history t.events entry) = [] ∧
          cancels (history t.events entry) = []) ∧
        (¬t.registry.PendingEntry entry →
          (cleanups (history t.events entry)).length = if hasCleanup then 1 else 0) ∧
        (cancels (history t.events entry)).length ≤ 1) ∧
      (∀ id reason, (id, .cancelled reason) ∈ transcript.filterMap reported →
        cancels (history t.events id.entry) = [(reason, .ok ())]) ∧
      (∀ id error, t.registry.location id = .error error →
        ∀ call : RegistryCall W D C, call.target = some id →
          ∃ reply, runCall hooks call t = .ok reply t) := by
  have start := ledger_new (D := D) (C := C) tag maxPending world
  obtain ⟨transcript, t, result, spec⟩ := (runCalls_spec hooks calls start).exists_ok
  have ledger := start.changes spec.changes
  have started : ∀ entry hasCleanup, ⟨entry, .started hasCleanup⟩ ∈ t.events → _ :=
    fun entry hasCleanup mem => (ledger.life entry).hooks (mem_history.mpr mem)
  refine ⟨transcript, t, result, ?_, ?_, ?_⟩
  · intro entry hasCleanup mem
    rw [ledger.pendingEntry_iff]
    exact started entry hasCleanup mem
  · intro id reason mem
    obtain ⟨u, slotIndex, operation, first, located, outcome, second⟩ := spec.shown id _ mem
    have status := eq_cancelled outcome
    have life := (start.changes first).life id.entry
    rw [(start.changes first).stage_located located, OperationRecord.stage, status] at life
    have accepted : (reason, .ok ()) ∈ cancels (history t.events id.entry) :=
      mem_filterMap.mpr
        ⟨_, mem_history.mpr (second.mem_events (mem_history.mp life.cancelled)), rfl⟩
    obtain ⟨hasCleanup, begun⟩ : ∃ hasCleanup, .started hasCleanup ∈ history u.events id.entry := by
      by_contra none
      exact absurd (life.unborn_iff.mpr (not_exists.mp none)) nofun
    have once := (started id.entry hasCleanup (second.mem_events (mem_history.mp begun))).2.2
    obtain ⟨call, only⟩ := length_eq_one_iff.mp (le_antisymm once (length_pos_of_mem accepted))
    rw [only, mem_singleton] at accepted
    rw [only, accepted]
  · intro id error unlocated call target
    have rejects : Ends (runCall hooks call) t _ := runCall_unlocated target unlocated
    obtain ⟨reply, t', ran, -, rfl⟩ := rejects.exists_ok
    exact ⟨reply, ran⟩

end RustScript.Operation
