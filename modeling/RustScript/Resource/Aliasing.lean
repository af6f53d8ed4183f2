import RustScript.Resource.Effects

/-!
# Resource handles never alias

The slots of a table form a generational arena (`ResourceTable.arena`), and every
effect of an operation is a step of that arena (`Effect.arenaStep`).  So a table
stays well formed, a name is handed out once, and a name whose resource is gone
does not come back.

Tables live side by side in a process that gives each of them an arena identity
of its own (`Process`).  `handles_never_alias` puts the parts together: along every
run of any number of tables, with any hooks, all inserted handles are distinct,
and a handle resolves only in the table it came from and only until its resource
is gone.
-/

namespace RustScript.Resource

variable {W R : Type}

/-! ## The arena of a table -/

def ResourceSlot.arenaSlot (slot : ResourceSlot R) : ArenaSlot :=
  ⟨slot.generation, !slot.state.isVacant⟩

variable {type : ResourceType} {value : R} {table' table : ResourceTable R} {slotIndex : Nat}

namespace ResourceTable

def arena (table : ResourceTable R) : Arena where
  slots := table.slots.map ResourceSlot.arenaSlot
  vacant := table.vacantSlots
  active := table.activeEntries

theorem getElem?_arena (slotIndex : Nat) :
    table.arena.slots[slotIndex]? = (table.slots[slotIndex]?).map ResourceSlot.arenaSlot :=
  List.getElem?_map ..

theorem reusable_arena_iff {limit : Nat} : table.arena.Reusable limit slotIndex ↔
    ∃ slot, table.slots[slotIndex]? = some slot ∧ slot.state.isVacant = true ∧
      slot.generation < limit := by
  cases found : table.slots[slotIndex]? with
  | none => simp [Arena.Reusable, getElem?_arena, found]
  | some slot => simp [Arena.Reusable, getElem?_arena, found, ResourceSlot.arenaSlot]

variable {state : SlotState R} {slot : ResourceSlot R} {entry : Entry}

/-- An occupied slot that stays occupied is the same to the arena. -/
theorem arena_setState (occupied : (table.stateAt slotIndex).isVacant = false)
    (stays : state.isVacant = false) : (table.setState slotIndex state).arena = table.arena := by
  have slots : (table.slots.modify slotIndex fun slot => { slot with state }).map
      ResourceSlot.arenaSlot = table.slots.map ResourceSlot.arenaSlot := by
    rw [Arena.map_modify (h := id)]
    · exact List.modify_id ..
    · intro slot found
      simp only [stateAt, found] at occupied
      simp [ResourceSlot.arenaSlot, stays, occupied]
  simp [arena, slots]

theorem occupied_at (at' : table.stateAt slotIndex = state)
    (occupied : state.isVacant = false) : (table.stateAt slotIndex).isVacant = false :=
  at' ▸ occupied

theorem exists_slot (at' : table.stateAt slotIndex = state) (occupied : state.isVacant = false) :
    ∃ slot, table.slots[slotIndex]? = some slot ∧ slot.state = state := by
  cases found : table.slots[slotIndex]? with
  | none => simp [← at', stateAt, found, SlotState.isVacant] at occupied
  | some slot => exact ⟨slot, rfl, by simp [← at', stateAt, found]⟩

theorem arena_found (found : table.slots[slotIndex]? = some slot) :
    table.arena.slots[slotIndex]? = some slot.arenaSlot := by
  rw [getElem?_arena, found]
  rfl

theorem arena_reclaim (found : table.slots[slotIndex]? = some slot) :
    (table.reclaim slotIndex).arena = table.arena.release maxHandleGeneration slotIndex := by
  have slots : (table.slots.modify slotIndex fun slot => { slot with state := .vacant }).map
      ResourceSlot.arenaSlot = (table.slots.map ResourceSlot.arenaSlot).modify slotIndex
        fun slot => { slot with occupied := false } := by
    apply Arena.map_modify
    simp [ResourceSlot.arenaSlot, SlotState.isVacant]
  have generation : (table.entryAt slotIndex).generation = slot.generation := by
    simp [entryAt, found]
  simp [reclaim, arena, Arena.release, slots, generation, found, ResourceSlot.arenaSlot]

/-- **Placing a resource** uses the head of the free list under its next generation, or
adds a slot. -/
theorem place_cases (placed : table.place type value = .ok (entry, table')) :
    table'.arenaId = table.arenaId ∧
      ((∃ rest, table.vacantSlots = entry.slotIndex :: rest ∧
          entry.generation = (table.entryAt entry.slotIndex).generation + 1 ∧
          table'.slots.length = table.slots.length ∧
          table'.arena = table.arena.reuse entry.slotIndex rest) ∨
        (entry = ⟨table.slots.length, 1⟩ ∧ table.slots.length < maxResourceSlots ∧
          table'.slots.length = table.slots.length + 1 ∧ table'.arena = table.arena.grow)) := by
  rcases place_eq_ok placed with ⟨rest, free, next, rfl⟩ | ⟨free, room, rfl, rfl⟩
  · refine ⟨rfl, .inl ⟨rest, free, next, List.length_modify .., ?_⟩⟩
    simp only [arena, Arena.reuse]
    rw [Arena.map_modify (h := fun slot => ⟨slot.generation + 1, true⟩)]
    intro slot found
    simp [ResourceSlot.arenaSlot, SlotState.isVacant, next, entryAt, found]
  · refine ⟨rfl, .inr ⟨rfl, room, by simp, ?_⟩⟩
    simp [arena, Arena.grow, ResourceSlot.arenaSlot, SlotState.isVacant]

/-- The new occupant is open under its name, and no other slot changes. -/
theorem place_slots (placed : table.place type value = .ok (entry, table')) :
    (∀ j, j ≠ entry.slotIndex → table'.slots[j]? = table.slots[j]?) ∧
      ∀ slot, table'.slots[entry.slotIndex]? = some slot →
        slot.generation = entry.generation ∧ slot.state = .open value := by
  rcases place_eq_ok placed with ⟨rest, free, next, rfl⟩ | ⟨free, room, rfl, rfl⟩
  · constructor
    · intro j ne
      simp [Ne.symm ne]
    · intro slot found
      simp only [List.getElem?_modify_eq, Option.map_eq_map, Option.map_eq_some_iff] at found
      obtain ⟨old, -, rfl⟩ := found
      exact ⟨rfl, rfl⟩
  · constructor
    · intro j ne
      by_cases inside : j < table.slots.length
      · simp [List.getElem?_append, inside]
      · have beyond : j - table.slots.length ≠ 0 := by
          have : j ≠ table.slots.length := ne
          omega
        simp [List.getElem?_append, beyond]
    · intro slot found
      obtain rfl : _ = slot := by simpa using found
      exact ⟨rfl, rfl⟩

/-! ## The invariant -/

/-- What holds of every table. -/
structure Invariant (table : ResourceTable R) : Prop where
  arena : table.arena.WellFormed maxHandleGeneration
  arenaId : table.arenaId ≠ 0 ∧ table.arenaId ≤ maxHandleArenaId
  slots : table.slots.length ≤ maxResourceSlots

end ResourceTable

open ResourceTable List Option TableState ResourceHandle

/-- What an effect does to the names of a table, to its identity and to its size. -/
structure Keeps (table table' : ResourceTable R) : Prop where
  arena : table.arena.Step maxHandleGeneration table'.arena
  arenaId : table'.arenaId = table.arenaId
  slots : table.slots.length ≤ maxResourceSlots → table'.slots.length ≤ maxResourceSlots

variable {handle : ResourceHandle}

theorem Keeps.setState {state : SlotState R} (occupied : (table.stateAt slotIndex).isVacant = false)
    (stays : state.isVacant = false) :
    Keeps table (table.setState slotIndex state) where
  arena := arena_setState occupied stays ▸ .stay
  arenaId := rfl
  slots := by simp

theorem Keeps.reclaim (occupied : (table.stateAt slotIndex).isVacant = false) :
    Keeps table (table.reclaim slotIndex) := by
  obtain ⟨slot, found, state⟩ := exists_slot rfl occupied
  exact
    { arena := by
        rw [arena_reclaim found]
        exact .release (arena_found found) (by simp [ResourceSlot.arenaSlot, state, occupied])
      arenaId := rfl
      slots := by simp [ResourceTable.reclaim] }

variable {s : TableState W R} {hooks : HostResource W R} {s' : TableState W R} {typeId : TypeId}

theorem Effect.keeps (effect : Effect hooks s s') : Keeps s.table s'.table := by
  cases effect with
  | insert placed =>
    obtain ⟨arenaId, ⟨rest, free, -, length, arena⟩ | ⟨-, room, length, arena⟩⟩ :=
      place_cases placed
    · exact ⟨arena ▸ .reuse free, arenaId, fun h => length ▸ h⟩
    · exact ⟨arena ▸ .grow, arenaId, fun _ => by simp only [withTable_table]; omega⟩
  | update resource' at' => exact .setState (occupied_at at' rfl) rfl
  | take at' => exact .reclaim (occupied_at at' rfl)
  | @beginClose slotIndex resource resource' reason answer world table at' called next =>
    have occupied := occupied_at at' rfl
    rcases answer with error | (_ | _)
    · rcases next with rfl | rfl
      · exact .setState occupied rfl
      · exact .reclaim occupied
    · rcases next with rfl | rfl <;> exact .reclaim occupied
    · rcases next with rfl | rfl <;> exact .setState occupied rfl
  | @pollClose slotIndex resource resource' answer world at' called =>
    have occupied := occupied_at at' rfl
    cases answer with
    | ready result => exact .reclaim occupied
    | pending => exact .setState occupied rfl
  | sweepState closeAll => exact ⟨.stay, rfl, fun h => h⟩

theorem Effects.wellFormed (effects : Effects hooks s s')
    (wf : s.table.arena.WellFormed maxHandleGeneration) :
    s'.table.arena.WellFormed maxHandleGeneration := by
  induction effects with
  | refl => exact wf
  | tail _ effect ih => exact effect.keeps.arena.wellFormed (by decide) ih

/-- A later state of the same table. -/
structure Descends (table table' : ResourceTable R) : Prop where
  invariant : table'.Invariant
  evolves : table.arena.Evolves table'.arena
  arenaId : table'.arenaId = table.arenaId

theorem Keeps.descends (keeps : Keeps table table') (inv : table.Invariant) :
    Descends table table' where
  invariant :=
    { arena := keeps.arena.wellFormed (by decide) inv.arena
      arenaId := keeps.arenaId ▸ inv.arenaId
      slots := keeps.slots inv.slots }
  evolves := keeps.arena.evolves inv.arena
  arenaId := keeps.arenaId

/-- **Every operation keeps the invariant and issues or retires names only.** -/
theorem Effects.descends (effects : Effects hooks s s')
    (inv : s.table.Invariant) : Descends s.table s'.table := by
  induction effects with
  | refl => exact ⟨inv, .refl _, rfl⟩
  | tail _ effect ih =>
    have next := effect.keeps.descends ih.invariant
    exact ⟨next.invariant, ih.evolves.trans next.evolves, next.arenaId.trans ih.arenaId⟩

/-! ## Handles and names -/

def SlotState.resource? : SlotState R → Option R
  | .vacant => none
  | .open resource => some resource
  | .closing resource => some resource

/-- The resource that a handle resolves to. -/
def ResourceTable.denoted (table : ResourceTable R) (handle : ResourceHandle) : Option R :=
  match table.resolveIndex handle with
  | .ok slotIndex => (table.stateAt slotIndex).resource?
  | .error _ => none

theorem resolveIndex_eq_ok :
    table.resolveIndex handle = .ok slotIndex ↔ handle.arenaId = table.arenaId ∧
      handle.slotIndex = slotIndex ∧
      ∃ slot, table.slots[slotIndex]? = some slot ∧ slot.generation = handle.generation := by
  unfold resolveIndex
  by_cases arena : handle.arenaId = table.arenaId
  · cases found : table.slots[handle.slotIndex]? with
    | none =>
      simp only [arena, ne_eq, true_and]
      constructor
      · exact nofun
      · rintro ⟨rfl, slot, found', _⟩
        simp [found] at found'
    | some slot =>
      by_cases same : slot.generation = handle.generation
      · simp only [arena, same, ne_eq, not_true_eq_false, if_false, true_and, pure, Except.pure,
          Except.ok.injEq]
        constructor
        · rintro rfl
          exact ⟨rfl, slot, found, same⟩
        · exact fun h => h.1
      · simp only [arena, same, ne_eq, true_and]
        constructor
        · exact nofun
        · rintro ⟨rfl, slot', found', same'⟩
          rw [found] at found'
          obtain rfl := some.inj found'
          exact absurd same' same
  · simp only [arena, ne_eq, false_and, iff_false]
    exact nofun

/-- **A handle resolves exactly while its name is live.** -/
theorem denoted_isSome_iff : (table.denoted handle).isSome = true ↔ handle.arenaId = table.arenaId ∧
      table.arena.Live handle.slotIndex handle.generation := by
  unfold ResourceTable.denoted
  cases resolved : table.resolveIndex handle with
  | ok slotIndex =>
    obtain ⟨arena, rfl, slot, found, generation⟩ := resolveIndex_eq_ok.mp resolved
    simp only [Arena.Live, getElem?_arena, found, ResourceTable.stateAt, arena]
    cases state : slot.state with
    | vacant => simp [ResourceSlot.arenaSlot, state, SlotState.resource?, SlotState.isVacant]
    | «open» resource | closing resource =>
      simp [ResourceSlot.arenaSlot, state, SlotState.resource?, SlotState.isVacant, generation]
  | error error =>
    simp only [isSome_none, Bool.false_eq_true, false_iff]
    rintro ⟨arena, live⟩
    obtain ⟨slot, found, generation, _⟩ := live
    rw [getElem?_arena] at found
    obtain ⟨slot', found', rfl⟩ := map_eq_some_iff.mp found
    have ok := resolveIndex_eq_ok.mpr ⟨arena, rfl, slot', found', generation⟩
    rw [resolved] at ok
    cases ok

theorem denoted_eq_none_iff :
    table.denoted handle = none ↔ (handle.arenaId = table.arenaId →
      ¬table.arena.Live handle.slotIndex handle.generation) := by
  rw [← not_isSome_iff_eq_none, denoted_isSome_iff, not_and]

/-! ## Disposing of a resource -/

/-- The handle whose resource an operation removed from the table. -/
def disposal : TableOp R × TableReply R → Option ResourceHandle
  | (.take _ handle, .resource (.ok _)) => some handle
  | (.beginClose _ handle _, .progress (.ok .ready)) => some handle
  | (.pollClose _ handle, .poll (.ready (.ok _))) => some handle
  | _ => none

theorem checked_eq_ok (checked : table.checked typeId handle = .ok slotIndex) :
    table.resolveIndex handle = .ok slotIndex ∧
      table.checkType typeId slotIndex handle = .ok () := by
  simp only [ResourceTable.checked, bind, Except.bind] at checked
  cases resolved : table.resolveIndex handle with
  | error error => simp [resolved] at checked
  | ok index =>
    simp only [resolved] at checked
    cases typed : table.checkType typeId index handle with
    | error error => simp [typed] at checked
    | ok _ =>
      simp only [typed, pure, Except.pure, Except.ok.injEq] at checked
      subst checked
      exact ⟨rfl, typed⟩

theorem slotIndex_of_checked
    (checked : table.checked typeId handle = .ok slotIndex) : slotIndex = handle.slotIndex :=
  (resolveIndex_eq_ok.mp (checked_eq_ok checked).1).2.1.symm

theorem denoted_reclaim : (table.reclaim handle.slotIndex).denoted handle = none := by
  rw [denoted_eq_none_iff]
  rintro - ⟨slot, found, -, occupied⟩
  rw [getElem?_arena] at found
  obtain ⟨slot', found', rfl⟩ := Option.map_eq_some_iff.mp found
  simp only [ResourceTable.reclaim, slots_setState, List.getElem?_modify_eq,
    Option.map_eq_map, Option.map_eq_some_iff] at found'
  obtain ⟨old, -, rfl⟩ := found'
  simp [ResourceSlot.arenaSlot, SlotState.isVacant] at occupied

/-- **A taken or closed resource is gone**: its handle no longer resolves. -/
theorem disposal_gone {op : TableOp R}
    (disposed : disposal (op, (runOp hooks op s).1) = some handle) :
    (runOp hooks op s).2.table.denoted handle = none := by
  cases op with
  | take typeId handle' =>
    simp only [runOp, run_map] at disposed ⊢
    cases checked : s.table.checked typeId handle' with
    | error error => simp [take_error checked, disposal] at disposed
    | ok slotIndex =>
      cases at' : s.table.stateAt slotIndex with
      | «open» resource =>
        rw [take_open checked at'] at disposed ⊢
        obtain rfl : handle' = handle := by simpa [disposal] using disposed
        rw [withTable_table, slotIndex_of_checked checked]
        exact denoted_reclaim
      | _ => simp [take_other checked, at', SlotState.isOpen, disposal] at disposed
  | beginClose typeId handle' reason =>
    simp only [runOp, run_map] at disposed ⊢
    cases checked : s.table.checked typeId handle' with
    | error error => simp [beginClose_error checked, disposal] at disposed
    | ok slotIndex =>
      rw [beginClose_checked checked] at disposed ⊢
      cases at' : s.table.stateAt slotIndex with
      | «open» resource =>
        generalize called : hooks.beginClose resource reason s.world = out
        obtain ⟨answer, resource', world⟩ := out
        rw [closeOpenSlot_open at' called] at disposed ⊢
        rcases answer with error | (_ | _)
        · simp [disposal] at disposed
        · obtain rfl : handle' = handle := by simpa [disposal] using disposed
          rw [withTable_table, slotIndex_of_checked checked]
          exact denoted_reclaim
        · simp [disposal] at disposed
      | closing resource => simp [closeOpenSlot_closing at', disposal] at disposed
      | vacant => simp [closeOpenSlot_vacant at', disposal] at disposed
  | pollClose typeId handle' =>
    simp only [runOp, run_map] at disposed ⊢
    cases checked : s.table.checked typeId handle' with
    | error error => simp [pollClose_error checked, disposal] at disposed
    | ok slotIndex =>
      cases at' : s.table.stateAt slotIndex with
      | closing resource =>
        generalize called : hooks.pollClose resource s.world = out
        obtain ⟨answer, resource', world⟩ := out
        rw [pollClose_closing checked at' called] at disposed ⊢
        rcases answer with (error | _) | _
        · simp [disposal] at disposed
        · obtain rfl : handle' = handle := by simpa [disposal] using disposed
          rw [withTable_table, slotIndex_of_checked checked]
          exact denoted_reclaim
        · simp [disposal] at disposed
      | «open» resource => simp [pollClose_open checked at', disposal] at disposed
      | vacant => simp [pollClose_vacant checked at', disposal] at disposed
  | _ => simp [disposal] at disposed

/-- A placement issues a name that was not issued before. -/
theorem place_issues {entry : Entry} (wf : table.arena.WellFormed maxHandleGeneration)
    (placed : table.place type value = .ok (entry, table')) :
    ¬table.arena.Issued entry.slotIndex entry.generation ∧
      table'.arena.Issued entry.slotIndex entry.generation := by
  obtain ⟨-, ⟨rest, free, next, -, arena⟩ | ⟨rfl, -, -, arena⟩⟩ := place_cases placed
  · obtain ⟨slot, found, -⟩ := (wf.vacant entry.slotIndex).mp (by
      simp [ResourceTable.arena, free])
    have generation : (table.entryAt entry.slotIndex).generation = slot.generation := by
      rw [getElem?_arena] at found
      obtain ⟨slot', found', rfl⟩ := map_eq_some_iff.mp found
      simp [ResourceTable.entryAt, found', ResourceSlot.arenaSlot]
    rw [next, generation, arena]
    exact ⟨Arena.not_issued_next found, (Arena.issued_reuse found).mpr (.inr ⟨rfl, rfl⟩)⟩
  · have length : table.slots.length = table.arena.slots.length := by simp [ResourceTable.arena]
    rw [arena]
    exact ⟨length ▸ Arena.not_issued_length, Arena.issued_grow.mpr (.inr ⟨length, rfl⟩)⟩

/-- An insertion issues a name that was not issued before. -/
theorem push_issues (inv : s.table.Invariant) (pushed : (push type value s).1 = .ok handle) :
    handle.arenaId = s.table.arenaId ∧ ¬s.table.arena.Issued handle.slotIndex handle.generation ∧
      (push type value s).2.table.arena.Issued handle.slotIndex handle.generation := by
  simp only [push, run_bind, run_getTable] at pushed ⊢
  cases placed : s.table.place type value with
  | error error => simp [placed] at pushed
  | ok placement =>
    obtain ⟨entry, table⟩ := placement
    simp only [placed, run_bind] at pushed ⊢
    cases encoded : encode table.arenaId entry.slotIndex entry.generation with
    | none => simp [encoded] at pushed
    | some handle' =>
      simp only [encoded, run_pure, Except.ok.injEq] at pushed
      subst pushed
      obtain ⟨-, arenaId, slotIndex, generation⟩ :=
        encode_eq_some_iff.mp encoded
      rw [slotIndex, generation]
      exact ⟨arenaId.trans (place_cases placed).1, place_issues inv.arena placed⟩

/-! ## Tables side by side -/

/-- The tables of a process, which share the source of arena identities and the world. -/
structure Process (W R : Type) where
  nextArenaId : Nat
  tables : List (ResourceTable R)
  world : W

def allocateArenaId (next : Nat) : ResourceResult (Nat × Nat) :=
  if next ≤ maxHandleArenaId then return (next, next + 1)
  else throw (.new .resourceTableArenaExhausted "resource::table"
    "resource table arena identity space is exhausted")

def ResourceTable.withLimit (maxEntries next : Nat) : ResourceResult (ResourceTable R × Nat) := do
  if maxEntries = 0 ∨ maxResourceSlots < maxEntries then
    throw ((ResourceError.new .invalidConfiguration "resource::table"
      s!"resource table capacity must be between 1 and {maxResourceSlots}").withLimit
        maxResourceSlots)
  let (arenaId, next) ← allocateArenaId next
  return (.fresh arenaId maxEntries, next)

inductive ProcessOp (W R : Type) where
  | withLimit (maxEntries : Nat)
  | table (index : Nat) (op : TableOp R)
  /-- Something happens outside the tables. -/
  | elapse (world : W)

inductive ProcessReply (R : Type) where
  | created (result : ResourceResult Nat)
  | table (reply : TableReply R)
  | none

namespace Process

variable (hooks : HostResource W R)

def step (p : Process W R) : ProcessOp W R → ProcessReply R × Process W R
  | .withLimit maxEntries =>
    match ResourceTable.withLimit maxEntries p.nextArenaId with
    | .error error => (.created (.error error), p)
    | .ok (table, next) => (.created (.ok p.tables.length),
        { p with nextArenaId := next, tables := p.tables ++ [table] })
  | .table index op =>
    match p.tables[index]? with
    | none => (.none, p)
    | some table =>
      let (reply, s) := runOp hooks op ⟨table, p.world, []⟩
      (.table reply, { p with tables := p.tables.set index s.table, world := s.world })
  | .elapse world => (.none, { p with world })

abbrev Trace (W R : Type) := List (ProcessOp W R × ProcessReply R)

/-- The replies of a list of operations, and the state behind them. -/
def run (p : Process W R) : List (ProcessOp W R) → Trace W R × Process W R
  | [] => ([], p)
  | op :: ops =>
    let (reply, p) := p.step hooks op
    let (trace, p) := run p ops
    ((op, reply) :: trace, p)

def start (world : W) : Process W R := ⟨1, [], world⟩

/-- The handle that an operation inserted, and the table it was inserted into. -/
def insertion : ProcessOp W R × ProcessReply R → Option (Nat × ResourceHandle)
  | (.table index (.push _ _), .table (.handle (.ok handle))) => some (index, handle)
  | _ => none

def insertions (trace : Trace W R) : List (Nat × ResourceHandle) := trace.filterMap insertion

/-! ## Runs of a process -/

structure Invariant (p : Process W R) : Prop where
  tables : ∀ table ∈ p.tables, table.Invariant
  distinct : ∀ {i j : Nat} {table table' : ResourceTable R}, p.tables[i]? = some table →
    p.tables[j]? = some table' → table.arenaId = table'.arenaId → i = j
  issued : ∀ table ∈ p.tables, table.arenaId < p.nextArenaId
  next : p.nextArenaId ≠ 0

/-- Every table is still there, in a later state. -/
def Follows (p p' : Process W R) : Prop :=
  ∀ (index : Nat) (table : ResourceTable R), p.tables[index]? = some table →
    ∃ table', p'.tables[index]? = some table' ∧ Descends table table'

/-- The handle was issued by the table at the index. -/
def Recorded (p : Process W R) (index : Nat) (handle : ResourceHandle) : Prop :=
  ∃ table, p.tables[index]? = some table ∧ handle.arenaId = table.arenaId ∧
    table.arena.Issued handle.slotIndex handle.generation

variable {p p' : Process W R} {index : Nat}

theorem Follows.recorded (follows : p.Follows p')
    (recorded : p.Recorded index handle) : p'.Recorded index handle := by
  obtain ⟨table, found, arenaId, issued⟩ := recorded
  obtain ⟨table', found', descends⟩ := follows index table found
  exact ⟨table', found', arenaId.trans descends.arenaId.symm, descends.evolves.issued issued⟩

theorem invariant_start (world : W) : (start world : Process W R).Invariant where
  tables := by simp [start]
  distinct := by simp [start]
  issued := by simp [start]
  next := by simp [start]

/-- A table with a fresh identity is added. -/
theorem Invariant.withLimit (inv : p.Invariant) {maxEntries next : Nat}
    (created : withLimit maxEntries p.nextArenaId = .ok (table, next)) :
    Invariant { p with nextArenaId := next, tables := p.tables ++ [table] } := by
  unfold ResourceTable.withLimit allocateArenaId at created
  by_cases bad : maxEntries = 0 ∨ maxResourceSlots < maxEntries
  · simp [bad, bind, Except.bind] at created
  by_cases room : p.nextArenaId ≤ maxHandleArenaId
  · simp only [bad, room] at created
    obtain ⟨rfl, rfl⟩ := created
    have fresh : ∀ {i : Nat} {old : ResourceTable R}, p.tables[i]? = some old →
        old.arenaId ≠ p.nextArenaId :=
      fun found => Nat.ne_of_lt (inv.issued _ (mem_of_getElem? found))
    exact
      { tables := by
          intro table mem
          rcases mem_append.mp mem with mem | mem
          · exact inv.tables table mem
          · obtain rfl := mem_singleton.mp mem
            exact ⟨Arena.wellFormed_empty, ⟨inv.next, room⟩, Nat.zero_le _⟩
        distinct := by
          intro i j table table' at' at'' same
          simp only [getElem?_append, getElem?_singleton] at at' at''
          split at at' <;> split at at''
          · exact inv.distinct at' at'' same
          · split at at''
            · obtain rfl := some.inj at''
              exact absurd same (fresh at')
            · cases at''
          · split at at'
            · obtain rfl := some.inj at'
              exact absurd same.symm (fresh at'')
            · cases at'
          · split at at' <;> split at at''
            · omega
            · cases at''
            · cases at'
            · cases at'
        issued := by
          intro table mem
          rcases mem_append.mp mem with mem | mem
          · exact Nat.lt_succ_of_lt (inv.issued table mem)
          · obtain rfl := mem_singleton.mp mem
            exact Nat.lt_succ_self _
        next := Nat.succ_ne_zero _ }
  · simp [bad, room, bind, Except.bind] at created

/-- One table is replaced by a later state of itself. -/
theorem Invariant.set (inv : p.Invariant) (found : p.tables[index]? = some table)
    (descends : Descends table table') (world : W) :
    Invariant { p with tables := p.tables.set index table', world } := by
  have known : ∀ {i : Nat} {t : ResourceTable R}, (p.tables.set index table')[i]? = some t →
      ∃ old, p.tables[i]? = some old ∧ t.arenaId = old.arenaId := by
    intro i t at'
    by_cases here : index = i
    · subst here
      have inside : index < p.tables.length := (List.getElem?_eq_some_iff.mp found).1
      obtain rfl : table' = t := by simpa [inside] using at'
      exact ⟨table, found, descends.arenaId⟩
    · rw [getElem?_set_ne here] at at'
      exact ⟨t, at', rfl⟩
  exact
    { tables := by
        intro t mem
        rcases mem_or_eq_of_mem_set mem with mem | rfl
        · exact inv.tables t mem
        · exact descends.invariant
      distinct := by
        intro i j t t' at' at'' same
        obtain ⟨old, found₁, same₁⟩ := known at'
        obtain ⟨old', found₂, same₂⟩ := known at''
        exact inv.distinct found₁ found₂ (same₁.symm.trans (same.trans same₂))
      issued := by
        intro t mem
        obtain ⟨i, at'⟩ := getElem?_of_mem mem
        obtain ⟨old, found₁, same₁⟩ := known at'
        exact same₁ ▸ inv.issued old (mem_of_getElem? found₁)
      next := inv.next }

/-- What one operation of a process does. -/
structure StepSpec (p p' : Process W R) (insertion : Option (Nat × ResourceHandle)) : Prop where
  invariant : p'.Invariant
  follows : p.Follows p'
  inserted : ∀ {index handle}, insertion = some (index, handle) →
    p'.Recorded index handle ∧ ∀ other, ¬p.Recorded other handle

theorem Follows.refl (inv : p.Invariant) (same : p'.tables = p.tables) : p.Follows p' := by
  intro index table found
  exact ⟨table, same ▸ found, ⟨inv.tables table (mem_of_getElem? found), .refl _, rfl⟩⟩

theorem insertion_table {op : TableOp R} {entry : Nat × ResourceHandle}
    (inserted : insertion ((.table index op : ProcessOp W R), .table (runOp hooks op s).1) =
      some entry) : ∃ type value, op = .push type value ∧ entry.1 = index ∧
      (push type value s).1 = .ok entry.2 := by
  cases op with
  | push type value =>
    simp only [runOp, run_map] at inserted
    cases pushed : (push type value s).1 with
    | error error => simp [insertion, pushed] at inserted
    | ok handle =>
      simp only [insertion, pushed, some.injEq] at inserted
      subst inserted
      exact ⟨type, value, rfl, rfl, pushed⟩
  | _ => simp [insertion] at inserted

theorem step_spec (inv : p.Invariant) (op : ProcessOp W R) :
    StepSpec p (p.step hooks op).2 (insertion (op, (p.step hooks op).1)) := by
  cases op with
  | withLimit maxEntries =>
    simp only [step]
    cases created : withLimit maxEntries p.nextArenaId with
    | error error => exact ⟨inv, .refl inv rfl, fun h => by simp [insertion] at h⟩
    | ok result =>
      refine ⟨inv.withLimit created, ?_, fun h => by simp [insertion] at h⟩
      intro index old found
      have inside := (List.getElem?_eq_some_iff.mp found).1
      refine ⟨old, ?_, inv.tables old (mem_of_getElem? found), .refl _, rfl⟩
      simpa [getElem?_append, inside] using found
  | elapse world => exact ⟨{ inv with }, .refl inv rfl, fun h => by simp [insertion] at h⟩
  | table index op =>
    simp only [step]
    cases found : p.tables[index]? with
    | none => exact ⟨inv, .refl inv rfl, fun h => by simp [insertion] at h⟩
    | some table =>
      have tableInv := inv.tables table (mem_of_getElem? found)
      have descends :=
        (@runOp_effects W R hooks op ⟨table, p.world, []⟩).descends tableInv
      have inside := (List.getElem?_eq_some_iff.mp found).1
      have here : (p.tables.set index (runOp hooks op ⟨table, p.world, []⟩).2.table)[index]? =
          some (runOp hooks op ⟨table, p.world, []⟩).2.table := by simp [inside]
      refine ⟨inv.set found descends _, ?_, ?_⟩
      · intro other old found'
        by_cases same : index = other
        · subst same
          obtain rfl := some.inj (found.symm.trans found')
          exact ⟨_, here, descends⟩
        · refine ⟨old, ?_, inv.tables old (mem_of_getElem? found'), .refl _, rfl⟩
          exact (getElem?_set_ne same).trans found'
      · intro index' handle inserted
        obtain ⟨type, value, rfl, rfl, pushed⟩ := insertion_table hooks inserted
        obtain ⟨arenaId, fresh, issued⟩ := push_issues tableInv pushed
        refine ⟨⟨_, here, arenaId.trans descends.arenaId.symm, issued⟩, ?_⟩
        rintro other ⟨table', found', arenaId', issued'⟩
        obtain rfl := inv.distinct found' found (arenaId'.symm.trans arenaId)
        obtain rfl := some.inj (found.symm.trans found')
        exact fresh issued'

/-- What a run of a process does. -/
structure RunSpec (p p' : Process W R) (insertions : List (Nat × ResourceHandle)) : Prop where
  invariant : p'.Invariant
  follows : p.Follows p'
  recorded : ∀ {index handle}, (index, handle) ∈ insertions → p'.Recorded index handle
  fresh : ∀ {index handle}, (index, handle) ∈ insertions → ∀ other, ¬p.Recorded other handle
  nodup : (insertions.map Prod.snd).Nodup

theorem Follows.trans {p'' : Process W R} (first : p.Follows p') (second : p'.Follows p'') :
    p.Follows p'' := by
  intro index table found
  obtain ⟨table', found', descends⟩ := first index table found
  obtain ⟨table'', found'', descends'⟩ := second index table' found'
  exact ⟨table'', found'', descends'.invariant, descends.evolves.trans descends'.evolves,
    descends'.arenaId.trans descends.arenaId⟩

theorem run_spec (inv : p.Invariant) (ops : List (ProcessOp W R)) :
    RunSpec p (p.run hooks ops).2 (insertions (p.run hooks ops).1) := by
  induction ops generalizing p with
  | nil =>
    exact ⟨inv, .refl inv rfl, fun h => by simp [run, insertions] at h,
      fun h => by simp [run, insertions] at h, by simp [run, insertions]⟩
  | cons op ops ih =>
    have first := step_spec hooks inv op
    have rest := ih first.invariant
    have follows := first.follows.trans rest.follows
    simp only [run]
    cases inserted : insertion (op, (p.step hooks op).1) with
    | none =>
      rw [insertions, filterMap_cons_none inserted, ← insertions]
      exact { rest with
        follows
        fresh := fun mem other recorded => rest.fresh mem other (first.follows.recorded recorded) }
    | some entry =>
      obtain ⟨index, handle⟩ := entry
      obtain ⟨recorded, fresh⟩ := first.inserted inserted
      rw [insertions, filterMap_cons_some inserted, ← insertions]
      refine ⟨rest.invariant, follows, ?_, ?_, ?_⟩
      · intro index' handle' mem
        rcases mem_cons.mp mem with same | mem
        · obtain ⟨rfl, rfl⟩ := Prod.mk.inj same
          exact rest.follows.recorded recorded
        · exact rest.recorded mem
      · intro index' handle' mem other recorded'
        rcases mem_cons.mp mem with same | mem
        · obtain ⟨rfl, rfl⟩ := Prod.mk.inj same
          exact fresh other recorded'
        · exact rest.fresh mem other (first.follows.recorded recorded')
      · rw [map_cons, nodup_cons]
        refine ⟨?_, rest.nodup⟩
        intro mem
        obtain ⟨⟨index', handle'⟩, mem', rfl⟩ := mem_map.mp mem
        exact rest.fresh mem' index recorded

theorem run_append (p : Process W R) (ops ops' : List (ProcessOp W R)) : p.run hooks (ops ++ ops') =
      ((p.run hooks ops).1 ++ ((p.run hooks ops).2.run hooks ops').1,
        ((p.run hooks ops).2.run hooks ops').2) := by
  induction ops generalizing p with
  | nil => rfl
  | cons op ops ih => simp [run, ih]

/-- **Resource handles never alias.** Along every run of the tables of a process, whatever
the hooks answer:
the inserted handles are distinct; a handle resolves in no other table than the one it was
inserted into; taking a resource or closing it removes it, and a handle whose resource is
gone never resolves again; and each table counts its occupied slots and keeps exactly its
reusable vacant slots in the free list, once each. -/
theorem handles_never_alias (world : W) (ops ops' : List (ProcessOp W R)) :
    let first := (start world : Process W R).run hooks ops
    let second := first.2.run hooks ops'
    ((insertions (first.1 ++ second.1)).map Prod.snd).Nodup ∧
      (∀ index handle, (index, handle) ∈ insertions first.1 →
        ∀ other table, first.2.tables[other]? = some table → other ≠ index →
          table.denoted handle = none) ∧
      (∀ index handle, (index, handle) ∈ insertions first.1 →
        ∀ table table', first.2.tables[index]? = some table →
          second.2.tables[index]? = some table' → table.denoted handle = none →
          table'.denoted handle = none) ∧
      (∀ op s handle, disposal (op, (runOp hooks op s).1) = some handle →
        (runOp hooks op s).2.table.denoted handle = none) ∧
      ∀ table ∈ first.2.tables, table.len = table.slots.countP (fun slot => !slot.state.isVacant) ∧
        table.vacantSlots.Nodup ∧
        ∀ slotIndex, slotIndex ∈ table.vacantSlots ↔
          ∃ slot, table.slots[slotIndex]? = some slot ∧ slot.state.isVacant = true ∧
            slot.generation < maxHandleGeneration := by
  have spec := run_spec hooks (invariant_start world) ops
  have spec' := run_spec hooks spec.invariant ops'
  refine ⟨?_, ?_, ?_, fun _ _ _ => disposal_gone, ?_⟩
  · have whole := (run_spec hooks (invariant_start world) (ops ++ ops')).nodup
    rwa [run_append] at whole
  · intro index handle inserted other table found ne
    obtain ⟨own, found', arenaId, -⟩ := spec.recorded inserted
    rw [denoted_eq_none_iff]
    intro same
    exact absurd (spec.invariant.distinct found found' (same.symm.trans arenaId)) ne
  · intro index handle inserted table table' found found' gone
    obtain ⟨own, ownFound, arenaId, issued⟩ := spec.recorded inserted
    obtain rfl := some.inj (ownFound.symm.trans found)
    obtain ⟨later, laterFound, descends⟩ := spec'.follows index own found
    obtain rfl := some.inj (laterFound.symm.trans found')
    rw [denoted_eq_none_iff] at gone ⊢
    intro _ live
    exact gone arenaId (descends.evolves.live live issued)
  · intro table mem
    have inv := (spec.invariant.tables table mem).arena
    refine ⟨?_, inv.nodup, ?_⟩
    · exact inv.active.trans (countP_map ..)
    · intro slotIndex
      exact (inv.vacant slotIndex).trans reusable_arena_iff

end Process

end RustScript.Resource
