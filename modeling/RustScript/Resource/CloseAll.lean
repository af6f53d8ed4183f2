import RustScript.Resource.Protocol

/-!
# Close-all accounting

A close-all sweep begins every open resource, polls every closing one, and
repeats until a pass makes no progress.  What a sweep adds up is read off the
history of hook calls: `disposals` are the entries it gave up, `failures` the
errors of their hooks.  `Swept` relates the totals before and after a part of a
sweep to the events of that part; it holds for one visit of a slot and composes,
so it holds for a whole poll and for any number of them.

`sweep_stops` justifies the bound on the number of passes: one of the first
`sweepFuel` makes no progress.

The report counts every resource that was there as closed, once, also when its
hook failed; the failures are counted again as failed (`close_all_accounting`).
-/

namespace RustScript.Resource

open ResourceTable ResourceSlot TableState

variable {W R : Type}

/-! ## Reading the history of a sweep -/

/-- The entry that a hook call of a sweep gave up. -/
def TableEvent.disposes : TableEvent → Option Entry
  | .beginClose entry (.ok .ready) => some entry
  | .beginClose entry (.error _) => some entry
  | .pollClose entry (.ready _) => some entry
  | _ => none

/-- The error that a hook call of a sweep reported. -/
def TableEvent.failure : TableEvent → Option ResourceError
  | .beginClose _ (.error error) => some error
  | .pollClose _ (.ready (.error error)) => some error
  | _ => none

def disposals (events : List TableEvent) : List Entry := events.filterMap TableEvent.disposes

def failures (events : List TableEvent) : List ResourceError :=
  events.filterMap TableEvent.failure

@[simp] theorem disposals_append (l l' : List TableEvent) :
    disposals (l ++ l') = disposals l ++ disposals l' := List.filterMap_append ..

@[simp] theorem failures_append (l l' : List TableEvent) :
    failures (l ++ l') = failures l ++ failures l' := List.filterMap_append ..

/-- What the totals become with these events. -/
def SweepTotals.plus (totals : SweepTotals) (events : List TableEvent) : SweepTotals where
  closed := totals.closed + (disposals events).length
  failed := totals.failed + (failures events).length
  firstError := totals.firstError <|> (failures events).head?

theorem SweepTotals.plus_plus (totals : SweepTotals) (l l' : List TableEvent) :
    (totals.plus l).plus l' = totals.plus (l ++ l') := by
  simp [plus, Nat.add_assoc, Option.or_assoc]

/-! ## Parts of a sweep -/

def LiveEntry (table : ResourceTable R) (entry : Entry) : Prop :=
  table.arena.Live entry.slotIndex entry.generation

/-- A part of a sweep: the totals follow the hook calls, and the entries that the calls
dispose of are the ones that are gone. -/
structure Swept (totals : SweepTotals) (s : TableState W R) (totals' : SweepTotals)
    (s' : TableState W R) (calls : List TableEvent) : Prop where
  events : s'.events = s.events ++ calls
  totals : totals' = totals.plus calls
  wellFormed : s'.table.arena.WellFormed maxHandleGeneration
  active : s'.table.activeEntries + (disposals calls).length = s.table.activeEntries
  live : ∀ entry, LiveEntry s'.table entry ↔ LiveEntry s.table entry ∧ entry ∉ disposals calls
  disposed : ∀ entry ∈ disposals calls, LiveEntry s.table entry
  nodup : (disposals calls).Nodup

variable {s : TableState W R}

theorem Swept.refl (totals : SweepTotals) (wf : s.table.arena.WellFormed maxHandleGeneration) :
    Swept totals s totals s [] where
  events := by simp
  totals := by simp [SweepTotals.plus, disposals, failures]
  wellFormed := wf
  active := by simp [disposals]
  live := by simp [disposals]
  disposed := by simp [disposals]
  nodup := by simp [disposals]

variable {totals' totals : SweepTotals} {s' : TableState W R} {reason : ResourceCloseReason}
  {hooks : HostResource W R} {table : ResourceTable R} {slot : ResourceSlot R} {slotIndex : Nat}

theorem Swept.trans {totals'' : SweepTotals} {s'' : TableState W R} {l l' : List TableEvent}
    (first : Swept totals s totals' s' l) (second : Swept totals' s' totals'' s'' l') :
    Swept totals s totals'' s'' (l ++ l') where
  events := by rw [second.events, first.events, List.append_assoc]
  totals := by rw [second.totals, first.totals, SweepTotals.plus_plus]
  wellFormed := second.wellFormed
  active := by
    have count := first.active
    have count' := second.active
    rw [disposals_append, List.length_append]
    omega
  live := by
    intro entry
    rw [second.live, first.live, disposals_append, List.mem_append]
    tauto
  disposed := by
    intro entry mem
    rw [disposals_append, List.mem_append] at mem
    rcases mem with mem | mem
    · exact first.disposed entry mem
    · exact ((first.live entry).mp (second.disposed entry mem)).1
  nodup := by
    rw [disposals_append, List.nodup_append]
    refine ⟨first.nodup, second.nodup, ?_⟩
    rintro entry mem _ mem' rfl
    exact ((first.live entry).mp (second.disposed entry mem')).2 mem

/-! ## What is left to do -/

/-- The steps that are left until every slot is vacant. -/
def ResourceTable.work (table : ResourceTable R) : Nat :=
  2 * table.slots.countP (fun slot => slot.state.isOpen) +
    table.slots.countP (fun slot => slot.state.isClosing)

section Work

theorem work_lt_sweepFuel : table.work < table.sweepFuel := by
  have disjoint : table.slots.countP (fun slot => slot.state.isOpen) +
      table.slots.countP (fun slot => slot.state.isClosing) ≤ table.slots.length := by
    induction table.slots with
    | nil => simp
    | cons slot slots ih =>
      have single : (if slot.state.isOpen = true then 1 else 0) +
          (if slot.state.isClosing = true then 1 else 0) ≤ 1 := by
        cases slot.state <;> simp [SlotState.isOpen, SlotState.isClosing]
      simp only [List.countP_cons, List.length_cons]
      omega
  unfold work sweepFuel
  omega

/-- What a slot still needs. -/
def SlotState.work : SlotState R → Nat
  | .vacant => 0
  | .open _ => 2
  | .closing _ => 1

theorem work_setState (state : SlotState R) (found : table.slots[slotIndex]? = some slot) :
    (table.setState slotIndex state).work + slot.state.work = table.work + state.work := by
  have opens := Arena.countP_modify (p := fun slot : ResourceSlot R => slot.state.isOpen)
    (f := fun slot => { slot with state }) found
  have closings := Arena.countP_modify (p := fun slot : ResourceSlot R => slot.state.isClosing)
    (f := fun slot => { slot with state }) found
  simp only [work, slots_setState]
  cases old : slot.state <;> cases state <;>
    simp only [old, SlotState.isOpen, SlotState.isClosing, SlotState.work, if_true, if_false,
      Bool.false_eq_true] at opens closings ⊢ <;> omega

theorem work_reclaim (found : table.slots[slotIndex]? = some slot)
    (occupied : slot.state.isVacant = false) : (table.reclaim slotIndex).work < table.work := by
  have left : (table.reclaim slotIndex).work + slot.state.work = table.work := work_setState _ found
  have positive : 0 < slot.state.work := by
    cases state : slot.state <;> simp_all [SlotState.isVacant, SlotState.work]
  omega

end Work

/-! ## Visiting one slot -/

section Slot

variable {world : W} {call : TableEvent}

theorem Occupied.live (occupied : Occupied s.table slotIndex slot)
    (vacant : (s.table.stateAt slotIndex).isVacant = false) :
    s.table.arena.slots[slotIndex]? = some slot.arenaSlot ∧ slot.arenaSlot.occupied = true := by
  rw [getElem?_arena, occupied.found]
  exact ⟨rfl, by simp [arenaSlot, occupied.state, vacant]⟩

/-- A hook call after which the slot is given up. -/
theorem Swept.reclaim (wf : s.table.arena.WellFormed maxHandleGeneration)
    (occupied : Occupied s.table slotIndex slot)
    (vacant : (s.table.stateAt slotIndex).isVacant = false)
    (disposes : call.disposes = some ⟨slotIndex, slot.generation⟩) :
    Swept totals s (totals.plus [call])
      ((s.answered world call).withTable (s.table.reclaim slotIndex)) [call] := by
  obtain ⟨found, isOccupied⟩ := occupied.live vacant
  have arena := arena_reclaim occupied.found
  have entries : disposals [call] = [⟨slotIndex, slot.generation⟩] := by simp [disposals, disposes]
  exact
    { events := rfl
      totals := rfl
      wellFormed := by
        rw [withTable_table, arena]
        exact wf.release found isOccupied
      active := by
        have positive : 0 < s.table.arena.active := by
          rw [wf.active, List.countP_pos_iff]
          exact ⟨_, List.mem_of_getElem? found, isOccupied⟩
        have same : s.table.arena.active = s.table.activeEntries := rfl
        simp only [entries, withTable_table, ResourceTable.reclaim, List.length_singleton]
        omega
      live := by
        intro entry
        rw [entries, LiveEntry, withTable_table, arena, Arena.live_release,
          List.mem_singleton, LiveEntry, and_comm]
        constructor
        · rintro ⟨live, ne⟩
          exact ⟨live, fun same => ne (congrArg _ same)⟩
        · rintro ⟨live, ne⟩
          refine ⟨live, fun same => ne ?_⟩
          obtain ⟨other, found', generation, -⟩ := live
          rw [same, found] at found'
          obtain rfl := Option.some.inj found'
          exact Entry.ext same generation.symm
      disposed := by
        intro entry mem
        rw [entries, List.mem_singleton] at mem
        subst mem
        exact ⟨slot.arenaSlot, found, rfl, isOccupied⟩
      nodup := by simp [entries] }

/-- A hook call after which the resource is still there. -/
theorem Swept.keep {state : SlotState R} (wf : s.table.arena.WellFormed maxHandleGeneration)
    (vacant : (s.table.stateAt slotIndex).isVacant = false) (stays : state.isVacant = false)
    (disposes : call.disposes = none) :
    Swept totals s (totals.plus [call])
      ((s.answered world call).withTable (s.table.setState slotIndex state)) [call] := by
  have arena := arena_setState vacant stays
  have entries : disposals [call] = [] := by simp [disposals, disposes]
  exact
    { events := rfl
      totals := rfl
      wellFormed := by
        rw [withTable_table, arena]
        exact wf
      active := by simp [entries]
      live := by simp [entries, LiveEntry, arena]
      disposed := by simp [entries]
      nodup := by simp [entries] }

theorem SweepTotals.began_eq (totals : SweepTotals) (entry : Entry)
    (answer : ResourceResult CloseProgress) :
    totals.began answer = totals.plus [.beginClose entry answer] := by
  obtain ⟨closed, failed, firstError⟩ := totals
  rcases answer with error | (_ | _) <;> cases firstError <;> rfl

theorem SweepTotals.polled_eq (totals : SweepTotals) (entry : Entry)
    (answer : Poll (ResourceResult Unit)) :
    totals.polled answer = totals.plus [.pollClose entry answer] := by
  obtain ⟨closed, failed, firstError⟩ := totals
  rcases answer with (error | _) | _ <;> cases firstError <;> rfl

/-- A visit is a part of a sweep.  It never adds work, and takes some away when it reports
progress that was not reported `before`. -/
structure Visited (before : Bool) (totals : SweepTotals) (s : TableState W R)
    (out : (Bool × SweepTotals) × TableState W R) : Prop where
  swept : ∃ calls, Swept totals s out.1.2 out.2 calls
  le : out.2.table.work ≤ s.table.work
  progress : out.1.1 = true → before = true ∨ out.2.table.work < s.table.work

variable {out out' : (Bool × SweepTotals) × TableState W R} {before progressed : Bool}

theorem Visited.wellFormed (visited : Visited before totals s out) :
    out.2.table.arena.WellFormed maxHandleGeneration := by
  obtain ⟨⟨calls, swept⟩, -⟩ := visited
  exact swept.wellFormed

theorem Visited.of_lt {calls : List TableEvent} (swept : Swept totals s out.1.2 out.2 calls)
    (less : out.2.table.work < s.table.work) : Visited before totals s out :=
  ⟨⟨calls, swept⟩, Nat.le_of_lt less, fun _ => .inr less⟩

theorem Visited.refl (wf : s.table.arena.WellFormed maxHandleGeneration) :
    Visited before totals s ((before, totals), s) :=
  ⟨⟨[], .refl totals wf⟩, Nat.le_refl _, .inl⟩

theorem Visited.trans (first : Visited false totals s out)
    (second : Visited progressed out.1.2 out.2 out')
    (passed : progressed = true → before = true ∨ out.1.1 = true) :
    Visited before totals s out' := by
  obtain ⟨⟨calls, swept⟩, le, less⟩ := first
  obtain ⟨⟨calls', swept'⟩, le', less'⟩ := second
  refine ⟨⟨calls ++ calls', swept.trans swept'⟩, Nat.le_trans le' le, fun moved => ?_⟩
  rcases less' moved with earlier | less'
  · refine (passed earlier).imp_right fun here => ?_
    exact Nat.lt_of_le_of_lt le' ((less here).resolve_left nofun)
  · exact .inr (Nat.lt_of_lt_of_le less' le)

section

variable (slotIndex : Nat) (totals : SweepTotals) (s : TableState W R)
  (wf : s.table.arena.WellFormed maxHandleGeneration)

include wf

theorem tryBeginClose_visited :
    Visited false totals s (tryBeginClose hooks reason slotIndex totals s) := by
  rcases (s.table.stateAt slotIndex).isOpen_cases with ⟨resource, at'⟩ | other
  · have vacant := occupied_at at' rfl
    obtain ⟨slot, occupied⟩ := occupied_of_state wf at' rfl
    generalize called : hooks.beginClose resource reason s.world = out
    obtain ⟨answer, resource', world⟩ := out
    rw [tryBeginClose_open at' called, entryAt_eq occupied.found,
      totals.began_eq ⟨slotIndex, slot.generation⟩]
    have reclaimed := work_reclaim occupied.found (occupied.state ▸ vacant)
    have closing := work_setState (.closing resource') occupied.found
    rw [occupied.state, at'] at closing
    rcases answer with error | (_ | _)
    · exact .of_lt (.reclaim wf occupied vacant rfl) reclaimed
    · exact .of_lt (.reclaim wf occupied vacant rfl) reclaimed
    · exact .of_lt (.keep wf vacant rfl rfl) (Nat.lt_of_succ_le (Nat.le_of_succ_le_succ closing.le))
  · rw [tryBeginClose_other other]
    exact .refl wf

theorem tryPollClose_visited : Visited false totals s (tryPollClose hooks slotIndex totals s) := by
  rcases (s.table.stateAt slotIndex).isClosing_cases with ⟨resource, at'⟩ | other
  · have vacant := occupied_at at' rfl
    obtain ⟨slot, occupied⟩ := occupied_of_state wf at' rfl
    generalize called : hooks.pollClose resource s.world = out
    obtain ⟨answer, resource', world⟩ := out
    rw [tryPollClose_closing at' called, entryAt_eq occupied.found,
      totals.polled_eq ⟨slotIndex, slot.generation⟩]
    cases answer with
    | ready result =>
      exact .of_lt (.reclaim wf occupied vacant rfl)
        (work_reclaim occupied.found (occupied.state ▸ vacant))
    | pending =>
      have closing := work_setState (.closing resource') occupied.found
      rw [occupied.state, at'] at closing
      exact ⟨⟨_, .keep wf vacant rfl rfl⟩, Nat.le_of_succ_le_succ closing.le, nofun⟩
  · rw [tryPollClose_other other]
    exact .refl wf

end

end Slot

/-! ## Whole sweeps -/

section Sweep

theorem visitSlots_visited {visit : Nat → SweepTotals → TableM W R (Bool × SweepTotals)}
    (each : ∀ slotIndex totals s, s.table.arena.WellFormed maxHandleGeneration →
      Visited false totals s (visit slotIndex totals s))
    (indices : List Nat) (progressed : Bool) (totals : SweepTotals) (s : TableState W R)
    (wf : s.table.arena.WellFormed maxHandleGeneration) :
    Visited progressed totals s (visitSlots visit indices progressed totals s) := by
  induction indices generalizing progressed totals s with
  | nil => exact .refl wf
  | cons slotIndex indices ih =>
    have first := each slotIndex totals s wf
    exact first.trans (ih _ _ _ first.wellFormed) Bool.or_eq_true_iff.mp

variable (totals : SweepTotals) (s : TableState W R)
  (wf : s.table.arena.WellFormed maxHandleGeneration)

include wf

theorem sweepPass_visited : Visited false totals s (sweepPass hooks reason totals s) := by
  have first : Visited false totals s
      (visitSlots (tryBeginClose hooks reason) s.table.openIndices false totals s) :=
    visitSlots_visited tryBeginClose_visited _ false totals s wf
  exact first.trans (visitSlots_visited tryPollClose_visited _ _ _ _ first.wellFormed) .inr

theorem sweep_swept (fuel : Nat) :
    let out := sweep hooks reason fuel totals s
    ∃ calls, Swept totals s out.1 out.2 calls := by
  induction fuel generalizing totals s with
  | zero => exact ⟨[], .refl totals wf⟩
  | succ fuel ih =>
    obtain ⟨calls, first⟩ := (sweepPass_visited totals s wf).swept
    simp only [sweep, run_bind]
    by_cases progressed : (sweepPass hooks reason totals s).1.1 = true
    · simp only [progressed]
      obtain ⟨calls', rest⟩ := ih _ _ first.wellFormed
      exact ⟨calls ++ calls', first.trans rest⟩
    · simp only [progressed]
      exact ⟨calls, first⟩

/-- **A sweep stops**: one of so many passes as there is work left makes no progress, and it is
the last. -/
theorem sweep_stops : ∃ count ≤ s.table.work,
    (sweepPass hooks reason (passes hooks reason count totals s).1
      (passes hooks reason count totals s).2).1.1 = false ∧
    ∀ fuel, sweep hooks reason (count + 1 + fuel) totals s =
      passes hooks reason (count + 1) totals s := by
  induction work : s.table.work using Nat.strong_induction_on generalizing totals s with
  | _ left ih =>
    have visited : Visited false totals s (sweepPass hooks reason totals s) :=
      sweepPass_visited totals s wf
    cases progressed : (sweepPass hooks reason totals s).1.1 with
    | false =>
      refine ⟨0, Nat.zero_le _, progressed, fun fuel => ?_⟩
      rw [Nat.add_comm]
      simp only [sweep, passes, run_bind, progressed]
      rfl
    | true =>
      have less := (visited.progress progressed).resolve_left Bool.false_ne_true
      obtain ⟨count, few, stops, rest⟩ := ih _ (by omega) _ _ visited.wellFormed rfl
      have next : ∀ count, passes hooks reason (count + 1) totals s = passes hooks reason count
          (sweepPass hooks reason totals s).1.2 (sweepPass hooks reason totals s).2 := fun _ => rfl
      refine ⟨count + 1, by omega, ?_, fun fuel => ?_⟩
      · rw [next]
        exact stops
      · rw [Nat.add_right_comm, next]
        simp only [sweep, run_bind, progressed]
        exact rest fuel

end Sweep

/-! ## Polling a sweep -/

/-- The entries that a table holds. -/
def ResourceTable.liveEntries (table : ResourceTable R) : List Entry :=
  table.liveIndices.map table.entryAt

theorem mem_liveEntries {entry : Entry} : entry ∈ table.liveEntries ↔ LiveEntry table entry := by
  simp only [liveEntries, liveIndices, indicesWhere,
    List.mem_map, List.mem_filter, List.mem_range, LiveEntry, Arena.Live,
    getElem?_arena, Option.map_eq_some_iff]
  constructor
  · rintro ⟨slotIndex, ⟨-, occupied⟩, rfl⟩
    obtain ⟨slot, found, state⟩ := exists_slot rfl (by simpa using occupied)
    rw [entryAt_eq found]
    refine ⟨slot.arenaSlot, ⟨slot, found, rfl⟩, rfl, ?_⟩
    simpa [arenaSlot, state] using occupied
  · rintro ⟨-, ⟨slot, found, rfl⟩, generation, occupied⟩
    refine ⟨entry.slotIndex, ⟨(List.getElem?_eq_some_iff.mp found).1, ?_⟩, ?_⟩
    · simpa [stateAt, found, arenaSlot] using occupied
    · rw [entryAt_eq found]
      exact Entry.ext rfl generation

theorem nodup_liveEntries : table.liveEntries.Nodup := by
  apply List.Nodup.map
  · intro i j same
    exact congrArg Entry.slotIndex same
  · exact List.nodup_range.filter _

/-- A table is empty exactly when it holds no entry. -/
theorem liveEntries_eq_nil_iff (wf : table.arena.WellFormed maxHandleGeneration) :
    table.liveEntries = [] ↔ table.isEmpty = true := by
  have active : table.activeEntries = table.arena.slots.countP ArenaSlot.occupied := wf.active
  rw [isEmpty, beq_iff_eq, active, List.countP_eq_zero, List.eq_nil_iff_forall_not_mem]
  constructor
  · intro none slot mem occupied
    obtain ⟨slotIndex, found⟩ := List.getElem?_of_mem mem
    exact none ⟨slotIndex, slot.generation⟩ (mem_liveEntries.mpr ⟨slot, found, rfl, occupied⟩)
  · intro vacant entry mem
    obtain ⟨slot, found, -, occupied⟩ := mem_liveEntries.mp mem
    exact vacant slot (List.mem_of_getElem? found) occupied

variable {calls : List TableEvent}

theorem Swept.ofWorld {world : W} (swept : Swept totals { s with world } totals' s' calls) :
    Swept totals s totals' s' calls :=
  { swept with }

/-- One accepted poll. -/
theorem poll_swept (hooks : HostResource W R) (wf : s.table.arena.WellFormed maxHandleGeneration)
    (accepted : s.table.closeAll.getD ⟨reason, ⟨0, 0, none⟩⟩ = ⟨reason, totals⟩) :
    let out := pollCloseAllReport hooks reason s
    ∃ calls totals', Swept totals s totals' out.2 calls ∧
      ((out.1 = .ready (.ok totals') ∧ out.2.table.isEmpty = true) ∨
        (out.1 = .pending ∧ out.2.table.isEmpty = false ∧
          out.2.table.closeAll = some ⟨reason, totals'⟩)) := by
  rw [pollCloseAllReport_accepted accepted]
  obtain ⟨calls, swept⟩ := sweep_swept _ s wf _
  generalize sweep hooks reason s.table.sweepFuel totals s = out at swept ⊢
  have settled : ∀ closeAll,
      Swept totals s out.1 (out.2.withTable { out.2.table with closeAll }) calls :=
    fun _ => { swept with }
  cases empty : out.2.table.isEmpty with
  | true =>
    simp only [empty]
    exact ⟨calls, out.1, settled none, .inl ⟨rfl, empty⟩⟩
  | false =>
    simp only [empty, Bool.false_eq_true, if_false]
    exact ⟨calls, out.1, settled _, .inr ⟨trivial, empty, rfl⟩⟩

/-- A poll of a sweep that is still pending afterwards; the world may have changed since
the last one. -/
def PendingPoll (hooks : HostResource W R) (reason : ResourceCloseReason)
    (s s' : TableState W R) : Prop :=
  ∃ world, pollCloseAllReport hooks reason { s with world } = (.pending, s')

theorem pendingPolls_swept
    (wf : s.table.arena.WellFormed maxHandleGeneration) (idle : s.table.closeAll = none)
    (polls : Relation.ReflTransGen (PendingPoll hooks reason) s s') :
    ∃ calls totals, Swept ⟨0, 0, none⟩ s totals s' calls ∧
      s'.table.closeAll.getD ⟨reason, ⟨0, 0, none⟩⟩ = ⟨reason, totals⟩ := by
  induction polls with
  | refl => exact ⟨[], _, .refl _ wf, by rw [idle]; rfl⟩
  | @tail m m' _ poll ih =>
    obtain ⟨calls, totals, swept, accepted⟩ := ih
    obtain ⟨world, polled⟩ := poll
    obtain ⟨calls', totals', swept', ended | ⟨-, -, running⟩⟩ :=
      poll_swept hooks (s := { m with world }) swept.wellFormed accepted
    · simp [polled] at ended
    · rw [polled] at swept' running
      exact ⟨calls ++ calls', totals', swept.trans swept'.ofWorld, by rw [running]; rfl⟩

/-- A sweep that emptied the table disposed of every entry it found there. -/
theorem Swept.disposals_perm (swept : Swept totals s totals' s' calls)
    (empty : s'.table.liveEntries = []) : (disposals calls).Perm s.table.liveEntries := by
  rw [List.perm_ext_iff_of_nodup swept.nodup nodup_liveEntries]
  intro entry
  rw [mem_liveEntries]
  constructor
  · exact swept.disposed entry
  · intro live
    by_contra kept
    have stays := (swept.live entry).mpr ⟨live, kept⟩
    rw [← mem_liveEntries, empty] at stays
    exact List.not_mem_nil stays

/-- **Accounting of `poll_close_all_report`.** Take any table that is not being swept, poll it
with one reason while the polls stay pending, and poll once more. The last poll reports
exactly when the table is empty. The report counts in `closed` every entry that the table held
when the sweep began, each disposed of by one hook call, and in `failed` those calls that
failed; the first of these failures is the report's error. A poll with another reason in
between changes nothing. -/
theorem close_all_accounting (hooks : HostResource W R) (arenaId maxEntries : Nat) (world : W)
    (actions : List (TableAction W R)) (reason : ResourceCloseReason) (s : TableState W R)
    (now : W)
    (idle : (runActions hooks actions ⟨.fresh arenaId maxEntries, world, []⟩).table.closeAll = none)
    (polls : Relation.ReflTransGen (PendingPoll hooks reason)
      (runActions hooks actions ⟨.fresh arenaId maxEntries, world, []⟩) s) :
    let s₀ := runActions hooks actions ⟨.fresh arenaId maxEntries, world, []⟩
    let out := pollCloseAllReport hooks reason { s with world := now }
    ((∃ report, out.1 = .ready (.ok report)) ↔ out.2.table.liveEntries = []) ∧
      (∀ report, out.1 = .ready (.ok report) → ∃ calls, out.2.events = s₀.events ++ calls ∧
        (disposals calls).Perm s₀.table.liveEntries ∧
        report.closed = s₀.table.liveEntries.length ∧
        report.failed = (failures calls).length ∧
        report.firstError = (failures calls).head?) ∧
      (∀ other running, s.table.closeAll = some running → other ≠ reason →
        pollCloseAllReport hooks other s =
          (.ready (.error (closeInProgressError other reason)), s)) := by
  intro s₀ out
  have wf : s₀.table.arena.WellFormed maxHandleGeneration :=
    (runActions_history history_fresh).wellFormed
  obtain ⟨calls, totals, swept, accepted⟩ := pendingPolls_swept wf idle polls
  refine ⟨?_, ?_, ?_⟩
  · obtain ⟨_, totals', swept', ⟨ready, empty⟩ | ⟨pending, occupied, -⟩⟩ :=
      poll_swept hooks (s := { s with world := now }) swept.wellFormed accepted
    · simp only [out, ready, liveEntries_eq_nil_iff swept'.wellFormed, empty, iff_true]
      exact ⟨totals', rfl⟩
    · simp [out, pending, liveEntries_eq_nil_iff swept'.wellFormed, occupied]
  · intro report reported
    obtain ⟨calls', totals', swept', ⟨ready, empty⟩ | ⟨pending, -⟩⟩ :=
      poll_swept hooks (s := { s with world := now }) swept.wellFormed accepted
    · obtain rfl : totals' = report := by simpa [out, reported] using ready.symm
      have whole := swept.trans swept'.ofWorld
      have disposed := whole.disposals_perm ((liveEntries_eq_nil_iff whole.wellFormed).mpr empty)
      refine ⟨calls ++ calls', whole.events, disposed, ?_⟩
      rw [whole.totals, ← disposed.length_eq]
      simp [SweepTotals.plus]
    · simp [out, pending] at reported
  · intro other running started differs
    rw [started] at accepted
    obtain rfl : running = ⟨reason, totals⟩ := accepted
    rw [pollCloseAllReport_conflict started (Ne.symm differs)]

/-- Hooks of a resource whose close takes one poll when the resource is `true` and fails at
once when it is `false`. -/
def sampleHooks : HostResource Unit Bool where
  beginClose resource _ world :=
    (if resource then .ok .pending else .error (.new .resourceCleanupFailed "close" "failed"),
      resource, world)
  pollClose resource world := (.ready (.ok ()), resource, world)

/-- A table with a resource of each kind. -/
def samplePushes : List (TableAction Unit Bool) :=
  [.run (.push ⟨0, none⟩ true), .run (.push ⟨0, none⟩ false)]

theorem close_all_accounting_sample :
    ∃ report, (pollCloseAllReport sampleHooks .requested
        (runActions sampleHooks samplePushes ⟨.fresh 1 4, (), []⟩)).1 = .ready (.ok report) ∧
      report.closed = 2 := by
  obtain ⟨ready, report, -⟩ := close_all_accounting _ 1 4 () _ .requested
    (runActions sampleHooks samplePushes ⟨.fresh 1 4, (), []⟩) () (by decide) .refl
  obtain ⟨found, reported⟩ := ready.mpr (by decide +kernel)
  obtain ⟨-, -, -, closed, -⟩ := report found reported
  exact ⟨found, reported, closed⟩

/-- A resource whose hook fails is counted as closed and as failed. -/
theorem failed_close_counted_twice :
    let s := runActions sampleHooks [.run (.push ⟨0, none⟩ false)] ⟨.fresh 1 4, (), []⟩
    s.table.liveEntries.length = 1 ∧
      ∃ report, (pollCloseAllReport sampleHooks .requested s).1 = .ready (.ok report) ∧
        report.closed + report.failed = 2 := by
  refine ⟨by decide, _, rfl, by decide⟩

section Reached

variable (hooks : HostResource W R) (arenaId maxEntries : Nat) (world : W)
  (actions : List (TableAction W R)) (reason : ResourceCloseReason)

/-- **The loop of `poll_close_all_report` ends**, whatever the hooks answer: in a table after any
actions, one of the first `sweepFuel` passes makes no progress and is the last, and any further
pass that the loop were allowed would change nothing. -/
theorem close_all_loop_ends (totals : SweepTotals) (extra : Nat) :
    let s := runActions hooks actions ⟨.fresh arenaId maxEntries, world, []⟩
    (∃ count < s.table.sweepFuel,
      (sweepPass hooks reason (passes hooks reason count totals s).1
        (passes hooks reason count totals s).2).1.1 = false ∧
      sweep hooks reason s.table.sweepFuel totals s = passes hooks reason (count + 1) totals s) ∧
    sweep hooks reason (s.table.sweepFuel + extra) totals s =
      sweep hooks reason s.table.sweepFuel totals s := by
  intro s
  have wf : s.table.arena.WellFormed maxHandleGeneration :=
    (runActions_history history_fresh).wellFormed
  obtain ⟨count, few, stops, settles⟩ := @sweep_stops W R reason hooks totals s wf
  obtain ⟨more, enough⟩ := Nat.exists_eq_add_of_lt (few.trans_lt work_lt_sweepFuel)
  have fuel : s.table.sweepFuel = count + 1 + more := by omega
  have whole := settles more
  have further := settles (more + extra)
  rw [← Nat.add_assoc, ← fuel] at further
  rw [← fuel] at whole
  exact ⟨⟨count, by omega, stops, whole⟩, further.trans whole.symm⟩

/-- **No handle outlives `close_all`**: once a poll reports, none resolves in the table. -/
theorem close_all_ends_handles (handle : ResourceHandle) {report : SweepTotals}
    {s : TableState W R}
    (reached : runActions hooks actions ⟨.fresh arenaId maxEntries, world, []⟩ = s)
    (reports : (pollCloseAllReport hooks reason s).1 = .ready (.ok report)) :
    (pollCloseAllReport hooks reason s).2.table.denoted handle = none := by
  have history : History s := reached ▸ runActions_history history_fresh
  obtain ⟨running, other, conflict⟩ | ⟨totals, accepted⟩ := s.table.sweep_cases reason
  · rw [pollCloseAllReport_conflict other conflict] at reports
    cases reports
  · obtain ⟨_, _, swept, ⟨-, empty⟩ | ⟨pending, -⟩⟩ := poll_swept hooks history.wellFormed accepted
    · refine denoted_eq_none_iff.mpr fun _ live => ?_
      have entry : ⟨_, _⟩ ∈ liveEntries _ := mem_liveEntries.mpr live
      simp [(liveEntries_eq_nil_iff swept.wellFormed).mpr empty] at entry
    · cases pending.symm.trans reports

theorem close_all_ends_handles_sample : (pollCloseAllReport sampleHooks .requested
    (runActions sampleHooks [.run (.push ⟨0, none⟩ true)] ⟨.fresh 1 4, (), []⟩)).2.table.denoted =
      fun _ => none :=
  funext fun _ =>
    @close_all_ends_handles _ _ _ 1 4 () _ _ _ ⟨1, 0, none⟩ _ rfl (by decide +kernel)

end Reached

end RustScript.Resource
