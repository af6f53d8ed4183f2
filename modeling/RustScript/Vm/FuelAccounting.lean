import RustScript.Vm.RunContext

/-!
# Fuel accounting

The fuel of a run is a counter, from which a whole check interval is taken at once, and a
countdown to the next time that happens; `getFuel` reports the counter less the ticks since
the last charge.  How many ticks still succeed is a function of the two, and each tick takes
one from it (`chargeFuelTick_cases`).

A new check interval restarts the countdown and forgets the ticks since the last charge, so
the reported fuel grows unless there are none or no fuel is left (`fuel_accounting`).
-/

namespace RustScript.Vm

open Wp

namespace RunContext

def pendingFuelDebt (c : RunContext) : Nat :=
  if c.interruptMode ≠ .fuel then 0 else c.fuelCheckInterval - c.fuelOpsUntilCheck

def getFuel (c : RunContext) : Option Nat :=
  if c.interruptMode = .fuel then some (c.fuelRemaining - c.pendingFuelDebt) else none

structure FuelCheckpoint where
  remaining : Option Nat
  checkInterval : Nat
  opsUntilCheck : Nat

def fuelCheckpoint (c : RunContext) : FuelCheckpoint where
  remaining := if c.interruptMode = .fuel then some c.fuelRemaining else none
  checkInterval := c.fuelCheckInterval
  opsUntilCheck := c.fuelOpsUntilCheck

def restoreFuel (checkpoint : FuelCheckpoint) (c : RunContext) : RunContext :=
  let interval := max checkpoint.checkInterval 1
  { c.clearEpochDeadline with
    interruptMode := if checkpoint.remaining.isSome then .fuel else .none
    fuelRemaining := checkpoint.remaining.getD 0
    fuelCheckInterval := interval
    fuelOpsUntilCheck := max 1 (min checkpoint.opsUntilCheck interval) }

/-- So many ticks in a row. -/
def ticks : Nat → EStateM VmError RunContext Unit
  | 0 => pure ()
  | n + 1 => do
    chargeFuelTick
    ticks n

end RunContext

open RunContext

/-- What can happen to the fuel of a run. -/
inductive FuelOp where
  | tick
  | grant (g : Grant)
  | restore (checkpoint : FuelCheckpoint)

/-- An operation that fails keeps the state it failed in. -/
def FuelOp.apply (c : RunContext) : FuelOp → RunContext
  | .tick => resultState (chargeFuelTick c)
  | .grant g => g.apply c
  | .restore checkpoint => c.restoreFuel checkpoint

/-- Set, add or restore. -/
def FuelOp.refuels : FuelOp → Bool
  | .grant (.setFuel _) | .grant (.addFuel _) | .restore _ => true
  | _ => false

/-- A new interval is set only when the countdown is full or no fuel is left. -/
def FuelOp.Settled (c : RunContext) : FuelOp → Prop
  | .grant (.setFuelCheckInterval interval) => interval ≠ 0 → c.interruptMode = .fuel →
    c.fuelOpsUntilCheck = c.fuelCheckInterval ∨ c.fuelRemaining = 0
  | _ => True

namespace RunContext

def after (c : RunContext) (ops : List FuelOp) : RunContext := ops.foldl FuelOp.apply c

/-- The reported fuel of the second context is not more than that of the first. -/
def NotMore (c c' : RunContext) : Prop :=
  ∀ after ∈ c'.getFuel, ∃ before ∈ c.getFuel, after ≤ before

/-- Ticks and new intervals, each of them settled when it is made. -/
def Settles (c : RunContext) : List FuelOp → Prop
  | [] => True
  | op :: ops => op.refuels = false ∧ op.Settled c ∧ Settles (op.apply c) ops

/-! ## Ticks -/

/-- The countdown runs from the interval down to one. -/
def Counting (c : RunContext) : Prop :=
  1 ≤ c.fuelOpsUntilCheck ∧ c.fuelOpsUntilCheck ≤ c.fuelCheckInterval

/-- How many ticks still succeed. -/
def ticksLeft (c : RunContext) : Nat :=
  c.fuelCheckInterval * (c.fuelRemaining / c.fuelCheckInterval) + (c.fuelOpsUntilCheck - 1)

variable {c : RunContext}

/-- One tick: there are none left and it fails, or it takes one of them. -/
theorem chargeFuelTick_cases (fuel : c.interruptMode = .fuel) (counting : c.Counting) :
    (c.ticksLeft = 0 ∧
      chargeFuelTick c = .error (.outOfFuel c.fuelCheckInterval c.fuelRemaining) c) ∨
    ∃ c', chargeFuelTick c = .ok () c' ∧ c.ticksLeft = c'.ticksLeft + 1 ∧
      c'.interruptMode = .fuel ∧ c'.Counting ∧ c.NotMore c' := by
  obtain ⟨one, bound⟩ := counting
  simp only [chargeFuelTick, get_bind, fuel, ne_eq, not_true, if_false]
  split
  · refine .inr ⟨_, rfl, ?_, rfl, ?_, ?_⟩
    · simp only [ticksLeft]
      omega
    · simp only [Counting]
      omega
    · simp [NotMore, getFuel, pendingFuelDebt, fuel]
      omega
  · have charges : ¬ c.fuelCheckInterval = 0 := by omega
    by_cases short : c.fuelRemaining < c.fuelCheckInterval
    · refine .inl ⟨by simp [ticksLeft, Nat.div_eq_of_lt short]; omega, bind_error ?_⟩
      simp [chargeFuel, charges, fuel, short]
    · have whole : c.fuelRemaining / c.fuelCheckInterval =
          (c.fuelRemaining - c.fuelCheckInterval) / c.fuelCheckInterval + 1 :=
        Nat.div_eq_sub_div (by omega) (by omega)
      have paid : chargeFuel c.fuelCheckInterval c =
          .ok () { c with fuelRemaining := c.fuelRemaining - c.fuelCheckInterval } := by
        simp [chargeFuel, charges, fuel, short]
      refine .inr ⟨_, bind_ok paid, ?_, fuel, ?_, ?_⟩
      · simp only [ticksLeft, whole, Nat.mul_add]
        omega
      · simp only [Counting]
        omega
      · simp [NotMore, getFuel, pendingFuelDebt, fuel]
        omega

theorem ticks_ticksLeft (fuel : c.interruptMode = .fuel) (counting : c.Counting) {n : Nat}
    (left : c.ticksLeft = n) :
    ∃ c', ticks n c = .ok () c' ∧
      chargeFuelTick c' = .error (.outOfFuel c'.fuelCheckInterval c'.fuelRemaining) c' := by
  induction n generalizing c with
  | zero =>
    obtain ⟨_, failed⟩ | ⟨c', _, more, _⟩ := chargeFuelTick_cases fuel counting
    · exact ⟨c, rfl, failed⟩
    · omega
  | succ n ih =>
    obtain ⟨none, _⟩ | ⟨c', charged, more, fuel', counting', _⟩ :=
      chargeFuelTick_cases fuel counting
    · omega
    · obtain ⟨last, rest, failed⟩ := ih fuel' counting' (by omega)
      exact ⟨last, by rw [ticks, bind_ok charged, rest], failed⟩

/-! ## All operations -/

theorem NotMore.refl : c.NotMore c := fun fuel mem => ⟨fuel, mem, Nat.le_refl _⟩

theorem counting_reset {c : RunContext} (interval : 1 ≤ c.fuelCheckInterval) :
    c.resetInterruptCountdown.Counting := by
  simp only [Counting, resetInterruptCountdown]
  omega

theorem notMore_of_ne {c' : RunContext} (mode : c'.interruptMode ≠ .fuel) : c.NotMore c' := by
  simp [NotMore, getFuel, mode]

end RunContext

variable {c : RunContext}

/-- One operation. -/
theorem FuelOp.apply_spec (op : FuelOp) (counting : c.Counting) :
    (op.apply c).Counting ∧ (op.refuels = false → (c.NotMore (op.apply c) ↔ op.Settled c)) := by
  have interval : 1 ≤ c.fuelCheckInterval := Nat.le_trans counting.1 counting.2
  have kept : c.Counting ∧ (op.refuels = false → (c.NotMore c ↔ True)) :=
    ⟨counting, fun _ => iff_true_intro .refl⟩
  cases op with
  | tick =>
    by_cases fuel : c.interruptMode = .fuel
    · obtain ⟨_, failed⟩ | ⟨c', charged, _, _, counting', less⟩ :=
        chargeFuelTick_cases fuel counting
      · rw [apply, failed]
        exact kept
      · rw [apply, charged]
        exact ⟨counting', fun _ => iff_true_intro less⟩
    · have idle : chargeFuelTick c = .ok () c := by simp [chargeFuelTick, get_bind, fuel]; rfl
      rw [apply, idle]
      exact kept
  | grant g =>
    cases g with
    | setFuel fuel => exact ⟨counting_reset interval, by simp [refuels]⟩
    | addFuel fuel =>
      refine ⟨?_, by simp [refuels]⟩
      simp only [apply, Grant.apply, addFuel]
      split_ifs
      · exact counting
      · exact counting
      · exact counting
      · exact counting
      · exact counting_reset (c := { c with interruptMode := .fuel }) interval
    | setFuelCheckInterval k =>
      simp only [apply, Grant.apply, setFuelCheckInterval, Settled]
      split_ifs with zero epoch
      · exact ⟨counting, fun _ => ⟨fun _ no => absurd zero no, fun _ => .refl⟩⟩
      · refine ⟨counting, fun _ => ⟨fun _ _ fuel => ?_, fun _ => .refl⟩⟩
        exact absurd (epoch.symm.trans fuel) (by decide)
      · refine ⟨counting_reset (Nat.pos_of_ne_zero zero), fun _ => ?_⟩
        obtain ⟨one, bound⟩ := counting
        by_cases fuel : c.interruptMode = .fuel
        · simp [Except.toOption, NotMore, getFuel, pendingFuelDebt, resetInterruptCountdown, fuel]
          omega
        · exact ⟨fun _ _ yes => absurd yes fuel, fun _ => notMore_of_ne fuel⟩
    | setEpochDeadline ticks =>
      simp only [apply, Grant.apply, setEpochDeadline]
      split_ifs with fuel
      · exact kept
      · refine ⟨counting_reset interval, fun _ => iff_true_intro (notMore_of_ne ?_)⟩
        exact InterruptMode.noConfusion
    | setEpochCheckInterval k =>
      simp only [apply, Grant.apply, setEpochCheckInterval]
      split_ifs with zero fuel
      · exact kept
      · exact kept
      · refine ⟨counting_reset (Nat.pos_of_ne_zero zero), fun _ => ?_⟩
        exact iff_true_intro (notMore_of_ne fuel)
  | restore checkpoint =>
    refine ⟨?_, by simp [refuels]⟩
    simp only [apply, restoreFuel, Counting]
    omega

theorem RunContext.after_counting (counting : c.Counting) {ops : List FuelOp} :
    (c.after ops).Counting := by
  induction ops generalizing c with
  | nil => exact counting
  | cons op ops ih => exact ih (op.apply_spec counting).1

theorem RunContext.after_notMore (counting : c.Counting) {ops : List FuelOp}
    (settles : c.Settles ops) : c.NotMore (c.after ops) := by
  induction ops generalizing c with
  | nil => exact .refl
  | cons op ops ih =>
    obtain ⟨spends, settled, rest⟩ := settles
    obtain ⟨counting', notMore⟩ := op.apply_spec counting
    intro fuel mem
    obtain ⟨middle, mem', less⟩ := ih counting' rest fuel mem
    obtain ⟨before, mem'', less'⟩ := (notMore spends).mpr settled middle mem'
    exact ⟨before, mem'', Nat.le_trans less less'⟩

theorem RunContext.getFuel_restoreFuel (counting : c.Counting) (c' : RunContext) :
    (c'.restoreFuel c.fuelCheckpoint).getFuel = c.getFuel := by
  obtain ⟨one, bound⟩ := counting
  by_cases fuel : c.interruptMode = .fuel
  · simp [getFuel, restoreFuel, fuelCheckpoint, pendingFuelDebt, fuel]
    omega
  · simp [getFuel, restoreFuel, fuelCheckpoint, fuel]

/-- Operations lead to this context. -/
def RunContext.Reached (c : RunContext) : Prop := ∃ readings ops, (new readings).after ops = c

theorem RunContext.Reached.counting (reached : c.Reached) : c.Counting := by
  obtain ⟨readings, ops, rfl⟩ := reached
  exact after_counting ⟨Nat.le_refl 1, Nat.le_refl 1⟩

/-- **Fuel accounting.**  A fresh budget lasts for whole intervals and one tick less than
another; a step, and so a run of steps, does not make the reported fuel grow exactly when
new intervals meet a full countdown or an empty counter; and a restored checkpoint reports
what it was taken with. -/
theorem fuel_accounting (c : RunContext) (reached : c.Reached) :
    (∀ fuel interval, c.fuelCheckInterval = interval →
      ∃ c', ticks (interval * (fuel / interval) + (interval - 1)) (c.setFuel fuel) = .ok () c' ∧
        ∃ needed left, chargeFuelTick c' = .error (.outOfFuel needed left) c') ∧
    (∀ op : FuelOp, op.refuels = false → (c.NotMore (op.apply c) ↔ op.Settled c)) ∧
    (∀ ops, c.Settles ops → c.NotMore (c.after ops)) ∧
    ∀ c' : RunContext, (c'.restoreFuel c.fuelCheckpoint).getFuel = c.getFuel := by
  refine ⟨?_, fun op => (op.apply_spec reached.counting).2,
    fun ops => after_notMore reached.counting, getFuel_restoreFuel reached.counting⟩
  rintro fuel interval rfl
  obtain ⟨one, bound⟩ := reached.counting
  have fresh : (c.setFuel fuel).Counting := counting_reset (Nat.le_trans one bound)
  have left : (c.setFuel fuel).ticksLeft =
      c.fuelCheckInterval * (fuel / c.fuelCheckInterval) + (c.fuelCheckInterval - 1) := by
    change _ + (max c.fuelCheckInterval 1 - 1) = _
    rw [Nat.max_eq_left (Nat.le_trans one bound)]
    rfl
  obtain ⟨c', run, failed⟩ := ticks_ticksLeft rfl fresh left
  exact ⟨c', run, _, _, failed⟩

/-- Five ticks out of a budget of twelve, the countdown of five is full again. -/
def spentContext : RunContext := (new fun _ => 0).after
  (.grant (.setFuelCheckInterval 5) :: .grant (.setFuel 12) :: List.replicate 5 .tick)

theorem fuel_accounting_spent : spentContext.Reached ∧
    (∃ c', ticks 14 (spentContext.setFuel 12) = .ok () c' ∧
      ∃ needed left, chargeFuelTick c' = .error (.outOfFuel needed left) c') ∧
    spentContext.Settles [.grant (.setFuelCheckInterval 3), .tick, .tick] ∧
    spentContext.NotMore (spentContext.after [.grant (.setFuelCheckInterval 3), .tick, .tick]) ∧
    spentContext.getFuel = some 7 ∧
    (spentContext.after [.grant (.setFuelCheckInterval 3), .tick, .tick]).getFuel = some 5 ∧
    ((new fun _ => 0).restoreFuel spentContext.fuelCheckpoint).getFuel = some 7 := by
  have reached : spentContext.Reached := ⟨_, _, rfl⟩
  obtain ⟨lasts, _, run, restored⟩ := fuel_accounting spentContext reached
  have settles : spentContext.Settles [.grant (.setFuelCheckInterval 3), .tick, .tick] :=
    ⟨rfl, fun _ _ => .inl rfl, rfl, trivial, rfl, trivial, trivial⟩
  exact ⟨reached, lasts 12 5 rfl, settles, run _ settles, rfl, rfl, (restored _).trans rfl⟩

/-- Three ticks into an interval of five, the same interval is set again. -/
theorem new_interval_forgets_ticks :
    ((new fun _ => 0).after [.grant (.setFuelCheckInterval 5), .grant (.setFuel 10), .tick,
      .tick, .tick]).getFuel = some 7 ∧
    ((new fun _ => 0).after [.grant (.setFuelCheckInterval 5), .grant (.setFuel 10), .tick,
      .tick, .tick, .grant (.setFuelCheckInterval 5)]).getFuel = some 10 := by
  decide

end RustScript.Vm
