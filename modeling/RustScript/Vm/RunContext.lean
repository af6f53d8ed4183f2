import RustScript.Lib.Wp
import RustScript.Vm.Value

/-!
# Fuel and deadlines

`RunContext` holds what decides when a run is interrupted: a fuel budget or an
epoch deadline, at most one of them, and a countdown that spaces the checks.  The
epoch counter is shared with other threads; `readings` are the values it will
show, one for each time it is read.

`Grant` lists the operations by which an embedder sets up interruption.  Each of
them leaves the context as it was when it fails.
-/

namespace RustScript.Vm

open Wp

/-- A tick that failed, as opposed to an instruction. -/
def VmError.isInterrupt : VmError → Bool
  | .outOfFuel .. | .epochDeadlineReached .. => true
  | _ => false

inductive InterruptMode where
  | none
  | fuel
  | epoch
  deriving DecidableEq, Repr

def InterruptMode.label : InterruptMode → String
  | .none => "none"
  | .fuel => "fuel"
  | .epoch => "epoch"

inductive VmYieldReason where
  | host
  | fuel
  | epoch
  deriving DecidableEq, Repr

def u64Max : Nat := 2 ^ 64 - 1

structure RunContext where
  interruptMode : InterruptMode
  fuelRemaining : Nat
  fuelCheckInterval : Nat
  fuelOpsUntilCheck : Nat
  epochDeadline : Nat
  epochDeadlineDelta : Nat
  epochRearmPending : Bool
  /-- The interruption that ended the last run, if one did; the instance has it in the source. -/
  lastYieldReason : Option VmYieldReason
  readings : Nat → Nat

namespace RunContext

def new (readings : Nat → Nat) : RunContext :=
  { interruptMode := .none
    fuelRemaining := 0
    fuelCheckInterval := 1
    fuelOpsUntilCheck := 1
    epochDeadline := 0
    epochDeadlineDelta := 0
    epochRearmPending := false
    lastYieldReason := none
    readings }

def interruptionEnabled (c : RunContext) : Bool := c.interruptMode ≠ .none

/-- Read the epoch counter. -/
def currentEpoch (c : RunContext) : Nat × RunContext :=
  (c.readings 0, { c with readings := fun n => c.readings (n + 1) })

def resetInterruptCountdown (c : RunContext) : RunContext :=
  { c with fuelOpsUntilCheck := max c.fuelCheckInterval 1 }

/-! ## Ticks -/

def chargeFuel (amount : Nat) : EStateM VmError RunContext Unit := fun c =>
  if amount = 0 ∨ c.interruptMode ≠ .fuel then .ok () c
  else if c.fuelRemaining < amount then .error (.outOfFuel amount c.fuelRemaining) c
  else .ok () { c with fuelRemaining := c.fuelRemaining - amount }

def chargeFuelTick : EStateM VmError RunContext Unit := do
  let c ← get
  if c.interruptMode ≠ .fuel then pure ()
  else if c.fuelOpsUntilCheck > 1 then set { c with fuelOpsUntilCheck := c.fuelOpsUntilCheck - 1 }
  else do
    chargeFuel c.fuelCheckInterval
    modify fun c => { c with fuelOpsUntilCheck := c.fuelCheckInterval }

def chargeEpochTick : EStateM VmError RunContext Unit := do
  let c ← get
  if c.interruptMode ≠ .epoch then pure ()
  else if c.fuelOpsUntilCheck > 1 then set { c with fuelOpsUntilCheck := c.fuelOpsUntilCheck - 1 }
  else do
    set c.currentEpoch.2
    require (c.currentEpoch.1 < c.epochDeadline)
      (.epochDeadlineReached c.currentEpoch.1 c.epochDeadline)
    modify fun c => { c with fuelOpsUntilCheck := c.fuelCheckInterval }

def chargeInterruptTick : EStateM VmError RunContext Unit := do
  let c ← get
  match c.interruptMode with
  | .none => pure ()
  | .fuel => chargeFuelTick
  | .epoch => chargeEpochTick

/-- What a tick leaves alone: the mode, and why the last run yielded. -/
def SameRun (c c' : RunContext) : Prop :=
  c'.interruptMode = c.interruptMode ∧ c'.lastYieldReason = c.lastYieldReason

/-- A tick fails only as an interruption. -/
theorem chargeInterruptTick_wp {c : RunContext} :
    wp chargeInterruptTick (fun _ => c.SameRun) (fun e c' => c.SameRun c' ∧ e.isInterrupt = true)
      c := by
  have same : c.SameRun c := ⟨rfl, rfl⟩
  unfold chargeInterruptTick
  rw [wp_bind, wp_get]
  cases c.interruptMode with
  | none => exact same
  | fuel =>
    simp only [chargeFuelTick, wp_bind, wp_get, wp_ite]
    refine ⟨fun _ => same, fun _ => ⟨fun _ => same, fun _ => ?_⟩⟩
    unfold wp chargeFuel
    split
    · next charged =>
        split at charged
        · cases charged
          exact same
        · split at charged <;> cases charged
          exact same
    · next failed =>
        split at failed
        · cases failed
        · split at failed <;> cases failed
          exact ⟨same, rfl⟩
  | epoch =>
    simp only [chargeEpochTick, wp_bind, wp_get, wp_ite, wp_set, wp_require]
    exact ⟨fun _ => same, fun _ => ⟨fun _ => same, fun _ => ⟨fun _ => same, fun _ => ⟨same, rfl⟩⟩⟩⟩

/-- An interruption by a deadline puts off the next deadline until the run resumes. -/
def markInterruptYield (error : VmError) (c : RunContext) : RunContext :=
  match error with
  | .outOfFuel .. => { c with lastYieldReason := some .fuel }
  | .epochDeadlineReached .. => { c with lastYieldReason := some .epoch, epochRearmPending := true }
  | _ => c

def rearmEpochAfterYield (c : RunContext) : RunContext :=
  if c.epochRearmPending then
    if c.interruptMode ≠ .epoch then { c with epochRearmPending := false }
    else
      let (current, c) := c.currentEpoch
      resetInterruptCountdown { c with
        epochDeadline := min (current + c.epochDeadlineDelta) u64Max
        epochRearmPending := false }
  else c

/-! ## The embedder's operations -/

def clearEpochDeadline (c : RunContext) : RunContext :=
  resetInterruptCountdown { c with
    interruptMode := if c.interruptMode = .epoch then .none else c.interruptMode
    epochDeadline := 0
    epochDeadlineDelta := 0
    epochRearmPending := false }

def setFuel (fuel : Nat) (c : RunContext) : RunContext :=
  resetInterruptCountdown { c.clearEpochDeadline with
    interruptMode := .fuel
    fuelRemaining := fuel }

def modeConflict (c : RunContext) (requested : InterruptMode) : VmError :=
  .interruptionModeConflict c.interruptMode.label requested.label

def setFuelCheckInterval (interval : Nat) (c : RunContext) : Except VmError RunContext :=
  if interval = 0 then .error (.invalidFuelCheckInterval interval)
  else if c.interruptMode = .epoch then .error (c.modeConflict .fuel)
  else .ok (resetInterruptCountdown { c with fuelCheckInterval := interval })

def addFuel (fuel : Nat) (c : RunContext) : Except VmError RunContext :=
  if fuel = 0 then .ok c
  else if c.interruptMode = .epoch then .error (c.modeConflict .fuel)
  else if c.interruptMode = .fuel then
    if c.fuelRemaining + fuel > u64Max then .error .fuelOverflow
    else .ok { c with fuelRemaining := c.fuelRemaining + fuel }
  else .ok { resetInterruptCountdown { c with interruptMode := .fuel } with fuelRemaining := fuel }

def setEpochDeadline (ticks : Nat) (c : RunContext) : Except VmError RunContext :=
  if c.interruptMode = .fuel then .error (c.modeConflict .epoch)
  else
    let (current, c) := c.currentEpoch
    .ok (resetInterruptCountdown { c with
      interruptMode := .epoch
      epochDeadline := min (current + ticks) u64Max
      epochDeadlineDelta := ticks
      epochRearmPending := false })

def setEpochCheckInterval (interval : Nat) (c : RunContext) : Except VmError RunContext :=
  if interval = 0 then .error (.invalidEpochCheckInterval interval)
  else if c.interruptMode = .fuel then .error (c.modeConflict .epoch)
  else .ok (resetInterruptCountdown { c with fuelCheckInterval := interval })

end RunContext

/-- What an embedder can do to the budget of a run. -/
inductive Grant where
  | setFuel (fuel : Nat)
  | addFuel (fuel : Nat)
  | setFuelCheckInterval (interval : Nat)
  | setEpochDeadline (ticks : Nat)
  | setEpochCheckInterval (interval : Nat)

/-- A grant that is refused changes nothing. -/
def Grant.apply (c : RunContext) : Grant → RunContext
  | .setFuel fuel => c.setFuel fuel
  | .addFuel fuel => (c.addFuel fuel).toOption.getD c
  | .setFuelCheckInterval interval => (c.setFuelCheckInterval interval).toOption.getD c
  | .setEpochDeadline ticks => (c.setEpochDeadline ticks).toOption.getD c
  | .setEpochCheckInterval interval => (c.setEpochCheckInterval interval).toOption.getD c

end RustScript.Vm
