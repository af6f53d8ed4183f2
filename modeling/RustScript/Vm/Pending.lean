import RustScript.Vm.Step

/-!
# Pending operations

The machine waits for the host after an instruction that says so, and after no other:
every other instruction leaves `waitingHostOp` as it was (`step_settles`).  An
instruction that fails does so for good: interruptions are not among its errors.

A host call that announces the `Ret` behind it leaves the instruction pointer in front
of one.
-/

namespace RustScript.Vm

open Wp

variable {W : Type} {E : Engine W}

/-- The machine waits for the same operation of the host. -/
def SameWaiting (s s' : Instance W) : Prop := s'.waitingHostOp = s.waitingHostOp

namespace Engine

variable {s s' : Instance W}

/-- What an outcome says about the state. -/
def Resolved (s : Instance W) (outcome : ExecOutcome) (s' : Instance W) : Prop :=
  match outcome with
  | .waiting _ => True
  | _ => SameWaiting s s'

theorem resolved_of_waiting {outcome : ExecOutcome}
    (h : (∀ opId, outcome ≠ .waiting opId) → SameWaiting s s') : Resolved s outcome s' := by
  cases outcome with
  | waiting opId => trivial
  | _ => exact h nofun

/-- What the end of an instruction says about the state. -/
def Settles (E : Engine W) (s : Instance W) (stepped : Stepped) (s' : Instance W) : Prop :=
  match stepped with
  | .outcome outcome => Resolved s outcome s'
  | .entered => SameWaiting s s'
  | .tailReturn => SameWaiting s s' ∧ opcodeAt E.program s'.ip = some .ret

theorem Called.settles {prototypeId : UInt32} {callable : Option (Nat × CallableValue)}
    {operands : List Value} {operandStackBase : Nat} {continuation : FrameContinuation}
    {entered : Entered}
    (called : E.Called prototypeId callable operands operandStackBase continuation s entered s') :
    E.Settles s entered.stepped s' := by
  cases called with
  | frame new =>
    obtain ⟨_, _, step⟩ := new
    exact step.waiting
  | host _ _ _ called => exact resolved_of_waiting called.waiting

theorem Did.settles {start : Nat} {opcode : OpCode} {stepped : Stepped}
    (did : E.Did start opcode s stepped s') : E.Settles s stepped s' := by
  cases did with
  | plain step _ => exact step.inline.waiting
  | left _ left =>
    obtain ⟨_, _, _, _⟩ := left
    exact resolved_of_waiting fun _ => rfl
  | @host _ outcome _ _ called =>
    cases outcome with
    | returned =>
      have same : SameWaiting s s' := called.waiting nofun
      change E.Settles s (if E.canFuseCallRetPattern (start + 4) then .tailReturn else .continue) s'
      split
      · next fuses =>
          have here : s'.ip = start + 4 := called.goesOn rfl
          refine ⟨same, ?_⟩
          rw [here, opcodeAt, beq_iff_eq.mp fuses, Option.bind_some, OpCode.tryFrom_toByte]
      · exact same
    | _ => exact resolved_of_waiting called.waiting
  | value _ _ called =>
    obtain ⟨_, _, _, _, called⟩ := called
    exact called.settles
  | script _ _ _ called => exact called.settles

/-- **An instruction touches the pending operation only to wait for it**, fails for good, and
announces a `Ret` only in front of one. -/
theorem step_settles (s : Instance W) : EndsIn (E.Settles s) E.step s := by
  apply wp_bind.mpr
  apply wp_mono readU8_spec
  · rintro raw _ ⟨-, rfl⟩
    unfold executeRaw
    cases OpCode.tryFrom raw with
    | none => exact rfl
    | some opcode =>
      exact wp_mono execute_did (fun _ _ did => did.settles) fun _ _ fails =>
        fails.final
  · rintro _ _ ⟨rfl, -⟩
    exact rfl

end Engine

end RustScript.Vm
