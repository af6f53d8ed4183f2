import RustScript.Vm.Run

/-!
# Rules for the run loops

Both loops of the interpreter read an instruction, execute it and look at its outcome.
The general loop also charges a tick before the instruction and turns an interruption into
a yield.  A `RoundRule` says what has to be shown of one instruction; it then holds of the
rounds of both loops.  If the outcome to go on leads back to where a round may start, it
holds of whole runs (`RunRule.runInternal`).
-/

namespace RustScript.Vm

open Wp

variable {W : Type} {E : Engine W} {st : State W} {Q : ExecOutcome → State W → Prop}
  {R : VmError → State W → Prop} {I : State W → Prop}

namespace Engine

/-! ## Ticks -/

theorem interruptionEnabled_bind {α : Type} {f : Bool → VmM W α} {Q : α → State W → Prop} :
    wp (interruptionEnabled >>= f) Q R st ↔ wp (f st.runCtx.interruptionEnabled) Q R st := by
  rfl

/-- A tick touches the run context only. -/
def Ticked (st st' : State W) : Prop :=
  ∃ runCtx, st.runCtx.SameRun runCtx ∧ st' = { st with runCtx }

/-- A tick fails only as an interruption. -/
theorem chargeInterruptTick_wp {st : State W} : wp chargeInterruptTick (fun _ => Ticked st)
      (fun e st' => Ticked st st' ∧ e.isInterrupt = true) st := by
  unfold chargeInterruptTick
  rw [wp_zoom]
  apply wp_mono RunContext.chargeInterruptTick_wp
  · exact fun _ runCtx same => ⟨runCtx, same, rfl⟩
  · exact fun _ runCtx after => ⟨⟨runCtx, after.1, rfl⟩, after.2⟩

theorem chargeIfEnabled_wp {st : State W} : wp chargeIfEnabled (fun _ => Ticked st)
      (fun e st' => Ticked st st' ∧ e.isInterrupt = true) st := by
  unfold chargeIfEnabled
  rw [interruptionEnabled_bind]
  cases st.runCtx.interruptionEnabled with
  | true => exact chargeInterruptTick_wp
  | false => exact ⟨st.runCtx, ⟨rfl, rfl⟩, rfl⟩

/-- The end of a step: its outcome, a tick, or a tick and the `Ret` after a host call. -/
theorem finishStep_wp {stepped : Stepped}
    (ends : ∀ outcome, stepped = .outcome outcome → Q outcome st)
    (goesOn : stepped = .entered → ∀ st', Ticked st st' → Q .continue st')
    (returns : stepped = .tailReturn → ∀ st', Ticked st st' → wp (core E.completeActiveFrame) Q R
      { st' with
        inst := { st'.inst with ip := st'.inst.ip + 1 }
        fetches := st'.fetches ++ [st'.inst.ip] })
    (interrupted : (∀ outcome, stepped ≠ .outcome outcome) → ∀ e st', Ticked st st' →
      e.isInterrupt = true → R e st') :
    wp (E.finishStep stepped) Q R st := by
  cases stepped with
  | outcome outcome => exact ends outcome rfl
  | entered =>
    unfold finishStep
    rw [wp_bind]
    apply wp_mono chargeInterruptTick_wp
    · exact fun _ st' ticked => goesOn rfl st' ticked
    · exact fun e st' after => interrupted nofun e st' after.1 after.2
  | tailReturn =>
    unfold finishStep
    rw [wp_bind]
    apply wp_mono chargeIfEnabled_wp
    · exact fun _ st' ticked => returns rfl st' ticked
    · exact fun e st' after => interrupted nofun e st' after.1 after.2

theorem rearm_sameRun {c : RunContext} : c.SameRun c.rearmEpochAfterYield := by
  unfold RunContext.rearmEpochAfterYield
  split
  · split
    · exact ⟨rfl, rfl⟩
    · exact ⟨rfl, rfl⟩
  · exact ⟨rfl, rfl⟩

/-! ## Loads -/

/-- A load reads its operand, and then commits a fused sequence or pushes the local. -/
theorem executeLdloc_wp {allow : Bool}
    (read : wp (core (E.readLocalIndex (st.inst.ip - 1))) (fun _ => I) R st)
    (fuse : ∀ st initial, I st →
      wp (core (E.commitFused (E.scanScalarSequence st.inst 16 st.inst.ip [initial]).2))
        (fun _ => I) R { st with fetches :=
          st.fetches ++ (E.scanScalarSequence st.inst 16 st.inst.ip [initial]).1 })
    (load : ∀ st index, I st → wp (core (pushLocal index)) (fun _ => I) R st)
    (ends : ∀ st, I st → Q .continue st) : wp (E.executeLdloc allow) Q R st := by
  change wp (core (E.readLocalIndex (st.inst.ip - 1)) >>= _) _ _ _
  apply wp_seq read
  intro index st₁ start
  have fused : wp (E.tryFuseScalarSequence index allow) (fun _ => I) R st₁ := by
    unfold tryFuseScalarSequence
    split
    · rw [wp_bind, wp_get]
      dsimp only
      split
      · exact start
      · exact fuse st₁ _ start
    · exact start
  apply wp_seq fused
  intro fused st₂ start
  have loaded : wp (loadUnless fused index) (fun _ => I) R st₂ := by
    unfold loadUnless
    split
    · exact start
    · exact load st₂ index start
  exact wp_seq loaded fun _ st₃ start => ends st₃ start

/-! ## Rounds -/

/-- What a round relies on: where it starts (`I`), what each outcome leaves (`Q`) and what a
failure leaves (`R`).  Sequences are fused in the states in which `fuses` says so. -/
structure RoundRule (E : Engine W) (fuses : State W → Bool) (I : State W → Prop)
    (Q : ExecOutcome → State W → Prop) (R : VmError → State W → Prop) : Prop where
  context {st st' : State W} : I st → Ticked st st' → I st'
  outside {st : State W} : I st → ¬ st.inst.ip < E.program.code.length → R .bytecodeBounds st
  instruction {st : State W} : I st → st.inst.ip < E.program.code.length → wp E.fetchOpcode
    (fun raw st' => wp (E.executeInterpreterInstruction raw (fuses st')) Q R st') R st
  interrupted {st : State W} {e : VmError} : I st → e.isInterrupt = true → R e st
  handled {st : State W} {e : VmError} : R e st → e.isInterrupt = true →
    Q .yielded { st with runCtx := st.runCtx.markInterruptYield e }

/-- An interruption turns into a yield, and other failures stay. -/
theorem rescue_handleInterrupt_wp {x : VmM W ExecOutcome} (run : wp x Q R st)
    (handled : ∀ {st : State W} {e : VmError}, R e st → e.isInterrupt = true →
      Q .yielded { st with runCtx := st.runCtx.markInterruptYield e }) :
    wp (rescue x handleInterrupt) Q (fun e st' => R e st' ∧ e.isInterrupt = false) st := by
  rw [wp_rescue]
  apply wp_mono run (fun _ _ ends => ends)
  intro e st' failed
  by_cases interrupt : e.isInterrupt = true
  · simp only [handleInterrupt, if_pos interrupt]
    refine ⟨?_, nofun⟩
    rintro _ ⟨⟩
    exact handled failed interrupt
  · simp only [handleInterrupt, if_neg interrupt]
    exact ⟨nofun, fun _ => ⟨failed, Bool.eq_false_iff.mpr interrupt⟩⟩

namespace RoundRule

theorem fastRound (rule : E.RoundRule (fun _ => true) I Q R) (start : I st) :
    wp E.fastRound (fun round => Q round.2) R st := by
  unfold Engine.fastRound checkBounds
  rw [wp_bind, wp_bind, wp_get, wp_require]
  refine ⟨fun inside => ?_, rule.outside start⟩
  apply wp_seq (rule.instruction start inside)
  intro raw st' next
  exact wp_seq next fun _ _ ends => ends

/-- A round of the general loop does not fail by an interruption. -/
theorem loopRound (rule : E.RoundRule (fun st => !st.runCtx.interruptionEnabled) I Q R)
    (start : I st) : wp E.loopRound Q (fun e st' => R e st' ∧ e.isInterrupt = false) st := by
  have rearmed := rule.context start ⟨_, rearm_sameRun, rfl⟩
  unfold Engine.loopRound rearm Engine.checkBounds
  rw [wp_bind, wp_modify, wp_bind, wp_bind, wp_get, wp_require]
  refine ⟨fun inside => ?_, fun outside => ⟨rule.outside rearmed outside, rfl⟩⟩
  have ticked : wp E.tickAndExecute Q R
      { st with runCtx := st.runCtx.rearmEpochAfterYield } := by
    unfold tickAndExecute
    rw [wp_bind]
    apply wp_mono chargeIfEnabled_wp
    · rintro _ _ ⟨runCtx, same, rfl⟩
      apply wp_seq (rule.instruction (rule.context rearmed ⟨runCtx, same, rfl⟩) inside)
      intro raw st' next
      exact next
    · exact fun e st' after => rule.interrupted (rule.context rearmed after.1) after.2
  exact rescue_handleInterrupt_wp ticked rule.handled

end RoundRule

/-! ## Runs -/

/-- A rule of rounds for a whole run. -/
structure RunRule (E : Engine W) (I : State W → Prop) (Q : ExecOutcome → State W → Prop)
    (R : VmError → State W → Prop) : Prop where
  round (fuses : State W → Bool) : E.RoundRule fuses I Q R
  idle {st : State W} (outcome : ExecOutcome) : I st → Q outcome st
  goesOn {st : State W} : Q .continue st → I st
  unbound {st : State W} {e : VmError} : I st → E.host.bindings.mapError .hostError = .error e →
    R e st

/-- The status of a run is that of the outcome that ended it. -/
def Ends (Q : ExecOutcome → State W → Prop) (status : Option VmStatus) (st : State W) : Prop :=
  ∃ outcome, outcomeToStatus outcome = status ∧ Q outcome st

namespace RunRule

variable (rule : E.RunRule I Q R) (rounds : Nat) (start : I st)

include rule start

theorem runFastInterpreter :
    wp (E.runFastInterpreter rounds) (fun answer => Ends Q answer.join) R st := by
  induction rounds generalizing st with
  | zero => exact ⟨.continue, rfl, rule.idle _ start⟩
  | succ rounds ih =>
    apply wp_seq ((rule.round _).fastRound start)
    intro round st' ends
    cases outcome : round.2 with
    | «continue» =>
      rw [outcome] at ends
      change wp (interruptionEnabled >>= _) _ _ st'
      rw [interruptionEnabled_bind, wp_ite]
      exact ⟨fun _ => ⟨.continue, rfl, ends⟩, fun _ => ih (rule.goesOn ends)⟩
    | _ =>
      rw [outcome] at ends
      exact ⟨_, rfl, ends⟩

theorem runLoop :
    wp (E.runLoop rounds) (Ends Q) (fun e st' => R e st' ∧ e.isInterrupt = false) st := by
  induction rounds generalizing st with
  | zero => exact ⟨.continue, rfl, rule.idle _ start⟩
  | succ rounds ih =>
    apply wp_seq ((rule.round _).loopRound start)
    intro outcome st' ends
    cases outcome with
    | «continue» => exact ih (rule.goesOn ends)
    | _ => exact ⟨_, rfl, ends⟩

/-- **A run follows the rule of its rounds.** -/
theorem runInternal : wp (E.runInternal rounds) (Ends Q) R st := by
  unfold Engine.runInternal
  rw [wp_bind, wp_lift]
  refine ⟨fun _ _ => ?_, fun _ failed => rule.unbound start failed⟩
  rw [wp_bind, wp_get]
  cases st.inst.waitingHostOp with
  | some opId => exact ⟨.waiting opId, rfl, rule.idle _ start⟩
  | none =>
    have rearmed := (rule.round fun _ => true).context start ⟨_, rearm_sameRun, rfl⟩
    unfold Engine.runRounds rearm
    rw [wp_bind, wp_modify, interruptionEnabled_bind, wp_ite]
    have looping : ∀ {st : State W}, I st → wp (E.runLoop rounds) (Ends Q) R st := fun start =>
      wp_mono (rule.runLoop rounds start) (fun _ _ ends => ends) fun _ _ failed => failed.1
    refine ⟨fun _ => looping rearmed, fun _ => ?_⟩
    apply wp_seq (rule.runFastInterpreter rounds rearmed)
    rintro answer st' ⟨outcome, status, ends⟩
    rcases answer with _ | _ | status'
    · exact ⟨outcome, status, ends⟩
    · cases outcome with
      | «continue» => exact looping (rule.goesOn ends)
      | _ => cases status
    · exact ⟨outcome, status, ends⟩

end RunRule

/-! ## Host invocations -/

variable {stackBase frameCount : Nat}

/-- A failure is passed on after the invocation was given up. -/
theorem orAbort_wp {α : Type} {x : VmM W α} {Q : α → State W → Prop} :
    wp (orAbort stackBase frameCount x) Q R st ↔ wp x Q (fun e st' =>
      wp (core (abortHostInvocation stackBase frameCount)) (fun _ => R e) R st') st := by
  simp [orAbort, wp_rescue, wp_bind]
  rfl

/-- After the call: a host function is done or is given up, a script function is to run. -/
theorem settleInvocation_wp {s : Instance W} {outcome : ExecOutcome}
    {Q : Option VmStatus → Instance W → Prop} {R : VmError → Instance W → Prop}
    (done : s.executionFrames.length = frameCount → outcome ≠ .yielded → ∀ stack value,
      Q (some .halted) { s with stack, hostReturn := some value })
    (aborted : ∀ message, wp (abortHostInvocation stackBase frameCount)
      (fun _ => R (.invalidFrameState message)) R s)
    (entered : s.executionFrames.length ≠ frameCount →
      Q none { s with executionFrames := returningToHost s.executionFrames }) :
    wp (settleInvocation stackBase frameCount outcome) Q R s := by
  unfold settleInvocation
  rw [wp_bind, wp_get, wp_ite]
  refine ⟨fun same => ?_, entered⟩
  cases outcome with
  | «continue» | halted => exact done same nofun _ _
  | yielded | waiting => exact wp_bind.mpr (aborted _)

end Engine

end RustScript.Vm
