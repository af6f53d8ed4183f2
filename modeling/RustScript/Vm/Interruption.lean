import RustScript.Vm.Fusion
import RustScript.Vm.Pending

/-!
# Interruptions are transparent

A run that is interrupted by fuel or a deadline and resumed, any number of times, ends
in the same instance as a run without interruptions (`interruption_transparent`).

The argument goes through the instructions themselves.  A `Path` is a sequence of
instructions up to one that ends a run.  Under interruption the general loop
follows a path, and an interruption stops between two of its instructions, wherever it
falls: in front of an instruction, behind the entry into a frame, or between a host call
and the `Ret` behind it (`loopRound_strides`).  Without interruption the rounds follow
the same path, some of them over several instructions at once (`fusedRound_path`).
Where the loop has executed the instructions of a fused sequence one at a time, it has
shown that they succeed, so that fusion does what they do even if a type hint is wrong.

Of compiled code all that is asked is that it is `Faithful` to the instructions it was
compiled from: it does what they do, and an interruption in it stops between two of them.
-/

namespace RustScript.Vm

open Wp RunContext

variable {W : Type}

/-- The instruction does not end the run. -/
def Engine.Stepped.silent : Engine.Stepped → Bool
  | .outcome .continue | .entered | .tailReturn => true
  | _ => false

variable {α : Type}

namespace Engine

/-! ## Paths -/

section Definitions

variable (E : Engine W)

/-- A number of instructions, and then one that ends the run. -/
inductive Path : Nat → Instance W → ExecOutcome → Instance W → Prop where
  | last {s s' : Instance W} {outcome : ExecOutcome} :
      E.step s = .ok (.outcome outcome) s' → outcome ≠ .continue → Path 0 s outcome s'
  | next {s s₁ s' : Instance W} {stepped : Stepped} {outcome : ExecOutcome} {count : Nat} :
      E.step s = .ok stepped s₁ → stepped.silent = true → Path count s₁ outcome s' →
      Path (count + 1) s outcome s'

/-- One instruction that does not end the run. -/
def Advance (s s' : Instance W) : Prop :=
  ∃ stepped, E.step s = .ok stepped s' ∧ stepped.silent = true

/-- Any number of instructions that do not end the run. -/
def Advances : Instance W → Instance W → Prop := Relation.ReflTransGen E.Advance

end Definitions

variable {E : Engine W} {count : Nat} {s s' : Instance W} {outcome : ExecOutcome} {st : State W}
  {status : VmStatus}

theorem Path.succeeds (path : E.Path count s outcome s') :
    ∃ stepped s₁, E.step s = .ok stepped s₁ := by
  cases path with
  | last step _ | next step _ _ => exact ⟨_, _, step⟩

variable {s₁ : Instance W} {stepped : Stepped}

/-- A path whose first instruction does not end the run goes on. -/
theorem Path.tail (path : E.Path count s outcome s') (step : E.step s = .ok stepped s₁)
    (silent : stepped.silent = true) : ∃ rest < count, E.Path rest s₁ outcome s' := by
  cases path with
  | last step' ends =>
    cases step.symm.trans step'
    cases outcome with
    | «continue» => exact absurd rfl ends
    | _ => cases silent
  | next step' _ path =>
    cases step.symm.trans step'
    exact ⟨_, Nat.lt_succ_self _, path⟩

variable {e : VmError} {rounds : Nat} {x : VmM W α} {y : CoreM W α} {status₁ status₂ : VmStatus}

theorem Path.not_error (path : E.Path count s outcome s') : E.step s ≠ .error e s₁ := by
  obtain ⟨_, _, step⟩ := path.succeeds
  rw [step]
  nofun

theorem Advances.path (advances : E.Advances s s₁) (path : E.Path count s₁ outcome s') :
    ∃ count', E.Path count' s outcome s' := by
  induction advances using Relation.ReflTransGen.head_induction_on with
  | refl => exact ⟨count, path⟩
  | head advance _ ih =>
    obtain ⟨stepped, step, silent⟩ := advance
    obtain ⟨rest, path'⟩ := ih
    exact ⟨rest + 1, .next step silent path'⟩

/-- Between two instructions that do not end the run nothing is pending that was not. -/
theorem Advances.waiting (advances : E.Advances s s') : s'.waitingHostOp = s.waitingHostOp := by
  induction advances with
  | refl => rfl
  | tail _ advance ih =>
    obtain ⟨stepped, step, silent⟩ := advance
    have settled := wp_ok (step_settles (E := E) _) step
    refine Eq.trans ?_ ih
    cases stepped with
    | outcome outcome =>
      cases outcome with
      | waiting opId => cases silent
      | _ => exact settled
    | entered => exact settled
    | tailReturn => exact settled.1

/-! ## Fused rounds follow a path -/

/-- A path through the instructions of a sequence goes on behind it. -/
theorem Sequence.follow {result : FusedEnd} {cursor length : Nat} {stack : List NumericValue}
    (sequence : E.Sequence s result cursor stack length) (fused : result ≠ .declined)
    (path : E.Path count (fusedView s cursor stack) outcome s') :
    ∃ rest < count, ∃ s₁, E.commitFused result s = .ok true s₁ ∧ E.Path rest s₁ outcome s' := by
  induction sequence generalizing count with
  | @next cursor cursor' stack stack' opcode length known next _ ih =>
    have step := next.step known (.inr path.succeeds)
    obtain ⟨rest, shorter, path'⟩ := path.tail step rfl
    obtain ⟨rest', shorter', s₁, committed, path''⟩ := ih path'
    exact ⟨rest', by omega, s₁, committed, path''⟩
  | @last cursor stack opcode known ends =>
    cases ends with
    | declined => exact absurd rfl fused
    | @failed lhs rhs rest e operands computed =>
      subst operands
      obtain ⟨e', stack', step⟩ := step_of_arithmetic_error known computed
      exact absurd step path.not_error
    | @store dst value store operands byte =>
      subst store operands
      rcases Nat.lt_or_ge _ _ with inside | outside
      · obtain ⟨s₁, step, committed⟩ := store_commit byte known inside
        obtain ⟨rest, shorter, path'⟩ := path.tail step rfl
        exact ⟨rest, shorter, s₁, committed, path'⟩
      · exact absurd (store_outside byte known outside) path.not_error
    | @branch lhs rhs target intOp floatOp operands compares operation jump decoded =>
      subst operands
      obtain ⟨s₁, compare, _, branch⟩ :=
        branch_commit known operation jump decoded (.inr path.succeeds)
      obtain ⟨rest, shorter, path'⟩ := path.tail compare rfl
      obtain ⟨stepped, s₂, step⟩ := path'.succeeds
      obtain ⟨answer, s₃, committed, done⟩ := bind_eq_ok (branch.symm.trans step)
      cases done
      have taken := commitFused_true fused committed
      subst taken
      obtain ⟨rest', shorter', path''⟩ := path'.tail step rfl
      exact ⟨rest', by omega, s₂, committed, path''⟩

/-- How a round can follow a path: to its end, or a part of the way. -/
def Follows (E : Engine W) (count : Nat) (s : Instance W) (outcome : ExecOutcome)
    (s' : Instance W) : Prop :=
  (∃ raw, E.fusedRound s = .ok (raw, outcome) s' ∧ outcome ≠ .continue) ∨
    ∃ rest < count, ∃ raw s₁, E.fusedRound s = .ok (raw, .continue) s₁ ∧ E.Path rest s₁ outcome s'

theorem fusedRound_other (other : opcodeAt E.program s.ip ≠ some .ldloc)
    (step : E.step s = .ok stepped s₁) : ∃ raw, E.fusedRound s = (do
      let outcome ← E.finishFree stepped
      return (raw, outcome) : CoreM W (UInt8 × ExecOutcome)) s₁ := by
  obtain ⟨raw, s₂, read, executed⟩ := bind_eq_ok step
  obtain ⟨byte, _⟩ := wp_ok readU8_spec read
  refine ⟨raw, (bind_ok read).trans ?_⟩
  have fused : E.executeFused raw = E.executeRaw raw := by
    unfold executeFused
    split
    · next load => exact absurd (by rw [opcodeAt, byte, Option.bind_some, load]) other
    · rfl
  rw [fused]
  exact bind_ok executed

/-- The `Ret` that a host call announced. -/
theorem step_of_ret (known : opcodeAt E.program s.ip = some .ret) : E.step s = (do
      advance 1
      let outcome ← E.completeActiveFrame
      return .outcome outcome : CoreM W Stepped) s := by
  rw [step_eq known]
  exact (bind_ok rfl).symm

/-- A `Ret` right behind a host call belongs to the same round. -/
theorem finishFree_tailReturn (known : opcodeAt E.program s.ip = some .ret)
    (path : E.Path count s outcome s') :
    (E.finishFree .tailReturn s = .ok outcome s' ∧ outcome ≠ .continue) ∨
      ∃ rest < count, ∃ s₁, E.finishFree .tailReturn s = .ok .continue s₁ ∧
        E.Path rest s₁ outcome s' := by
  obtain ⟨stepped, s₁, step⟩ := path.succeeds
  have returned := (step_of_ret known).symm.trans step
  obtain ⟨_, s₂, moved, returned⟩ := bind_eq_ok returned
  obtain ⟨outcome', s₃, completed, done⟩ := bind_eq_ok returned
  cases done
  have finished : E.finishFree .tailReturn s = .ok outcome' s₁ := (bind_ok moved).trans completed
  cases path with
  | last step' ends =>
    cases step.symm.trans step'
    exact .inl ⟨finished, ends⟩
  | next step' silent path =>
    cases step.symm.trans step'
    cases outcome' with
    | «continue» => exact .inr ⟨_, Nat.lt_succ_self _, s₁, finished, path⟩
    | _ => cases silent

theorem fusedRound_path_other (other : opcodeAt E.program s.ip ≠ some .ldloc)
    (path : E.Path count s outcome s') : E.Follows count s outcome s' := by
  obtain ⟨stepped, s₁, step⟩ := path.succeeds
  obtain ⟨raw, round⟩ := fusedRound_other other step
  have settled : E.Settles s stepped s₁ := wp_ok (step_settles s) step
  cases path with
  | last step' ends =>
    cases step.symm.trans step'
    exact .inl ⟨raw, round, ends⟩
  | next step' silent path =>
    cases step.symm.trans step'
    cases stepped with
    | outcome outcome' =>
      cases outcome' with
      | «continue» => exact .inr ⟨_, Nat.lt_succ_self _, raw, s₁, round, path⟩
      | _ => cases silent
    | entered => exact .inr ⟨_, Nat.lt_succ_self _, raw, s₁, round, path⟩
    | tailReturn =>
      rcases finishFree_tailReturn settled.2 path with ⟨finished, ends⟩ |
        ⟨rest, shorter, s₂, finished, path'⟩
      · exact .inl ⟨raw, round.trans (bind_ok finished), ends⟩
      · exact .inr ⟨rest, by omega, raw, s₂, round.trans (bind_ok finished), path'⟩

theorem fusedRound_path_load (known : opcodeAt E.program s.ip = some .ldloc)
    (path : E.Path count s outcome s') : E.Follows count s outcome s' := by
  rcases E.loadsAlone_or_sequence s with ⟨-, alone⟩ | ⟨_, _, _, _, fuses, -⟩
  · rcases fusedRound_declined known alone with ⟨raw, s₁, step, round⟩ | ⟨e, s₁, step, _⟩
    · obtain ⟨rest, shorter, path'⟩ := path.tail step rfl
      exact .inr ⟨rest, shorter, raw, s₁, round, path'⟩
    · exact absurd step path.not_error
  · obtain ⟨length, sequence, _⟩ := fuses.sequence
    obtain ⟨rest, shorter, path'⟩ := path.tail (fuses.load known) rfl
    obtain ⟨rest', shorter', s₁, committed, path''⟩ := sequence.follow fuses.fused path'
    obtain ⟨raw, round⟩ := fusedRound_load known fuses.byte
    exact .inr
      ⟨rest', by omega, raw, s₁, round.trans (bind_ok (fuses.fuse.trans committed)), path''⟩

/-- **A fused round follows the path of the plain instructions.** -/
theorem fusedRound_path (path : E.Path count s outcome s') : E.Follows count s outcome s' := by
  by_cases load : opcodeAt E.program s.ip = some .ldloc
  · exact fusedRound_path_load load path
  · exact fusedRound_path_other load path

/-! ## Runs without interruption -/

section Free

variable (E : Engine W)

/-- The rounds of a run without interruption. -/
def freeRun : Nat → CoreM W (Option VmStatus)
  | 0 => return none
  | rounds + 1 => do
      let round ← E.fusedRound
      match outcomeToStatus round.2 with
      | some status => return some status
      | none => freeRun rounds

/-- How the rounds of a run without interruption can end. -/
def FreeEnds (s : Instance W) (status : VmStatus) (s' : Instance W) : Prop :=
  ∃ rounds, E.freeRun rounds s = .ok (some status) s'

/-- A run without interruption, as it acts on the instance. -/
def freeInternal (rounds : Nat) : CoreM W (Option VmStatus) := do
  lift (E.host.bindings.mapError .hostError)
  let s ← get
  match s.waitingHostOp with
  | some opId => return some (.waiting opId)
  | none => E.freeRun rounds

/-- How a run without interruption can end. -/
def FreeRuns (s : Instance W) (status : VmStatus) (s' : Instance W) : Prop :=
  ∃ rounds, E.freeInternal rounds s = .ok (some status) s'

end Free

/-- The same on the instance, without interruption before and after. -/
def Shadows {α : Type} (x : VmM W α) (y : CoreM W α) (st : State W) : Prop :=
  Coupled (fun a st' b s' => a = b ∧ st'.inst = s' ∧ st'.runCtx.interruptMode = .none)
    (fun e st' d s' => e = d ∧ st'.inst = s' ∧ st'.runCtx.interruptMode = .none) x y st st.inst

theorem Shadows.of_mirrors (h : Mirrors x y st)
    (free : st.runCtx.interruptMode = .none) : Shadows x y st := by
  apply h.mono
  iterate 2
    rintro _ _ _ _ ⟨same, inst, ctx⟩
    exact ⟨same, inst, by rw [ctx, free]⟩

theorem Shadows.bind {β : Type} {f : α → VmM W β} {g : α → CoreM W β} (first : Shadows x y st)
    (second : ∀ a st', st'.runCtx.interruptMode = .none → Shadows (f a) (g a) st') :
    Shadows (x >>= f) (y >>= g) st := by
  apply Coupled.bind first
  rintro a st' _ _ ⟨rfl, rfl, free⟩
  exact second a st' free

/-- The loop without interruption is not left early. -/
theorem runFastInterpreter_free (free : st.runCtx.interruptMode = .none) :
    Coupled (fun a st' b s' => a = b.map some ∧ st'.inst = s' ∧ st'.runCtx.interruptMode = .none)
      (fun e st' d s' => e = d ∧ st'.inst = s' ∧ st'.runCtx.interruptMode = .none)
      (E.runFastInterpreter rounds) (E.freeRun rounds) st st.inst := by
  induction rounds generalizing st with
  | zero => exact ⟨rfl, rfl, free⟩
  | succ rounds ih =>
    apply Coupled.bind (Shadows.of_mirrors (fastRound_mirrors free) free)
    rintro round st₁ _ _ ⟨rfl, rfl, free₁⟩
    cases outcomeToStatus round.2 with
    | some status => exact ⟨rfl, rfl, free₁⟩
    | none =>
      have off : st₁.runCtx.interruptionEnabled = false := by
        simp [RunContext.interruptionEnabled, free₁]
      have again : (do
          let enabled ← interruptionEnabled
          if (round.1 = OpCode.call.toByte ∨ round.1 = OpCode.callValue.toByte) ∧ enabled then
            return some none
          else E.runFastInterpreter rounds : VmM W (Option (Option VmStatus))) st₁ =
          E.runFastInterpreter rounds st₁ := by
        refine (bind_ok rfl).trans ?_
        simp [off]
      have rest := ih free₁
      unfold Coupled at rest ⊢
      simp only [again]
      exact rest

theorem runUninterrupted_shadows (free : st.runCtx.interruptMode = .none) :
    Shadows (E.runUninterrupted rounds) (E.freeRun rounds) st := by
  rw [← bind_pure (E.freeRun rounds)]
  apply Coupled.bind (runFastInterpreter_free free)
  rintro _ st₁ answer _ ⟨rfl, rfl, free₁⟩
  cases answer <;> exact ⟨rfl, rfl, free₁⟩

theorem runRounds_shadows (free : st.runCtx.interruptMode = .none) :
    Shadows (E.runRounds rounds) (E.freeRun rounds) st := by
  have off : st.runCtx.rearmEpochAfterYield.interruptionEnabled = false := by
    simp [RunContext.interruptionEnabled, rearm_sameRun.1, free]
  have run : E.runRounds rounds st =
      E.runUninterrupted rounds { st with runCtx := st.runCtx.rearmEpochAfterYield } := by
    refine (bind_ok rfl).trans ((bind_ok rfl).trans ?_)
    simp [off]
  have rest : Shadows (E.runUninterrupted rounds) (E.freeRun rounds)
      { st with runCtx := st.runCtx.rearmEpochAfterYield } :=
    runUninterrupted_shadows (rearm_sameRun.1.trans free)
  unfold Shadows Coupled
  simp only [run]
  exact rest

theorem freeRun_path (path : E.Path count s outcome s')
    (ends : outcomeToStatus outcome = some status) : E.FreeEnds s status s' := by
  induction count using Nat.strong_induction_on generalizing s with
  | _ count ih =>
    rcases fusedRound_path path with ⟨raw, round, _⟩ | ⟨rest, shorter, raw, s₁, round, path'⟩
    · refine ⟨1, (bind_ok round).trans ?_⟩
      rw [ends]
      rfl
    · obtain ⟨rounds, run⟩ := ih rest shorter path'
      exact ⟨rounds + 1, (bind_ok round).trans run⟩

/-- How a run ends that executes one instruction after the other. -/
def PathRuns (E : Engine W) (s : Instance W) (status : VmStatus) (s' : Instance W) : Prop :=
  E.host.bindings = .ok () ∧
    match s.waitingHostOp with
    | some opId => status = .waiting opId ∧ s' = s
    | none => ∃ count outcome, E.Path count s outcome s' ∧ outcomeToStatus outcome = some status

theorem freeInternal_start (bound : E.host.bindings = .ok ()) :
    E.freeInternal rounds s = (match s.waitingHostOp with
      | some opId => return some (.waiting opId)
      | none => E.freeRun rounds : CoreM W (Option VmStatus)) s := by
  have ready : (lift (E.host.bindings.mapError .hostError) : CoreM W Unit) s = .ok () s := by
    rw [bound]
    rfl
  exact (bind_ok ready).trans get_bind

theorem FreeRuns.of_waiting {opId : Nat} (bound : E.host.bindings = .ok ())
    (waiting : s.waitingHostOp = some opId) : E.FreeRuns s (.waiting opId) s := by
  refine ⟨0, (freeInternal_start bound).trans ?_⟩
  rw [waiting]
  rfl

theorem FreeEnds.runs (bound : E.host.bindings = .ok ()) (idle : s.waitingHostOp = none)
    (h : E.FreeEnds s status s') : E.FreeRuns s status s' := by
  obtain ⟨rounds, run⟩ := h
  refine ⟨rounds, (freeInternal_start bound).trans ?_⟩
  rw [idle]
  exact run

theorem PathRuns.free (h : E.PathRuns s status s') : E.FreeRuns s status s' := by
  obtain ⟨bound, run⟩ := h
  cases waiting : s.waitingHostOp with
  | some opId =>
    rw [waiting] at run
    obtain ⟨rfl, rfl⟩ := run
    exact .of_waiting bound waiting
  | none =>
    rw [waiting] at run
    obtain ⟨count, outcome, path, ends⟩ := run
    exact (freeRun_path path ends).runs bound waiting

variable {s₂ : Instance W}

/-- How far a round of the general loop comes: to the end of the run, or to a place between
two instructions, at which it may be interrupted. -/
inductive Strides (E : Engine W) (s : Instance W) : ExecOutcome → Instance W → Prop where
  | ends {s₁ s' : Instance W} {outcome : ExecOutcome} :
      E.Advances s s₁ → E.step s₁ = .ok (.outcome outcome) s' → outcome ≠ .continue →
      Strides E s outcome s'
  | goesOn {s' : Instance W} : E.Advances s s' → Strides E s .continue s'
  | interrupted {s' : Instance W} : E.Advances s s' → Strides E s .yielded s'

theorem Strides.of_step (advances : E.Advances s s₁)
    (step : E.step s₁ = .ok (.outcome outcome) s') : E.Strides s outcome s' := by
  cases outcome with
  | «continue» => exact .goesOn (advances.tail ⟨_, step, rfl⟩)
  | _ => exact .ends advances step (by rintro ⟨⟩)

/-- The mode in which a run is interrupted stays. -/
def SameMode (st st' : State W) : Prop :=
  st'.runCtx.interruptMode = st.runCtx.interruptMode

/-- What a part of a round guarantees that starts after some instructions. -/
def Keeps (E : Engine W) (st : State W) (x : VmM W ExecOutcome) (st₁ : State W) : Prop :=
  wp x (fun outcome st' => E.Strides st.inst outcome st'.inst ∧ SameMode st st')
    (fun e st' => e.isInterrupt = true → E.Advances st.inst st'.inst ∧ SameMode st st') st₁

theorem step_error_final (h : E.step s = .error e s') : e.isInterrupt ≠ true := by
  have settles := step_settles (E := E) s
  have final := wp_error settles h
  rw [final]
  decide

theorem core_ok {x : CoreM W α} {a : α} (h : x st.inst = .ok a s') :
    core x st = .ok a { st with inst := s' } := by
  simp [core, zoom, h]

theorem core_error {x : CoreM W α} (h : x st.inst = .error e s') :
    core x st = .error e { st with inst := s' } := by
  simp [core, zoom, h]

theorem finishStep_keeps {st₁ : State W} (step : E.step st.inst = .ok stepped st₁.inst)
    (same : SameMode st st₁) : E.Keeps st (E.finishStep stepped) st₁ := by
  apply finishStep_wp
  · rintro outcome rfl
    exact ⟨.of_step .refl step, same⟩
  · rintro rfl _ ⟨_, ticked, rfl⟩
    exact ⟨.goesOn (.single ⟨_, step, rfl⟩), ticked.1.trans same⟩
  · rintro rfl _ ⟨_, ticked, rfl⟩
    have settled : E.Settles st.inst .tailReturn st₁.inst := wp_ok (step_settles _) step
    have ret := step_of_ret settled.2
    rw [core, wp_zoom, wp_iff]
    constructor
    · intro outcome s₂ completed
      have last := ret.trans ((bind_ok rfl).trans (bind_ok completed))
      exact ⟨.of_step (.single ⟨_, step, rfl⟩) last, ticked.1.trans same⟩
    · intro e s₂ completed interrupt
      have last := ret.trans ((bind_ok rfl).trans (bind_error completed))
      exact absurd interrupt (step_error_final last)
  · rintro other _ _ ⟨_, ticked, rfl⟩ - -
    cases stepped with
    | outcome outcome => exact absurd rfl (other outcome)
    | _ => exact ⟨.single ⟨_, step, rfl⟩, ticked.1.trans same⟩

theorem markInterruptYield_mode {c : RunContext} :
    (c.markInterruptYield e).interruptMode = c.interruptMode := by
  cases e <;> rfl

/-- One instruction of the general loop, from a place between two instructions. -/
theorem strides_rule (enabled : st.runCtx.interruptMode ≠ .none) :
    E.RoundRule (fun st => !st.runCtx.interruptionEnabled)
      (fun st₁ => st₁.inst = st.inst ∧ SameMode st st₁)
      (fun outcome st' => E.Strides st.inst outcome st'.inst ∧ SameMode st st')
      fun e st' => e.isInterrupt = true → E.Advances st.inst st'.inst ∧ SameMode st st' where
  context := by
    rintro st₁ _ ⟨inst, same⟩ ⟨_, ticked, rfl⟩
    exact ⟨inst, ticked.1.trans same⟩
  outside _ _ := nofun
  instruction := by
    rintro st₁ ⟨inst, same⟩ -
    have on : st₁.runCtx.interruptionEnabled = true := by
      unfold SameMode at same
      simpa [RunContext.interruptionEnabled, same] using enabled
    unfold fetchOpcode fetched
    rw [wp_bind, wp_get, wp_bind, wp_modify, core, wp_zoom, wp_iff]
    constructor
    · intro raw s' read
      simp only [on, Bool.not_true]
      rw [executeInterpreterInstruction_plain, wp_bind, core, wp_zoom, wp_iff]
      constructor
      · intro stepped s'' executed
        have step : E.step st.inst = .ok stepped s'' := by
          rw [← inst]
          exact (bind_ok read).trans executed
        exact finishStep_keeps step same
      · intro e s'' executed interrupt
        have failed : E.step st₁.inst = .error e s'' := (bind_ok read).trans executed
        exact absurd interrupt (step_error_final failed)
    · intro e s' read interrupt
      have failed : E.step st₁.inst = .error e s' := bind_error read
      exact absurd interrupt (step_error_final failed)
  interrupted := by
    rintro st₁ e ⟨inst, same⟩ - -
    exact ⟨inst ▸ .refl, same⟩
  handled stopped interrupt :=
    ⟨.interrupted (stopped interrupt).1, markInterruptYield_mode.trans (stopped interrupt).2⟩

variable {st' : State W} {answer : Nat → Instance W → Except String (List Value)}

/-- **A round of the general loop comes to a place between two instructions**, or to the end
of the run. -/
theorem loopRound_strides (enabled : st.runCtx.interruptMode ≠ .none)
    (h : E.loopRound st = .ok outcome st') :
    E.Strides st.inst outcome st'.inst ∧ SameMode st st' := by
  have strides := wp_ok ((strides_rule enabled).loopRound ⟨rfl, rfl⟩) h
  exact strides

/-- How a run of the general loop ends: at the end of a path, or interrupted on the way. -/
def Stops (E : Engine W) (s : Instance W) (status : VmStatus) (s' : Instance W) : Prop :=
  (∃ count outcome, E.Path count s outcome s' ∧ outcomeToStatus outcome = some status) ∨
    status = .yielded ∧ E.Advances s s'

theorem Stops.after (advances : E.Advances s s₁) (h : E.Stops s₁ status s') :
    E.Stops s status s' := by
  rcases h with ⟨count, outcome, path, ends⟩ | ⟨yields, further⟩
  · obtain ⟨count', path'⟩ := advances.path path
    exact .inl ⟨count', outcome, path', ends⟩
  · exact .inr ⟨yields, advances.trans further⟩

/-- How far some rounds of the general loop come. -/
def Reaches (E : Engine W) (s : Instance W) : Option VmStatus → Instance W → Prop
  | some status, s' => E.Stops s status s'
  | none, s' => E.Advances s s'

theorem Reaches.after {result : Option VmStatus} (advances : E.Advances s s₁)
    (h : E.Reaches s₁ result s') : E.Reaches s result s' := by
  cases result with
  | none => exact advances.trans h
  | some status => exact Stops.after advances h

theorem Strides.reaches (h : E.Strides s outcome s') :
    E.Reaches s (outcomeToStatus outcome) s' := by
  cases h with
  | ends advances step notContinue =>
    obtain ⟨count, path⟩ := advances.path (.last step notContinue)
    cases outcome with
    | «continue» => exact absurd rfl notContinue
    | _ => exact .inl ⟨count, _, path, rfl⟩
  | goesOn advances => exact advances
  | interrupted advances => exact .inr ⟨rfl, advances⟩

/-- A machine that can be interrupted stays one. -/
theorem SameMode.enabled (same : SameMode st st') (enabled : st.runCtx.interruptMode ≠ .none) :
    st'.runCtx.interruptMode ≠ .none := by
  rw [same]
  exact enabled

theorem runLoop_reaches {result : Option VmStatus} (enabled : st.runCtx.interruptMode ≠ .none)
    (h : E.runLoop rounds st = .ok result st') :
    E.Reaches st.inst result st'.inst ∧ SameMode st st' := by
  induction rounds generalizing st with
  | zero =>
    cases h
    exact ⟨.refl, rfl⟩
  | succ rounds ih =>
    obtain ⟨outcome, st₁, round, rest⟩ := bind_eq_ok h
    obtain ⟨strides, same⟩ := loopRound_strides enabled round
    have reaches := strides.reaches
    cases ends : outcomeToStatus outcome with
    | some status =>
      simp only [ends] at rest reaches
      cases rest
      exact ⟨reaches, same⟩
    | none =>
      simp only [ends] at rest reaches
      obtain ⟨further, same'⟩ := ih (same.enabled enabled) rest
      exact ⟨further.after reaches, same'.trans same⟩

theorem runRounds_reaches {result : Option VmStatus} (enabled : st.runCtx.interruptMode ≠ .none)
    (h : E.runRounds rounds st = .ok result st') :
    E.Reaches st.inst result st'.inst ∧ SameMode st st' := by
  obtain ⟨_, st₂, armed, run⟩ := bind_eq_ok h
  cases armed
  obtain ⟨_, st₃, asked, run⟩ := bind_eq_ok run
  cases asked
  have enabled' : st.runCtx.rearmEpochAfterYield.interruptMode ≠ .none := by
    rw [rearm_sameRun.1]
    exact enabled
  have on : st.runCtx.rearmEpochAfterYield.interruptionEnabled = true := by
    simpa [RunContext.interruptionEnabled] using enabled'
  simp only [on] at run
  obtain ⟨reaches, same⟩ := runLoop_reaches enabled' run
  exact ⟨reaches, same.trans rearm_sameRun.1⟩

/-! ## Compiled code -/

/-- Compiled code does what the instructions do.  On a machine that can be interrupted it
comes to a place between two of them, at which it may be interrupted, or to the end of the
run; otherwise the run from the place it comes to is what remains of the run it left. -/
structure Faithful (E : Engine W) (compiled : Compiled W) : Prop where
  interrupted {st : State W} {code : VmM W ExecOutcome} : compiled st code →
    st.runCtx.interruptMode ≠ .none → E.Keeps st code st
  free {st : State W} {code : VmM W ExecOutcome} : compiled st code →
    st.runCtx.interruptMode = .none → wp code
      (fun outcome st' => st'.runCtx.interruptMode = .none ∧
        match outcomeToStatus outcome with
        | some status => E.FreeEnds st.inst status st'.inst
        | none => ∀ status s', E.FreeEnds st'.inst status s' → E.FreeEnds st.inst status s')
      (fun e _ => e.isInterrupt = false) st

section Compiled

variable {compiled : Compiled W} {code : VmM W ExecOutcome}

/-- An interruption of compiled code is one between two instructions. -/
theorem Faithful.strides (faithful : E.Faithful compiled) (entered : compiled st code)
    (enabled : st.runCtx.interruptMode ≠ .none)
    (h : Wp.rescue code handleInterrupt st = .ok outcome st') :
    E.Strides st.inst outcome st'.inst ∧ SameMode st st' := by
  have keeps := wp_ok (rescue_handleInterrupt_wp (faithful.interrupted entered enabled)
    fun stopped interrupt => ⟨.interrupted (stopped interrupt).1,
      markInterruptYield_mode.trans (stopped interrupt).2⟩) h
  exact keeps

theorem Faithful.remains (faithful : E.Faithful compiled) (entered : compiled st code)
    (free : st.runCtx.interruptMode = .none)
    (h : Wp.rescue code handleInterrupt st = .ok outcome st') :
    st'.runCtx.interruptMode = .none ∧ match outcomeToStatus outcome with
      | some status => E.FreeEnds st.inst status st'.inst
      | none => ∀ status s', E.FreeEnds st'.inst status s' → E.FreeEnds st.inst status s' := by
  have keeps := wp_ok (rescue_handleInterrupt_wp (faithful.free entered free)
    fun failed interrupt => absurd interrupt (by simp [failed])) h
  exact keeps

/-- A run with compiled code stops where its instructions do. -/
theorem Loops.stops (h : E.Loops compiled st status st') (faithful : E.Faithful compiled)
    (enabled : st.runCtx.interruptMode ≠ .none) :
    E.Stops st.inst status st'.inst ∧ SameMode st st' := by
  induction h with
  | interpreted run => exact runRounds_reaches enabled run
  | ended run entered left ends =>
    obtain ⟨advances, same⟩ := runRounds_reaches enabled run
    obtain ⟨strides, same₁⟩ := faithful.strides entered (same.enabled enabled) left
    have reaches := strides.reaches
    rw [ends] at reaches
    exact ⟨Stops.after advances reaches, same₁.trans same⟩
  | goesOn run entered left continues _ ih =>
    obtain ⟨advances, same⟩ := runRounds_reaches enabled run
    obtain ⟨strides, same₁⟩ := faithful.strides entered (same.enabled enabled) left
    have further := strides.reaches
    rw [continues] at further
    obtain ⟨stops, same₂⟩ := ih (same₁.enabled (same.enabled enabled))
    exact ⟨(stops.after further).after advances, same₂.trans (same₁.trans same)⟩

/-- The rounds that remain after some rounds. -/
theorem FreeEnds.after (first : E.freeRun rounds s = .ok none s₁)
    (h : E.FreeEnds s₁ status s') : E.FreeEnds s status s' := by
  induction rounds generalizing s with
  | zero =>
    cases first
    exact h
  | succ rounds ih =>
    obtain ⟨round, s₂, fused, rest⟩ := bind_eq_ok first
    cases ends : outcomeToStatus round.2 with
    | some status =>
      simp only [ends] at rest
      cases rest
    | none =>
      simp only [ends] at rest
      obtain ⟨rounds', run⟩ := ih rest
      refine ⟨rounds' + 1, (bind_ok fused).trans ?_⟩
      simp only [ends]
      exact run

theorem Loops.free (h : E.Loops compiled st status st') (faithful : E.Faithful compiled)
    (free : st.runCtx.interruptMode = .none) :
    E.FreeEnds st.inst status st'.inst ∧ st'.runCtx.interruptMode = .none := by
  induction h with
  | interpreted run =>
    obtain ⟨_, s', run, rfl, rfl, free'⟩ := (runRounds_shadows free).ok run
    exact ⟨⟨_, run⟩, free'⟩
  | ended run entered left ends =>
    obtain ⟨_, s₁, run, rfl, rfl, free₁⟩ := (runRounds_shadows free).ok run
    obtain ⟨free', remains⟩ := faithful.remains entered free₁ left
    rw [ends] at remains
    exact ⟨remains.after run, free'⟩
  | goesOn run entered left continues _ ih =>
    obtain ⟨_, s₁, run, rfl, rfl, free₁⟩ := (runRounds_shadows free).ok run
    obtain ⟨free₂, remains⟩ := faithful.remains entered free₁ left
    rw [continues] at remains
    obtain ⟨ends, free'⟩ := ih free₂
    exact ⟨(remains _ _ ends).after run, free'⟩

theorem Runs.stops (h : E.Runs compiled st status st') (faithful : E.Faithful compiled)
    (enabled : st.runCtx.interruptMode ≠ .none) :
    E.host.bindings = .ok () ∧ SameMode st st' ∧
      match st.inst.waitingHostOp with
      | some opId => status = .waiting opId ∧ st'.inst = st.inst
      | none => E.Stops st.inst status st'.inst := by
  cases h with
  | waiting bound waiting =>
    refine ⟨bound, rfl, ?_⟩
    rw [waiting]
    exact ⟨rfl, rfl⟩
  | loops bound idle loops =>
    obtain ⟨stops, same⟩ := loops.stops faithful enabled
    refine ⟨bound, same, ?_⟩
    rw [idle]
    exact stops

theorem Runs.free (h : E.Runs compiled st status st') (faithful : E.Faithful compiled)
    (free : st.runCtx.interruptMode = .none) : E.FreeRuns st.inst status st'.inst := by
  cases h with
  | waiting bound waiting => exact .of_waiting bound waiting
  | loops bound idle loops => exact (loops.free faithful free).1.runs bound idle

/-- The machine need not enter compiled code. -/
theorem Runs.of_runInternal (h : E.runInternal rounds st = .ok (some status) st') :
    E.Runs compiled st status st' := by
  obtain ⟨_, st₁, bound, run⟩ := bind_eq_ok h
  rw [get_bind] at run
  cases bindings : E.host.bindings with
  | error message =>
    rw [bindings] at bound
    cases bound
  | ok _ =>
    rw [bindings] at bound
    cases bound
    cases waiting : st.inst.waitingHostOp with
    | some opId =>
      simp only [waiting] at run
      cases run
      exact .waiting bindings waiting
    | none =>
      simp only [waiting] at run
      exact .loops bindings waiting (.interpreted run)

end Compiled

/-! ## Schedules -/

/-- A run to its end: as often as it yields it is resumed, and what it waits for is answered.
The relation `run` says how one call of `run` can end. -/
inductive Driven (run : Instance W → VmStatus → Instance W → Prop)
    (answer : Nat → Instance W → Except String (List Value)) :
    Instance W → Instance W → Prop where
  | halted {s s' : Instance W} : run s .halted s' → Driven run answer s s'
  | yielded {s s₁ s' : Instance W} :
      run s .yielded s₁ → Driven run answer s₁ s' → Driven run answer s s'
  | waiting {s s₁ s₂ s' : Instance W} {opId : Nat} :
      run s (.waiting opId) s₁ → completeHostOp opId (answer opId s₁) s₁ = .ok () s₂ →
      Driven run answer s₂ s' → Driven run answer s s'

section Driven

variable {run run' : Instance W → VmStatus → Instance W → Prop}

theorem Driven.mono (h : Driven run answer s s')
    (weaker : ∀ s status s', run s status s' → run' s status s') : Driven run' answer s s' := by
  induction h with
  | halted ends => exact .halted (weaker _ _ _ ends)
  | yielded ends _ ih => exact .yielded (weaker _ _ _ ends) ih
  | waiting ends done _ ih => exact .waiting (weaker _ _ _ ends) done ih

end Driven

/-- An embedder drives a run to its end: it resumes the run as often as it yields, answers
what it waits for, and between two calls of `run` makes any of the grants that are
`granted`. -/
inductive Drives (E : Engine W) (compiled : Compiled W)
    (answer : Nat → Instance W → Except String (List Value)) (granted : Grant → Prop) :
    State W → State W → Prop where
  | halted {st st' : State W} :
      E.Runs compiled st .halted st' → Drives E compiled answer granted st st'
  | yielded {st st₁ st' : State W} :
      E.Runs compiled st .yielded st₁ → Drives E compiled answer granted st₁ st' →
      Drives E compiled answer granted st st'
  | waiting {opId : Nat} {st st₁ st₂ st' : State W} :
      E.Runs compiled st (.waiting opId) st₁ →
      core (completeHostOp opId (answer opId st₁.inst)) st₁ = .ok () st₂ →
      Drives E compiled answer granted st₂ st' → Drives E compiled answer granted st st'
  | grant (grant : Grant) {st st' : State W} : granted grant →
      Drives E compiled answer granted { st with runCtx := grant.apply st.runCtx } st' →
      Drives E compiled answer granted st st'

section Transparency

variable {granted : Grant → Prop} {compiled : Compiled W}

theorem core_eq_ok {x : CoreM W α} {a : α} (h : core x st = .ok a st') :
    x st.inst = .ok a st'.inst ∧ st'.runCtx = st.runCtx := by
  cases run : x st.inst with
  | ok b s' =>
    cases (core_ok run).symm.trans h
    exact ⟨rfl, rfl⟩
  | error e s' => cases (core_error run).symm.trans h

/-- A grant does not turn interruption off. -/
theorem grant_enabled {grant : Grant} {c : RunContext} (enabled : c.interruptMode ≠ .none) :
    (grant.apply c).interruptMode ≠ .none := by
  have toOption : ∀ {result : Except VmError RunContext},
      (∀ c', result = .ok c' → c'.interruptMode ≠ .none) →
      (result.toOption.getD c).interruptMode ≠ .none := by
    intro result succeeds
    cases result with
    | error e => exact enabled
    | ok c' => exact succeeds c' rfl
  cases grant with
  | setFuel fuel => exact nofun
  | addFuel fuel =>
    apply toOption
    intro c' h
    unfold addFuel at h
    split at h
    · cases h
      exact enabled
    · split at h
      · cases h
      · split at h
        · split at h <;> cases h
          exact enabled
        · cases h
          exact nofun
  | setFuelCheckInterval interval =>
    apply toOption
    intro c' h
    unfold setFuelCheckInterval at h
    split at h
    · cases h
    · split at h <;> cases h
      exact enabled
  | setEpochDeadline ticks =>
    apply toOption
    intro c' h
    unfold setEpochDeadline at h
    split at h <;> cases h
    exact nofun
  | setEpochCheckInterval interval =>
    apply toOption
    intro c' h
    unfold setEpochCheckInterval at h
    split at h
    · cases h
    · split at h <;> cases h
      exact enabled

/-- A run that goes on after some instructions is a run from the first of them. -/
theorem PathRuns.after (advances : E.Advances s s₁) (idle : s.waitingHostOp = none)
    (h : E.PathRuns s₁ status s') : E.PathRuns s status s' := by
  obtain ⟨bindings, run⟩ := h
  refine ⟨bindings, ?_⟩
  rw [advances.waiting, idle] at run
  rw [idle]
  obtain ⟨count, outcome, path, ends⟩ := run
  obtain ⟨count', path'⟩ := advances.path path
  exact ⟨count', outcome, path', ends⟩

theorem Driven.after (advances : E.Advances s s₁) (idle : s.waitingHostOp = none)
    (h : Driven E.PathRuns answer s₁ s') : Driven E.PathRuns answer s s' := by
  cases h with
  | halted ends => exact .halted (ends.after advances idle)
  | yielded ends rest => exact .yielded (ends.after advances idle) rest
  | waiting ends done rest => exact .waiting (ends.after advances idle) done rest

/-- **Under interruption a run follows the path of its instructions.** -/
theorem Drives.path (h : E.Drives compiled answer granted st st') (faithful : E.Faithful compiled)
    (enabled : st.runCtx.interruptMode ≠ .none) : Driven E.PathRuns answer st.inst st'.inst := by
  induction h with
  | halted run =>
    obtain ⟨bindings, _, ends⟩ := run.stops faithful enabled
    split at ends
    · cases ends.1
    · next idle =>
        rcases ends with path | ⟨⟨⟩, _⟩
        refine .halted ⟨bindings, ?_⟩
        rw [idle]
        exact path
  | yielded run rest ih =>
    obtain ⟨bindings, same, ends⟩ := run.stops faithful enabled
    have rest := ih (same.enabled enabled)
    split at ends
    · cases ends.1
    · next idle =>
        rcases ends with path | ⟨_, advances⟩
        · refine .yielded ⟨bindings, ?_⟩ rest
          rw [idle]
          exact path
        · exact rest.after advances idle
  | waiting run done rest ih =>
    obtain ⟨bindings, same, ends⟩ := run.stops faithful enabled
    obtain ⟨done, ctx⟩ := core_eq_ok done
    refine .waiting ⟨bindings, ?_⟩ done (ih ?_)
    · split at ends
      · exact ends
      · rcases ends with path | ⟨⟨⟩, _⟩
        exact path
    · rw [ctx]
      exact same.enabled enabled
  | grant _ _ _ ih => exact ih (grant_enabled enabled)

/-- **Every run acts on the instance as a run without interruption.** -/
theorem Drives.free (h : E.Drives compiled answer granted st st')
    (faithful : E.Faithful compiled) : Driven E.FreeRuns answer st.inst st'.inst := by
  induction h with
  | @halted st st' run =>
    by_cases free : st.runCtx.interruptMode = .none
    · exact .halted (run.free faithful free)
    · have path : E.Drives compiled answer granted st st' := .halted run
      exact (path.path faithful free).mono fun _ _ _ => PathRuns.free
  | @yielded st st₁ st' run rest ih =>
    by_cases free : st.runCtx.interruptMode = .none
    · exact .yielded (run.free faithful free) ih
    · have path : E.Drives compiled answer granted st st' := .yielded run rest
      exact (path.path faithful free).mono fun _ _ _ => PathRuns.free
  | @waiting opId st st₁ st₂ st' run done rest ih =>
    by_cases free : st.runCtx.interruptMode = .none
    · exact .waiting (run.free faithful free) (core_eq_ok done).1 ih
    · have path : E.Drives compiled answer granted st st' := .waiting run done rest
      exact (path.path faithful free).mono fun _ _ _ => PathRuns.free
  | grant _ _ _ ih => exact ih

end Transparency

end Engine

end RustScript.Vm
