import RustScript.Vm.InvocationStream

/-!
# Invocations that are refused

A call of `start_invocation` can be refused at two places.  The checks before the invocation is
set up return an error and leave the machine as it was.  When `start_callable` refuses the
callable, for instance because the program has not halted, the call returns an invocation whose only
item is the error, and the invocation is released: the operation that the machine waited for is
cancelled, although it belongs to the program and not to the invocation.

So a refusal leaves the machine alone if it comes from the checks, or if nothing is waited for
(`refused_invocation`).  Two things are asked of the hooks: an operation that is not one of the
bridge is no longer waited for when it is cancelled, and an operation of the bridge that is
waited for is active.
-/

namespace RustScript.Vm

open Operation (OperationCancelReason)
open Engine (VmStatus RunEnded)
open Wp StreamVm Engine InvocationState List Option StreamHooks

variable {W : Type} {st : State (Stream W)} {V : StreamVm W} {rounds : Nat} {callable : Value}
  {args : List Value}

/-- The frames, the operands, the locals and the instruction pointer are as before. -/
structure Undisturbed (s s' : Instance W) : Prop where
  frames : s'.executionFrames = s.executionFrames
  stack : s'.stack = s.stack
  locals : s'.locals = s.locals
  ip : s'.ip = s.ip

theorem Undisturbed.trans {s s' s'' : Instance W} (h : Undisturbed s s')
    (h' : Undisturbed s' s'') : Undisturbed s s'' :=
  ⟨h'.frames.trans h.frames, h'.stack.trans h.stack, h'.locals.trans h.locals, h'.ip.trans h.ip⟩

/-- What `start_callable` and its call check before the callable is entered. -/
def Engine.checkCallable (E : Engine W) (callable : Value) (args : List Value) : CoreM W Unit := do
  checkInvocation (← get) callable args
  modify fun s => { s with hostReturn := none }
  let callable ← lift (asCallable (some callable))
  let _ ← E.checkCall callable.2.prototypeId (some callable) args

theorem abortHostInvocation_undisturbed {s : Instance W} {stackBase frameCount : Nat}
    (stack : s.stack.length = stackBase) (frames : s.executionFrames.length = frameCount) :
    wp (abortHostInvocation stackBase frameCount)
      (fun _ s' => Undisturbed s s' ∧ s'.world = s.world ∧ s'.waitingHostOp = none)
      (fun _ _ => False) s := by
  subst stack frames
  unfold abortHostInvocation
  rw [wp_modify]
  simp only [Nat.sub_self, take_zero, foldl_nil, drop_zero]
  exact ⟨⟨rfl, rfl, rfl, rfl⟩, trivial, trivial⟩

/-- How a call that is refused leaves an instance. -/
def Refused (s s' : Instance W) : Prop :=
  Undisturbed s s' ∧ s'.world = s.world ∧
    (s'.waitingHostOp = s.waitingHostOp ∨ s'.waitingHostOp = none)

theorem beginInvocation_refused {E : Engine W} {st : State W} {error : VmError} {s : Instance W}
    (refused : E.checkCallable callable args st.inst = .error error s) :
    wp (E.beginInvocation callable args) (fun _ _ => False)
      (fun _ st' => Refused st.inst st'.inst) st := by
  unfold beginInvocation
  rw [wp_bind, wp_get, wp_bind, core, wp_zoom, wp_iff]
  constructor
  · intro _ s₁ checked
    obtain ⟨rfl, halted, few⟩ := wp_ok checkInvocation_wp checked
    have argc : (UInt8.ofNat args.length).toNat = args.length := Nat.mod_eq_of_lt (by omega)
    have length : args.reverse.length = args.length := length_reverse
    rw [checkCallable, Wp.get_bind, bind_ok checked] at refused
    cases callable with
    | callable object value =>
      change wp (orAbort _ _ _ >>= _) _ _ { st with inst := { st.inst with
        stack := args.reverse ++ .callable object value :: st.inst.stack, hostReturn := none } }
      rw [wp_bind, orAbort_wp, callValueNow, wp_bind, core, wp_zoom]
      have failed : wp (E.executeCallValue (UInt8.ofNat args.length)) (fun _ _ => False)
          (fun _ s' => s' = { st.inst with hostReturn := none }) { st.inst with
            stack := args.reverse ++ .callable object value :: st.inst.stack
            hostReturn := none } := by
        have popped : (args.reverse ++ Value.callable object value :: st.inst.stack).drop
            (args.length + 1) = st.inst.stack := by
          rw [drop_append, length]
          simp
        have taken : ((args.reverse ++ Value.callable object value :: st.inst.stack).take
            args.length).reverse = args := by
          rw [take_left' length, reverse_reverse]
        have callee : (args.reverse ++ Value.callable object value :: st.inst.stack)[args.length]? =
            some (.callable object value) := by
          simp [length]
        unfold executeCallValue
        simp only [wp_bind, wp_get, wp_require, wp_modify, argc, popped, taken, callee]
        refine ⟨fun _ => ?_, fun short => absurd ?_ short⟩
        · change wp (E.enterScriptFrame _ _ _ _ _) _ _ _
          rw [enterScriptFrame, wp_bind, wp_iff]
          constructor
          · intro prototype s' admitted
            have passed : (E.checkCall value.prototypeId (some (object, value)) args >>= fun _ =>
                pure ()) { st.inst with hostReturn := none } = .error error s := refused
            rw [bind_ok admitted] at passed
            cases passed
          · intro e s' failed
            exact (wp_error checkCall_wp failed).1
        · simp [length]
      apply wp_mono failed
      · exact fun _ _ => False.elim
      · rintro e _ rfl
        apply wp_zoom.mpr
        have aborted := abortHostInvocation_undisturbed (s := { st.inst with hostReturn := none })
          rfl rfl
        apply wp_mono aborted _ fun _ _ => False.elim
        rintro _ s' ⟨stays, world, waiting⟩
        exact ⟨⟨stays.frames, stays.stack, stays.locals, stays.ip⟩, world, .inr waiting⟩
    | _ => cases checked
  · intro e s₁ failed
    obtain ⟨rfl, -⟩ := wp_error checkInvocation_wp failed
    exact ⟨⟨rfl, rfl, rfl, rfl⟩, rfl, .inl rfl⟩

theorem startCallable_refused {E : Engine W} {st : State W} {error : VmError} {s : Instance W}
    (refused : E.checkCallable callable args st.inst = .error error s) :
    wp (E.startCallable rounds callable args) (fun _ _ => False)
      (fun _ st' => Refused st.inst st'.inst) st := by
  unfold startCallable
  rw [wp_bind, wp_get, wp_bind]
  exact wp_mono (beginInvocation_refused refused) (fun _ _ => False.elim) fun _ _ left => left

/-- The invocation was set up in the machine as it is. -/
def FromHere (s : Instance (Stream W)) : Prop :=
  ∃ state, s.world.invocation = some state ∧ state.stackBase = s.stack.length ∧
    state.frameCount = s.executionFrames.length

/-- An operation that is not one of the bridge is no longer waited for when it is cancelled. -/
def StreamHooks.Clears (hooks : StreamHooks W) : Prop :=
  ∀ reason (st : State (Stream W)) op, st.inst.waitingHostOp = some op →
    hooks.isHostBridge st.inst.world.outer op = false →
    (hooks.cancelWaiting reason st).2.inst.waitingHostOp = none

variable {accepted : List Value} {phase : InvocationPhase} {reason : Option OperationCancelReason}

theorem releaseInvocation_clears (clears : V.hooks.Clears) (based : FromHere st.inst)
    (own : ∀ op w, st.inst.waitingHostOp = some op → V.hooks.isHostBridge w op = false) :
    Goes V.releaseInvocation st fun _ st' => st'.inst.waitingHostOp = none ∧
      (st.inst.waitingHostOp = none → Undisturbed st.inst st'.inst) := by
  obtain ⟨state, active, stack, frames⟩ := based
  have cancelled : ∀ reason, Goes (outside (V.hooks.cancelWaitingHostOp reason)) st fun _ st' =>
      st'.inst.waitingHostOp = none ∧ (st.inst.waitingHostOp = none → st' = st) := by
    intro reason
    rw [Goes, wp_outside, cancelWaitingHostOp]
    cases waiting : st.inst.waitingHostOp with
    | none => exact ⟨waiting, fun _ => rfl⟩
    | some op => exact ⟨clears _ st op waiting (own op _ waiting), by rintro ⟨⟩⟩
  unfold releaseInvocation
  rw [Goes, getStream_bind, active]
  apply (cancelled _).bind
  rintro _ st₁ ⟨none, same⟩
  have aborted : wp (core (abortHostInvocation state.stackBase state.frameCount)) (fun _ st' =>
      st.inst.waitingHostOp = Option.none → Undisturbed st.inst st'.inst)
      (fun _ _ => False) st₁ := by
    apply wp_zoom.mpr
    by_cases idle : st.inst.waitingHostOp = Option.none
    · rw [same idle]
      exact wp_mono (abortHostInvocation_undisturbed stack.symm frames.symm)
        (fun _ _ left _ => left.1) fun _ _ => False.elim
    · exact fun waiting => absurd waiting idle
  unfold waitsOnBridge
  simp only [wp_bind, wp_get, wp_pure, none, map_none, getD_none]
  apply wp_bind.mp
  apply (attempt_goes aborted).bind
  rintro (_ | _) st₂ left
  · exact left.elim
  · exact ⟨rfl, fun idle => ⟨(left idle).frames, (left idle).stack, (left idle).locals,
      (left idle).ip⟩⟩

theorem mapInvocationError_based {error : VmError} (based : FromHere st.inst) :
    Goes (mapInvocationError error) st fun _ st' => FromHere st'.inst ∧
      st'.inst.waitingHostOp = st.inst.waitingHostOp ∧ Undisturbed st.inst st'.inst := by
  obtain ⟨state, active, stack, frames⟩ := based
  simp only [mapInvocationError, getStream, wp_bind, wp_get, wp_pure, active, bind_some]
  cases state.pendingError with
  | none =>
    dsimp only
    split <;> exact ⟨⟨state, active, stack, frames⟩, rfl, rfl, rfl, rfl, rfl⟩
  | some error =>
    exact ⟨⟨{ state with pendingError := none }, congrArg (Option.map _) active, stack, frames⟩,
      rfl, rfl, rfl, rfl, rfl⟩

/-- An invocation whose callable was refused has failed, and nothing is waited for. -/
theorem failInvocation_refused {error : VmError} (clears : V.hooks.Clears)
    (based : FromHere st.inst)
    (own : ∀ op w, st.inst.waitingHostOp = some op → V.hooks.isHostBridge w op = false)
    (here : Streaming st .running none accepted) :
    Goes (V.failInvocation error) st fun _ st' => Failing st' ∧ st'.inst.waitingHostOp = none ∧
      (st.inst.waitingHostOp = none → Undisturbed st.inst st'.inst) := by
  apply ((mapInvocationError_based based).and (mapInvocationError_goes here)).bind
  rintro error st₁ ⟨⟨based, waiting, stays⟩, here⟩
  rw [← waiting] at own ⊢
  apply ((releaseInvocation_clears clears based own).and (releaseInvocation_goes here)).bind
  rintro _ st₂ ⟨⟨none, left⟩, state, active, -, isReason, events⟩
  simp only [setPhase, modifyInvocation, getStream, wp_bind, wp_get, wp_pure, active,
    wp_expect_some]
  refine ⟨⟨error, _, accepted, _, rfl, rfl, isReason, events⟩, none, fun idle => ?_⟩
  exact stays.trans ⟨(left idle).frames, (left idle).stack, (left idle).locals, (left idle).ip⟩

/-! ## The call -/

/-- A check that comes before the invocation is set up refuses the call. -/
def StreamVm.RefusedEarly (V : StreamVm W) (callable : Value) (args : List Value)
    (st : State (Stream W)) : Prop :=
  (∃ error, (V.hooks.checkStart callable args st).1 = .error error) ∨
    isActive st.inst.world.invocation = true

/-- The state in which `start_callable` is called. -/
def StreamVm.setUp (V : StreamVm W) (st : State (Stream W)) : State (Stream W) :=
  { st with
    inst := { st.inst with
      world := { st.inst.world with
        invocation := some
          ⟨.running, false, none, none, st.inst.stack.length, st.inst.executionFrames.length⟩
        outer := (V.hooks.scopeReady st.inst.world.outer).2 } }
    runCtx := { st.runCtx with lastYieldReason := none } }

/-- The checks of `start_callable` refuse the call. -/
def StreamVm.RefusedLate (V : StreamVm W) (callable : Value) (args : List Value)
    (st : State (Stream W)) : Prop :=
  ∃ error s, V.engine.checkCallable callable args (V.setUp st).inst = .error error s

/-- The waiting operation, the frames, the operands, the locals and the instruction pointer. -/
def SameMachine (s s' : Instance W) : Prop :=
  s'.waitingHostOp = s.waitingHostOp ∧ Undisturbed s s'

theorem checkStart_ok (admitted : (V.hooks.checkStart callable args st).1 = .ok ()) :
    (V.hooks.checkStart callable args st).2 =
        st.withOuter (V.hooks.scopeReady st.inst.world.outer).2 ∧
      V.hooks.hasActiveBridgeOperations st.inst.world.outer = false := by
  revert admitted
  unfold checkStart
  split
  · rintro ⟨⟩
  · split
    · rintro ⟨⟩
    · next quiet => exact fun _ => ⟨rfl, Bool.not_eq_true _ ▸ quiet⟩

theorem begin_refused (refused : V.RefusedLate callable args st) :
    Goes (begin (V.engine.startCallable rounds callable args)) { V.setUp st with
      runCtx := st.runCtx } fun result st' => (∃ error, result = .error error) ∧
        Refused (V.setUp st).inst st'.inst := by
  obtain ⟨error, s, failed⟩ := refused
  have refuses : wp (V.engine.startCallable rounds callable args) (fun _ _ => False)
      (fun _ st' => Refused (V.setUp st).inst st'.inst) (V.setUp st) :=
    startCallable_refused failed
  apply (attempt_goes refuses).bind
  rintro (error | _) st' left
  · exact ⟨⟨error, rfl⟩, left⟩
  · exact left.elim

/-- The invocation that was set up fails, and an operation that was waited for is cancelled. -/
theorem Refused.fails {st₂ : State (Stream W)} {error : VmError}
    (refused : Refused (V.setUp st).inst st₂.inst) (clears : V.hooks.Clears)
    (own : ∀ op w, st.inst.waitingHostOp = some op → V.hooks.isHostBridge w op = false) :
    Goes (V.failInvocation error) st₂ fun _ st' => Failing st' ∧
      (SameMachine st.inst st'.inst ↔ st.inst.waitingHostOp = none) := by
  obtain ⟨stays, world, waiting⟩ := refused
  have based : FromHere st₂.inst := by
    rw [FromHere, world, stays.stack, stays.frames]
    exact ⟨_, rfl, rfl, rfl⟩
  have here : Streaming st₂ .running none st.inst.world.accepted := by
    rw [Streaming, world]
    exact ⟨_, rfl, rfl, rfl, rfl⟩
  have own' : ∀ op w, st₂.inst.waitingHostOp = some op → V.hooks.isHostBridge w op = false := by
    intro op w found
    rcases waiting with same | none
    · exact own op w (same.symm.trans found)
    · cases none.symm.trans found
  apply (failInvocation_refused clears based own' here).mono
  rintro _ st' ⟨failing, none, left⟩
  refine ⟨failing, fun same => same.1.symm.trans none, fun idle => ?_⟩
  have stays : Undisturbed st.inst st₂.inst := ⟨stays.frames, stays.stack, stays.locals, stays.ip⟩
  have free : st₂.inst.waitingHostOp = Option.none := waiting.elim (·.trans idle) id
  exact ⟨none.trans idle.symm, stays.trans (left free)⟩

/-- **When a refused invocation leaves the machine alone**: if a check before the set-up refuses
it, or if the machine does not wait for an operation.  An operation that it waits for is cancelled
when `start_callable` refuses the callable. -/
theorem refused_invocation (V : StreamVm W) (rounds : Nat) (callable : Value) (args : List Value)
    (st : State (Stream W)) (clears : V.hooks.Clears)
    (tracked : ∀ op w, st.inst.waitingHostOp = some op → V.hooks.isHostBridge w op = true →
      V.hooks.hasActiveBridgeOperations st.inst.world.outer = true)
    (refused : V.RefusedEarly callable args st ∨ V.RefusedLate callable args st) :
    Goes (V.startInvocation rounds callable args) st fun result st' =>
      ((∃ error, result = .error error) ∨ Failing st') ∧
      (SameMachine st.inst st'.inst ↔
        V.RefusedEarly callable args st ∨ st.inst.waitingHostOp = none) := by
  have alone : ∀ {st' : State (Stream W)}, V.RefusedEarly callable args st → Untouched V st st' →
      (SameMachine st.inst st'.inst ↔
        V.RefusedEarly callable args st ∨ st.inst.waitingHostOp = none) := by
    intro st' early untouched
    refine iff_of_true ?_ (.inl early)
    rcases untouched with rfl | rfl <;> exact ⟨rfl, rfl, rfl, rfl, rfl⟩
  cases answer : (V.hooks.checkStart callable args st).1 with
  | error error =>
    have refuses : Goes (outside (V.hooks.checkStart callable args)) st fun result _ =>
        result = .error error := answer
    apply (outside_checkStart.and refuses).bind
    rintro _ st₁ ⟨untouched, rfl⟩
    exact ⟨.inl ⟨error, rfl⟩, alone (.inl ⟨error, answer⟩) untouched⟩
  | ok _ =>
    obtain ⟨ready, quiet⟩ := checkStart_ok answer
    rw [startInvocation, Goes, wp_bind, wp_outside, answer, ready, getStream_bind, wp_ite]
    refine ⟨fun active => ⟨.inl ⟨_, rfl⟩, alone (.inr active) (.inr rfl)⟩, fun idle => ?_⟩
    -- No check has refused the call so far.
    have late : ¬ V.RefusedEarly callable args st := by
      rintro (⟨error, failed⟩ | active)
      · cases answer.symm.trans failed
      · exact idle active
    have own : ∀ op w, st.inst.waitingHostOp = some op → V.hooks.isHostBridge w op = false := by
      intro op w waiting
      by_contra bridge
      cases quiet.symm.trans (tracked op w waiting (by simpa using bridge))
    apply (begin_refused (refused.resolve_left late)).bind
    rintro _ st₂ ⟨⟨error, rfl⟩, stays⟩
    apply (stays.fails clears own).bind
    rintro _ st' ⟨failing, same⟩
    exact ⟨.inr failing, same.trans (or_iff_right late).symm⟩

/-- A program that calls the host, and a function. -/
def pausingProgram : Program where
  code := [OpCode.call.toByte, 0, 0, 0, OpCode.ret.toByte, OpCode.ret.toByte]
  localCount := 1
  imports := [⟨"pause", 0, .unknown⟩]
  functionRegions := [⟨0, 5, none⟩, ⟨5, 6, some 0⟩]
  scriptFunctions := [⟨5, 6⟩]
  callablePrototypes := emitProgram.callablePrototypes
  rootCallableBindings := [⟨0, 0⟩]

/-- A host function that answers later, or yields. -/
def pauses (later : Bool) : HostAnswer := if later then .pending 7 else .yielded true

def pausingHooks (later : Bool) : StreamHooks Unit :=
  { quietHooks with
    isEmit := fun _ => false
    call := fun _ _ s => ⟨pauses later, (), s.nextObject⟩
    ownErrors := by
      intro _ _ _ _ _
      cases later <;> rintro ⟨⟩ }

theorem pausing_constants : ([] : List Value).map Value.erase = pausingProgram.constants := rfl

def pausingVm (later : Bool) : StreamVm Unit where
  engine :=
    { program := pausingProgram
      constants := []
      erase_constants := pausing_constants
      floatOps := noFloats
      host := (pausingHooks later).toHost
      validate := fun _ _ _ => .ok () }
  hooks := pausingHooks later
  host := rfl

/-- The program has called the host. -/
def pausedState (later : Bool) : State (Stream Unit) :=
  resultState ((pausingVm later).run 3
    ((pausingVm later).engine.newState 8 0 ⟨none, [], ()⟩ fun _ => 0))

/-- The program waits for operation 7; its function is invoked, which is refused, and nothing is
waited for any more. -/
theorem refused_invocation_cancels :
    (pausedState true).inst.waitingHostOp = some 7 ∧
      (resultState ((pausingVm true).startInvocation 9 (.callable 0 ⟨0, .functionItem, none⟩) []
        (pausedState true))).inst.waitingHostOp = none := by
  decide +kernel

theorem refused_late (later : Bool) : (pausingVm later).RefusedLate
    (.callable 0 ⟨0, .functionItem, none⟩) [] (pausedState later) := by
  cases later
  · exact ⟨.invalidFrameState "host invocation requires a halted VM", _, rfl⟩
  · exact ⟨.invalidFrameState "host invocation requires a halted VM", _, rfl⟩

/-- If the host has yielded, the program can go on. -/
theorem refused_invocation_yielded :
    (pausedState false).inst.executionFrames.length = 1 ∧
      Goes ((pausingVm false).startInvocation 9 (.callable 0 ⟨0, .functionItem, none⟩) [])
        (pausedState false) fun _ st' =>
          SameMachine (pausedState false).inst st'.inst := by
  refine ⟨by decide +kernel, ?_⟩
  have clears : (pausingVm false).hooks.Clears := fun _ _ _ _ _ => rfl
  have refused := refused_invocation (pausingVm false) 9 (.callable 0 ⟨0, .functionItem, none⟩) []
    (pausedState false) clears (fun _ _ _ bridge => absurd bridge Bool.false_ne_true)
    (.inr (refused_late false))
  exact refused.mono fun _ _ ended => ended.2.mpr (.inr rfl)

end RustScript.Vm
