import RustScript.Vm.FrameStack
import RustScript.Vm.Fusion

/-!
# The frame stack along a run

A run is a sequence of turns (`Engine.turn`): rounds of the two loops, host
invocations, answers to pending operations and writes from outside; what an action of
the embedder does is a sequence of turns (`perform_reached`).  In a run whose
instructions keep to their own frames, `FrameStack` holds in every state
(`frameStack_of_proper`).  Validation does not make sure of this: a function can take
an operand of its caller, and its operand base is then above the stack
(`callee_takes_operand_of_caller`).
-/

namespace RustScript.Vm

open Wp List Engine Option

variable {W : Type} {E : Engine W}

namespace Engine

/-! ## Fused sequences -/

variable {stack : List NumericValue} {s : Instance W} {st : State W} {start : State W}

/-- A sequence fails only by an arithmetic error. -/
theorem scanScalarSequence_harmless {steps cursor : Nat} {e : VmError}
    (h : (E.scanScalarSequence s steps cursor stack).2 = .failed e) : e.Harmless := by
  obtain ⟨count, path, -⟩ := scan_sequence h nofun
  clear h
  induction path with
  | last _ ends =>
    cases ends with
    | failed _ computed => exact scalarArithmetic_harmless computed
  | next _ _ _ ih => exact ih

/-! ## The run loops -/

/-- A run ends framed; an interruption leaves it framed too. -/
def RunsFramed {α : Type} (x : VmM W α) (st : State W) : Prop :=
  wp x (fun _ st' => Framed st'.inst) (fun e st' => e.isInterrupt = true → Framed st'.inst) st

variable {α : Type} {x : VmM W α} {st' : State W} {rounds stackBase frameCount : Nat} {β : Type}
  {f : α → VmM W β} {allow : Bool}

theorem core_wp {x : CoreM W α} {P : α → Instance W → Prop} (h : EndsIn P x st.inst) :
    wp (core x) (fun a st' => P a st'.inst) (fun e st' => e.isInterrupt = true → Framed st'.inst)
      st := by
  unfold core
  rw [wp_zoom]
  apply wp_mono h
  · intro a s' after
    exact after
  · intro e s' final interrupt
    rw [VmError.Final, interrupt] at final
    cases final

/-- What stays within the frame and takes no operands keeps the invariant. -/
theorem core_framed {x : CoreM W α} (framed : Framed st.inst) (h : LocalM x) :
    RunsFramed (core x) st := by
  refine core_wp (wp_mono (h st.inst) ?_ fun _ _ failed => failed.2)
  rintro _ _ ⟨_, step⟩
  exact framed.within step.within (fun _ => False.elim) framed.operandBase_le

theorem finishStep_framed {stepped : Stepped} (h : StepFramed stepped st.inst) :
    RunsFramed (E.finishStep stepped) st := by
  apply finishStep_wp
  · exact fun _ _ => h.1
  · rintro - _ ⟨_, _, rfl⟩
    exact h.1
  · rintro rfl _ ⟨_, _, rfl⟩
    exact core_wp (completeActiveFrame_framed (h.1.move _) (h.2 rfl))
  · rintro - _ _ ⟨_, _, rfl⟩ - -
    exact h.1

theorem executeLdloc_framed (framed : Framed st.inst) (allow : Bool) :
    RunsFramed (E.executeLdloc allow) st := by
  refine executeLdloc_wp (I := fun st => Framed st.inst) (core_framed framed local_readLocalIndex)
    ?_ ?_ fun _ framed => framed
  · exact fun st _ framed => core_framed (by exact framed)
      (local_commitFused fun _ failed => (scanScalarSequence_harmless failed).final)
  · exact fun st index framed =>
      core_framed framed (always_bind (loadLocalValue_steady index) push_steady).local

theorem executeInterpreterInstruction_framed (framed : Framed s) (own : E.OwnFrame s) {raw : UInt8}
    (byte : E.program.code[s.ip]? = some raw) (fetched : st.inst = { s with ip := s.ip + 1 }) :
    RunsFramed (E.executeInterpreterInstruction raw allow) st := by
  unfold executeInterpreterInstruction
  cases decoded : OpCode.tryFrom raw with
  | none => exact nofun
  | some opcode =>
    have known : opcodeAt E.program s.ip = some opcode := by rw [opcodeAt, byte, bind_some, decoded]
    have general : RunsFramed (do E.finishStep (← core (E.execute opcode))) st := by
      apply wp_seq (core_wp (P := StepFramed) _)
      intro stepped st' after
      exact finishStep_framed after
      · rw [fetched]
        exact execute_framed framed own known
    cases opcode with
    | ldloc =>
      apply executeLdloc_framed
      rw [fetched]
      exact framed.move _
    | _ => exact general

/-- A round keeps the invariant if its instruction keeps to its frame. -/
theorem framed_rule {fuses : State W → Bool} :
    E.RoundRule fuses (fun st => Framed st.inst ∧ E.OwnFrame st.inst) (fun _ st => Framed st.inst)
      fun e st => e.isInterrupt = true → Framed st.inst where
  context := by
    rintro st _ start ⟨_, _, rfl⟩
    exact start
  outside _ _ := nofun
  instruction start _ := by
    apply wp_mono fetchOpcode_spec
    · rintro raw _ ⟨byte, rfl⟩
      exact executeInterpreterInstruction_framed start.1 start.2 byte rfl
    · intro e st' failed interrupt
      cases failed.1.symm.trans interrupt
  interrupted start _ _ := start.1
  handled failed interrupt := failed interrupt

/-! ## Host invocations -/

/-- The callable stands for the builtin that shares slots with closures. -/
def StandsForBind (E : Engine W) (callable : Value) : Prop :=
  ∃ object value prototype importIndex, callable = .callable object value ∧
    E.program.callablePrototypes[value.prototypeId.toNat]? = some prototype ∧
    prototype.target = .hostImport importIndex ∧ E.SharesSlots importIndex

theorem callValueNow_framed (framed : Framed st.inst) {argc : UInt8}
    (own : st.inst.activeOperandStackBaseCache + (argc.toNat + 1) ≤ st.inst.stack.length)
    (shared : ∀ object value, st.inst.stack[argc.toNat]? = some (.callable object value) →
        E.CallsInFrame value.prototypeId st.inst) :
    wp (E.callValueNow argc) (fun _ st' => Framed st'.inst ∧ FramesGrow st.inst st'.inst)
      (fun _ _ => True) st := by
  unfold callValueNow
  rw [wp_bind]
  have called : EndsIn (fun _ s' => Framed s' ∧ FramesGrow st.inst s') (E.executeCallValue argc)
      st.inst := by
    apply wp_mono executeCallValue_spec _ fun _ _ broken => broken.final
    rintro _ _ ⟨_, object, value, callee, called⟩
    exact called.framed_drop framed own (shared object value callee)
  apply wp_mono (core_wp called)
  · intro entered st' after
    cases entered with
    | frame =>
      change wp (chargeInterruptTick >>= _) _ _ _
      rw [wp_bind]
      apply wp_mono chargeInterruptTick_wp _ fun _ _ _ => trivial
      rintro _ _ ⟨_, _, rfl⟩
      exact after
    | host outcome => exact after
  · intro _ _ _
    trivial

/-- Without frames any operand stack fits. -/
theorem framed_restack_halted (framed : Framed s) (halted : s.executionFrames = [])
    {stack : List Value} {hostReturn : Option Value} : Framed { s with stack, hostReturn } := by
  have restacked : Framed { s with stack } := by
    apply framed.restack
    have base := framed.operandBase
    rw [halted] at base
    rw [base]
    exact Nat.zero_le _
  exact { restacked with }

theorem returnToHost_framed (framed : Framed s) {frame : ExecutionFrame}
    (active : s.executionFrames = [frame]) (returns : frame.continuation ≠ .halt) :
    Framed { s with executionFrames := returningToHost s.executionFrames } := by
  have stacked := framed.locals
  have based := framed.operands
  have localBase := framed.localBase
  have operandBase := framed.operandBase
  have depth := framed.callDepth
  have cells := framed.cells
  have rooted := framed.rooted
  rw [Instance.scriptFrameDepth] at depth
  rw [active] at stacked based localBase operandBase depth cells rooted
  have owner : frame.prototypeId.isSome := by
    have owner := rooted.1
    rwa [if_neg returns] at owner
  rw [active]
  refine ⟨⟨stacked, based, localBase, operandBase, depth, framed.limit, ?_⟩, ?_⟩
  · intro slot shared
    obtain ⟨holder, mem, inside⟩ := cells slot shared
    rw [mem_singleton.mp mem] at inside
    exact ⟨_, mem_cons_self, inside⟩
  · exact ⟨owner, trivial⟩

theorem settleInvocation_framed {s' : Instance W} (framed : Framed s')
    (halted : s.executionFrames = []) (grow : FramesGrow s s') (stackBase : Nat)
    (outcome : ExecOutcome) :
    wp (settleInvocation stackBase s.executionFrames.length outcome) (fun _ => Framed)
      (fun _ _ => True) s' := by
  rw [halted]
  apply settleInvocation_wp
  · exact fun none _ _ _ => framed_restack_halted framed (length_eq_zero_iff.mp none)
  · exact fun _ => trivial
  · intro differ
    rcases grow with same | ⟨frame, returns, grown⟩
    · exact absurd (congrArg length (same.trans halted)) differ
    · rw [halted] at grown
      exact returnToHost_framed framed grown returns

theorem beginInvocation_framed (framed : Framed st.inst) {callable : Value} {args : List Value}
    (plain : ¬ E.StandsForBind callable) :
    wp (E.beginInvocation callable args) (fun _ st' => Framed st'.inst) (fun _ _ => True) st := by
  apply beginInvocation_wp fun _ _ => trivial
  intro halted argc
  have base : st.inst.activeOperandStackBaseCache = 0 := by
    have base := framed.operandBase
    rwa [halted] at base
  rw [orAbort_wp]
  refine wp_mono (callValueNow_framed (by exact framed_restack_halted framed halted) ?_ ?_) ?_
    fun _ _ _ => trivial
  · simp only [base, argc, length_append, length_cons, length_reverse]
    omega
  · intro object value callee prototype importIndex known target shares
    rw [argc] at callee
    have same : callable = .callable object value := by simpa using callee
    exact absurd ⟨object, value, prototype, importIndex, same, known, target, shares⟩ plain
  · rintro outcome st' ⟨framed', grow⟩
    rw [core, wp_zoom]
    exact settleInvocation_framed framed' (by exact halted) grow _ outcome

/-! ## Turns -/

/-- What can happen to a machine between two instructions: a round of one of the loops, a
change of the run context, and what the embedder does. -/
inductive Turn where
  | fastRound
  | loopRound
  | context (runCtx : RunContext)
  | invoke (callable : Value) (args : List Value)
  | completeHostOp (opId : Nat) (result : Except String (List Value))
  | setLocal (index : UInt8) (value : Value)

def turn (E : Engine W) : Turn → VmM W Unit
  | .fastRound => do let _ ← E.fastRound
  | .loopRound => do let _ ← E.loopRound
  | .context runCtx => modify fun st => { st with runCtx }
  | .invoke callable args => do let _ ← E.beginInvocation callable args
  | .completeHostOp opId result => core (Engine.completeHostOp opId result)
  | .setLocal index value => core (storeLocal index value)

/-- The states after turns that all succeed, each allowed in the state it starts from. -/
inductive Reached (E : Engine W) (Allowed : Turn → Instance W → Prop) (start : State W) :
    State W → Prop where
  | start : Reached E Allowed start start
  | turn {st st' : State W} (turn : Turn) : Reached E Allowed start st →
      Allowed turn st.inst → E.turn turn st = .ok () st' → Reached E Allowed start st'

/-- The turn keeps to the frames: an instruction to its own, and a host invocation, which
starts without a frame, does not share slots. -/
def Proper (E : Engine W) : Turn → Instance W → Prop
  | .fastRound, s | .loopRound, s => E.OwnFrame s
  | .invoke callable _, _ => ¬ E.StandsForBind callable
  | _, _ => True

theorem completeHostOp_framed (framed : Framed s) {opId : Nat}
    {result : Except String (List Value)} :
    wp (completeHostOp opId result) (fun _ => Framed) (fun _ _ => True) s := by
  unfold completeHostOp
  rw [wp_bind, wp_get, wp_bind, wp_expect]
  refine ⟨fun waiting _ => ?_, fun _ => trivial⟩
  rw [wp_bind, wp_require]
  refine ⟨fun _ => ?_, fun _ => trivial⟩
  rw [wp_bind, wp_modify, wp_bind, wp_lift]
  refine ⟨fun values _ => ?_, fun _ _ => trivial⟩
  have pushed : Framed { s with stack := values.reverse ++ s.stack } := by
    apply framed.restack
    have above := framed.operandBase_le
    rw [length_append]
    omega
  exact { pushed with }

/-- **A proper turn keeps the invariant.** -/
theorem turn_framed {turn : Turn} (framed : Framed st.inst)
    (proper : E.Proper turn st.inst) (done : E.turn turn st = .ok () st') : Framed st'.inst := by
  have ends : wp (E.turn turn) (fun _ st' => Framed st'.inst) (fun _ _ => True) st := by
    cases turn with
    | fastRound =>
      change wp (E.fastRound >>= _) _ _ _
      rw [wp_bind]
      exact wp_mono (framed_rule.fastRound ⟨framed, proper⟩) (fun _ _ h => h) fun _ _ _ => trivial
    | loopRound =>
      change wp (E.loopRound >>= _) _ _ _
      rw [wp_bind]
      exact wp_mono (framed_rule.loopRound ⟨framed, proper⟩) (fun _ _ h => h) fun _ _ _ => trivial
    | context runCtx => exact framed
    | invoke callable args =>
      change wp (E.beginInvocation callable args >>= _) _ _ _
      rw [wp_bind]
      exact wp_mono (beginInvocation_framed framed proper) (fun _ _ h => h) fun _ _ _ => trivial
    | completeHostOp opId result =>
      change wp (core _) _ _ _
      rw [core, wp_zoom]
      exact completeHostOp_framed framed
    | setLocal index value =>
      exact wp_mono (core_framed framed (storeLocal_steady index value).local)
        (fun _ _ h => h) fun _ _ _ => trivial
  exact wp_ok ends done

theorem foldl_bindRootCallable_framed (framed : Framed s) (bindings : List RootCallableBinding) :
    Framed (bindings.foldl E.bindRootCallable s) := by
  have step : Steady (fun _ => False) s (bindings.foldl E.bindRootCallable s) :=
    E.foldl_bindRootCallable_steady bindings s
  have within : Within (fun _ => False) 0 s _ := step.toInline.within step.stack
  exact framed.within within (fun _ => False.elim) framed.operandBase_le

theorem newInstance_framed {maxScriptCallDepth nextObject : Nat} {world : W} :
    Framed (E.newInstance maxScriptCallDepth nextObject world) := by
  apply foldl_bindRootCallable_framed
  refine ⟨⟨⟨?_, trivial⟩, ⟨Nat.zero_le _, trivial⟩, rfl, rfl, rfl, Nat.zero_le _, ?_⟩,
    ⟨rfl, trivial⟩⟩
  · simp [ExecutionFrame.root]
  · intro slot shared
    exact absurd rfl shared

/-! ## Actions as turns -/

/-- A computation that goes by turns from the states reached so far. -/
def GoesByTurns {α : Type} (E : Engine W) (start : State W) (x : VmM W α) : Prop :=
  ∀ st, E.Reached (fun _ _ => True) start st →
    wp x (fun _ st' => E.Reached (fun _ _ => True) start st') (fun _ _ => True) st

theorem GoesByTurns.bind (first : E.GoesByTurns start x)
    (second : ∀ a, E.GoesByTurns start (f a)) : E.GoesByTurns start (x >>= f) :=
  fun st reached => wp_seq (first st reached) second

theorem GoesByTurns.pure (a : α) :
    E.GoesByTurns start (pure a : VmM W α) := fun _ reached => reached

theorem GoesByTurns.of_turn (turn : Turn)
    (h : ∀ {st st' : State W} {a : α}, x st = .ok a st' → E.turn turn st = .ok () st') :
    E.GoesByTurns start x := by
  intro st reached
  unfold wp
  cases result : x st with
  | error e st' => trivial
  | ok a st' => exact .turn turn reached trivial (h result)

/-- The answer of a round is not part of the turn. -/
theorem forget_ok {a : α} (h : x st = .ok a st') : (do let _ ← x : VmM W Unit) st = .ok () st' := by
  change EStateM.bind x (fun _ => pure ()) st = _
  rw [EStateM.bind, h]
  rfl

theorem GoesByTurns.of_inst
    (h : ∀ st, wp x (fun _ st' => ∃ runCtx, st' = { st with runCtx }) (fun _ _ => True) st) :
    E.GoesByTurns start x := by
  intro st reached
  apply wp_mono (h st)
  · rintro _ _ ⟨runCtx, rfl⟩
    exact .turn (.context runCtx) reached trivial rfl
  · intro _ _ _
    trivial

theorem interruptionEnabled_goesByTurns {start : State W} :
    E.GoesByTurns start interruptionEnabled :=
  .of_inst fun st => ⟨st.runCtx, rfl⟩

theorem runFastInterpreter_goesByTurns {start : State W} :
    E.GoesByTurns start (E.runFastInterpreter rounds) := by
  induction rounds with
  | zero => exact .pure _
  | succ rounds ih =>
    apply GoesByTurns.bind (.of_turn .fastRound forget_ok)
    intro round
    cases outcomeToStatus round.2 with
    | some status => exact .pure _
    | none =>
      apply GoesByTurns.bind interruptionEnabled_goesByTurns
      intro enabled
      split
      · exact .pure _
      · exact ih

theorem runLoop_goesByTurns {start : State W} : E.GoesByTurns start (E.runLoop rounds) := by
  induction rounds with
  | zero => exact .pure _
  | succ rounds ih =>
    apply GoesByTurns.bind (.of_turn .loopRound forget_ok)
    intro outcome
    cases outcomeToStatus outcome with
    | some status => exact .pure _
    | none => exact ih

theorem runInternal_goesByTurns {start : State W} : E.GoesByTurns start (E.runInternal rounds) := by
  apply GoesByTurns.bind
  · apply GoesByTurns.of_inst
    intro st
    rw [wp_lift]
    exact ⟨fun _ _ => ⟨st.runCtx, rfl⟩, fun _ _ => trivial⟩
  · intro _
    apply GoesByTurns.bind (x := get) fun _ reached => reached
    intro st
    split
    · exact .pure _
    · apply GoesByTurns.bind (x := rearm) (.of_inst fun _ => ⟨_, rfl⟩)
      intro _
      apply GoesByTurns.bind interruptionEnabled_goesByTurns
      intro enabled
      split
      · exact runLoop_goesByTurns
      · apply GoesByTurns.bind runFastInterpreter_goesByTurns
        intro answer
        rcases answer with _ | _ | status
        · exact .pure _
        · exact runLoop_goesByTurns
        · exact .pure _

theorem orAbort_goesByTurns (h : E.GoesByTurns start x) :
    E.GoesByTurns start (orAbort stackBase frameCount x) := by
  intro st reached
  rw [orAbort_wp]
  exact wp_mono (h st reached) (fun _ _ reached' => reached') fun _ _ _ => trivial

/-- **An action that succeeds goes by turns.** -/
theorem perform_reached {action : Action} {status : Option VmStatus}
    (done : E.perform action st = .ok status st') : E.Reached (fun _ _ => True) st st' := by
  have goes : E.GoesByTurns st (E.perform action) := by
    cases action with
    | run rounds => exact runInternal_goesByTurns
    | startCallable rounds callable args =>
      intro before
      apply GoesByTurns.bind (.of_turn (.invoke callable args) forget_ok)
      intro status
      cases status with
      | some status => exact .pure _
      | none => exact orAbort_goesByTurns runInternal_goesByTurns
    | completeHostOp opId result =>
      apply GoesByTurns.bind (.of_turn (.completeHostOp opId result) fun done => done)
      intro _
      exact .pure _
    | setLocal index value =>
      apply GoesByTurns.bind (.of_turn (.setLocal index value) fun done => done)
      intro _
      exact .pure _
    | grant grant =>
      have granted : E.GoesByTurns st
          (modify fun st => { st with runCtx := grant.apply st.runCtx }) :=
        .of_inst fun st => ⟨grant.apply st.runCtx, rfl⟩
      apply granted.bind
      intro _
      exact .pure _
  have reached := wp_ok (goes st .start) done
  exact reached

/-- **The frame stack along a run.**  In every state that is reached from a new machine by
turns that keep to their frames, the frames fit together. -/
theorem frameStack_of_proper (E : Engine W) (maxScriptCallDepth nextObject : Nat) (world : W)
    (readings : Nat → Nat) {st : State W}
    (reached : E.Reached E.Proper (E.newState maxScriptCallDepth nextObject world readings) st) :
    FrameStack st.inst := by
  have framed : Framed st.inst := by
    induction reached with
    | start => exact newInstance_framed
    | turn turn _ proper done ih => exact turn_framed ih proper done
  exact framed.toFrameStack

end Engine

/-! ## The exception -/

/-- A main program that calls a function without parameters, after some instructions. -/
def calleeProgram (before callee : List UInt8) : Program :=
  let entry := UInt32.ofNat (before.length + 7)
  let codeEnd := UInt32.ofNat (before.length + 7 + callee.length)
  { constants := [.int 7]
    code := before ++ [OpCode.callScript.toByte, 0, 0, 0, 0, 0, OpCode.ret.toByte] ++ callee
    functionRegions := [⟨0, entry, none⟩, ⟨entry, codeEnd, some 0⟩]
    scriptFunctions := [⟨entry, codeEnd⟩]
    callablePrototypes :=
      [⟨.functionItem, .scriptFunction 0, 0, 0, [], [], [], [], none, none⟩] }

def calleeEngine (before callee : List UInt8) : Engine Unit where
  program := calleeProgram before callee
  constants := [.int 7]
  erase_constants := rfl
  floatOps := noFloats
  host := promptHost
  validate _ _ _ := .ok ()

/-- A constant is on the stack when the function is called, and the function drops it. -/
def popEngine : Engine Unit :=
  calleeEngine [OpCode.ldc.toByte, 0, 0, 0, 0] [OpCode.pop.toByte, OpCode.ret.toByte]

/-- The function only returns. -/
def returnEngine : Engine Unit := calleeEngine [] [OpCode.ret.toByte]

/-- The height of the operand stack and the operand bases after a success. -/
def operandShape {α : Type} : EStateM.Result VmError (State Unit) α → Option (Nat × List Nat)
  | .ok _ st => some (st.inst.stack.length,
      st.inst.executionFrames.map ExecutionFrame.operandStackBase)
  | .error .. => none

/-- A function that drops the top of the stack is valid, and it drops an operand of its
caller: its operand base is then above the stack. -/
theorem callee_takes_operand_of_caller :
    Vmbc.validateProgram (fun _ => none) popEngine.program 0 = .ok () ∧
      ∃ status st, popEngine.perform (.run 3) (popEngine.newState 8 0 () fun _ => 0) =
          .ok status st ∧
        popEngine.Reached (fun _ _ => True) (popEngine.newState 8 0 () fun _ => 0) st ∧
        ¬ FrameStack st.inst := by
  refine ⟨by decide, ?_⟩
  have shape : operandShape (popEngine.perform (.run 3)
      (popEngine.newState 8 0 () fun _ => 0)) = some (0, [1, 0]) := by
    decide +kernel
  cases result : popEngine.perform (.run 3) (popEngine.newState 8 0 () fun _ => 0) with
  | error e st =>
    rw [result] at shape
    cases shape
  | ok status st =>
    refine ⟨status, st, rfl, perform_reached result, ?_⟩
    intro framed
    rw [result] at shape
    obtain ⟨height, bases⟩ := Prod.mk.inj (some.inj shape)
    have based := framed.operands
    rw [height] at based
    cases frames : st.inst.executionFrames with
    | nil =>
      rw [frames] at bases
      cases bases
    | cons frame older =>
      rw [frames] at bases based
      have base : frame.operandStackBase = 1 := (cons.inj bases).1
      have below := based.1
      omega

/-- A call that comes first keeps to the frame of the main program. -/
theorem first_call_keeps_frames :
    ∃ st, returnEngine.Reached returnEngine.Proper (returnEngine.newState 8 0 () fun _ => 0) st ∧
      st.inst.executionFrames.length = 2 ∧ FrameStack st.inst := by
  have own : returnEngine.OwnFrame (returnEngine.newState 8 0 () fun _ => 0).inst := by
    refine ⟨by decide, by decide, ?_⟩
    intro returns
    exact absurd returns (by unfold MayReturn; decide)
  have shape : operandShape (returnEngine.turn .fastRound
      (returnEngine.newState 8 0 () fun _ => 0)) = some (0, [0, 0]) := by decide +kernel
  cases result : returnEngine.turn .fastRound (returnEngine.newState 8 0 () fun _ => 0) with
  | error e st =>
    rw [result] at shape
    cases shape
  | ok _ st =>
    have reached : returnEngine.Reached returnEngine.Proper
        (returnEngine.newState 8 0 () fun _ => 0) st :=
      .turn .fastRound .start own result
    rw [result] at shape
    have frames := congrArg length (Prod.mk.inj (some.inj shape)).2
    rw [length_map] at frames
    exact ⟨st, reached, frames, frameStack_of_proper _ 8 0 () _ reached⟩

end RustScript.Vm
