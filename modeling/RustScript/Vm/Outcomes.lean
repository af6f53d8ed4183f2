import RustScript.Vm.Effects
import RustScript.Vm.Code

/-!
# What one instruction does

What is shown of runs rests on what one instruction can do, which is said here once
(`execute_did`).  An instruction that is neither a call nor a return is `Plain`: it stays
in its frame and takes at most so many operands.  A call of the host (`HostCalled`) hands
the world over, and the machine may come to wait for it; a call of a script function makes
a frame (`NewFrame`), and a return leaves one (`FrameLeft`).

A failure (`Broken`) makes no frame.  It is not about the code, and does not move the
instruction pointer away, if the instruction is readable and the host answers a call to which
it can return.
-/

namespace RustScript.Vm

open Wp HostAnswer List
open ByteCodec (ofLeBytes)
open Compiler (BuiltinFunction)

variable {W : Type} {E : Engine W} {s s' : Instance W} {fits : Prop} {e : VmError}

/-- The errors that the general loop does not take for interruptions. -/
def VmError.Final (e : VmError) : Prop := e.isInterrupt = false

theorem VmError.Harmless.final {e : VmError} (h : e.Harmless) : e.Final := by
  cases e with
  | outOfFuel | epochDeadlineReached => cases h
  | _ => rfl

/-- A computation ends in `P`, or fails for good. -/
def EndsIn {α : Type} (P : α → Instance W → Prop) (x : CoreM W α) (s : Instance W) : Prop :=
  wp x P (fun e _ => e.Final) s

/-! ## Steps inside a frame -/

/-- In line, except that the instruction pointer may move, that the machine may come to wait
for the host, and that up to `count` operands may be gone. -/
structure Within (A : Nat → Prop) (count : Nat) (s s' : Instance W) : Prop where
  inline : Inline A
    { s with ip := s'.ip, waitingHostOp := s'.waitingHostOp, world := s'.world } s'
  stack : s.stack.length ≤ s'.stack.length + count

/-- In line from `ip` on, without new shared slots, and up to `count` operands are gone. -/
structure Plain (ip count : Nat) (s s' : Instance W) : Prop where
  inline : Inline (fun _ => False) { s with ip } s'
  stack : s.stack.length ≤ s'.stack.length + count

section Steps

variable {A : Nat → Prop} {ip count : Nat}

theorem Inline.within (step : Inline A s s') (stack : s.stack.length ≤ s'.stack.length + count) :
    Within A count s s' := by
  refine ⟨?_, stack⟩
  rw [step.ip, step.waiting, step.world]
  exact step

theorem Plain.within (step : Plain ip count s s') : Within (fun _ => False) count s s' :=
  ⟨{ step.inline with ip := rfl, waiting := rfl, world := rfl }, step.stack⟩

/-- In line, without operands of its own. -/
def Local (s s' : Instance W) : Prop := ∃ ip, Plain ip 0 s s'

instance : Effect (Local (W := W)) where
  refl s := ⟨s.ip, Effect.refl s, Nat.le_refl _⟩
  trans := by
    rintro s₁ s₂ s₃ ⟨ip, first⟩ ⟨ip', second⟩
    have moved : Inline (fun _ => False) { s₁ with ip := ip' } { s₂ with ip := ip' } :=
      { first.inline with ip := rfl }
    exact ⟨ip', Effect.trans moved second.inline, Nat.le_trans first.stack second.stack⟩

abbrev LocalM {α : Type} (x : CoreM W α) : Prop := Obeys Local VmError.Final x

theorem Always.local {α : Type} {x : CoreM W α} (h : SteadyM x) : LocalM x :=
  (h fun _ => False).mono (fun s _ step => ⟨s.ip, step.toInline, step.stack⟩)
    fun _ harmless => harmless.final

theorem local_setIp {ip : Nat} : LocalM (setIp ip : CoreM W Unit) :=
  obeys_modify fun _ => ⟨ip, Effect.refl _, Nat.le_refl _⟩

end Steps

/-! ## Failures -/

def HostAnswer.Yields : HostAnswer → Prop
  | .yielded _ => True
  | _ => False

/-- The world is as it was or as a call of the host has left it; if the call yielded, then
`yields` is known. -/
def Passed (E : Engine W) (yields : Prop) (s s' : Instance W) : Prop :=
  s'.world = s.world ∨ ∃ index args t, t.world = s.world ∧
    s'.world = (E.host.call index args t).world ∧
    ((E.host.call index args t).answer.Yields → yields)

theorem Passed.mono {yields yields' : Prop} {s s' : Instance W} (h : Passed E yields s s')
    (weaker : yields → yields') : Passed E yields' s s' := by
  rcases h with same | ⟨index, args, t, before, after, answer⟩
  · exact .inl same
  · exact .inr ⟨index, args, t, before, after, fun yielded => weaker (answer yielded)⟩

/-- A failure; under the condition `fits` it says nothing about the code and has not moved. -/
structure Broken (E : Engine W) (fits : Prop) (s : Instance W) (e : VmError) (s' : Instance W) :
    Prop where
  final : e.Final
  passed : Passed E False s s'
  frames : s'.executionFrames ⊆ s.executionFrames
  harmless : fits → e.Harmless
  ip : fits → s'.ip = s.ip

section Failures

theorem Broken.of_inline {A : Nat → Prop} (step : Inline A s s') (harmless : e.Harmless) :
    Broken E fits s e s' :=
  ⟨harmless.final, .inl step.world, by rw [step.frames]; exact Subset.refl _,
    fun _ => harmless, fun _ => step.ip⟩

theorem Broken.refl (harmless : e.Harmless) : Broken E fits s e s :=
  .of_inline (Effect.refl (P := Inline fun _ => False) s) harmless

theorem Broken.unfit (final : e.Final) (unfit : ¬ fits) (world : s'.world = s.world)
    (frames : s'.executionFrames = s.executionFrames) : Broken E fits s e s' :=
  ⟨final, .inl world, by rw [frames]; exact Subset.refl _, fun fit => absurd fit unfit,
    fun fit => absurd fit unfit⟩

theorem Broken.mono {fits' : Prop} (h : Broken E fits s e s') (weaker : fits' → fits) :
    Broken E fits' s e s' :=
  { h with harmless := fun fit => h.harmless (weaker fit), ip := fun fit => h.ip (weaker fit) }

/-- The operands do not matter. -/
theorem Broken.restack {fits' : Prop} {stack : List Value}
    (h : Broken E fits { s with stack } e s') (weaker : fits' → fits) : Broken E fits' s e s' :=
  { h with harmless := fun fit => h.harmless (weaker fit), ip := fun fit => h.ip (weaker fit) }

end Failures

namespace Engine

/-! ## Host calls -/

/-- The import is the builtin that shares slots with closures. -/
def SharesSlots (E : Engine W) (index : UInt16) : Prop :=
  index = BuiltinFunction.bindCallable.callIndex ∧ ¬ E.host.overrides index

/-- The slots that a call of an import can come to share. -/
def SharedBy (E : Engine W) (index : UInt16) (s : Instance W) (slot : Nat) : Prop :=
  E.SharesSlots index ∧ s.ActiveSlot slot

/-- What an answer of the host means for the instruction that called it. -/
def hostCallOutcome : HostCallExecOutcome → ExecOutcome
  | .returned => .continue
  | .halted => .halted
  | .yielded => .yielded
  | .pending opId => .waiting opId

/-- What a call of the host has done that did not fail. -/
structure HostCalled (E : Engine W) (index : UInt16) (count callIp : Nat) (answer : HostAnswer)
    (s : Instance W) (outcome : ExecOutcome) (s' : Instance W) : Prop where
  within : Within (E.SharedBy index s) count s s'
  place : s'.ip = s.ip ∨ answer = .yielded true ∧ s'.ip = callIp ∨
    (∃ opId, answer = .pending opId) ∧ E.callResumeIp callIp = .ok s'.ip
  goesOn : outcome = .continue → s'.ip = s.ip
  waiting : (∀ opId, outcome ≠ .waiting opId) → s'.waitingHostOp = s.waitingHostOp
  passed : Passed E (outcome = .yielded) s s'

/-- An answer that comes later comes to a call instruction. -/
def AnswerResumes (E : Engine W) (callIp : Nat) (answer : HostAnswer) : Prop :=
  ∀ opId, answer = .pending opId → ∃ ip, E.callResumeIp callIp = .ok ip

variable {operands : List Value} {callable : Option (Nat × CallableValue)} {prototypeId : UInt32}
  {operandStackBase start : Nat} {continuation : FrameContinuation} {callIp count target : Nat}
  {argc : UInt8} {index : UInt16} {code : List UInt8}

theorem callResumeIp_final (h : E.callResumeIp callIp = .error e) :
    e.Final := by
  unfold callResumeIp at h
  split at h
  · cases h
    rfl
  · split at h
    · cases h
      rfl
    · split at h
      · cases h
        rfl
      · split at h
        · cases h
          rfl
        · cases h

theorem length_le_replaced {values stack : List Value} {argc : Nat} :
    stack.length ≤ (values ++ stack.drop argc).length + argc := by
  rw [length_append, length_drop]
  omega

theorem callHost_spec {argc : Nat} {s : Instance W} : wp (E.callHost index argc callIp)
      (fun outcome => E.HostCalled index argc callIp
        (E.host.call index (s.stack.take argc).reverse s).answer s (hostCallOutcome outcome))
      (Broken E (E.AnswerResumes callIp
        (E.host.call index (s.stack.take argc).reverse s).answer) s) s := by
  unfold callHost
  rw [wp_bind, wp_get, wp_bind, wp_modify]
  have replaced : ∀ values ip waitingHostOp, Within (E.SharedBy index s) argc s { s with
      stack := values ++ s.stack.drop argc, ip, waitingHostOp
      world := (E.host.call index (s.stack.take argc).reverse s).world
      nextObject := (E.host.call index (s.stack.take argc).reverse s).nextObject
      hostCalls := s.hostCalls ++ [⟨index, (s.stack.take argc).reverse⟩] } :=
    fun values _ _ => ⟨⟨rfl, rfl, rfl, rfl, rfl, rfl, rfl, rfl, rfl, fun _ => .inl⟩,
      length_le_replaced⟩
  have passed : ∀ {yields : Prop} {s' : Instance W},
      s'.world = (E.host.call index (s.stack.take argc).reverse s).world →
      ((E.host.call index (s.stack.take argc).reverse s).answer.Yields → yields) →
      Passed E yields s s' := fun after answer => .inr ⟨index, _, s, rfl, after, answer⟩
  cases answered : (E.host.call index (s.stack.take argc).reverse s).answer with
  | returned values =>
    exact ⟨replaced _ _ _, .inl rfl, fun _ => rfl, fun _ => rfl, passed rfl (by simp [answered,
      Yields])⟩
  | halted =>
    exact ⟨replaced [] _ _, .inl rfl, fun _ => rfl, fun _ => rfl, passed rfl (by simp [answered,
      Yields])⟩
  | yielded retry =>
    cases retry with
    | true =>
      exact ⟨⟨⟨rfl, rfl, rfl, rfl, rfl, rfl, rfl, rfl, rfl, fun _ => .inl⟩,
        Nat.le_add_right _ _⟩, .inr (.inl ⟨rfl, rfl⟩), nofun, fun _ => rfl, passed rfl fun _ => rfl⟩
    | false => exact ⟨replaced [] _ _, .inl rfl, nofun, fun _ => rfl, passed rfl fun _ => rfl⟩
  | pending opId =>
    have silent : ∀ {yields : Prop},
        (E.host.call index (s.stack.take argc).reverse s).answer.Yields → yields := by
      simp [answered, Yields]
    unfold applyAnswer replaceArgs
    rw [wp_bind, wp_modify, wp_bind, wp_lift]
    refine ⟨fun resumeIp known => ?_, fun e failed => ?_⟩
    · exact ⟨replaced [] _ _, .inr (.inr ⟨⟨opId, rfl⟩, known⟩), nofun,
        fun other => absurd rfl (other opId), passed rfl silent⟩
    · have unfit : ¬ E.AnswerResumes callIp (.pending opId) := by
        intro resumes
        obtain ⟨ip, known⟩ := resumes opId rfl
        cases failed.symm.trans known
      exact ⟨callResumeIp_final failed, passed rfl silent, Subset.refl _,
        fun fit => absurd fit unfit, fun _ => rfl⟩
  | failed error left =>
    have harmless := E.host.ownErrors _ _ _ _ _ answered
    exact ⟨harmless.final, passed rfl (by simp [answered, Yields]), Subset.refl _,
      fun _ => harmless, fun _ => rfl⟩

/-- A builtin that acts on the frame itself has returned. -/
theorem HostCalled.builtin {argc : Nat} {answer : HostAnswer}
    {s₁ : Instance W} (step : Steady (E.SharedBy index s) s s₁) (values : List Value) :
    E.HostCalled index argc callIp answer s .continue
      { s₁ with stack := values ++ s₁.stack.drop argc } := by
  refine ⟨⟨{ step.toInline with ip := rfl, waiting := rfl, world := rfl }, ?_⟩, .inl step.ip,
    fun _ => step.ip, fun _ => step.waiting, .inl step.world⟩
  exact Nat.le_trans step.stack length_le_replaced

/-- **A call of the host** takes its arguments; only the closure builtin shares slots. -/
theorem executeHostCall_spec {s : Instance W} : wp (E.executeHostCall index argc callIp)
      (fun outcome => E.HostCalled index argc.toNat callIp
        (E.host.call index (s.stack.take argc.toNat).reverse s).answer s (hostCallOutcome outcome))
      (Broken E (E.AnswerResumes callIp
        (E.host.call index (s.stack.take argc.toNat).reverse s).answer) s) s := by
  unfold executeHostCall
  rw [wp_bind, wp_lift]
  refine ⟨fun _ _ => ?_, fun _ failed => .refl (mapError_harmless failed)⟩
  apply wp_require_bind (.refl trivial)
  intro _
  rw [wp_ite, wp_ite]
  refine ⟨fun shares => ?_, fun _ => ⟨fun _ => ?_, fun _ => callHost_spec⟩⟩
  · rw [wp_bind]
    apply wp_mono (E.bindCallableBuiltin_active _ s)
    · intro callable s₁ step
      refine HostCalled.builtin { step with cells := ?_ } _
      exact fun slot shared => (step.cells slot shared).imp_right fun active => ⟨shares, active⟩
    · exact fun _ _ step => .of_inline step.1.toInline step.2
  · rw [wp_bind]
    apply wp_mono (detachLocalBuiltin_steady _ s)
    · exact fun _ _ step => .builtin step []
    · exact fun _ _ step => .of_inline step.1.toInline step.2

/-- The answer of an import that is called through a callable value. -/
def importAnswer (E : Engine W) (importIndex : UInt16) (operands : List Value) (s : Instance W) :
    HostAnswer :=
  (E.host.call importIndex ((operands.reverse ++ s.stack).take
    (UInt8.ofNat operands.length).toNat).reverse
    { s with stack := operands.reverse ++ s.stack }).answer

theorem callImport_spec {importIndex : UInt16} {callable : Nat × CallableValue}
    {s : Instance W} :
    wp (E.callImport importIndex callable operands operandStackBase)
      (E.HostCalled importIndex 0 (s.ip - 2) (E.importAnswer importIndex operands s) s)
      (Broken E (E.AnswerResumes (s.ip - 2) (E.importAnswer importIndex operands s)) s) s := by
  unfold callImport
  rw [wp_bind, wp_modify, wp_bind, wp_get, wp_bind]
  apply wp_mono executeHostCall_spec
  · intro outcome s' h
    have few : (UInt8.ofNat operands.length).toNat ≤ operands.length := by exact Nat.mod_le _ _
    have stack : s.stack.length ≤ s'.stack.length := by
      have := h.within.stack
      simp only [length_append, length_reverse] at this
      omega
    have inline := h.within.inline
    have same : ∀ {stack : List Value}, s.stack.length ≤ stack.length →
        E.HostCalled importIndex 0 (s.ip - 2) (E.importAnswer importIndex operands s) s
          (hostCallOutcome outcome) { s' with stack } := fun above =>
      { h with within := ⟨{ inline with ip := rfl, waiting := rfl, world := rfl }, above⟩ }
    cases outcome with
    | yielded =>
      refine same ?_
      simp only [length_append, length_take, length_cons, length_drop]
      omega
    | _ => exact same stack
  · exact fun _ _ broken => broken.restack id

/-! ## Entering a frame -/

/-- A new frame, at the entry of a function of the program. -/
inductive NewFrame (E : Engine W) (prototypeId : UInt32) (operandStackBase : Nat)
    (continuation : FrameContinuation) (s : Instance W) : Instance W → Prop
  | intro {function : ScriptFunction} {localCount : Nat} {s₁ : Instance W}
      (room : s.callDepth < s.maxScriptCallDepth) (known : function ∈ E.program.scriptFunctions)
      (step : Steady (fun slot => s.locals.length ≤ slot ∧ slot < s.locals.length + localCount)
        { s with locals := s.locals ++ List.replicate localCount .null } s₁) :
      NewFrame E prototypeId operandStackBase continuation s { s₁ with
        executionFrames := ⟨continuation, operandStackBase, s.locals.length, localCount,
          some prototypeId⟩ :: s₁.executionFrames
        activeLocalBaseCache := s.locals.length
        activeOperandStackBaseCache := operandStackBase
        callDepth := s₁.scriptFrameDepth + 1
        ip := function.entryIp.toNat }

theorem enterFunction_spec {prototype : CallablePrototype} {functionId : UInt32}
    {s : Instance W} :
    wp (E.enterFunction prototypeId prototype functionId callable operands operandStackBase
      continuation) (fun _ => E.NewFrame prototypeId operandStackBase continuation s)
      (Broken E fits s) s := by
  apply wp_require_bind (.refl trivial)
  intro room
  rw [wp_bind, wp_expect]
  refine ⟨fun function known => ?_, fun _ => .refl trivial⟩
  apply wp_require_bind (.refl trivial)
  intro _
  rw [wp_bind, wp_lift]
  refine ⟨fun _ _ => ?_, fun _ failed => .refl (checkedFrameEnd_harmless failed)⟩
  rw [wp_bind]
  apply wp_mono (inheritedCallables_readOnly s)
  · rintro inherited _ rfl
    rw [wp_bind]
    apply wp_mono (E.initializeLocals_wp prototype callable operands _ inherited s)
    · intro _ s₁ step
      have depth : (Instance.scriptFrameDepth { s₁ with
          executionFrames := ⟨continuation, operandStackBase, s.locals.length,
            prototype.frameLocalCount, some prototypeId⟩ :: s₁.executionFrames }) =
          s₁.scriptFrameDepth + 1 := countP_cons_of_pos rfl
      have new : E.NewFrame prototypeId operandStackBase continuation s _ :=
        .intro room (mem_of_getElem? known) step
      rw [← depth] at new
      exact new
    · intro e s₁ step
      exact ⟨step.2.final, .inl step.1.world, by rw [step.1.frames]; exact Subset.refl _,
        fun _ => step.2, fun _ => step.1.ip⟩
  · rintro e _ ⟨rfl, harmless⟩
    exact .refl harmless

/-- The prototype of a call is the one its id names. -/
theorem checkCall_wp : wp (E.checkCall prototypeId callable operands)
      (fun prototype s' => s' = s ∧
        E.program.callablePrototypes[prototypeId.toNat]? = some prototype)
      (fun e s' => s' = s ∧ e.Harmless) s := by
  have named : wp (E.checkCall prototypeId callable operands) (fun prototype _ =>
      E.program.callablePrototypes[prototypeId.toNat]? = some prototype) (fun _ _ => True) s := by
    unfold checkCall
    rw [wp_bind, wp_expect]
    refine ⟨fun prototype known => ?_, fun _ => trivial⟩
    apply wp_require_bind trivial
    intro _
    apply wp_require_bind trivial
    intro _
    apply wp_require_bind trivial
    intro _
    rw [wp_bind]
    apply wp_mono (E.checkArguments_readOnly prototype.schema operands s)
    · intro _ _ _
      exact known
    · intro _ _ _
      trivial
  apply wp_mono (wp_and (E.checkCall_readOnly prototypeId callable operands s) named)
  · intro prototype s' h
    exact ⟨h.1.symm, h.2⟩
  · intro e s' h
    exact ⟨h.1.1.symm, h.1.2⟩

/-- An import that is called through a callable value can be returned to. -/
def ImportResumes (E : Engine W) (prototypeId : UInt32) (operands : List Value)
    (s : Instance W) : Prop :=
  ∀ prototype importIndex, E.program.callablePrototypes[prototypeId.toNat]? = some prototype →
    prototype.target = .hostImport importIndex →
    E.AnswerResumes (s.ip - 2) (E.importAnswer importIndex operands s)

/-- A call ends in a new frame or, through a callable value, with an answer of the host. -/
inductive Called (E : Engine W) (prototypeId : UInt32) (callable : Option (Nat × CallableValue))
    (operands : List Value) (operandStackBase : Nat) (continuation : FrameContinuation)
    (s : Instance W) : Entered → Instance W → Prop
  | frame {s' : Instance W} (new : E.NewFrame prototypeId operandStackBase continuation s s') :
      Called E prototypeId callable operands operandStackBase continuation s .frame s'
  | host {prototype : CallablePrototype} {importIndex : UInt16} {outcome : ExecOutcome}
      {s' : Instance W} (value : callable.isSome)
      (known : E.program.callablePrototypes[prototypeId.toNat]? = some prototype)
      (target : prototype.target = .hostImport importIndex)
      (called : E.HostCalled importIndex 0 (s.ip - 2) (E.importAnswer importIndex operands s) s
        outcome s') :
      Called E prototypeId callable operands operandStackBase continuation s (.host outcome) s'

theorem enterScriptFrame_spec {s : Instance W} :
    wp (E.enterScriptFrame prototypeId callable operands operandStackBase continuation)
      (E.Called prototypeId callable operands operandStackBase continuation s)
      (Broken E (callable.isSome → E.ImportResumes prototypeId operands s) s) s := by
  unfold enterScriptFrame
  rw [wp_bind]
  apply wp_mono checkCall_wp
  · rintro prototype s ⟨rfl, known⟩
    cases target : prototype.target with
    | scriptFunction functionId => exact wp_seq enterFunction_spec fun _ _ new => .frame new
    | hostImport importIndex =>
      cases callable with
      | none => exact .refl trivial
      | some callable =>
        apply wp_seq (wp_mono callImport_spec (fun _ _ called => called)
          fun _ _ broken => broken.mono fun fits => fits rfl prototype importIndex known target)
        exact fun _ _ called => .host rfl known target called
  · rintro e _ ⟨rfl, harmless⟩
    exact .refl harmless

theorem asCallable_harmless {value : Option Value}
    (h : asCallable value = .error e) : e.Harmless := by
  unfold asCallable at h
  split at h
  · cases h
  · cases h
    trivial

/-- `CallValue`, with `argc` arguments on top of the callee. -/
def ValueCalled (E : Engine W) (argc : UInt8) (s : Instance W) (entered : Entered)
    (s' : Instance W) : Prop :=
  argc.toNat + 1 ≤ s.stack.length ∧ ∃ object value,
    s.stack[argc.toNat]? = some (.callable object value) ∧
    E.Called value.prototypeId (some (object, value)) (s.stack.take argc.toNat).reverse
      (s.stack.length - (argc.toNat + 1)) (.resumeBytecode s.ip)
      { s with stack := s.stack.drop (argc.toNat + 1) } entered s'

/-- The callee of `CallValue` can be returned to, if it is an import. -/
def ValueResumes (E : Engine W) (argc : UInt8) (s : Instance W) : Prop :=
  ∀ object value, s.stack[argc.toNat]? = some (.callable object value) →
    E.ImportResumes value.prototypeId (s.stack.take argc.toNat).reverse
      { s with stack := s.stack.drop (argc.toNat + 1) }

theorem executeCallValue_spec {s : Instance W} :
    wp (E.executeCallValue argc) (E.ValueCalled argc s) (Broken E (E.ValueResumes argc s) s) s := by
  apply wp_require_bind (.refl trivial)
  intro enough
  rw [wp_bind, wp_modify, wp_bind, wp_lift]
  refine ⟨fun callable known => ?_, fun _ failed => ?_⟩
  · obtain ⟨object, value, callee, rfl⟩ : ∃ object value,
        s.stack[argc.toNat]? = some (.callable object value) ∧ callable = (object, value) := by
      unfold asCallable at known
      split at known
      · next object value callee => exact ⟨object, value, callee, (Except.ok.inj known).symm⟩
      · cases known
    apply wp_mono enterScriptFrame_spec
    · exact fun _ _ called => ⟨enough, object, value, callee, called⟩
    · intro e s' broken
      exact broken.restack fun fits _ => fits object value callee
  · exact .of_inline (Inline.touch (A := fun _ => False) rfl) (asCallable_harmless failed)

theorem executeCallScript_spec {prototypeId : UInt32}
    {s : Instance W} :
    wp (E.executeCallScript prototypeId argc)
      (fun entered s' => argc.toNat ≤ s.stack.length ∧
        E.Called prototypeId none (s.stack.take argc.toNat).reverse
          (s.stack.length - argc.toNat) (.resumeBytecode s.ip)
          { s with stack := s.stack.drop argc.toNat } entered s')
      (Broken E fits s) s := by
  apply wp_require_bind (.refl trivial)
  intro enough
  apply wp_mono enterScriptFrame_spec
  · exact fun _ _ called => ⟨enough, called⟩
  · exact fun _ _ broken => broken.restack fun _ => nofun

/-! ## Leaving a frame -/

/-- The innermost frame is gone; a frame that returns has given back its slots and cells. -/
inductive FrameLeft (s : Instance W) : Instance W → Prop
  | intro {frame : ExecutionFrame} {frames : List ExecutionFrame} {stack locals : List Value}
      {captureCells : Nat → Option Nat} {ip : Nat} {hostReturn : Option Value}
      (active : s.executionFrames = frame :: frames)
      (operands : frame.operandStackBase ≤ stack.length)
      (place : ip = s.ip ∨ frame.continuation = .resumeBytecode ip)
      (released : if frame.continuation = .halt then
          locals = s.locals ∧ captureCells = s.captureCells
        else frame.localBase + frame.localCount = s.locals.length ∧
          locals = s.locals.take frame.localBase ∧
          (frame.prototypeId.isSome → captureCells =
            retainOutside frame.localBase (frame.localBase + frame.localCount) s.captureCells)) :
      FrameLeft s { s with
        stack, locals, captureCells, ip, hostReturn
        executionFrames := frames
        activeLocalBaseCache := (frames.head?.map ExecutionFrame.localBase).getD 0
        activeOperandStackBaseCache := (frames.head?.map ExecutionFrame.operandStackBase).getD 0
        callDepth := frames.countP fun frame => frame.prototypeId.isSome }

theorem releaseLocals_spec {frame : ExecutionFrame} {s : Instance W} : wp (releaseLocals frame)
      (fun _ s' => frame.localBase + frame.localCount = s.locals.length ∧ ∃ captureCells,
        (frame.prototypeId.isSome → captureCells =
          retainOutside frame.localBase (frame.localBase + frame.localCount) s.captureCells) ∧
        s' = { s with locals := s.locals.take frame.localBase, captureCells })
      (fun e s' => e.Harmless ∧ ∃ captureCells, s' = { s with captureCells }) s := by
  have released : wp (releaseCells frame)
      (fun _ s' => ∃ captureCells, (frame.prototypeId.isSome → captureCells =
          retainOutside frame.localBase (frame.localBase + frame.localCount) s.captureCells) ∧
        s' = { s with captureCells })
      (fun e s' => e.Harmless ∧ ∃ captureCells, s' = { s with captureCells }) s := by
    unfold releaseCells
    rw [wp_ite]
    refine ⟨fun _ => ?_, fun other => ⟨_, fun owned => absurd owned other, rfl⟩⟩
    rw [wp_bind, wp_lift]
    refine ⟨fun localEnd ends => ⟨_, fun _ => ?_, rfl⟩, fun _ failed =>
      ⟨checkedFrameEnd_harmless failed, _, rfl⟩⟩
    unfold checkedFrameEnd at ends
    split at ends
    · cases ends
    · rw [Except.ok.inj ends]
  apply wp_seq released
  rintro _ _ ⟨captureCells, cells, rfl⟩
  apply wp_require_bind ⟨trivial, _, rfl⟩
  exact fun ends => ⟨ends, captureCells, cells, rfl⟩

/-- **A return leaves the innermost frame.** -/
theorem completeActiveFrame_spec {s : Instance W} : wp E.completeActiveFrame (fun _ => FrameLeft s)
      (fun e s' => Broken E True s e s' ∧ s'.world = s.world) s := by
  unfold completeActiveFrame
  rw [wp_bind, wp_get]
  cases active : s.executionFrames with
  | nil => exact ⟨.refl (by trivial), rfl⟩
  | cons frame frames =>
    have popped : ∀ {e : VmError} {s' : Instance W}, e.Harmless → s'.world = s.world →
        s'.executionFrames = frames → s'.ip = s.ip →
        Broken E True s e s' ∧ s'.world = s.world := by
      intro e s' harmless world rest ip
      refine ⟨⟨harmless.final, .inl world, ?_, fun _ => harmless, fun _ => ip⟩, world⟩
      rw [rest, active]
      exact subset_cons_self _ _
    rw [wp_bind, popFrame, wp_modify, wp_bind, wp_require]
    refine ⟨fun above => ?_, fun _ => popped (by trivial) rfl rfl rfl⟩
    rw [wp_ite]
    constructor
    · intro halts
      exact .intro active above (.inl rfl) (by rw [if_pos halts]; exact ⟨rfl, rfl⟩)
    · intro returns
      have dropped : frame.operandStackBase ≤
          (s.stack.drop (s.stack.length - frame.operandStackBase)).length := by
        rw [length_drop]
        omega
      rw [wp_bind]
      change wp (updateCallDepth >>= _) _ _ _
      rw [wp_bind, updateCallDepth, wp_modify, wp_bind]
      apply wp_mono releaseLocals_spec
      · rintro _ _ ⟨ends, captureCells, cells, rfl⟩
        rw [wp_bind]
        apply wp_mono (E.checkResult_readOnly frame _ _)
        · rintro _ _ rfl
          cases continues : frame.continuation with
          | halt => exact absurd continues returns
          | resumeBytecode returnIp =>
            exact .intro active (Nat.le_succ_of_le dropped) (.inr continues)
              (by rw [if_neg returns]; exact ⟨ends, rfl, cells⟩)
          | returnToHost =>
            exact .intro active dropped (.inl rfl)
              (by rw [if_neg returns]; exact ⟨ends, rfl, cells⟩)
        · rintro _ _ ⟨rfl, harmless⟩
          exact popped harmless rfl rfl rfl
      · rintro e _ ⟨harmless, captureCells, rfl⟩
        exact popped harmless rfl rfl rfl

/-! ## Operands of the code -/

theorem readU8_spec {s : Instance W} :
    wp (readU8 code) (fun byte s' => code[s.ip]? = some byte ∧ s' = { s with ip := s.ip + 1 })
      (fun e s' => e = .bytecodeBounds ∧ s' = s ∧ code.length < s.ip + 1) s := by
  unfold wp readU8
  cases byte : code[s.ip]? with
  | none => exact ⟨rfl, rfl, Nat.lt_succ_of_le (List.getElem?_eq_none_iff.mp byte)⟩
  | some byte => exact ⟨rfl, rfl⟩

theorem readBytes_spec {s : Instance W} :
    wp (readBytes code count) (fun bytes s' => bytes = (code.drop s.ip).take count ∧
        s' = { s with ip := s.ip + count })
      (fun e s' => e = .bytecodeBounds ∧ s' = s ∧ code.length < s.ip + count) s := by
  unfold wp readBytes
  by_cases outside : s.ip + count > code.length
  · rw [if_pos outside]
    exact ⟨rfl, rfl, outside⟩
  · rw [if_neg outside]
    exact ⟨rfl, rfl⟩

/-- Reading the opcode of an instruction. -/
theorem fetchOpcode_spec {st : State W} :
    wp E.fetchOpcode (fun raw st' => E.program.code[st.inst.ip]? = some raw ∧ st' = { st with
        inst := { st.inst with ip := st.inst.ip + 1 }
        fetches := st.fetches ++ [st.inst.ip] })
      (fun e st' => e.Final ∧ st' = { st with fetches := st.fetches ++ [st.inst.ip] }) st := by
  unfold fetchOpcode fetched
  rw [wp_bind, wp_get, wp_bind, wp_modify, core, wp_zoom]
  apply wp_mono readU8_spec
  · rintro raw _ ⟨byte, rfl⟩
    exact ⟨byte, rfl⟩
  · rintro _ _ ⟨rfl, rfl, -⟩
    exact ⟨rfl, rfl⟩

/-- The instruction at an offset is whole, its operands are known, and a call can be returned
to. -/
structure WellPlaced (E : Engine W) (start : Nat) (opcode : OpCode) : Prop where
  fits : start + 1 + opcode.operandLen ≤ E.program.code.length
  constant : opcode = .ldc → E.decodedLdcValueAt start ≠ none
  branch : opcode = .br ∨ opcode = .brfalse →
    E.decodedJumpTargetAt start ≠ none ∧ E.decodedJumpTargetIsValidAt start = true
  resumes : opcode = .call ∨ opcode = .callValue → ∃ ip, E.callResumeIp start = .ok ip

/-- How the instruction at an offset fails. -/
abbrev Fails (E : Engine W) (start : Nat) (opcode : OpCode) (s : Instance W) :
    VmError → Instance W → Prop :=
  Broken E (E.WellPlaced start opcode) { s with ip := start + 1 + opcode.operandLen }

variable {opcode : OpCode}

/-- An operand is outside of the code. -/
theorem Fails.outside {ip ip' : Nat} (outside : E.program.code.length < ip + count)
    (inside : ip + count ≤ start + 1 + opcode.operandLen) :
    E.Fails start opcode s .bytecodeBounds { s with ip := ip' } := by
  refine .unfit rfl (fun placed => ?_) rfl rfl
  have := placed.fits
  omega

theorem readConstant_spec (start : Nat) (s : Instance W) :
    wp (E.readConstant start) (fun _ s' => s' = { s with ip := start + 1 + 4 })
      (E.Fails start .ldc s) { s with ip := start + 1 } := by
  unfold readConstant
  split
  · exact rfl
  · next unknown =>
      have unfit : ¬ E.WellPlaced start .ldc := fun placed => placed.constant rfl unknown
      rw [wp_bind, readU32, wp_bind]
      apply wp_mono readBytes_spec
      · rintro _ _ ⟨-, rfl⟩
        rw [wp_pure, wp_expect]
        exact ⟨fun _ _ => rfl, fun _ => .unfit rfl unfit rfl rfl⟩
      · rintro _ _ ⟨rfl, rfl, -⟩
        exact .unfit rfl unfit rfl rfl

theorem readLocalIndex_spec (length : opcode.operandLen = 1) (start : Nat) (s : Instance W) :
    wp (E.readLocalIndex start) (fun _ s' => s' = { s with ip := start + 1 + opcode.operandLen })
      (E.Fails start opcode s) { s with ip := start + 1 } := by
  unfold readLocalIndex
  split
  · rw [length]
    exact rfl
  · apply wp_mono readU8_spec
    · rintro _ _ ⟨-, rfl⟩
      rw [length]
    · rintro _ _ ⟨rfl, rfl, outside⟩
      exact .outside outside (by rw [length])

theorem local_readLocalIndex : LocalM (E.readLocalIndex start) := by
  unfold readLocalIndex
  split
  · exact obeys_bind (obeys_modify fun s => ⟨s.ip + 1, Effect.refl _, Nat.le_refl _⟩) fun _ =>
      obeys_pure _
  · intro s
    apply wp_mono readU8_spec
    · rintro _ _ ⟨-, rfl⟩
      exact ⟨s.ip + 1, Effect.refl _, Nat.le_refl _⟩
    · rintro _ _ ⟨rfl, rfl, -⟩
      exact ⟨Effect.refl _, rfl⟩

/-- A target that is in the table is the one that is read. -/
theorem readTarget_spec (branches : opcode = .br ∨ opcode = .brfalse)
    {s : Instance W} :
    wp (E.readTarget start) (fun target s' => s' = { s with ip := start + 1 + opcode.operandLen } ∧
        ∀ known, E.decodedJumpTargetAt start = some known → target = known)
      (E.Fails start opcode s) { s with ip := start + 1 } := by
  have length : opcode.operandLen = 4 := by rcases branches with rfl | rfl <;> rfl
  unfold readTarget
  split
  · next target known =>
      rw [length]
      exact ⟨rfl, fun _ other => Option.some.inj (known.symm.trans other)⟩
  · next unknown =>
      rw [wp_bind, readU32, wp_bind]
      apply wp_mono readBytes_spec
      · rintro _ _ ⟨-, rfl⟩
        rw [length]
        exact ⟨rfl, fun _ known => nomatch unknown.symm.trans known⟩
      · rintro _ _ ⟨rfl, rfl, -⟩
        exact .unfit rfl (fun placed => (placed.branch branches).1 unknown) rfl rfl

theorem branch_spec {s : Instance W} :
    wp (E.branch start target) (fun _ s' => s' = { s with ip := target })
      (fun e s' => e.Final ∧ E.decodedJumpTargetIsValidAt start ≠ true ∧ s' = s) s := by
  unfold branch
  rw [wp_ite]
  refine ⟨fun _ => rfl, fun unchecked => ?_⟩
  unfold wp jumpTo
  by_cases outside : target ≥ E.program.code.length
  · rw [if_pos outside]
    exact ⟨rfl, unchecked, rfl⟩
  · rw [if_neg outside]
    by_cases foreign : E.program.functionRegions ≠ [] ∧ ¬ E.jumpTargetIsValid s target
    · rw [if_pos foreign]
      exact ⟨rfl, unchecked, rfl⟩
    · rw [if_neg foreign]

theorem local_branchUnless {condition : Bool} : LocalM (E.branchUnless condition start target) := by
  apply obeys_ite
  · exact obeys_pure ()
  · intro s
    apply wp_mono branch_spec
    · rintro _ _ rfl
      exact ⟨target, Effect.refl _, Nat.le_refl _⟩
    · rintro _ _ ⟨final, -, rfl⟩
      exact ⟨Effect.refl _, final⟩

theorem local_commitFused {result : FusedEnd} (final : ∀ e, result = .failed e → e.Final) :
    LocalM (E.commitFused result) := by
  cases result with
  | declined => exact obeys_pure _
  | failed error => exact obeys_throw (final error rfl)
  | store dst value cursor =>
    intro s
    apply obeys_bind storeLocalAbsolute_steady.local
    exact fun _ => obeys_bind local_setIp fun _ => obeys_pure _
  | branch condition jumpOpcodeIp target cursor =>
    apply obeys_bind local_setIp
    exact fun _ => obeys_bind local_branchUnless fun _ =>
      obeys_pure _

/-! ## One instruction -/

/-- By how many operands an instruction other than a call shortens the stack. -/
def operandsTaken : OpCode → Nat
  | .pop | .stloc | .brfalse => 1
  | .add | .sub | .mul | .div | .mod | .shl | .shr | .lshr | .and | .or | .ceq | .clt | .cgt => 1
  | _ => 0

/-- The number of arguments at an offset of the code. -/
def argcAt (code : List UInt8) (offset : Nat) : Nat := (code[offset]?.map UInt8.toNat).getD 0

theorem argcAt_eq {offset : Nat}
    (byte : code[offset]? = some argc) : argcAt code offset = argc.toNat := by
  rw [argcAt, byte]
  rfl

/-- The import that the call at an offset names. -/
def callIndexAt (code : List UInt8) (ip : Nat) : UInt16 :=
  UInt16.ofNat (ofLeBytes ((code.drop (ip + 1)).take 2))

/-- Instructions that may go elsewhere. -/
def isControl : OpCode → Bool
  | .ret | .br | .brfalse | .call | .callValue | .callScript => true
  | _ => false

/-- What the instruction at an offset has done that did not fail. -/
inductive Did (E : Engine W) (start : Nat) (opcode : OpCode) (s : Instance W) :
    Stepped → Instance W → Prop
  | plain {ip : Nat} {s' : Instance W} (step : Plain ip (operandsTaken opcode) s s')
      (goes : ip = start + 1 + opcode.operandLen ∨ (opcode = .br ∨ opcode = .brfalse) ∧
        ∀ target, E.decodedJumpTargetAt start = some target → ip = target) :
      Did E start opcode s .continue s'
  | left {outcome : ExecOutcome} {s' : Instance W} (returns : opcode = .ret)
      (left : FrameLeft { s with ip := start + 1 } s') :
      Did E start opcode s (.outcome outcome) s'
  | host {answer : HostAnswer} {outcome : HostCallExecOutcome} {s' : Instance W}
      (calls : opcode = .call)
      (called : E.HostCalled (callIndexAt E.program.code start)
        (argcAt E.program.code (start + 3)) start answer { s with ip := start + 4 }
        (hostCallOutcome outcome) s') :
      Did E start opcode s (hostCallStepped (E.canFuseCallRetPattern (start + 4)) outcome) s'
  | value {argc : UInt8} {entered : Entered} {s' : Instance W} (calls : opcode = .callValue)
      (count : argcAt E.program.code (start + 1) = argc.toNat)
      (called : E.ValueCalled argc { s with ip := start + 2 } entered s') :
      Did E start opcode s entered.stepped s'
  | script {prototypeId : UInt32} {operands : List Value} {argc : Nat} {entered : Entered}
      {s' : Instance W} (calls : opcode = .callScript)
      (count : argcAt E.program.code (start + 5) = argc) (enough : argc ≤ s.stack.length)
      (called : E.Called prototypeId none operands (s.stack.length - argc)
        (.resumeBytecode (start + 6)) { s with ip := start + 6, stack := s.stack.drop argc }
        entered s') :
      Did E start opcode s entered.stepped s'

/-- From the end of the instruction on. -/
theorem plain_of_shifts {α : Type} {x : CoreM W α} {down up : Nat} (h : Shifts down up x)
    (enough : down ≤ up + operandsTaken opcode) (start : Nat) (s : Instance W) :
    wp x (fun _ => Plain (start + 1 + opcode.operandLen) (operandsTaken opcode) s)
      (E.Fails start opcode s) { s with ip := start + 1 + opcode.operandLen } := by
  apply wp_mono (h _)
  · rintro _ s' ⟨step, stack⟩
    refine ⟨step, ?_⟩
    change s.stack.length + up ≤ _ at stack
    omega
  · exact fun _ _ failed => .of_inline failed.1 failed.2

theorem executeInline_spec (stays : isControl opcode = false) (start : Nat) (s : Instance W) :
    wp (E.executeInline start opcode)
      (fun _ => Plain (start + 1 + opcode.operandLen) (operandsTaken opcode) s)
      (E.Fails start opcode s) { s with ip := start + 1 } := by
  have binary : ∀ {opcode : OpCode}, E.executeInline start opcode = E.executeBinary start opcode →
      operandsTaken opcode = 1 → opcode.operandLen = 0 → wp (E.executeInline start opcode)
        (fun _ => Plain (start + 1 + opcode.operandLen) (operandsTaken opcode) s)
        (E.Fails start opcode s) { s with ip := start + 1 } := by
    intro opcode same one none
    have steps := plain_of_shifts (E := E) (E.executeBinary_shifts start opcode)
      (Nat.le_of_eq (by rw [one])) start s
    simp only [none, same] at steps ⊢
    exact steps
  cases opcode with
  | nop => exact plain_of_shifts (always_pure ()).shifts (Nat.zero_le _) start s
  | ldc =>
    apply wp_seq (readConstant_spec start s)
    rintro value _ rfl
    exact plain_of_shifts (push_steady value).shifts (Nat.zero_le _) start s
  | neg => exact plain_of_shifts (UnaryOp.exec_shifts (negOp_harmless _ _)) (Nat.le_refl _) start s
  | not =>
    have harmless : notOp.Harmless := ⟨asBool_harmless, by rintro _ _ ⟨⟩⟩
    exact plain_of_shifts (UnaryOp.exec_shifts harmless) (Nat.le_refl _) start s
  | pop =>
    exact plain_of_shifts (popValue_shifts.bind fun _ => (always_pure ()).shifts) (Nat.le_refl _)
      start s
  | dup =>
    exact plain_of_shifts (always_bind peekValue_steady push_steady).shifts (Nat.zero_le _) start s
  | ldloc =>
    apply wp_seq (readLocalIndex_spec rfl start s)
    rintro index _ rfl
    exact plain_of_shifts (always_bind (loadLocalValue_steady index) push_steady).shifts
      (Nat.zero_le _) start s
  | stloc =>
    apply wp_seq (readLocalIndex_spec rfl start s)
    rintro index _ rfl
    exact plain_of_shifts (popValue_shifts.bind fun value =>
      (storeLocal_steady index value).shifts) (Nat.le_refl _) start s
  | ret | br | brfalse | call | callValue | callScript => cases stays
  | _ => exact binary rfl rfl rfl

theorem executeCall_spec {s : Instance W} :
    wp (E.executeCall start) (E.Did start .call s) (E.Fails start .call s)
      { s with ip := start + 1 } := by
  unfold executeCall readU16
  rw [wp_bind, wp_bind]
  apply wp_mono readBytes_spec
  · rintro _ _ ⟨rfl, rfl⟩
    rw [wp_pure, wp_bind]
    apply wp_mono readU8_spec
    · rintro argc _ ⟨byte, rfl⟩
      rw [wp_bind, wp_get, wp_bind]
      apply wp_mono executeHostCall_spec
      · intro outcome s' called
        rw [← argcAt_eq byte] at called
        exact .host rfl called
      · exact fun _ _ broken => broken.mono fun placed _ _ => placed.resumes (.inl rfl)
    · rintro _ _ ⟨rfl, rfl, outside⟩
      exact .outside outside (Nat.le_refl _)
  · rintro _ _ ⟨rfl, rfl, outside⟩
    exact .outside outside (Nat.le_succ _)

/-- **What one instruction does**, or how it fails. -/
theorem execute_did {opcode : OpCode} {s : Instance W} :
    wp (E.execute opcode) (E.Did start opcode s) (E.Fails start opcode s)
      { s with ip := start + 1 } := by
  unfold execute
  rw [wp_bind, wp_get]
  cases opcode with
  | ret =>
    apply wp_seq (wp_mono completeActiveFrame_spec (fun _ _ left => left) fun _ _ broken =>
      broken.1.mono fun _ => trivial)
    exact fun _ _ left => .left rfl left
  | br =>
    apply wp_seq (readTarget_spec (.inl rfl))
    rintro target _ ⟨rfl, same⟩
    rw [wp_bind]
    apply wp_mono branch_spec
    · rintro _ _ rfl
      exact .plain ⟨Effect.refl _, Nat.le_refl _⟩ (.inr ⟨.inl rfl, same⟩)
    · rintro _ _ ⟨final, invalid, rfl⟩
      exact .unfit final (fun placed => invalid (placed.branch (.inl rfl)).2) rfl rfl
  | brfalse =>
    apply wp_seq (readTarget_spec (.inr rfl))
    rintro target _ ⟨rfl, same⟩
    apply wp_seq (plain_of_shifts (popAs_shifts asBool_harmless) (Nat.le_refl _) start s)
    intro condition s₁ step
    cases condition with
    | true => exact .plain step (.inl rfl)
    | false =>
      rw [wp_bind]
      apply wp_mono branch_spec
      · rintro _ _ rfl
        exact .plain ⟨{ step.inline with ip := rfl }, step.stack⟩ (.inr ⟨.inr rfl, same⟩)
      · rintro _ _ ⟨final, invalid, rfl⟩
        exact .unfit final (fun placed => invalid (placed.branch (.inr rfl)).2)
          step.inline.world step.inline.frames
  | call => exact executeCall_spec
  | callValue =>
    rw [wp_bind]
    apply wp_mono readU8_spec
    · rintro argc _ ⟨byte, rfl⟩
      rw [wp_bind]
      apply wp_mono executeCallValue_spec
      · exact fun _ _ called => .value rfl (argcAt_eq byte) called
      · intro e s' broken
        refine broken.mono fun placed _ _ _ _ _ _ _ _ _ => ?_
        exact placed.resumes (.inr rfl)
    · rintro _ _ ⟨rfl, rfl, outside⟩
      exact .outside outside (Nat.le_refl _)
  | callScript =>
    rw [wp_bind, readU32, wp_bind]
    apply wp_mono readBytes_spec
    · rintro _ _ ⟨-, rfl⟩
      rw [wp_pure, wp_bind]
      apply wp_mono readU8_spec
      · rintro argc _ ⟨byte, rfl⟩
        rw [wp_bind]
        apply wp_mono executeCallScript_spec
        · exact fun _ _ called => .script rfl (argcAt_eq byte) called.1 called.2
        · exact fun _ _ broken => broken
      · rintro _ _ ⟨rfl, rfl, outside⟩
        exact .outside outside (Nat.le_refl _)
    · rintro _ _ ⟨rfl, rfl, outside⟩
      exact .outside outside (Nat.le_succ _)
  | _ => exact wp_seq (executeInline_spec rfl start s) fun _ _ step => .plain step (.inl rfl)

end Engine

end RustScript.Vm
