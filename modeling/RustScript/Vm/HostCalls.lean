import RustScript.Vm.Pending

/-!
# What a run does to the world

The interpreter hands the world to the host and takes it back; it does not touch it
otherwise.  A host whose calls keep a property `I` of the world, except that a call that
yields may leave it for `J`, therefore keeps `I` in every run, except that a run that the
host made yield may end in `J` (`runInternal_keeps`): the yield ends the run, and no
interruption is blamed for it.
-/

namespace RustScript.Vm

open Wp

variable {W α β : Type} {I J : W → Prop}

/-- Calls of the host keep `I`; a call that yields may leave it for `J`. -/
def Engine.HostKeeps (E : Engine W) (I J : W → Prop) : Prop :=
  ∀ index args s, I s.world → I (E.host.call index args s).world ∨
    J (E.host.call index args s).world ∧ (E.host.call index args s).answer.Yields

/-- A computation keeps `I`, unless it ends in `J` with a result that says that the host
yielded. -/
def KeepsWorld (I J : W → Prop) (yields : α → Prop) (x : CoreM W α) (s : Instance W) : Prop :=
  wp x (fun a s' => I s'.world ∨ J s'.world ∧ yields a) (fun _ s' => I s'.world) s

variable {yields : α → Prop} {x : CoreM W α} {s : Instance W} {E : Engine W}

/-- A computation that does not reach the host. -/
theorem KeepsWorld.of_local {s : Instance W} (h : LocalM x) (kept : I s.world) :
    KeepsWorld I J yields x s := by
  apply wp_mono (h s)
  · rintro _ s' ⟨_, step⟩
    rw [step.inline.world]
    exact .inl kept
  · rintro _ s' ⟨⟨_, step⟩, _⟩
    rw [step.inline.world]
    exact kept

namespace Engine

variable {s' : Instance W}

/-! ## Instructions -/

theorem Passed.keeps {yields : Prop} (host : E.HostKeeps I J) (passed : Passed E yields s s')
    (kept : I s.world) : I s'.world ∨ J s'.world ∧ yields := by
  rcases passed with same | ⟨index, args, t, before, after, answer⟩
  · rw [same]
    exact .inl kept
  · rw [← before] at kept
    rw [after]
    exact (host index args t kept).imp_right (.imp_right answer)

theorem Broken.keeps {fits : Prop} {e : VmError} (host : E.HostKeeps I J)
    (broken : Broken E fits s e s') (kept : I s.world) : I s'.world :=
  (Passed.keeps host broken.passed kept).resolve_right And.right

/-- The host was called and yielded. -/
def Entered.Yields : Entered → Prop
  | .host .yielded => True
  | _ => False

theorem Entered.stepped_of_yields {entered : Entered} (h : entered.Yields) :
    entered.stepped = .outcome .yielded := by
  cases entered with
  | frame => cases h
  | host outcome =>
    cases outcome with
    | yielded => rfl
    | _ => cases h

variable {prototypeId : UInt32} {callable : Option (Nat × CallableValue)} {operands : List Value}
  {operandStackBase : Nat} {continuation : FrameContinuation} {entered : Entered}

theorem Called.passed
    (called : E.Called prototypeId callable operands operandStackBase continuation s entered s') :
    Passed E entered.Yields s s' := by
  cases called with
  | frame new =>
    obtain ⟨_, _, step⟩ := new
    exact .inl step.world
  | host _ _ _ called =>
    apply called.passed.mono
    rintro rfl
    trivial

theorem enterScriptFrame_keeps (host : E.HostKeeps I J) (kept : I s.world) :
    KeepsWorld I J Entered.Yields (E.enterScriptFrame prototypeId callable operands
      operandStackBase continuation) s :=
  wp_mono enterScriptFrame_spec (fun _ _ called => Passed.keeps host called.passed kept)
    fun _ _ broken => Broken.keeps host broken kept

variable {start : Nat} {opcode : OpCode}

theorem Did.passed {stepped : Stepped}
    (did : E.Did start opcode s stepped s') : Passed E (stepped = .outcome .yielded) s s' := by
  cases did with
  | plain step _ => exact .inl step.inline.world
  | left _ left =>
    obtain ⟨_, _, _, _⟩ := left
    exact .inl rfl
  | @host _ outcome _ _ called =>
    apply called.passed.mono
    intro yielded
    cases outcome with
    | yielded => rfl
    | _ => cases yielded
  | value _ _ called =>
    obtain ⟨_, _, _, _, called⟩ := called
    exact called.passed.mono Entered.stepped_of_yields
  | script _ _ _ called => exact called.passed.mono Entered.stepped_of_yields

theorem execute_keepsWorld (host : E.HostKeeps I J) (here : s.ip = start + 1) (kept : I s.world) :
    KeepsWorld I J (· = .outcome .yielded) (E.execute opcode) s := by
  have same : s = { s with ip := start + 1 } := by rw [← here]
  rw [same]
  exact wp_mono execute_did (fun _ _ did => Passed.keeps host did.passed kept)
    fun _ _ fails => Broken.keeps host fails kept

theorem commitFused_keeps {yields : Bool → Prop} {result : FusedEnd} (kept : I s.world) :
    KeepsWorld I J yields (E.commitFused result) s := by
  cases result with
  | failed error => exact kept
  | _ => exact .of_local (local_commitFused nofun) kept

end Engine

/-! ## Rounds -/

/-- No interruption has ended a run. -/
def State.Calm (st : State W) : Prop := st.runCtx.lastYieldReason = none

/-- A part of a run keeps `I` and is not interrupted, unless it ends in `J` with a result that
says that the host yielded. -/
def RunKeeps (I J : W → Prop) (yields : α → Prop) (x : VmM W α) (st : State W) : Prop :=
  wp x (fun a st' => st'.Calm ∧ (I st'.inst.world ∨ J st'.inst.world ∧ yields a))
    (fun _ st' => st'.Calm ∧ I st'.inst.world) st

variable {st : State W} {f : α → VmM W β}

theorem KeepsWorld.core (calm : st.Calm) (h : KeepsWorld I J yields x st.inst) :
    RunKeeps I J yields (core x) st := by
  apply wp_zoom.mpr
  exact wp_mono h (fun _ _ kept => ⟨calm, kept⟩) fun _ _ kept => ⟨calm, kept⟩

namespace Engine

theorem finishStep_keepsWorld {stepped : Stepped} (calm : st.Calm)
    (kept : I st.inst.world ∨ J st.inst.world ∧ stepped = .outcome .yielded) :
    RunKeeps I J (· = .yielded) (E.finishStep stepped) st := by
  have still : (∀ outcome, stepped ≠ .outcome outcome) → I st.inst.world := fun other =>
    kept.resolve_right fun yielded => other _ yielded.2
  apply finishStep_wp
  · rintro outcome rfl
    exact ⟨calm, kept.imp_right fun yielded => ⟨yielded.1, Stepped.outcome.inj yielded.2⟩⟩
  · rintro rfl _ ⟨_, same, rfl⟩
    exact ⟨same.2.trans calm, .inl (still nofun)⟩
  · rintro rfl _ ⟨_, same, rfl⟩
    refine KeepsWorld.core (same.2.trans calm) (wp_mono completeActiveFrame_spec ?_ ?_)
    · rintro _ _ ⟨_, _, _, _⟩
      exact .inl (still nofun)
    · rintro _ _ ⟨-, world⟩
      rw [world]
      exact still nofun
  · rintro other _ _ ⟨_, same, rfl⟩ -
    exact ⟨same.2.trans calm, still other⟩

variable {stackBase frameCount rounds : Nat} {allow : Bool}

theorem executeLdloc_keeps (calm : st.Calm) (kept : I st.inst.world) :
    RunKeeps I J (· = .yielded) (E.executeLdloc allow) st := by
  have still : ∀ {α : Type} {x : CoreM W α} {st : State W}, st.Calm →
      KeepsWorld I J (fun _ => False) x st.inst →
      wp (core x) (fun _ st => st.Calm ∧ I st.inst.world) (fun _ st => st.Calm ∧ I st.inst.world)
        st := fun calm keeps => wp_mono (keeps.core calm)
    (fun _ _ kept => ⟨kept.1, kept.2.resolve_right And.right⟩) fun _ _ kept => kept
  refine executeLdloc_wp (I := fun st => st.Calm ∧ I st.inst.world)
    (still calm (.of_local local_readLocalIndex kept)) ?_ ?_ fun _ kept => ⟨kept.1, .inl kept.2⟩
  · exact fun st _ kept => still (by exact kept.1) (commitFused_keeps (by exact kept.2))
  · exact fun st index kept => still kept.1 (.of_local
      (always_bind (loadLocalValue_steady index) push_steady).local kept.2)

theorem executeInterpreterInstruction_keeps (host : E.HostKeeps I J) {raw : UInt8}
    {start : Nat} (here : st.inst.ip = start + 1) (calm : st.Calm) (kept : I st.inst.world) :
    RunKeeps I J (· = .yielded) (E.executeInterpreterInstruction raw allow) st := by
  unfold executeInterpreterInstruction
  split
  · exact ⟨calm, kept⟩
  · exact executeLdloc_keeps calm kept
  · apply wp_seq ((execute_keepsWorld host here kept).core calm)
    exact fun _ _ kept => finishStep_keepsWorld kept.1 kept.2

/-! ## Runs -/

/-- How a run ends: with `I`, or because the host made it yield. -/
def RunEnded (I J : W → Prop) (status : Option VmStatus) (st : State W) : Prop :=
  I st.inst.world ∨ J st.inst.world ∧ status = some .yielded ∧ st.Calm

/-- A round may also be interrupted, which is a yield with `I`. -/
theorem world_rule (host : E.HostKeeps I J) : E.RunRule (fun st => st.Calm ∧ I st.inst.world)
      (fun outcome st => I st.inst.world ∧ outcome = .yielded ∨
        st.Calm ∧ (I st.inst.world ∨ J st.inst.world ∧ outcome = .yielded))
      fun _ st => I st.inst.world where
  round fuses := by
    refine ⟨?_, fun start _ => start.2, ?_, fun start _ => start.2, fun kept _ => .inl ⟨kept, rfl⟩⟩
    · rintro st _ ⟨calm, kept⟩ ⟨_, same, rfl⟩
      exact ⟨same.2.trans calm, kept⟩
    · rintro st ⟨calm, kept⟩ -
      apply wp_mono fetchOpcode_spec
      · rintro raw _ ⟨_, rfl⟩
        apply wp_mono (executeInterpreterInstruction_keeps host rfl (by exact calm) (by exact kept))
        · exact fun _ _ ended => .inr ended
        · exact fun _ _ kept => kept.2
      · rintro _ _ ⟨_, rfl⟩
        exact kept
  idle _ start := .inr ⟨start.1, .inl start.2⟩
  goesOn := by
    rintro st (⟨-, ⟨⟩⟩ | ⟨calm, kept | ⟨-, ⟨⟩⟩⟩)
    exact ⟨calm, kept⟩
  unbound start _ := start.2

/-- **A run keeps what the calls of the host keep**, unless the host makes it yield. -/
theorem runInternal_keeps (host : E.HostKeeps I J) (calm : st.Calm) (kept : I st.inst.world) :
    wp (E.runInternal rounds) (RunEnded I J) (fun _ st' => I st'.inst.world) st := by
  apply wp_mono ((world_rule host).runInternal rounds ⟨calm, kept⟩) _ fun _ _ kept => kept
  rintro _ st ⟨outcome, rfl, ⟨kept, -⟩ | ⟨calm, kept | ⟨left, rfl⟩⟩⟩
  · exact .inl kept
  · exact .inl kept
  · exact .inr ⟨left, rfl, calm⟩

/-! ## Host invocations -/

theorem abortHostInvocation_world :
    wp (abortHostInvocation stackBase frameCount) (fun _ s' => s'.world = s.world)
      (fun _ _ => False) s := by
  have abandoned : ∀ (frames : List ExecutionFrame) (s : Instance W),
      (frames.foldl abandonFrame s).world = s.world := by
    intro frames
    induction frames with
    | nil => exact fun _ => rfl
    | cons frame frames ih => exact fun s => ih (abandonFrame s frame)
  exact abandoned _ s

theorem orAbort_keeps {x : VmM W α} {Q : α → State W → Prop} {R : W → Prop}
    (h : wp x Q (fun _ st' => R st'.inst.world) st) :
    wp (orAbort stackBase frameCount x) Q (fun _ st' => R st'.inst.world) st := by
  rw [orAbort_wp]
  apply wp_mono h (fun _ _ kept => kept)
  intro e st kept
  apply wp_zoom.mpr
  apply wp_mono abortHostInvocation_world _ fun _ _ => False.elim
  intro _ s' same
  change R s'.world
  rw [same]
  exact kept

/-- The callable of an invocation is called: if the host yields, there is still no frame. -/
theorem callValueNow_keeps (host : E.HostKeeps I J) {argc : UInt8} (calm : st.Calm)
    (kept : I st.inst.world) :
    wp (E.callValueNow argc)
      (fun outcome st' => st'.Calm ∧ (I st'.inst.world ∨ J st'.inst.world ∧ outcome = .yielded ∧
        st'.inst.executionFrames = st.inst.executionFrames))
      (fun _ st' => I st'.inst.world) st := by
  unfold callValueNow
  rw [wp_bind]
  apply wp_zoom.mpr
  apply wp_mono executeCallValue_spec _ fun _ _ broken =>
    Broken.keeps host broken kept
  rintro entered s' ⟨-, _, _, -, called⟩
  rcases Passed.keeps host called.passed kept with kept | ⟨left, yields⟩
  · apply wp_mono (finishStep_keepsWorld (I := I) (J := fun _ => False) (by exact calm) (.inl kept))
      _ fun _ _ kept => kept.2
    rintro outcome st' ⟨calm, kept⟩
    exact ⟨calm, .inl (kept.resolve_right And.left)⟩
  · rw [Entered.stepped_of_yields yields]
    cases called with
    | frame _ => exact yields.elim
    | host _ _ _ called => exact ⟨calm, .inr ⟨left, rfl, called.within.inline.frames⟩⟩

/-- The callable has been called: only a host function that yielded leaves `J`, and fails. -/
theorem settleInvocation_keeps {outcome : ExecOutcome}
    (kept : I s.world ∨ J s.world ∧ outcome = .yielded ∧ s.executionFrames.length = frameCount) :
    wp (settleInvocation stackBase frameCount outcome) (fun _ s' => I s'.world)
      (fun _ s' => I s'.world ∨ J s'.world) s := by
  apply settleInvocation_wp
  · exact fun _ other _ _ => kept.resolve_right fun left => other left.2.1
  · intro message
    apply wp_mono abortHostInvocation_world _ fun _ _ => False.elim
    intro _ s' same
    rw [same]
    exact kept.imp_right And.left
  · exact fun differ => kept.resolve_right fun left => differ left.2.2

/-- **A host invocation keeps what the calls of the host keep**, unless the host makes it
yield; it may fail after the yield of a host function that was invoked directly. -/
theorem startCallable_keeps (host : E.HostKeeps I J) {callable : Value}
    {args : List Value} (calm : st.Calm) (kept : I st.inst.world) :
    wp (E.startCallable rounds callable args) (RunEnded I J)
      (fun _ st' => I st'.inst.world ∨ J st'.inst.world) st := by
  unfold startCallable
  rw [wp_bind, wp_get, wp_bind]
  apply beginInvocation_wp fun _ _ => .inl kept
  intro _ _
  apply wp_mono (orAbort_keeps (callValueNow_keeps host (by exact calm) (by exact kept)))
  · rintro outcome st₁ ⟨calm, kept⟩
    apply wp_zoom.mpr
    apply wp_mono (settleInvocation_keeps (I := I) (J := J) (kept.imp_right fun left =>
      ⟨left.1, left.2.1, congrArg _ left.2.2⟩)) _ fun _ _ kept => kept
    intro status s' kept
    cases status with
    | some status => exact .inl kept
    | none =>
      exact orAbort_keeps (R := fun world => I world ∨ J world)
        (wp_mono (runInternal_keeps host (by exact calm) (by exact kept))
          (fun _ _ ended => ended) fun _ _ kept => .inl kept)
  · exact fun _ _ kept => .inl kept

end Engine

end RustScript.Vm
