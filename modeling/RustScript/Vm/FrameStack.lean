import RustScript.Vm.Outcomes

/-!
# The frame stack

`FrameStack` says how the frames of an instance fit together: the local ranges of
the live frames follow each other and end where the locals end, the operand bases
grow towards the callee and lie inside the operand stack, the cached bases are
those of the innermost frame, the call depth counts the script frames, and a slot
that shares a cell belongs to a live frame.

No instruction looks at the operand base of its frame before it takes its operands,
and a frame that halts gives up its slots but not their cells.  `Engine.OwnFrame`
is the condition on the next instruction that rules both out, and `execute_framed`
says that one instruction under it keeps the invariant: entering a frame
(`enterFunction_framed`), leaving one (`completeActiveFrame_framed`), and everything
else, which stays within its frame (`Framed.within`).
-/

namespace RustScript.Vm

open Wp ExecutionFrame List Instance

variable {W : Type} {E : Engine W}

/-! ## The invariant -/

/-- The local ranges of the frames, innermost first, follow each other and end at `top`. -/
def Stacked : Nat → List ExecutionFrame → Prop
  | _, [] => True
  | top, frame :: frames =>
    frame.localBase + frame.localCount = top ∧ Stacked frame.localBase frames

/-- The operand bases of the frames, innermost first, do not increase from `top` on. -/
def Based : Nat → List ExecutionFrame → Prop
  | _, [] => True
  | top, frame :: frames => frame.operandStackBase ≤ top ∧ Based frame.operandStackBase frames

/-- A slot inside the local range of one of the frames. -/
def LiveSlot (frames : List ExecutionFrame) (slot : Nat) : Prop :=
  ∃ frame ∈ frames, frame.localBase ≤ slot ∧ slot < frame.localBase + frame.localCount

structure FrameStack (s : Instance W) : Prop where
  locals : Stacked s.locals.length s.executionFrames
  operands : Based s.stack.length s.executionFrames
  localBase : s.activeLocalBaseCache = (s.executionFrames.head?.map ExecutionFrame.localBase).getD 0
  operandBase : s.activeOperandStackBaseCache =
    (s.executionFrames.head?.map ExecutionFrame.operandStackBase).getD 0
  callDepth : s.callDepth = s.scriptFrameDepth
  limit : s.callDepth ≤ s.maxScriptCallDepth
  cells : ∀ slot, s.captureCells slot ≠ none → LiveSlot s.executionFrames slot

/-- Only the outermost frame may halt, and the others belong to functions. -/
def Rooted : List ExecutionFrame → Prop
  | [] => True
  | frame :: frames =>
    (if frame.continuation = .halt then frames = [] else frame.prototypeId.isSome) ∧ Rooted frames

/-- The invariant of a run: the frames fit together, and only the outermost one may halt. -/
structure Framed (s : Instance W) : Prop extends FrameStack s where
  rooted : Rooted s.executionFrames

variable {frames : List ExecutionFrame} {s : Instance W} {count : Nat}

theorem Based.mono {top top' : Nat} (h : Based top frames)
    (le : (frames.head?.map operandStackBase).getD 0 ≤ top') :
    Based top' frames := by
  cases frames with
  | nil => trivial
  | cons frame frames => exact ⟨le, h.2⟩

variable {slot : Nat} {stack : List Value} {frame : ExecutionFrame}
  {captureCells : Nat → Option Nat}

theorem LiveSlot.cons (h : LiveSlot frames slot) (frame : ExecutionFrame) :
    LiveSlot (frame :: frames) slot := by
  obtain ⟨older, mem, inside⟩ := h
  exact ⟨older, mem_cons_of_mem _ mem, inside⟩

theorem Framed.activeSlot_live (framed : Framed s) (live : s.executionFrames ≠ [])
    (active : s.ActiveSlot slot) : LiveSlot s.executionFrames slot := by
  have base := framed.localBase
  have ends := framed.locals
  cases frames : s.executionFrames with
  | nil => exact absurd frames live
  | cons frame older =>
    rw [frames] at base ends
    refine ⟨frame, mem_cons_self, ?_, ?_⟩
    · exact Nat.le_trans (Nat.le_of_eq base.symm) active.1
    · rw [ends.1]
      exact active.2

theorem Framed.operandBase_le (framed : Framed s) :
    s.activeOperandStackBaseCache ≤ s.stack.length := by
  have base := framed.operandBase
  have below := framed.operands
  cases frames : s.executionFrames with
  | nil =>
    rw [frames] at base
    rw [base]
    exact Nat.zero_le _
  | cons frame older =>
    rw [frames] at base below
    rw [base]
    exact below.1

/-- The instruction pointer is not part of the invariant. -/
theorem Framed.move (framed : Framed s) (ip : Nat) : Framed { s with ip } :=
  { framed with }

/-- Another operand stack that reaches up to the base of the active frame. -/
theorem Framed.restack (framed : Framed s)
    (above : s.activeOperandStackBaseCache ≤ stack.length) : Framed { s with stack } := by
  refine { framed with operands := ?_ }
  apply framed.operands.mono
  rw [← framed.operandBase]
  exact above

/-! ## Steps inside a frame -/

variable {A : Nat → Prop} {s' : Instance W}

/-- **A step inside a frame that takes only operands of the frame keeps the invariant.** -/
theorem Framed.within (framed : Framed s) (step : Within A count s s')
    (shared : ∀ slot, A slot → LiveSlot s.executionFrames slot)
    (own : s.activeOperandStackBaseCache + count ≤ s.stack.length) : Framed s' := by
  have frames : s'.executionFrames = s.executionFrames := step.inline.frames
  have above : s.activeOperandStackBaseCache ≤ s'.stack.length := by
    have := step.stack
    omega
  refine ⟨⟨?_, ?_, ?_, ?_, ?_, ?_, ?_⟩, ?_⟩
  · rw [frames, step.inline.locals]
    exact framed.locals
  · rw [frames]
    apply framed.operands.mono
    rw [← framed.operandBase]
    exact above
  · rw [frames, step.inline.localBase]
    exact framed.localBase
  · rw [frames, step.inline.operandBase]
    exact framed.operandBase
  · rw [scriptFrameDepth, frames, step.inline.callDepth]
    exact framed.callDepth
  · rw [step.inline.callDepth, step.inline.maxDepth]
    exact framed.limit
  · intro slot cell
    rw [frames]
    rcases step.inline.cells slot cell with before | inside
    · exact framed.cells slot before
    · exact shared slot inside
  · rw [frames]
    exact framed.rooted

namespace Engine

/-- A call that reaches the closure builtin through a callable finds a live frame. -/
def CallsInFrame (E : Engine W) (prototypeId : UInt32) (s : Instance W) : Prop :=
  ∀ prototype importIndex, E.program.callablePrototypes[prototypeId.toNat]? = some prototype →
    prototype.target = .hostImport importIndex → E.SharesSlots importIndex →
    s.executionFrames ≠ []

/-- The frames are the same, or there is a new one that does not halt. -/
def FramesGrow (s s' : Instance W) : Prop :=
  s'.executionFrames = s.executionFrames ∨ ∃ frame : ExecutionFrame, frame.continuation ≠ .halt ∧
      s'.executionFrames = frame :: s.executionFrames

/-! ## Entering a frame -/

variable {prototypeId : UInt32} {operands : List Value} {operandStackBase : Nat}
  {callable : Option (Nat × CallableValue)} {continuation : FrameContinuation}
  {entered : Entered}

/-- **A new frame keeps the invariant.** -/
theorem NewFrame.framed (new : E.NewFrame prototypeId operandStackBase continuation s s')
    (framed : Framed s) (returns : continuation ≠ .halt)
    (above : s.activeOperandStackBaseCache ≤ operandStackBase)
    (inside : operandStackBase ≤ s.stack.length) : Framed s' ∧ FramesGrow s s' := by
  obtain @⟨function, localCount, s₁, room, known, step⟩ := new
  have frames : s₁.executionFrames = s.executionFrames := step.frames
  have depth : s₁.scriptFrameDepth = s.callDepth := by
    rw [scriptFrameDepth, frames]
    exact framed.callDepth.symm
  let frame : ExecutionFrame :=
    ⟨continuation, operandStackBase, s.locals.length, localCount, some prototypeId⟩
  refine ⟨⟨⟨?_, ?_, rfl, rfl, ?_, ?_, ?_⟩, ?_⟩, .inr ⟨frame, returns, ?_⟩⟩
  · rw [frames, step.locals, length_append, length_replicate]
    exact ⟨rfl, framed.locals⟩
  · rw [frames]
    refine ⟨Nat.le_trans inside step.stack, ?_⟩
    apply framed.operands.mono
    rw [← framed.operandBase]
    exact above
  · exact (countP_cons_of_pos rfl).symm
  · rw [depth, step.maxDepth]
    exact room
  · intro slot cell
    rw [frames]
    rcases step.cells slot cell with before | own
    · exact (framed.cells slot before).cons _
    · exact ⟨frame, mem_cons_self, own⟩
  · change (if continuation = .halt then _ else _) ∧ Rooted s₁.executionFrames
    rw [if_neg returns, frames]
    exact ⟨rfl, framed.rooted⟩
  · rw [frames]

theorem HostCalled.framed {index : UInt16} {callIp : Nat} {answer : HostAnswer}
    {outcome : ExecOutcome} (called : E.HostCalled index count callIp answer s outcome s')
    (framed : Framed s) (shared : E.SharesSlots index → s.executionFrames ≠ [])
    (own : s.activeOperandStackBaseCache + count ≤ s.stack.length) : Framed s' :=
  framed.within called.within
    (fun _ inside => framed.activeSlot_live (shared inside.1) inside.2) own

theorem Called.framed
    (called : E.Called prototypeId callable operands operandStackBase continuation s entered s')
    (framed : Framed s) (returns : continuation ≠ .halt)
    (above : s.activeOperandStackBaseCache ≤ operandStackBase)
    (inside : operandStackBase ≤ s.stack.length) (shared : E.CallsInFrame prototypeId s) :
    Framed s' ∧ FramesGrow s s' := by
  cases called with
  | frame new => exact new.framed framed returns above inside
  | host _ known target called =>
    exact ⟨called.framed framed (shared _ _ known target) framed.operandBase_le,
      .inl called.within.inline.frames⟩

/-- The operands of a call are off the stack. -/
theorem Called.framed_drop {ip : Nat} (called : E.Called prototypeId callable operands
      (s.stack.length - count) (.resumeBytecode ip) { s with ip, stack := s.stack.drop count }
      entered s')
    (framed : Framed s) (own : s.activeOperandStackBaseCache + count ≤ s.stack.length)
    (shared : E.CallsInFrame prototypeId s) : Framed s' ∧ FramesGrow s s' := by
  have length : (s.stack.drop count).length = s.stack.length - count := length_drop
  have popped : Framed { s with ip, stack := s.stack.drop count } :=
    (framed.restack (by omega)).move ip
  apply called.framed popped nofun _ (Nat.le_of_eq length.symm) shared
  change s.activeOperandStackBaseCache ≤ _
  omega

end Engine

/-! ## Leaving a frame -/

/-- The innermost frame is gone, with its slots and its cells. -/
theorem Framed.leave (framed : Framed s)
    (active : s.executionFrames = frame :: frames) {locals : List Value}
    (operands : frame.operandStackBase ≤ stack.length) (ends : Stacked locals.length frames)
    (cells : ∀ slot, captureCells slot ≠ none → LiveSlot frames slot) :
    Framed { s with
      stack, locals, captureCells
      executionFrames := frames
      activeLocalBaseCache := (frames.head?.map localBase).getD 0
      activeOperandStackBaseCache := (frames.head?.map operandStackBase).getD 0
      callDepth := frames.countP fun frame => frame.prototypeId.isSome } := by
  have based := framed.operands
  have rooted := framed.rooted
  have depth := framed.callDepth
  have limit := framed.limit
  rw [scriptFrameDepth] at depth
  rw [active] at based rooted depth
  refine ⟨⟨ends, ?_, rfl, rfl, rfl, ?_, cells⟩, rooted.2⟩
  · apply based.2.mono
    cases frames with
    | nil => exact Nat.zero_le _
    | cons caller older => exact Nat.le_trans based.2.1 operands
  · refine Nat.le_trans ?_ limit
    rw [depth, countP_cons]
    exact Nat.le_add_right _ _

/-- A slot outside the range of the innermost frame that shares a cell belongs to another. -/
theorem LiveSlot.of_outside
    (cells : ∀ slot, captureCells slot ≠ none → LiveSlot (frame :: frames) slot)
    (shared : Engine.retainOutside frame.localBase (frame.localBase + frame.localCount)
        captureCells slot ≠ none) : LiveSlot frames slot := by
  unfold Engine.retainOutside at shared
  split at shared
  · exact absurd rfl shared
  · next outside =>
      obtain ⟨owner, mem, inside⟩ := cells slot shared
      rcases mem_cons.mp mem with rfl | older
      · exact absurd inside outside
      · exact ⟨owner, older, inside⟩

namespace Engine

/-- If the innermost frame halts, no slot shares a cell. -/
def HaltsClean (s : Instance W) : Prop :=
  ∀ frame, s.executionFrames.head? = some frame → frame.continuation = .halt →
    ∀ slot, s.captureCells slot = none

/-- **Leaving a frame keeps the invariant**, if a frame that halts leaves no cell behind. -/
theorem FrameLeft.framed (left : FrameLeft s s') (framed : Framed s) (clean : HaltsClean s) :
    Framed s' := by
  obtain @⟨frame, frames, stack, locals, captureCells, ip, hostReturn, active, above, _,
    released⟩ := left
  have stacked := framed.locals
  have rooted := framed.rooted
  have cells := framed.cells
  rw [active] at stacked rooted cells
  suffices ends : Stacked locals.length frames ∧
      ∀ slot, captureCells slot ≠ none → LiveSlot frames slot by
    have after := (framed.leave active above ends.1 ends.2).move ip
    exact { after with }
  by_cases halts : frame.continuation = .halt
  · rw [if_pos halts] at released
    have last : frames = [] := by
      have alone := rooted.1
      rwa [if_pos halts] at alone
    have bare := clean frame (by rw [active]; rfl) halts
    subst last
    exact ⟨trivial, fun slot shared => absurd (by rw [released.2]; exact bare slot) shared⟩
  · rw [if_neg halts] at released
    obtain ⟨ends, rfl, given⟩ := released
    have owned : frame.prototypeId.isSome := by
      have owner := rooted.1
      rwa [if_neg halts] at owner
    rw [given owned, length_take, Nat.min_eq_left (by omega)]
    exact ⟨stacked.2, fun slot shared => .of_outside cells shared⟩

theorem completeActiveFrame_framed (framed : Framed s) (clean : HaltsClean s) :
    EndsIn (fun _ => Framed) E.completeActiveFrame s :=
  wp_mono completeActiveFrame_spec (fun _ _ left => left.framed framed clean)
    fun _ _ broken => broken.1.final

/-! ## One instruction -/

/-- By how many operands the instruction at an offset can shorten the stack. -/
def operandsTakenAt (program : Program) (ip : Nat) : Nat :=
  match opcodeAt program ip with
  | some .call => argcAt program.code (ip + 3)
  | some .callValue => argcAt program.code (ip + 1) + 1
  | some .callScript => argcAt program.code (ip + 5)
  | some opcode => operandsTaken opcode
  | none => 0

/-- The instruction can leave the frame: a `Ret`, or a call that is executed together with the
`Ret` after it. -/
def MayReturn (E : Engine W) (ip : Nat) : Prop :=
  opcodeAt E.program ip = some .ret ∨
    opcodeAt E.program ip = some .call ∧ E.canFuseCallRetPattern (ip + 4) = true

def CapturesAt (E : Engine W) (ip : Nat) : Prop :=
  opcodeAt E.program ip = some .call ∧ E.SharesSlots (callIndexAt E.program.code ip)

/-- The innermost frame halts the machine. -/
def Halting (s : Instance W) : Prop :=
  ∃ frame, s.executionFrames.head? = some frame ∧ frame.continuation = .halt

/-- The next instruction keeps to its own frame: there is one, the operands are its own, and
if it can halt then no slot shares a cell. -/
structure OwnFrame (E : Engine W) (s : Instance W) : Prop where
  live : s.executionFrames ≠ []
  operands : s.activeOperandStackBaseCache + operandsTakenAt E.program s.ip ≤ s.stack.length
  clean : E.MayReturn s.ip → Halting s → (∀ slot, s.captureCells slot = none) ∧ ¬ E.CapturesAt s.ip

/-- How an instruction ends: framed, and ready for the `Ret` that is to follow. -/
def StepFramed (stepped : Stepped) (s : Instance W) : Prop :=
  Framed s ∧ (stepped = .tailReturn → HaltsClean s)

theorem Did.framed {opcode : OpCode} {stepped : Stepped} (did : E.Did s.ip opcode s stepped s')
    (framed : Framed s) (own : E.OwnFrame s) (known : opcodeAt E.program s.ip = some opcode) :
    StepFramed stepped s' := by
  have operands := own.operands
  rw [operandsTakenAt, known] at operands
  have live : ∀ prototypeId, E.CallsInFrame prototypeId s := fun _ _ _ _ _ _ => own.live
  cases did with
  | plain step _ =>
    refine ⟨framed.within step.within (fun _ => False.elim) (Nat.le_trans ?_ operands), nofun⟩
    cases opcode <;> simp [operandsTaken]
  | left returns left =>
    subst returns
    refine ⟨left.framed (framed.move _) ?_, nofun⟩
    intro frame innermost halts
    exact (own.clean (.inl known) ⟨frame, innermost, halts⟩).1
  | @host _ outcome _ calls called =>
    subst calls
    refine ⟨called.framed (framed.move _) (fun _ => own.live) operands, ?_⟩
    intro tail frame innermost halts slot
    have fuses : E.canFuseCallRetPattern (s.ip + 4) = true := by
      cases outcome with
      | returned =>
        by_contra other
        simp [hostCallStepped, other, Stepped.continue] at tail
      | _ => cases tail
    have frames : s'.executionFrames = s.executionFrames := called.within.inline.frames
    rw [frames] at innermost
    obtain ⟨bare, uncaptured⟩ := own.clean (.inr ⟨known, fuses⟩) ⟨frame, innermost, halts⟩
    by_contra shared
    rcases called.within.inline.cells slot shared with before | inside
    · exact before (bare slot)
    · exact uncaptured ⟨known, inside.1⟩
  | @value _ entered _ calls count called =>
    subst calls
    obtain ⟨_, _, _, _, called⟩ := called
    simp only [count] at operands
    exact ⟨(called.framed_drop (framed.move _) operands (live _)).1, by cases entered <;> nofun⟩
  | @script _ _ _ entered _ calls count _ called =>
    subst calls
    simp only [count] at operands
    exact ⟨(called.framed_drop framed operands (live _)).1, by cases entered <;> nofun⟩

/-- **One instruction that keeps to its frame keeps the invariant.** -/
theorem execute_framed (framed : Framed s) (own : E.OwnFrame s) {opcode : OpCode}
    (known : opcodeAt E.program s.ip = some opcode) :
    EndsIn StepFramed (E.execute opcode) { s with ip := s.ip + 1 } :=
  wp_mono execute_did (fun _ _ did => did.framed framed own known) fun _ _ fails => fails.final

end Engine

end RustScript.Vm
