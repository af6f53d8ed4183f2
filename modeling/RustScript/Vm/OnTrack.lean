import RustScript.Vm.Loops
import RustScript.Vm.Outcomes

/-!
# Validated code stays on track

In a validated program the interpreter only reads opcodes where the validator found
an instruction.  The invariant is `OnTrack`: the instruction pointer and every return
address stand at the start of an instruction or at the end of the code.  Each
instruction keeps it (`execute_onTrack`), also by failing, and with it each action of
an embedder.

There is one exception.  When an embedder starts a host import directly, no `CallValue`
instruction stands in front of the instruction pointer, but the call site is taken to be
there.  A host that yields sends the instruction pointer to that place, and one that
answers later fails to find the instruction (`direct_call_leaves_track`).
-/

namespace RustScript.Vm

open Wp Engine List OpCode Option
open Vmbc (BuiltinCatalog ProgramAnalysis analyzeProgram)

variable {W : Type} {E : Engine W} {starts : List Nat} {ip : Nat}

/-- An offset inside the code at which an instruction may start does start one. -/
theorem Boundary.start (h : Boundary E.program starts ip) (inside : ip < E.program.code.length) :
    ip ∈ starts := by
  rcases h with start | atEnd
  · exact start
  · omega

/-! ## Operands of an instruction -/

namespace SoundCode

variable (sound : SoundCode E.program starts)

include sound

theorem decodedOpcodeAt_eq (start : ip ∈ starts) :
    E.decodedOpcodeAt ip = opcodeAt E.program ip := by
  rw [decodedOpcodeAt, sound.decoded, if_pos start]
  rfl

theorem completeAt {opcode : OpCode} (start : ip ∈ starts)
    (h : opcodeAt E.program ip = some opcode) : CompleteAt E.program starts ip opcode := by
  obtain ⟨opcode', complete⟩ := sound.complete ip start
  have same := complete.opcode_eq
  rw [h, some.injEq] at same
  rw [same]
  exact complete

theorem decodedLdcValueAt_isSome (start : ip ∈ starts) (h : opcodeAt E.program ip = some .ldc) :
    ∃ value, E.decodedLdcValueAt ip = some value := by
  obtain ⟨index, word, inside⟩ := (sound.completeAt start h).constant rfl
  rw [← E.erase_constants, length_map] at inside
  simp [decodedLdcValueAt, sound.decodedOpcodeAt_eq start, h, word, inside]

/-- The target of a branch is in the table and needs no check. -/
theorem decodedJumpTargetAt_spec (start : ip ∈ starts)
    (h : opcodeAt E.program ip = some .br ∨ opcodeAt E.program ip = some .brfalse) :
    ∃ target, E.decodedJumpTargetAt ip = some target ∧ target ∈ starts ∧
      E.decodedJumpTargetIsValidAt ip = true := by
  obtain ⟨target, word, reached, inside, owner⟩ := sound.branch ip start h
  have decoded : E.decodedJumpTargetAt ip = some target.toNat := by
    rcases h with h | h <;> simp [decodedJumpTargetAt, sound.decodedOpcodeAt_eq start, h, word]
  refine ⟨target.toNat, decoded, reached, ?_⟩
  simp [decodedJumpTargetIsValidAt, decoded, inside, owner]

end SoundCode

variable {s : Instance W} {R : VmError → Instance W → Prop} {program : Program}
  {continuation : FrameContinuation} {opcode : OpCode} {callable : Option (Nat × CallableValue)}
  {operands : List Value} {stack : List NumericValue} {st : State W} {code : List UInt8}

/-! ## The invariant -/

/-- The instruction pointer and the return addresses stand between instructions. -/
structure OnTrack (program : Program) (starts : List Nat) (s : Instance W) : Prop where
  ip : Boundary program starts s.ip
  frames : ∀ frame ∈ s.executionFrames, ∀ returnIp,
    frame.continuation = .resumeBytecode returnIp → Boundary program starts returnIp

theorem OnTrack.inline {A : Nat → Prop} {s' : Instance W} (h : OnTrack program starts s)
    (step : Inline A s s') : OnTrack program starts s' := by
  constructor
  · rw [step.ip]
    exact h.ip
  · rw [step.frames]
    exact h.frames

/-- The same frames, elsewhere in the code. -/
theorem OnTrack.move (h : OnTrack program starts s) (boundary : Boundary program starts ip) :
    OnTrack program starts { s with ip } := ⟨boundary, h.frames⟩

/-- A computation stays on track, and says nothing bad about the code when it fails. -/
def Stays {α : Type} (program : Program) (starts : List Nat) (x : CoreM W α) (s : Instance W) :
    Prop :=
  wp x (fun _ => OnTrack program starts) (fun e s' => OnTrack program starts s' ∧ e.Harmless) s

variable {α : Type} {x : CoreM W α}

theorem Stays.of_steady (h : SteadyM x) (track : OnTrack program starts s) :
    Stays program starts x s :=
  wp_mono (h (fun _ => False) s) (fun _ _ step => track.inline step.toInline) fun _ _ step =>
    ⟨track.inline step.1.toInline, step.2⟩

variable {callIp stackBase frameCount rounds : Nat} {answer : HostAnswer} {outcome : ExecOutcome}
  {argc : UInt8} {β : Type} {lhs rhs : NumericValue}

/-! ## One instruction -/

variable {s' : Instance W} {e : VmError}

theorem Broken.stays {fits : Prop} (broken : Broken E fits s e s') (fit : fits)
    (track : OnTrack E.program starts s) : OnTrack E.program starts s' ∧ e.Harmless := by
  refine ⟨⟨?_, fun frame mem => track.frames frame (broken.frames mem)⟩, broken.harmless fit⟩
  rw [broken.ip fit]
  exact track.ip

theorem Engine.FrameLeft.onTrack (left : FrameLeft s s') (track : OnTrack E.program starts s) :
    OnTrack E.program starts s' := by
  obtain ⟨active, _, place, _⟩ := left
  constructor
  · rcases place with rfl | returns
    · exact track.ip
    · exact track.frames _ (by rw [active]; exact mem_cons_self) _ returns
  · intro frame mem
    apply track.frames frame
    rw [active]
    exact mem_cons_of_mem _ mem

theorem completeActiveFrame_stays (track : OnTrack E.program starts s) :
    Stays E.program starts E.completeActiveFrame s :=
  wp_mono completeActiveFrame_spec (fun _ _ left => left.onTrack track) fun _ _ broken =>
    broken.1.stays trivial track

/-- An answer that sends the instruction pointer back to the call site needs one. -/
def AnswerFits (E : Engine W) (starts : List Nat) (callIp : Nat) : HostAnswer → Prop
  | .yielded true => Boundary E.program starts callIp
  | .pending _ => ∃ resumeIp, E.callResumeIp callIp = .ok resumeIp ∧
      Boundary E.program starts resumeIp
  | _ => True

theorem AnswerFits.resumes
    (fits : AnswerFits E starts callIp answer) : E.AnswerResumes callIp answer := by
  rintro opId rfl
  obtain ⟨resumeIp, known, _⟩ := fits
  exact ⟨resumeIp, known⟩

theorem SoundCode.callResumeIp_eq (sound : SoundCode E.program starts)
    (start : callIp ∈ starts) (known : opcodeAt E.program callIp = some opcode)
    (isCall : opcode = .call ∨ opcode = .callValue) :
    E.callResumeIp callIp = .ok (callIp + 1 + opcode.operandLen) := by
  obtain ⟨raw, inCode, decoded⟩ := bind_eq_some_iff.mp known
  have fits : ¬ callIp + 1 + opcode.operandLen > E.program.code.length :=
    Nat.not_lt.mpr (sound.completeAt start known).fits
  rcases isCall with rfl | rfl <;> simp [callResumeIp, inCode, decoded, fits]

/-- Any answer fits a call instruction. -/
theorem SoundCode.answerFits (sound : SoundCode E.program starts)
    (start : callIp ∈ starts) (known : opcodeAt E.program callIp = some opcode)
    (isCall : opcode = .call ∨ opcode = .callValue) (answer : HostAnswer) :
    AnswerFits E starts callIp answer := by
  cases answer with
  | yielded retry =>
    cases retry with
    | true => exact .inl start
    | false => trivial
  | pending opId =>
    exact ⟨_, sound.callResumeIp_eq start known isCall, (sound.completeAt start known).next⟩
  | _ => trivial

theorem SoundCode.wellPlaced (sound : SoundCode E.program starts) (start : ip ∈ starts)
    (known : opcodeAt E.program ip = some opcode) : E.WellPlaced ip opcode where
  fits := (sound.completeAt start known).fits
  constant := by
    rintro rfl unknown
    obtain ⟨value, decoded⟩ := sound.decodedLdcValueAt_isSome start known
    cases unknown.symm.trans decoded
  branch branches := by
    obtain ⟨target, decoded, _, valid⟩ := sound.decodedJumpTargetAt_spec start (by
      rw [known, some.injEq, some.injEq]
      exact branches)
    exact ⟨by rw [decoded]; nofun, valid⟩
  resumes isCall := ⟨_, sound.callResumeIp_eq start known isCall⟩

theorem Engine.HostCalled.onTrack {index : UInt16} {count : Nat}
    (called : E.HostCalled index count callIp answer s outcome s')
    (track : OnTrack E.program starts s) (fits : AnswerFits E starts callIp answer) :
    OnTrack E.program starts s' := by
  constructor
  · rcases called.place with same | ⟨rfl, here⟩ | ⟨⟨opId, rfl⟩, known⟩
    · rw [same]
      exact track.ip
    · rw [here]
      exact fits
    · obtain ⟨resumeIp, known', boundary⟩ := fits
      cases known.symm.trans known'
      exact boundary
  · rw [called.within.inline.frames]
    exact track.frames

/-- What a call of a host import needs: its answer fits the call site. -/
def ImportFits (E : Engine W) (starts : List Nat) (prototypeId : UInt32) (operands : List Value)
    (s : Instance W) : Prop :=
  ∀ prototype importIndex, E.program.callablePrototypes[prototypeId.toNat]? = some prototype →
    prototype.target = .hostImport importIndex →
    AnswerFits E starts (s.ip - 2) (E.host.call importIndex operands
      { s with stack := operands.reverse ++ s.stack }).answer

variable {prototypeId : UInt32} {operandStackBase start : Nat}

theorem length_operands_le {stack : List Value} : (stack.take argc.toNat).reverse.length ≤ 255 := by
  rw [length_reverse, length_take]
  have := UInt8.toNat_lt argc
  omega

theorem importAnswer_eq {importIndex : UInt16} (few : operands.length ≤ 255) :
    E.importAnswer importIndex operands s = (E.host.call importIndex operands
      { s with stack := operands.reverse ++ s.stack }).answer := by
  have argc : (UInt8.ofNat operands.length).toNat = operands.length := by
    exact Nat.mod_eq_of_lt (by omega)
  rw [importAnswer, argc, take_left' (by simp), reverse_reverse]

theorem Engine.Called.onTrack {entered : Entered} (sound : SoundCode E.program starts)
    (called : E.Called prototypeId callable operands operandStackBase continuation s entered s')
    (track : OnTrack E.program starts s)
    (returns : ∀ returnIp, continuation = .resumeBytecode returnIp →
        Boundary E.program starts returnIp)
    (fits : callable.isSome → operands.length ≤ 255 ∧ ImportFits E starts prototypeId operands s) :
    OnTrack E.program starts s' := by
  cases called with
  | frame new =>
    obtain ⟨_, known, step⟩ := new
    refine ⟨.inl (sound.entry _ known), ?_⟩
    intro frame mem
    rcases mem_cons.mp mem with rfl | older
    · exact returns
    · exact track.frames frame (by rwa [step.frames] at older)
  | host value known target called =>
    obtain ⟨few, fits⟩ := fits value
    rw [importAnswer_eq few] at called
    exact called.onTrack track (fits _ _ known target)

theorem executeCallValue_stays (sound : SoundCode E.program starts)
    (track : OnTrack E.program starts s)
    (fits : ∀ object value, s.stack[argc.toNat]? = some (.callable object value) →
        ImportFits E starts value.prototypeId (s.stack.take argc.toNat).reverse
        { s with stack := s.stack.drop (argc.toNat + 1) }) :
    Stays E.program starts (E.executeCallValue argc) s := by
  apply wp_mono executeCallValue_spec
  · rintro entered s' ⟨_, object, value, callee, called⟩
    apply called.onTrack sound ⟨track.ip, track.frames⟩ _ fun _ =>
      ⟨length_operands_le, fits object value callee⟩
    rintro _ ⟨⟩
    exact track.ip
  · intro e s' broken
    refine broken.stays ?_ track
    intro object value callee prototype importIndex known target
    rw [importAnswer_eq length_operands_le]
    exact AnswerFits.resumes (fits object value callee prototype importIndex known target)

/-- How an instruction ends: on track, and in front of the `Ret` that is to follow. -/
def StepStays (E : Engine W) (starts : List Nat) (stepped : Engine.Stepped) (s : Instance W) :
    Prop :=
  OnTrack E.program starts s ∧ (stepped = .tailReturn → opcodeAt E.program s.ip = some .ret)

theorem Engine.Did.stays {stepped : Stepped} (sound : SoundCode E.program starts)
    (did : E.Did start opcode s stepped s') (mem : start ∈ starts)
    (known : opcodeAt E.program start = some opcode)
    (track : OnTrack E.program starts { s with ip := start + 1 + opcode.operandLen }) :
    StepStays E starts stepped s' := by
  cases did with
  | plain step goes =>
    refine ⟨⟨?_, by rw [step.inline.frames]; exact track.frames⟩, by rintro ⟨⟩⟩
    rw [step.inline.ip]
    rcases goes with rfl | ⟨branches, target⟩
    · exact track.ip
    · obtain ⟨_, decoded, reached, _⟩ := sound.decodedJumpTargetAt_spec mem (by
        rw [known, some.injEq, some.injEq]
        exact branches)
      cases target _ decoded
      exact .inl reached
  | left returns left =>
    subst returns
    exact ⟨left.onTrack track, by rintro ⟨⟩⟩
  | @host _ outcome _ calls called =>
    subst calls
    refine ⟨called.onTrack track (sound.answerFits mem known (.inl rfl) _), ?_⟩
    intro tail
    cases outcome with
    | returned =>
      have fuses : E.canFuseCallRetPattern (start + 4) = true := by
        by_contra other
        simp [hostCallStepped, other, Stepped.continue] at tail
      have here : s'.ip = start + 4 := called.goesOn rfl
      have byte : E.program.code[start + 4]? = some ret.toByte := by
        simpa [canFuseCallRetPattern] using fuses
      rw [here, opcodeAt, byte, bind_some, tryFrom_toByte]
    | _ => cases tail
  | @value _ entered _ calls _ called =>
    subst calls
    obtain ⟨_, object, value, callee, called⟩ := called
    refine ⟨called.onTrack sound ⟨track.ip, track.frames⟩ ?_ ?_, by cases entered <;> rintro ⟨⟩⟩
    · rintro _ ⟨⟩
      exact track.ip
    · exact fun _ => ⟨length_operands_le, fun _ _ _ _ =>
        sound.answerFits mem known (.inr rfl) _⟩
  | @script _ _ _ entered _ calls _ _ called =>
    subst calls
    refine ⟨called.onTrack sound ⟨track.ip, track.frames⟩ ?_ (by simp),
      by cases entered <;> rintro ⟨⟩⟩
    rintro _ ⟨⟩
    exact track.ip

/-- The instruction pointer is right after the opcode of the instruction at `start`. -/
structure Fetched (E : Engine W) (starts : List Nat) (start : Nat) (opcode : OpCode)
    (s : Instance W) : Prop where
  start_mem : start ∈ starts
  opcode_eq : opcodeAt E.program start = some opcode
  ip : s.ip = start + 1
  frames : ∀ frame ∈ s.executionFrames, ∀ returnIp,
    frame.continuation = .resumeBytecode returnIp → Boundary E.program starts returnIp

theorem Fetched.ip_eq (h : Fetched E starts start opcode s) :
    s = { s with ip := start + 1 } := by rw [← h.ip]

section

variable (sound : SoundCode E.program starts) (h : Fetched E starts start opcode s)

include sound h

/-- After its operands the instruction is over. -/
theorem Fetched.onTrack : OnTrack E.program starts { s with ip := start + 1 + opcode.operandLen } :=
  ⟨(sound.completeAt h.start_mem h.opcode_eq).next, h.frames⟩

theorem Fetched.fails
    (fails : E.Fails start opcode s e s') : OnTrack E.program starts s' ∧ e.Harmless :=
  fails.stays (sound.wellPlaced h.start_mem h.opcode_eq) (h.onTrack sound)

/-- **One instruction of a validated program stays on track**, also by failing. -/
theorem execute_stays : wp (E.execute opcode) (StepStays E starts)
      (fun e s' => OnTrack E.program starts s' ∧ e.Harmless) s := by
  rw [h.ip_eq]
  apply wp_mono execute_did
  · exact fun _ _ did => did.stays sound h.start_mem h.opcode_eq (h.onTrack sound)
  · exact fun _ _ fails => h.fails sound fails

end

/-! ## Fused sequences -/

namespace Engine

variable {index : UInt8} {cursor : Nat} {floatOp : UInt64 → UInt64 → Bool}

theorem decodedLocalIndexAt_eq (h : E.decodedLocalIndexAt ip = some index) :
    E.program.code[ip + 1]? = some index := by
  unfold decodedLocalIndexAt at h
  split at h
  · exact h
  · exact h
  · cases h

/-- How the instruction at `cursor` can go on with a sequence. -/
inductive SequenceStep (E : Engine W) (s : Instance W) (opcode : OpCode) (cursor : Nat)
    (stack : List NumericValue) : Nat → List NumericValue → Prop where
  | constant {value : Value} {number : NumericValue} :
      opcode = .ldc → E.decodedLdcValueAt cursor = some value →
      (asNumeric value).toOption = some number →
      SequenceStep E s opcode cursor stack (cursor + 5) (number :: stack)
  | load {index : UInt8} {number : NumericValue} :
      opcode = .ldloc → E.program.code[cursor + 1]? = some index →
      E.localScalarValueWithHint s index = some number →
      SequenceStep E s opcode cursor stack (cursor + 2) (number :: stack)
  | arithmetic {lhs rhs value : NumericValue} {rest : List NumericValue} :
      stack = rhs :: lhs :: rest → E.scalarArithmetic opcode lhs rhs = some (.ok value) →
      SequenceStep E s opcode cursor stack (cursor + 1) (value :: rest)

/-- How the instruction at `cursor` can end a sequence. -/
inductive SequenceEnd (E : Engine W) (opcode : OpCode) (cursor : Nat) (stack : List NumericValue) :
    FusedEnd → Prop where
  | declined : SequenceEnd E opcode cursor stack .declined
  | failed {lhs rhs : NumericValue} {rest : List NumericValue} {e : VmError} :
      stack = rhs :: lhs :: rest → E.scalarArithmetic opcode lhs rhs = some (.error e) →
      SequenceEnd E opcode cursor stack (.failed e)
  | store {dst : UInt8} {value : NumericValue} :
      opcode = .stloc → stack = [value] → E.program.code[cursor + 1]? = some dst →
      SequenceEnd E opcode cursor stack (.store dst value cursor)
  | branch {lhs rhs : NumericValue} {target : Nat} {intOp : Int64 → Int64 → Bool}
      {floatOp : UInt64 → UInt64 → Bool} :
      stack = [rhs, lhs] → (opcode = .clt ∨ opcode = .cgt) →
      (∀ fresh, E.binaryOp cursor fresh opcode =
        some (compareOp E.floatOps (E.operandTypeHint cursor) intOp floatOp)) →
      opcodeAt E.program (cursor + 1) = some .brfalse →
      E.decodedJumpTargetAt (cursor + 1) = some target →
      SequenceEnd E opcode cursor stack
        (.branch (scalarCompare E.floatOps intOp floatOp lhs rhs) (cursor + 1) target cursor)

/-- How the instruction at `cursor` goes on with a sequence or ends it. -/
inductive SequenceMove (E : Engine W) (s : Instance W) (opcode : OpCode) (cursor : Nat)
    (stack : List NumericValue) : ScalarStep → Prop where
  | next {cursor' : Nat} {stack' : List NumericValue} :
      E.SequenceStep s opcode cursor stack cursor' stack' →
      SequenceMove E s opcode cursor stack (.next cursor' stack')
  | last {result : FusedEnd} : E.SequenceEnd opcode cursor stack result →
      SequenceMove E s opcode cursor stack (.last result)

theorem pushScalar_moves {value : Option NumericValue} {next : Nat}
    (step : ∀ number, value = some number →
      E.SequenceStep s opcode cursor stack next (number :: stack)) :
    E.SequenceMove s opcode cursor stack (pushScalar value next stack) := by
  unfold pushScalar
  split
  · exact .last .declined
  · next number =>
      split
      · exact .last .declined
      · exact .next (step number rfl)

theorem stepArithmetic_moves :
    E.SequenceMove s opcode cursor stack (E.stepArithmetic opcode cursor stack) := by
  unfold stepArithmetic
  split
  · split
    · exact .last .declined
    · next failed => exact .last (.failed rfl failed)
    · next computed => exact .next (.arithmetic rfl computed)
  · exact .last .declined

variable {intOp : Int64 → Int64 → Bool}

theorem stepCompare_moves (compares : opcode = .clt ∨ opcode = .cgt)
    (operation : ∀ fresh, E.binaryOp cursor fresh opcode =
        some (compareOp E.floatOps (E.operandTypeHint cursor) intOp floatOp)) :
    E.SequenceMove s opcode cursor stack
      (E.stepCompare (scalarCompare E.floatOps intOp floatOp) cursor stack) := by
  unfold stepCompare
  split
  · split
    · next byte =>
        have known : opcodeAt E.program (cursor + 1) = some .brfalse := by
          rw [opcodeAt, byte, Option.bind_some, OpCode.tryFrom_toByte]
        split
        · exact .last .declined
        · next decoded => exact .last (.branch rfl compares operation known decoded)
    · exact .last .declined
  · exact .last .declined

/-- **What one instruction of a fused sequence does.** -/
theorem scalarStep_moves :
    E.SequenceMove s opcode cursor stack (E.scalarStep s opcode cursor stack) := by
  cases opcode with
  | ldc =>
    apply pushScalar_moves
    intro number found
    obtain ⟨value, decoded, isNumber⟩ := Option.bind_eq_some_iff.mp found
    exact .constant rfl decoded isNumber
  | ldloc =>
    apply pushScalar_moves
    intro number found
    obtain ⟨index, decoded, loaded⟩ := Option.bind_eq_some_iff.mp found
    exact .load rfl (decodedLocalIndexAt_eq decoded) loaded
  | add | sub | mul | div | mod | shl => exact stepArithmetic_moves
  | stloc =>
    simp only [scalarStep]
    split
    · next value dst decoded => exact .last (.store rfl rfl (decodedLocalIndexAt_eq decoded))
    · exact .last .declined
  | clt => exact stepCompare_moves (.inl rfl) fun _ => rfl
  | cgt => exact stepCompare_moves (.inr rfl) fun _ => rfl
  | _ => exact .last .declined

end Engine

/-- What the writes at the end of a fused sequence rely on. -/
def EndFits (E : Engine W) (starts : List Nat) : FusedEnd → Prop
  | .declined => True
  | .failed error => error.Harmless
  | .store _ _ cursor => Boundary E.program starts (cursor + 2)
  | .branch _ jumpOpcodeIp target cursor =>
    jumpOpcodeIp ∈ starts ∧ Boundary E.program starts (cursor + 6) ∧ target ∈ starts ∧
      E.branch jumpOpcodeIp target = (setIp target : CoreM W Unit)

/-- A step of a sequence goes to the next instruction. -/
def ScalarStepFits (E : Engine W) (starts : List Nat) : ScalarStep → Prop
  | .next cursor _ => Boundary E.program starts cursor
  | .last result => EndFits E starts result

variable {cursor : Nat}

theorem scalarOp_eq_error {F : FloatOps} {intOp : Int64 → Int64 → Except VmError Int64}
    {floatOp : UInt64 → UInt64 → UInt64} : scalarOp F intOp floatOp lhs rhs = .error e ↔
      ∃ l r, lhs = .int l ∧ rhs = .int r ∧ intOp l r = .error e := by
  cases lhs with
  | float l => exact ⟨nofun, nofun⟩
  | int l =>
    cases rhs with
    | float r => exact ⟨nofun, nofun⟩
    | int r => cases computed : intOp l r <;> simp [scalarOp, computed, Except.map]

theorem scalarArithmetic_harmless
    (h : E.scalarArithmetic opcode lhs rhs = some (.error e)) : e.Harmless := by
  cases opcode with
  | add | sub | mul => obtain ⟨_, _, _, _, ⟨⟩⟩ := scalarOp_eq_error.mp (some.inj h)
  | div =>
    obtain ⟨l, r, _, _, failed⟩ := scalarOp_eq_error.mp (some.inj h)
    exact checkedIntDiv_harmless l r e failed
  | mod =>
    obtain ⟨l, r, _, _, failed⟩ := scalarOp_eq_error.mp (some.inj h)
    exact checkedIntRem_harmless l r e failed
  | shl =>
    cases lhs with
    | float bits => cases h
    | int l =>
      cases rhs with
      | float bits => cases h
      | int r =>
        by_cases small : 0 ≤ r ∧ r ≤ 63
        · simp [scalarArithmetic, checkedShl, small, Except.map] at h
        · simp only [scalarArithmetic, checkedShl, small, if_false, Except.map,
            some.injEq, Except.error.injEq] at h
          rw [← h]
          trivial
  | _ => cases h

theorem Engine.SequenceMove.fits (sound : SoundCode E.program starts) (start : cursor ∈ starts)
    (known : opcodeAt E.program cursor = some opcode) {step : ScalarStep}
    (move : E.SequenceMove s opcode cursor stack step) : ScalarStepFits E starts step := by
  have next := (sound.completeAt start known).next
  cases move with
  | next step =>
    cases step with
    | constant load | load load =>
      subst load
      exact next
    | arithmetic _ computed =>
      cases opcode with
      | add | sub | mul | div | mod | shl => exact next
      | _ => cases computed
  | last ends =>
    cases ends with
    | declined => trivial
    | failed _ computed => exact scalarArithmetic_harmless computed
    | store store =>
      subst store
      exact next
    | branch _ compares _ jump decoded =>
      have after : Boundary E.program starts (cursor + 1) := by
        rcases compares with rfl | rfl <;> exact next
      obtain ⟨raw, byte, _⟩ := bind_eq_some_iff.mp jump
      have start := after.start (List.getElem?_eq_some_iff.mp byte).1
      obtain ⟨target, decoded', reached, valid⟩ :=
        sound.decodedJumpTargetAt_spec start (.inr jump)
      cases decoded.symm.trans decoded'
      exact ⟨start, (sound.completeAt start jump).next, reached, if_pos valid⟩

theorem scanScalarSequence_fits (sound : SoundCode E.program starts) {s : Instance W} {steps : Nat}
    (h : Boundary E.program starts cursor) :
    (∀ ip ∈ (E.scanScalarSequence s steps cursor stack).1, ip ∈ starts) ∧
      EndFits E starts (E.scanScalarSequence s steps cursor stack).2 := by
  induction steps generalizing cursor stack with
  | zero => exact ⟨nofun, trivial⟩
  | succ steps ih =>
    unfold scanScalarSequence
    cases byte : E.program.code[cursor]? with
    | none => exact ⟨nofun, trivial⟩
    | some raw =>
      have start := h.start (List.getElem?_eq_some_iff.mp byte).1
      obtain ⟨opcode, complete⟩ := sound.complete cursor start
      have decoded : tryFrom raw = some opcode := by
        have known := complete.opcode_eq
        rwa [opcodeAt, byte, bind_some] at known
      have fits : ScalarStepFits E starts (E.scalarStep s opcode cursor stack) :=
        scalarStep_moves.fits sound start complete.opcode_eq
      simp only [decoded]
      cases step : E.scalarStep s opcode cursor stack with
      | last result =>
        rw [step] at fits
        refine ⟨?_, fits⟩
        intro ip mem
        rcases mem_cons.mp mem with rfl | more
        · exact start
        · cases result with
          | branch condition jumpOpcodeIp target cursor' =>
            rw [mem_singleton.mp more]
            exact fits.1
          | _ => cases more
      | next cursor' stack' =>
        rw [step] at fits
        refine ⟨?_, (ih fits).2⟩
        intro ip mem
        rcases mem_cons.mp mem with rfl | more
        · exact start
        · exact (ih fits).1 ip more

theorem commitFused_stays (track : OnTrack E.program starts s) {result : FusedEnd}
    (fits : EndFits E starts result) : Stays E.program starts (E.commitFused result) s := by
  cases result with
  | declined => exact track
  | failed error => exact ⟨track, fits⟩
  | store dst value cursor =>
    unfold commitFused Stays
    apply wp_seq (Stays.of_steady storeLocalAbsolute_steady track)
    intro _ s' track'
    exact track'.move fits
  | branch condition jumpOpcodeIp target cursor =>
    obtain ⟨_, after, reached, branch⟩ := fits
    cases condition with
    | true => exact track.move after
    | false =>
      simp only [commitFused, branchUnless, branch]
      exact ⟨.inl reached, track.frames⟩

/-! ## The run loops -/

/-- A state of the machine on track, all of whose opcodes were read at instructions. -/
structure Sane (program : Program) (starts : List Nat) (st : State W) : Prop where
  track : OnTrack program starts st.inst
  fetches : ∀ ip ∈ st.fetches, ip ∈ starts

/-- The failures of a validated program: none is about its code, except that it ends. -/
def Excused (program : Program) (e : VmError) (st : State W) : Prop :=
  e.Harmless ∨ e.isInterrupt = true ∨ e = .bytecodeBounds ∧ st.inst.ip = program.code.length

theorem Excused.atEnd (excused : Excused program e st) (harmful : ¬ e.Harmless)
    (inner : e.isInterrupt = false) : e = .bytecodeBounds ∧ st.inst.ip = program.code.length := by
  rcases excused with harmless | interrupt | atEnd
  · exact absurd harmless harmful
  · cases inner.symm.trans interrupt
  · exact atEnd

def RunsSane {α : Type} (program : Program) (starts : List Nat) (x : VmM W α) (st : State W) :
    Prop :=
  wp x (fun _ => Sane program starts)
    (fun e st' => Sane program starts st' ∧ Excused program e st') st

theorem RunsSane.bind {x : VmM W α} {f : α → VmM W β} (first : RunsSane program starts x st)
    (second : ∀ a st', Sane program starts st' → RunsSane program starts (f a) st') :
    RunsSane program starts (x >>= f) st := wp_seq first second

theorem core_runsSane (h : Stays E.program starts x st.inst) (sane : Sane E.program starts st) :
    RunsSane E.program starts (core x) st := by
  unfold RunsSane core
  rw [wp_zoom]
  apply wp_mono h
  · intro _ s' track
    exact ⟨track, sane.fetches⟩
  · intro e s' after
    exact ⟨⟨after.1, sane.fetches⟩, .inl after.2⟩

/-- The reads so far and further ones at instructions. -/
theorem noted {offsets : List Nat} (fetches : ∀ ip ∈ st.fetches, ip ∈ starts)
    (h : ∀ ip ∈ offsets, ip ∈ starts) : ∀ ip ∈ st.fetches ++ offsets, ip ∈ starts := by
  intro ip mem
  rcases mem_append.mp mem with old | new
  · exact fetches ip old
  · exact h ip new

theorem Sane.ticked {st' : State W} (sane : Sane program starts st) (ticked : Ticked st st') :
    Sane program starts st' := by
  obtain ⟨_, _, rfl⟩ := ticked
  exact ⟨sane.track, sane.fetches⟩

section

variable (sound : SoundCode E.program starts)

include sound

theorem finishStep_runsSane {stepped : Stepped}
    (h : StepStays E starts stepped st.inst) (fetches : ∀ ip ∈ st.fetches, ip ∈ starts) :
    RunsSane E.program starts (E.finishStep stepped) st := by
  have sane : Sane E.program starts st := ⟨h.1, fetches⟩
  apply finishStep_wp
  · exact fun _ _ => sane
  · exact fun _ _ ticked => sane.ticked ticked
  · rintro rfl _ ⟨_, _, rfl⟩
    have known := h.2 rfl
    have start : st.inst.ip ∈ starts := by
      obtain ⟨raw, byte, _⟩ := bind_eq_some_iff.mp known
      exact h.1.ip.start (List.getElem?_eq_some_iff.mp byte).1
    have next := h.1.move (sound.completeAt start known).next
    exact core_runsSane (completeActiveFrame_stays next)
      ⟨next, noted fetches (forall_mem_singleton.mpr start)⟩
  · exact fun _ _ _ ticked interrupt => ⟨sane.ticked ticked, .inr (.inl interrupt)⟩

variable {allow : Bool}

theorem executeLdloc_runsSane (h : Fetched E starts start .ldloc st.inst)
    (fetches : ∀ ip ∈ st.fetches, ip ∈ starts) :
    RunsSane E.program starts (E.executeLdloc allow) st := by
  refine executeLdloc_wp (I := Sane E.program starts) ?_ ?_ ?_ fun _ sane => sane
  · have read : wp (E.readLocalIndex start) _ (E.Fails start .ldloc st.inst)
        { st.inst with ip := start + 1 } := readLocalIndex_spec rfl start _
    rw [← h.ip_eq] at read
    rw [h.ip, Nat.add_sub_cancel, core, wp_zoom]
    apply wp_mono read
    · rintro index _ rfl
      exact ⟨h.onTrack sound, fetches⟩
    · intro e s' fails
      obtain ⟨track, harmless⟩ := h.fails sound fails
      exact ⟨⟨track, fetches⟩, .inl harmless⟩
  · intro st initial sane
    obtain ⟨offsets, fits⟩ := scanScalarSequence_fits sound sane.track.ip
    exact core_runsSane (commitFused_stays sane.track fits)
      ⟨sane.track, noted sane.fetches offsets⟩
  · intro st index sane
    exact core_runsSane (.of_steady (always_bind (loadLocalValue_steady index) push_steady)
      sane.track) sane

theorem executeInterpreterInstruction_runsSane {raw : UInt8}
    (h : Fetched E starts start opcode st.inst) (fetches : ∀ ip ∈ st.fetches, ip ∈ starts)
    (decoded : tryFrom raw = some opcode) :
    RunsSane E.program starts (E.executeInterpreterInstruction raw allow) st := by
  unfold executeInterpreterInstruction
  rw [decoded]
  have general : RunsSane E.program starts (do E.finishStep (← core (E.execute opcode))) st := by
    unfold RunsSane
    rw [wp_bind, core, wp_zoom]
    apply wp_mono (execute_stays sound h)
    · intro stepped s' after
      exact finishStep_runsSane sound after fetches
    · intro e s' after
      exact ⟨⟨after.1, fetches⟩, .inl after.2⟩
  cases opcode with
  | ldloc => exact executeLdloc_runsSane sound h fetches
  | _ => exact general

/-- Reading the opcode of the next instruction. -/
theorem fetchOpcode_wp (sane : Sane E.program starts st)
    (inside : st.inst.ip < E.program.code.length) {R : VmError → State W → Prop} :
    wp E.fetchOpcode (fun raw st' => ∃ opcode, tryFrom raw = some opcode ∧
      Fetched E starts st.inst.ip opcode st'.inst ∧ ∀ ip ∈ st'.fetches, ip ∈ starts) R st := by
  have start := sane.track.ip.start inside
  obtain ⟨opcode, complete⟩ := sound.complete _ start
  obtain ⟨raw, byte, decoded⟩ := bind_eq_some_iff.mp complete.opcode_eq
  unfold fetchOpcode
  change wp (core (readU8 E.program.code)) _ _ _
  rw [core, wp_zoom, wp, readU8]
  simp only [byte]
  exact ⟨opcode, decoded, ⟨start, complete.opcode_eq, rfl, sane.track.frames⟩,
    noted sane.fetches (forall_mem_singleton.mpr start)⟩

/-- **What an instruction keeps, a run keeps.**  The code can only be left at its end. -/
theorem sane_rule : E.RunRule (Sane E.program starts) (fun _ => Sane E.program starts)
      fun e st => Sane E.program starts st ∧ Excused E.program e st where
  round fuses := by
    refine ⟨Sane.ticked, ?_, ?_, fun sane interrupt => ⟨sane, .inr (.inl interrupt)⟩,
      fun failed _ => ⟨failed.1.track, failed.1.fetches⟩⟩
    · intro st sane outside
      refine ⟨sane, .inr (.inr ⟨rfl, ?_⟩)⟩
      rcases sane.track.ip with start | atEnd
      · obtain ⟨opcode, complete⟩ := sound.complete _ start
        have := complete.fits
        omega
      · exact atEnd
    · intro st sane inside
      apply wp_mono (fetchOpcode_wp sound sane inside) _ fun _ _ h => h
      rintro raw st' ⟨opcode, decoded, h, fetches⟩
      exact executeInterpreterInstruction_runsSane sound h fetches decoded
  idle _ sane := sane
  goesOn sane := sane
  unbound sane failed := ⟨sane, .inl (mapError_harmless failed)⟩

theorem runInternal_runsSane {rounds : Nat}
    (sane : Sane E.program starts st) : RunsSane E.program starts (E.runInternal rounds) st := by
  apply wp_mono ((sane_rule sound).runInternal rounds sane) _ fun _ _ h => h
  rintro _ _ ⟨_, _, sane'⟩
  exact sane'

end

/-! ## Host invocations -/

theorem foldl_abandonFrame (frames : List ExecutionFrame) (s : Instance W) :
    (frames.foldl abandonFrame s).ip = s.ip ∧
      ∀ frame ∈ (frames.foldl abandonFrame s).executionFrames, frame ∈ s.executionFrames := by
  induction frames generalizing s with
  | nil => exact ⟨rfl, fun _ mem => mem⟩
  | cons frame frames ih =>
    obtain ⟨ip, sub⟩ := ih (abandonFrame s frame)
    exact ⟨ip, fun frame' mem => mem_of_mem_tail (sub frame' mem)⟩

/-- Giving up an invocation does not move. -/
theorem abortHostInvocation_wp (track : OnTrack E.program starts s) (stackBase frameCount : Nat) :
    wp (abortHostInvocation stackBase frameCount)
      (fun _ s' => OnTrack E.program starts s' ∧ s'.ip = s.ip) R s := by
  obtain ⟨ip, sub⟩ := foldl_abandonFrame _ s
  refine ⟨⟨?_, fun frame mem => track.frames frame (sub frame mem)⟩, ip⟩
  rw [ip]
  exact track.ip

theorem orAbort_runsSane {x : VmM W α} (stackBase frameCount : Nat)
    (h : RunsSane E.program starts x st) :
    RunsSane E.program starts (orAbort stackBase frameCount x) st := by
  rw [RunsSane, orAbort_wp]
  apply wp_mono h fun _ _ sane => sane
  rintro e st' ⟨sane, excused⟩
  rw [core, wp_zoom]
  apply wp_mono (abortHostInvocation_wp (R := fun _ _ => False) sane.track _ _) _
    fun _ _ => False.elim
  rintro _ s' ⟨track, ip⟩
  exact ⟨⟨track, sane.fetches⟩, excused.imp_right (.imp_right (.imp_right ip.trans))⟩

/-- An answer after which the call is over. -/
def Settles : HostAnswer → Prop
  | .yielded true | .pending _ => False
  | _ => True

/-- A host import that an embedder starts directly answers at once: it neither asks to be
called again nor answers later. -/
def DirectCallSettles (E : Engine W) (action : Engine.Action) (s : Instance W) : Prop :=
  match action with
  | .startCallable _ (.callable _ value) args =>
    ∀ prototype importIndex,
      E.program.callablePrototypes[value.prototypeId.toNat]? = some prototype →
      prototype.target = .hostImport importIndex →
      Settles (E.host.call importIndex args
        { s with stack := args.reverse ++ s.stack, hostReturn := none }).answer
  | _ => True

theorem Settles.fits (h : Settles answer) (callIp : Nat) : AnswerFits E starts callIp answer := by
  cases answer with
  | yielded retry =>
    cases retry with
    | true => cases h
    | false => trivial
  | pending opId => cases h
  | _ => trivial

theorem callValueNow_runsSane (sound : SoundCode E.program starts) (sane : Sane E.program starts st)
    (fits : ∀ object value, st.inst.stack[argc.toNat]? = some (.callable object value) →
        ImportFits E starts value.prototypeId (st.inst.stack.take argc.toNat).reverse
        { st.inst with stack := st.inst.stack.drop (argc.toNat + 1) }) :
    RunsSane E.program starts (E.callValueNow argc) st := by
  unfold callValueNow RunsSane
  rw [wp_bind, core, wp_zoom]
  apply wp_mono (executeCallValue_stays sound sane.track fits)
  · intro entered s' track
    refine finishStep_runsSane sound ⟨track, ?_⟩ sane.fetches
    cases entered <;> rintro ⟨⟩
  · intro e s' after
    exact ⟨⟨after.1, sane.fetches⟩, .inl after.2⟩

theorem settleInvocation_stays (track : OnTrack E.program starts s) :
    Stays E.program starts (settleInvocation stackBase frameCount outcome) s := by
  apply settleInvocation_wp
  · exact fun _ _ _ _ => ⟨track.ip, track.frames⟩
  · exact fun _ => wp_mono (abortHostInvocation_wp (R := fun _ _ => False) track _ _)
      (fun _ _ after => ⟨after.1, trivial⟩) nofun
  · refine fun _ => ⟨track.ip, ?_⟩
    change ∀ frame ∈ returningToHost s.executionFrames, _
    cases known : s.executionFrames with
    | nil => rintro _ ⟨⟩
    | cons frame frames =>
      intro frame' mem returnIp continuation
      rcases mem_cons.mp mem with rfl | older
      · cases continuation
      · exact track.frames frame' (by rw [known]; exact mem_cons_of_mem _ older) returnIp
          continuation

variable {args : List Value}

/-- A host invocation starts with the callable under its arguments. -/
theorem checkInvocation_wp {callable : Value} : wp (checkInvocation s callable args)
      (fun _ s' => s' = s ∧ s.executionFrames = [] ∧ args.length ≤ 255)
      (fun e s' => s' = s ∧ e.Harmless) s := by
  unfold checkInvocation
  rw [wp_bind, wp_lift]
  refine ⟨fun found _ => ?_, fun e failed => ⟨rfl, asCallable_harmless failed⟩⟩
  apply wp_require_bind ⟨rfl, trivial⟩
  intro _
  apply wp_require_bind ⟨rfl, trivial⟩
  intro halted
  rw [wp_require]
  exact ⟨fun few => ⟨rfl, halted, few⟩, fun _ => ⟨rfl, trivial⟩⟩

/-- A host invocation is refused, or the callable is called from above its arguments. -/
theorem Engine.beginInvocation_wp {callable : Value} {Q : Option VmStatus → State W → Prop}
    {R : VmError → State W → Prop} (refused : ∀ e, e.Harmless → R e st)
    (called : st.inst.executionFrames = [] → (UInt8.ofNat args.length).toNat = args.length →
      wp (orAbort st.inst.stack.length st.inst.executionFrames.length
        (E.callValueNow (UInt8.ofNat args.length))) (fun outcome => wp (core (settleInvocation
          st.inst.stack.length st.inst.executionFrames.length outcome)) Q R) R
        { st with inst := { st.inst with
          stack := args.reverse ++ callable :: st.inst.stack, hostReturn := none } }) :
    wp (E.beginInvocation callable args) Q R st := by
  unfold beginInvocation
  rw [wp_bind, wp_get, wp_bind, core, wp_zoom]
  apply wp_mono checkInvocation_wp
  · rintro _ _ ⟨rfl, halted, few⟩
    change wp (orAbort _ _ _ >>= _) _ _ _
    exact wp_bind.mpr (called halted (Nat.mod_eq_of_lt (by omega)))
  · rintro e _ ⟨rfl, harmless⟩
    exact refused e harmless

theorem beginInvocation_runsSane (sound : SoundCode E.program starts)
    (sane : Sane E.program starts st) {callable : Value}
    (settles : DirectCallSettles E (.startCallable rounds callable args) st.inst) :
    RunsSane E.program starts (E.beginInvocation callable args) st := by
  apply beginInvocation_wp fun e harmless => ⟨sane, .inl harmless⟩
  intro _ argc
  have pushed : Sane E.program starts { st with inst := { st.inst with
      stack := args.reverse ++ callable :: st.inst.stack, hostReturn := none } } :=
    ⟨⟨sane.track.ip, sane.track.frames⟩, sane.fetches⟩
  have length : args.reverse.length = args.length := length_reverse
  apply wp_mono (orAbort_runsSane _ _ (callValueNow_runsSane sound pushed ?_)) _ fun _ _ h => h
  · intro object value callee prototype importIndex known target
    rw [argc] at callee ⊢
    have same : callable = .callable object value := by simpa [length] using callee
    subst same
    have answer := settles prototype importIndex known target
    have popped : (args.reverse ++ Value.callable object value :: st.inst.stack).drop
        (args.length + 1) = st.inst.stack := by
      rw [drop_append, length]
      simp
    have taken : ((args.reverse ++ Value.callable object value :: st.inst.stack).take
        args.length).reverse = args := by
      rw [take_left' length, reverse_reverse]
    simp only [popped, taken]
    exact answer.fits _
  · intro outcome st' sane'
    exact core_runsSane (settleInvocation_stays sane'.track) sane'

theorem startCallable_runsSane (sound : SoundCode E.program starts)
    (sane : Sane E.program starts st) {callable : Value}
    (settles : DirectCallSettles E (.startCallable rounds callable args) st.inst) :
    RunsSane E.program starts (E.startCallable rounds callable args) st := by
  unfold startCallable RunsSane
  apply RunsSane.bind (beginInvocation_runsSane sound sane settles)
  intro status st' sane'
  cases status with
  | some status => exact sane'
  | none => exact orAbort_runsSane _ _ (runInternal_runsSane sound sane')

/-! ## Sessions -/

theorem completeHostOp_stays (track : OnTrack E.program starts s) {opId : Nat}
    {result : Except String (List Value)} :
    Stays E.program starts (completeHostOp opId result) s := by
  unfold completeHostOp Stays
  rw [wp_bind, wp_get, wp_bind, wp_expect]
  refine ⟨fun waiting _ => ?_, fun _ => ⟨track, trivial⟩⟩
  apply wp_require_bind ⟨track, trivial⟩
  intro _
  rw [wp_bind, wp_modify, wp_bind, wp_lift]
  refine ⟨fun values _ => ⟨track.ip, track.frames⟩, fun e failed => ?_⟩
  exact ⟨⟨track.ip, track.frames⟩, mapError_harmless failed⟩

theorem perform_runsSane (sound : SoundCode E.program starts) (sane : Sane E.program starts st)
    {action : Engine.Action} (settles : DirectCallSettles E action st.inst) :
    RunsSane E.program starts (E.perform action) st := by
  cases action with
  | run rounds => exact runInternal_runsSane sound sane
  | startCallable rounds callable args => exact startCallable_runsSane sound sane settles
  | completeHostOp opId result =>
    exact .bind (core_runsSane (completeHostOp_stays sane.track) sane) fun _ _ sane => sane
  | setLocal index value =>
    exact .bind (core_runsSane (.of_steady (storeLocal_steady index value) sane.track) sane)
      fun _ _ sane => sane
  | grant grant => exact ⟨sane.track, sane.fetches⟩

/-- Every action of a session meets a condition on the instance it starts from. -/
def Engine.Throughout (E : Engine W) (P : Engine.Action → Instance W → Prop) :
    List Engine.Action → State W → Prop
  | [], _ => True
  | action :: actions, st =>
    P action st.inst ∧ E.Throughout P actions (resultState (E.perform action st))

/-- The state after an action, and its error, if any. -/
theorem session_sane (sound : SoundCode E.program starts) {actions : List Engine.Action}
    (sane : Sane E.program starts st) (settled : E.Throughout (DirectCallSettles E) actions st) :
    ∀ result ∈ E.session actions st, Sane E.program starts (resultState result) ∧
      ∀ e st', result = .error e st' → Excused E.program e st' := by
  induction actions generalizing st with
  | nil => simp [session]
  | cons action actions ih =>
    obtain ⟨returned, failed⟩ := wp_iff.mp (perform_runsSane sound sane settled.1)
    have after : Sane E.program starts (resultState (E.perform action st)) ∧
        ∀ e st', E.perform action st = .error e st' → Excused E.program e st' := by
      refine ⟨?_, fun e st' result => (failed e st' result).2⟩
      cases result : E.perform action st with
      | ok status st' => exact returned status st' result
      | error e st' => exact (failed e st' result).1
    intro result mem
    rw [session, mem_cons] at mem
    rcases mem with rfl | later
    · exact after
    · exact ih after.1 settled.2 result later

theorem newState_sane (sound : SoundCode E.program starts) {maxScriptCallDepth nextObject : Nat}
    {world : W} {readings : Nat → Nat} :
    Sane E.program starts (E.newState maxScriptCallDepth nextObject world readings) := by
  refine ⟨.inline ?_ (E.foldl_bindRootCallable_steady (A := fun _ => False) _ _).toInline, nofun⟩
  refine ⟨sound.zero, fun frame mem returnIp continuation => ?_⟩
  rw [mem_singleton.mp mem] at continuation
  cases continuation

/-- **Validated code stays on track.**  In every session with a validated program in which
host imports that are started directly answer at once, every opcode is read where the
validator's walk found a complete instruction, no failure is about the code, and the code
is left at its end only. -/
theorem validated_code_stays_on_track (E : Engine W) (catalog : BuiltinCatalog)
    (hostFnCount : UInt16) (valid : Vmbc.validateProgram catalog E.program hostFnCount = .ok ()) :
    ∃ analysis, analyzeProgram catalog E.program (some hostFnCount) = .ok analysis ∧
      ∀ (maxScriptCallDepth nextObject : Nat) (world : W) (readings : Nat → Nat)
        (actions : List Engine.Action),
        E.Throughout (DirectCallSettles E) actions
          (E.newState maxScriptCallDepth nextObject world readings) →
        ∀ result ∈ E.session actions (E.newState maxScriptCallDepth nextObject world readings),
          (∀ ip ∈ (resultState result).fetches, ip ∈ analysis.instructionStarts ∧
            ∃ opcode, opcodeAt E.program ip = some opcode ∧
              ip + 1 + opcode.operandLen ≤ E.program.code.length) ∧
          ∀ e st, result = .error e st →
            (∀ opcode, e ≠ .invalidOpcode opcode) ∧ (∀ index, e ≠ .invalidConstant index) ∧
            (∀ target, e ≠ .invalidBranchTarget target) ∧
            (e = .bytecodeBounds → st.inst.ip = E.program.code.length) := by
  obtain ⟨analysis, analyzed, _⟩ := Fallible.bind_eq_ok.mp valid
  refine ⟨analysis, analyzed, ?_⟩
  have sound := analyzeProgram_sound analyzed
  intro maxScriptCallDepth nextObject world readings actions settled result mem
  obtain ⟨sane, excused⟩ :=
    session_sane sound (newState_sane sound) settled _ mem
  constructor
  · intro ip fetched
    obtain ⟨opcode, complete⟩ := sound.complete ip (sane.fetches ip fetched)
    exact ⟨sane.fetches ip fetched, opcode, complete.opcode_eq, complete.fits⟩
  · intro e st failed
    have reason := excused e st failed
    refine ⟨?_, ?_, ?_, ?_⟩
    iterate 3
      rintro _ rfl
      cases (reason.atEnd id rfl).1
    · rintro rfl
      exact (reason.atEnd id rfl).2

/-! ## The exception -/

/-- A program that ends at once, with one host import in a local slot. -/
def importProgram : Program where
  code := [OpCode.ret.toByte]
  localCount := 1
  imports := [⟨"poll", 0, .unknown⟩]
  callablePrototypes := [⟨.hostFunction, .hostImport 0, 0, 0, [], [], [], [], none, none⟩]
  rootCallableBindings := [⟨0, 0⟩]

/-- A host that answers later. -/
def pendingHost : Host Unit where
  bindings := .ok ()
  authorize _ _ := .ok ()
  overrides _ := false
  call _ _ s := ⟨.pending 7, (), s.nextObject⟩

def noFloats : FloatOps where
  ofInt _ := 0
  add _ _ := 0
  sub _ _ := 0
  mul _ _ := 0
  div _ _ := 0
  rem _ _ := 0
  neg _ := 0
  lt _ _ := false

def importEngine (host : Host Unit) : Engine Unit where
  program := importProgram
  constants := []
  erase_constants := rfl
  floatOps := noFloats
  host
  validate _ _ _ := .ok ()

def resultError {α : Type} : EStateM.Result VmError (State Unit) α → Option VmError
  | .ok .. => none
  | .error e _ => some e

/-- The program is valid and halts; when its import is then started, the machine takes the
byte in front of the instruction pointer for a call instruction. -/
theorem direct_call_leaves_track : Vmbc.validateProgram (fun _ => none) importProgram 1 = .ok () ∧
      ((importEngine pendingHost).session
        [.run 9, .startCallable 9 (.callable 0 ⟨0, .hostFunction, none⟩) []]
        ((importEngine pendingHost).newState 8 0 () fun _ => 0)).map resultError =
      [none, some (.invalidOpcode 1)] := by
  decide

/-- A host that answers at once. -/
def promptHost : Host Unit where
  bindings := .ok ()
  authorize _ _ := .ok ()
  overrides _ := false
  call _ _ s := ⟨.returned [.int 3], (), s.nextObject⟩

/-- With a host that answers at once the same session stays on track. -/
theorem prompt_import_stays_on_track :
    (importEngine promptHost).Throughout (DirectCallSettles (importEngine promptHost))
        [.run 9, .startCallable 9 (.callable 0 ⟨0, .hostFunction, none⟩) []]
        ((importEngine promptHost).newState 8 0 () fun _ => 0) ∧
      ∀ result ∈ (importEngine promptHost).session
          [.run 9, .startCallable 9 (.callable 0 ⟨0, .hostFunction, none⟩) []]
          ((importEngine promptHost).newState 8 0 () fun _ => 0),
        ∀ e st, result = .error e st → ∀ opcode, e ≠ .invalidOpcode opcode := by
  have settled : (importEngine promptHost).Throughout (DirectCallSettles (importEngine promptHost))
      [.run 9, .startCallable 9 (.callable 0 ⟨0, .hostFunction, none⟩) []]
      ((importEngine promptHost).newState 8 0 () fun _ => 0) :=
    ⟨trivial, fun _ _ _ _ => trivial, trivial⟩
  refine ⟨settled, ?_⟩
  obtain ⟨_, _, onTrack⟩ := validated_code_stays_on_track (importEngine promptHost)
    (fun _ => none) 1 (by decide)
  intro result mem e st failed
  exact ((onTrack 8 0 () (fun _ => 0) _ settled result mem).2 e st failed).1

end RustScript.Vm
