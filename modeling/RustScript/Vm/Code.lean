import RustScript.Vm.Interpreter
import RustScript.Vmbc.Validate

/-!
# The code of a validated program

What the validator's walk guarantees to the interpreter.  The walk visits the same
offsets as the one that fills the interpreter's tables, finds a complete
instruction at each of them, and every branch and every function starts at one of
them (`analyzeProgram_sound`).
-/

namespace RustScript.Vm

open ByteCodec (ofLeBytes)
open Fallible List Vmbc Option
open Vmbc (BuiltinCatalog ValidationError ProgramAnalysis analyzeCode analyzeProgram
  checkInstruction)

/-- The opcode at an offset. -/
def opcodeAt (program : Program) (ip : Nat) : Option OpCode :=
  program.code[ip]?.bind OpCode.tryFrom

/-- An instruction starts here, or the code ends here. -/
def Boundary (program : Program) (starts : List Nat) (ip : Nat) : Prop :=
  ip ∈ starts ∨ ip = program.code.length

/-- The instruction at an offset is complete, and the next one starts right after it. -/
structure CompleteAt (program : Program) (starts : List Nat) (ip : Nat) (opcode : OpCode) :
    Prop where
  opcode_eq : opcodeAt program ip = some opcode
  fits : ip + 1 + opcode.operandLen ≤ program.code.length
  next : Boundary program starts (ip + 1 + opcode.operandLen)
  constant : opcode = .ldc → ∃ index, readU32At program.code (ip + 1) = some index ∧
    index.toNat < program.constants.length

/-- The branch at an offset goes to an instruction of the same function. -/
def BranchAt (program : Program) (starts : List Nat) (ip : Nat) : Prop :=
  ∃ target, readU32At program.code (ip + 1) = some target ∧ target.toNat ∈ starts ∧
    target.toNat < program.code.length ∧
    regionOwner program.functionRegions ip = regionOwner program.functionRegions target.toNat

/-- What the interpreter relies on. -/
structure SoundCode (program : Program) (starts : List Nat) : Prop where
  decoded : decodedStarts program.code.length 0 program.code = starts
  zero : Boundary program starts 0
  complete : ∀ ip ∈ starts, ∃ opcode, CompleteAt program starts ip opcode
  branch : ∀ ip ∈ starts, opcodeAt program ip = some .br ∨ opcodeAt program ip = some .brfalse →
    BranchAt program starts ip
  entry : ∀ function ∈ program.scriptFunctions, function.entryIp.toNat ∈ starts

/-! ## The walk -/

variable {catalog : BuiltinCatalog} {program : Program} {hostFnCount : Option UInt16}
  {rest : List UInt8} {ip : Nat} {byte : UInt8} {starts' : List Nat}

theorem readU32At_of_drop {code : List UInt8} (h : code.drop ip = byte :: rest)
    (fits : 4 ≤ rest.length) :
    readU32At code (ip + 1) = some (UInt32.ofNat (ofLeBytes (rest.take 4))) := by
  have tail : code.drop (ip + 1) = rest := by rw [← drop_drop, h, drop_one, tail_cons]
  have length : code.length - (ip + 1) = rest.length := by rw [← length_drop, tail]
  have inside : ip + 1 + 4 ≤ code.length := by omega
  simp [readU32At, inside, tail]

variable {opcode : OpCode} {analysis analysis' : ProgramAnalysis}

/-- One instruction: the analysis keeps what it has, and records a branch. -/
theorem checkInstruction_spec {start : Nat} {operands : List UInt8}
    (h : checkInstruction catalog program hostFnCount start opcode operands analysis =
      .ok analysis') : analysis'.instructionStarts = analysis.instructionStarts ∧
      (∀ jump ∈ analysis.jumpTargets, jump ∈ analysis'.jumpTargets) ∧
      (opcode = .br ∨ opcode = .brfalse →
        (start, UInt32.ofNat (operand 4 operands)) ∈ analysis'.jumpTargets) ∧
      (opcode = .ldc → operand 4 operands < program.constants.length) := by
  cases opcode with
  | ldc =>
    simp only [checkInstruction] at h
    split at h
    · cases h
    · next small =>
        cases h
        exact ⟨rfl, fun _ mem => mem, by simp, fun _ => Nat.lt_of_not_le small⟩
  | br | brfalse =>
    cases h
    exact ⟨rfl, fun _ mem => mem_append_left _ mem, fun _ => by simp, by simp⟩
  | call | callScript =>
    obtain ⟨_, _, same⟩ := bind_eq_ok.mp h
    cases same
    exact ⟨rfl, fun _ mem => mem, by simp, by simp⟩
  | _ =>
    cases h
    exact ⟨rfl, fun _ mem => mem, by simp, by simp⟩

/-- What the walk from an offset on has found. -/
structure WalkedFrom (program : Program) (ip : Nat) (analysis analysis' : ProgramAnalysis)
    (starts : List Nat) : Prop where
  collected : analysis'.instructionStarts = analysis.instructionStarts ++ starts
  here : Boundary program starts ip
  complete : ∀ start ∈ starts, ∃ opcode, CompleteAt program starts start opcode
  kept : ∀ jump ∈ analysis.jumpTargets, jump ∈ analysis'.jumpTargets
  jumps : ∀ start ∈ starts,
    opcodeAt program start = some .br ∨ opcodeAt program start = some .brfalse →
      ∃ target, readU32At program.code (start + 1) = some target ∧
        (start, target) ∈ analysis'.jumpTargets

variable {starts : List Nat}

theorem Boundary.mono (h : Boundary program starts ip)
    (sub : ∀ i ∈ starts, i ∈ starts') : Boundary program starts' ip :=
  h.imp (sub ip) id

theorem CompleteAt.mono (h : CompleteAt program starts ip opcode)
    (sub : ∀ i ∈ starts, i ∈ starts') : CompleteAt program starts' ip opcode :=
  ⟨h.opcode_eq, h.fits, h.next.mono sub, h.constant⟩

/-- One instruction in front of a walk. -/
theorem WalkedFrom.cons {analysis₁ : ProgramAnalysis}
    (after : WalkedFrom program (ip + 1 + opcode.operandLen) analysis₁ analysis' starts)
    (hopcode : opcodeAt program ip = some opcode) (position : program.code.drop ip = byte :: rest)
    (fits : ip + 1 + opcode.operandLen ≤ program.code.length)
    (collected : analysis₁.instructionStarts = analysis.instructionStarts ++ [ip])
    (kept : ∀ jump ∈ analysis.jumpTargets, jump ∈ analysis₁.jumpTargets)
    (jump : opcode = .br ∨ opcode = .brfalse →
      (ip, UInt32.ofNat (operand 4 rest)) ∈ analysis₁.jumpTargets)
    (constant : opcode = .ldc → operand 4 rest < program.constants.length) :
    WalkedFrom program ip analysis analysis' (ip :: starts) := by
  have length : program.code.length - ip = rest.length + 1 := by
    rw [← length_drop, position, length_cons]
  have word : opcode.operandLen = 4 → readU32At program.code (ip + 1) =
      some (UInt32.ofNat (operand 4 rest)) := by
    intro four
    exact readU32At_of_drop position (by omega)
  have sub : ∀ i ∈ starts, i ∈ ip :: starts := fun i mem => mem_cons_of_mem ip mem
  refine ⟨by rw [after.collected, collected]; simp, .inl mem_cons_self, ?_, ?_, ?_⟩
  · intro start mem
    rcases mem_cons.mp mem with rfl | later
    · refine ⟨opcode, hopcode, fits, after.here.mono sub, ?_⟩
      intro isLdc
      refine ⟨_, word (by rw [isLdc]; rfl), ?_⟩
      exact Nat.lt_of_le_of_lt (Nat.mod_le _ _) (constant isLdc)
    · obtain ⟨opcode', complete⟩ := after.complete start later
      exact ⟨opcode', complete.mono sub⟩
  · intro j mem
    exact after.kept j (kept j mem)
  · intro start mem isBranch
    rcases mem_cons.mp mem with rfl | later
    · rw [hopcode, some.injEq, some.injEq] at isBranch
      refine ⟨_, word ?_, after.kept _ (jump isBranch)⟩
      rcases isBranch with rfl | rfl <;> rfl
    · exact after.jumps start later isBranch

theorem analyzeCode_walked {fuel : Nat}
    (h : analyzeCode catalog program hostFnCount fuel ip rest analysis = .ok analysis')
    (enough : rest.length ≤ fuel) (position : program.code.drop ip = rest)
    (inside : ip ≤ program.code.length) :
    WalkedFrom program ip analysis analysis' (decodedStarts fuel ip rest) := by
  have atEnd : rest = [] → ip = program.code.length := by
    intro empty
    rw [empty, drop_eq_nil_iff] at position
    omega
  induction fuel generalizing ip rest analysis with
  | zero =>
    cases h
    have empty : rest = [] := length_eq_zero_iff.mp (Nat.le_zero.mp enough)
    exact ⟨by simp [decodedStarts], .inr (atEnd empty), by simp [decodedStarts],
      fun _ mem => mem, by simp [decodedStarts]⟩
  | succ fuel ih =>
    cases rest with
    | nil =>
      cases h
      exact ⟨by simp [decodedStarts], .inr (atEnd rfl), by simp [decodedStarts],
        fun _ mem => mem, by simp [decodedStarts]⟩
    | cons byte rest =>
      have inCode : program.code[ip]? = some byte := by rw [← head?_drop, position, head?_cons]
      simp only [analyzeCode] at h
      simp only [decodedStarts]
      cases known : OpCode.tryFrom byte with
      | none =>
        rw [known] at h
        cases h
      | some opcode =>
        have hopcode : opcodeAt program ip = some opcode := by
          rw [opcodeAt, inCode, bind_some, known]
        simp only [known] at h ⊢
        split at h
        · cases h
        · next fits =>
            obtain ⟨analysis₁, checked, walked⟩ := bind_eq_ok.mp h
            obtain ⟨starts₁, kept₁, jump₁, constant₁⟩ := checkInstruction_spec checked
            have length : program.code.length - ip = rest.length + 1 := by
              rw [← length_drop, position, length_cons]
            have fits' : ip + 1 + opcode.operandLen ≤ program.code.length := by omega
            have next : program.code.drop (ip + 1 + opcode.operandLen) =
                rest.drop opcode.operandLen := by
              rw [Nat.add_assoc, ← drop_drop, position, Nat.add_comm, drop_succ_cons]
            have after := ih walked (by simp at enough ⊢; omega) next fits' (by
              intro empty
              rw [empty, drop_eq_nil_iff] at next
              omega)
            exact after.cons hopcode position fits' starts₁ kept₁ jump₁ constant₁

/-! ## The whole program -/

/-- Offsets in the same region belong to the same function. -/
theorem regionOwner_eq {regions : List FunctionRegion} {ip' : Nat}
    (h : regions ≠ [] → regionIndexForIp regions ip = regionIndexForIp regions ip') :
    regionOwner regions ip = regionOwner regions ip' := by
  by_cases empty : regions = []
  · rw [empty]
    rfl
  · have same := h empty
    simp only [regionIndexForIp] at same
    simp [regionOwner, find?_eq_bind_findIdx?_getElem?, same]

theorem checkJump_spec {target : UInt32} (h : checkJump program analysis (ip, target) = .ok ()) :
    target.toNat ∈ analysis.instructionStarts ∧ target.toNat < program.code.length ∧
      regionOwner program.functionRegions ip =
        regionOwner program.functionRegions target.toNat := by
  simp only [checkJump] at h
  split at h
  · cases h
  · next reachable =>
      simp only [not_or, Nat.not_le, not_not] at reachable
      refine ⟨reachable.2, reachable.1, regionOwner_eq ?_⟩
      intro nonempty
      split at h
      · cases h
      · next inRegion =>
          by_contra differ
          exact inRegion ⟨by simp [nonempty], differ⟩

/-- **The walk of the validator is sound for the interpreter.** -/
theorem analyzeProgram_sound (h : analyzeProgram catalog program hostFnCount = .ok analysis) :
    SoundCode program analysis.instructionStarts := by
  obtain ⟨_, _, h₁⟩ := bind_eq_ok.mp h
  obtain ⟨found, walk, h₂⟩ := bind_eq_ok.mp h₁
  obtain ⟨_, jumps, h₃⟩ := bind_eq_ok.mp h₂
  obtain ⟨_, functions, h₄⟩ := bind_eq_ok.mp h₃
  obtain rfl : found = analysis := Except.ok.inj h₄
  have walked := analyzeCode_walked walk (Nat.le_refl _) rfl (Nat.zero_le _)
  have collected : found.instructionStarts =
      decodedStarts program.code.length 0 program.code := walked.collected
  rw [collected]
  refine ⟨rfl, walked.here, walked.complete, ?_, ?_⟩
  · intro ip mem isBranch
    obtain ⟨target, word, recorded⟩ := walked.jumps ip mem isBranch
    obtain ⟨start, inside, owner⟩ := checkJump_spec (forM_eq_ok.mp jumps _ recorded)
    rw [collected] at start
    exact ⟨target, word, start, inside, owner⟩
  · intro function mem
    have checked := forM_eq_ok.mp functions function mem
    simp only [checkScriptFunction, collected] at checked
    split at checked
    · cases checked
    · next valid =>
        simp only [not_or, not_not] at valid
        exact valid.1

end RustScript.Vm
