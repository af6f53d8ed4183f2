import RustScript.Lib.Coupled
import RustScript.Vm.OnTrack

/-!
# Rounds as computations on instances

A run acts on a state of the machine: an instance, the run context and the record of
reads.  `Engine.step` is one plain instruction on the instance alone and
`Engine.fusedRound` one round of the loop without interruption.  `Mirrors` says that
a computation on states does to the instance what a computation on instances does,
and leaves the run context alone: `fastRound_mirrors` for the loop without
interruption, and `executeInterpreterInstruction_plain` for the other one.
-/

namespace RustScript.Vm

open Wp OpCode

variable {W : Type}

namespace Engine

section Steps

variable (E : Engine W)

/-- The instruction with a given opcode byte. -/
def executeRaw (raw : UInt8) : CoreM W Stepped :=
  match OpCode.tryFrom raw with
  | none => throw (.invalidOpcode raw)
  | some opcode => E.execute opcode

/-- One instruction. -/
def step : CoreM W Stepped := do
  let raw ← readU8 E.program.code
  E.executeRaw raw

/-- The sequence that a load starts, if it is of the fused kind. -/
def fuse (index : UInt8) : CoreM W Bool := do
  let s ← get
  match E.localScalarValueWithHint s index with
  | none => return false
  | some initial => E.commitFused (E.scanScalarSequence s 16 s.ip [initial]).2

def pushUnless (fused : Bool) (index : UInt8) : CoreM W Unit :=
  if fused then pure () else pushLocal index

/-- A load, with its sequence. -/
def fusedLoad : CoreM W Stepped := do
  let opcodeIp := (← get).ip - 1
  let index ← E.readLocalIndex opcodeIp
  let fused ← E.fuse index
  pushUnless fused index
  return .continue

/-- The instruction with a given opcode byte, with fusion on. -/
def executeFused (raw : UInt8) : CoreM W Stepped :=
  match OpCode.tryFrom raw with
  | some .ldloc => E.fusedLoad
  | _ => E.executeRaw raw

/-- The rest of a round when ticks cost nothing. -/
def finishFree : Stepped → CoreM W ExecOutcome
  | .outcome outcome => return outcome
  | .entered => return .continue
  | .tailReturn => do
      advance 1
      E.completeActiveFrame

def fusedRound : CoreM W (UInt8 × ExecOutcome) := do
  let raw ← readU8 E.program.code
  let stepped ← E.executeFused raw
  let outcome ← E.finishFree stepped
  return (raw, outcome)

/-- One round with fusion off. -/
def plainRound : VmM W ExecOutcome := do
  E.checkBounds
  let raw ← E.fetchOpcode
  E.executeInterpreterInstruction raw false

def plainRounds : Nat → VmM W Unit
  | 0 => pure ()
  | rounds + 1 => do
      plainRounds rounds
      let _ ← E.plainRound

/-- A round with fusion off when ticks cost nothing. -/
def plainStep : CoreM W ExecOutcome := do
  let stepped ← E.step
  E.finishFree stepped

def plainSteps : Nat → CoreM W Unit
  | 0 => pure ()
  | rounds + 1 => do
      plainSteps rounds
      let _ ← E.plainStep

end Steps

variable {E : Engine W}

/-! ## Plain rounds -/

variable {α : Type} {st : State W} {β : Type} {y : CoreM W α}

theorem core_bind (x : CoreM W α) (f : α → CoreM W β) :
    core (x >>= f) = core x >>= fun a => core (f a) := by
  funext st
  simp only [core, zoom, bind, EStateM.bind]
  cases x st.inst <;> rfl

/-- With fusion off an instruction is executed on the instance; then come the ticks. -/
theorem executeInterpreterInstruction_plain (raw : UInt8) :
    E.executeInterpreterInstruction raw false =
      (do E.finishStep (← core (E.executeRaw raw)) : VmM W ExecOutcome) := by
  unfold executeInterpreterInstruction executeRaw
  cases tryFrom raw with
  | none => rfl
  | some opcode =>
    cases opcode with
    | ldloc =>
      unfold execute executeLdloc executeInline
      simp only [tryFuseScalarSequence, loadUnless, pushLocal, Bool.false_eq_true, if_false,
        core_bind, bind_assoc, pure_bind]
      rfl
    | _ => rfl

/-! ## Mirrored computations -/

/-- The same on the instance, with the run context left alone. -/
def Mirrors {α : Type} (x : VmM W α) (y : CoreM W α) (st : State W) : Prop :=
  Coupled (fun a st' b s' => a = b ∧ st'.inst = s' ∧ st'.runCtx = st.runCtx)
    (fun e st' d s' => e = d ∧ st'.inst = s' ∧ st'.runCtx = st.runCtx) x y st st.inst

theorem Mirrors.bind {x : VmM W α} {f : α → VmM W β} {g : α → CoreM W β}
    (first : Mirrors x y st) (second : ∀ a st', st'.runCtx = st.runCtx → Mirrors (f a) (g a) st') :
    Mirrors (x >>= f) (y >>= g) st := by
  apply Coupled.bind first
  rintro a st' _ _ ⟨rfl, rfl, same⟩
  apply (second a st' same).mono
  · rintro b st'' _ _ ⟨rfl, rfl, same'⟩
    exact ⟨rfl, rfl, same'.trans same⟩
  · rintro e st'' _ _ ⟨rfl, rfl, same'⟩
    exact ⟨rfl, rfl, same'.trans same⟩

theorem core_mirrors : Mirrors (core y) y st := by
  unfold Mirrors Coupled core zoom
  cases y st.inst with
  | ok a s' | error e s' => exact ⟨rfl, rfl, rfl⟩

theorem Mirrors.pure (a : α) (st : State W) :
    Mirrors (pure a : VmM W α) (pure a) st := ⟨rfl, rfl, rfl⟩

theorem Mirrors.throw (e : VmError) (st : State W) :
    Mirrors (throw e : VmM W α) (throw e) st := ⟨rfl, rfl, rfl⟩

/-- Bounds are checked again by the read of the opcode. -/
theorem fetchOpcode_mirrors :
    Mirrors (do
      E.checkBounds
      E.fetchOpcode) (readU8 E.program.code) st := by
  by_cases inside : st.inst.ip < E.program.code.length
  · have checked : E.checkBounds st = .ok () st := by
      change (require (st.inst.ip < E.program.code.length) VmError.bytecodeBounds : VmM W Unit) st
        = _
      rw [require, if_pos inside]
      rfl
    have same : (do
        E.checkBounds
        E.fetchOpcode : VmM W UInt8) st =
          (core (readU8 E.program.code)) { st with fetches := st.fetches ++ [st.inst.ip] } := by
      change EStateM.bind E.checkBounds (fun _ => E.fetchOpcode) st = _
      rw [EStateM.bind, checked]
      rfl
    unfold Mirrors Coupled
    rw [same]
    exact core_mirrors
  · have none : E.program.code[st.inst.ip]? = none :=
      List.getElem?_eq_none (Nat.le_of_not_lt inside)
    have checked : E.checkBounds st = .error .bytecodeBounds st := by
      change (require (st.inst.ip < E.program.code.length) VmError.bytecodeBounds : VmM W Unit) st
        = _
      rw [require, if_neg inside]
      rfl
    have failed : (do
        E.checkBounds
        E.fetchOpcode : VmM W UInt8) st = .error .bytecodeBounds st := by
      change EStateM.bind E.checkBounds (fun _ => E.fetchOpcode) st = _
      rw [EStateM.bind, checked]
    unfold Mirrors Coupled readU8
    rw [failed, none]
    exact ⟨rfl, rfl, rfl⟩

/-- Without interruption a tick does nothing. -/
theorem chargeInterruptTick_free (free : st.runCtx.interruptMode = .none) :
    chargeInterruptTick st = .ok () st := by
  unfold chargeInterruptTick zoom RunContext.chargeInterruptTick
  simp only [bind, EStateM.bind, get, getThe, MonadStateOf.get, EStateM.get, free]
  rfl

theorem finishStep_mirrors (free : st.runCtx.interruptMode = .none) (stepped : Stepped) :
    Mirrors (E.finishStep stepped) (E.finishFree stepped) st := by
  cases stepped with
  | outcome outcome => exact .pure outcome st
  | entered =>
    have same : E.finishStep .entered st = .ok .continue st := by
      change EStateM.bind chargeInterruptTick (fun _ => pure ExecOutcome.continue) st = _
      rw [EStateM.bind, chargeInterruptTick_free free]
      rfl
    unfold Mirrors Coupled
    rw [same]
    exact ⟨rfl, rfl, rfl⟩
  | tailReturn =>
    have off : st.runCtx.interruptionEnabled = false := by
      simp [RunContext.interruptionEnabled, free]
    have same : E.finishStep .tailReturn st = (do
        core (advance 1)
        core E.completeActiveFrame : VmM W ExecOutcome)
          { st with fetches := st.fetches ++ [st.inst.ip] } := by
      have charged : (chargeIfEnabled : VmM W Unit) st = .ok () st := by
        change (if st.runCtx.interruptionEnabled then _ else _ : VmM W Unit) st = _
        rw [off]
        rfl
      change EStateM.bind chargeIfEnabled _ st = _
      rw [EStateM.bind, charged]
      rfl
    unfold Mirrors Coupled
    rw [same]
    apply Mirrors.bind core_mirrors
    intro _ st' _
    exact core_mirrors

theorem fuse_mirrors {index : UInt8} :
    Mirrors (E.tryFuseScalarSequence index true) (E.fuse index) st := by
  unfold Mirrors Coupled fuse tryFuseScalarSequence
  simp only [if_true, bind, EStateM.bind, get, getThe, MonadStateOf.get, EStateM.get]
  cases E.localScalarValueWithHint st.inst index with
  | none => exact ⟨rfl, rfl, rfl⟩
  | some initial => exact core_mirrors

theorem fusedLoad_mirrors : Mirrors (E.executeLdloc true) (do E.finishFree (← E.fusedLoad)) st := by
  have same : (do E.finishFree (← E.fusedLoad) : CoreM W ExecOutcome) = (do
      let s ← get
      let index ← E.readLocalIndex (s.ip - 1)
      let fused ← E.fuse index
      pushUnless fused index
      return .continue) := by
    unfold fusedLoad
    simp only [bind_assoc]
    rfl
  rw [same]
  apply Mirrors.bind core_mirrors
  intro index st₁ _
  apply Mirrors.bind
  · exact fuse_mirrors
  · intro fused st₂ _
    apply Mirrors.bind
    · unfold loadUnless pushUnless
      split
      · exact .pure () st₂
      · exact core_mirrors
    · intro _ st₃ _
      exact .pure _ st₃

/-- **A round of the loop without interruption, on the instance.** -/
theorem fastRound_mirrors (free : st.runCtx.interruptMode = .none) :
    Mirrors E.fastRound E.fusedRound st := by
  have split : E.fastRound = (do
      let raw ← (do
        E.checkBounds
        E.fetchOpcode)
      let outcome ← E.executeInterpreterInstruction raw true
      return (raw, outcome) : VmM W (UInt8 × ExecOutcome)) := by
    unfold fastRound
    rw [bind_assoc]
  have joined : E.fusedRound = (do
      let raw ← readU8 E.program.code
      let outcome ← (do E.finishFree (← E.executeFused raw))
      return (raw, outcome) : CoreM W (UInt8 × ExecOutcome)) := by
    unfold fusedRound
    simp
  rw [split, joined]
  apply Mirrors.bind fetchOpcode_mirrors
  intro raw st₁ same
  apply Mirrors.bind
  · have free₁ : st₁.runCtx.interruptMode = .none := by
      rw [same]
      exact free
    have plain : ∀ opcode, tryFrom raw = some opcode → Mirrors
        (do E.finishStep (← core (E.execute opcode)))
        (do E.finishFree (← E.executeRaw raw)) st₁ := by
      intro opcode decoded
      unfold executeRaw
      rw [decoded]
      apply Mirrors.bind core_mirrors
      intro stepped st₂ same₂
      apply finishStep_mirrors
      rw [same₂]
      exact free₁
    unfold executeInterpreterInstruction executeFused
    cases decoded : tryFrom raw with
    | none =>
      unfold executeRaw
      rw [decoded]
      exact .throw _ st₁
    | some opcode =>
      cases opcode with
      | ldloc => exact fusedLoad_mirrors
      | _ => exact plain _ decoded
  · intro outcome st₂ _
    exact .pure _ st₂

/-- **A round with fusion off, on the instance.** -/
theorem plainRound_mirrors (free : st.runCtx.interruptMode = .none) :
    Mirrors E.plainRound E.plainStep st := by
  have split : E.plainRound = (do
      let raw ← (do
        E.checkBounds
        E.fetchOpcode)
      E.executeInterpreterInstruction raw false : VmM W ExecOutcome) := by
    unfold plainRound
    rw [bind_assoc]
  have joined : E.plainStep = (do
      let raw ← readU8 E.program.code
      let stepped ← E.executeRaw raw
      E.finishFree stepped : CoreM W ExecOutcome) := by
    unfold plainStep step
    rw [bind_assoc]
  rw [split, joined]
  apply Mirrors.bind fetchOpcode_mirrors
  intro raw st₁ same₁
  rw [executeInterpreterInstruction_plain]
  apply Mirrors.bind core_mirrors
  intro stepped st₂ same₂
  apply finishStep_mirrors
  rw [same₂, same₁]
  exact free

theorem plainRounds_mirrors (free : st.runCtx.interruptMode = .none) {rounds : Nat} :
    Mirrors (E.plainRounds rounds) (E.plainSteps rounds) st := by
  induction rounds with
  | zero => exact .pure () st
  | succ rounds ih =>
    apply Mirrors.bind ih
    intro _ st₁ same
    apply Mirrors.bind
    · apply plainRound_mirrors
      rw [same]
      exact free
    · intro _ st₂ _
      exact .pure () st₂

end Engine

end RustScript.Vm
