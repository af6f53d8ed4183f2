import RustScript.Vm.Code

/-!
# Function regions

Validation asks that the regions of a program follow each other, begin at offset zero and end
with the code.  It does not ask that a region begins where the one before it ended, nor that
it begins at an instruction.  The regions partition the code, each of them starting at an
instruction, exactly when every region begins at the end of the one before and is made of
whole instructions (`regions_partition_iff`).
-/

namespace RustScript.Vm

open List

open Fallible (bind_eq_ok)
open Vmbc (BuiltinCatalog validateProgram validateRegions validateCallableMetadata)

/-- The instructions from one offset end at another. -/
inductive Walk (program : Program) : Nat → Nat → Prop
  | refl (ip : Nat) : Walk program ip ip
  | step {ip stop : Nat} {opcode : OpCode} (found : opcodeAt program ip = some opcode)
      (rest : Walk program (ip + 1 + opcode.operandLen) stop) : Walk program ip stop

/-- Each region begins at the end of the one before and is made of whole instructions. -/
def Tiled (program : Program) : Nat → List FunctionRegion → Prop
  | _, [] => True
  | ip, region :: regions =>
    region.startIp.toNat = ip ∧ Walk program ip region.endIp.toNat ∧
      Tiled program region.endIp.toNat regions

def FunctionRegion.owns (ip : Nat) (region : FunctionRegion) : Bool :=
  decide (region.startIp.toNat ≤ ip) && decide (ip < region.endIp.toNat)

/-- Every offset lies in exactly one region, and every region starts at an instruction. -/
def RegionsPartition (program : Program) : Prop :=
  (∀ ip < program.code.length, program.functionRegions.countP (FunctionRegion.owns ip) = 1) ∧
    ∀ region ∈ program.functionRegions,
      region.startIp.toNat ∈ decodedStarts program.code.length 0 program.code

variable {program : Program}

/-! ## Walking over instructions -/

namespace Walk

variable {ip stop stop' : Nat}

theorem le (walk : Walk program ip stop) : ip ≤ stop := by
  induction walk with
  | refl => exact Nat.le_refl _
  | step _ _ ih => omega

/-- Of two walks from one offset, the longer goes on from the end of the shorter. -/
theorem between (walk : Walk program ip stop) (longer : Walk program ip stop')
    (le : stop ≤ stop') : Walk program stop stop' := by
  induction walk with
  | refl => exact longer
  | step found rest ih =>
    cases longer with
    | refl =>
      have := rest.le
      omega
    | step found' rest' =>
      cases found.symm.trans found'
      exact ih rest' le

theorem of_mem_decodedStarts {fuel : Nat} {rest : List UInt8}
    (mem : stop ∈ decodedStarts fuel ip rest) (position : program.code.drop ip = rest) :
    Walk program ip stop := by
  induction fuel generalizing ip rest with
  | zero => cases mem
  | succ fuel ih =>
    cases rest with
    | nil => cases mem
    | cons byte rest =>
      simp only [decodedStarts] at mem
      cases known : OpCode.tryFrom byte with
      | none => simp [known] at mem
      | some opcode =>
        have inCode : program.code[ip]? = some byte := by rw [← head?_drop, position, head?_cons]
        have next : program.code.drop (ip + 1 + opcode.operandLen) =
            rest.drop opcode.operandLen := by
          rw [Nat.add_assoc, ← drop_drop, position, Nat.add_comm, drop_succ_cons]
        simp only [known, mem_cons] at mem
        rcases mem with rfl | later
        · exact .refl _
        · exact .step (by rw [opcodeAt, inCode, Option.bind_some, known]) (ih later next)

end Walk

variable {starts : List Nat} {ip stop : Nat}

theorem SoundCode.boundary_of_walk (sound : SoundCode program starts)
    (start : Boundary program starts ip) (walk : Walk program ip stop) :
    Boundary program starts stop := by
  induction walk with
  | refl => exact start
  | @step ip _ opcode found _ ih =>
    apply ih
    rcases start with mem | atEnd
    · obtain ⟨opcode', complete⟩ := sound.complete ip mem
      cases found.symm.trans complete.opcode_eq
      exact complete.next
    · simp [opcodeAt, atEnd] at found

theorem SoundCode.walk_to_end {ip : Nat} (sound : SoundCode program starts) (mem : ip ∈ starts) :
    Walk program ip program.code.length := by
  obtain ⟨opcode, complete⟩ := sound.complete ip mem
  have inside := complete.fits
  refine .step complete.opcode_eq ?_
  rcases complete.next with mem' | atEnd
  · exact sound.walk_to_end mem'
  · rw [atEnd]
    exact .refl _
termination_by program.code.length - ip

theorem SoundCode.walk (sound : SoundCode program starts) (mem : ip ∈ starts)
    (boundary : Boundary program starts stop) (le : ip ≤ stop) : Walk program ip stop := by
  rcases boundary with mem' | rfl
  · rw [← sound.decoded] at mem mem'
    exact (Walk.of_mem_decodedStarts mem rfl).between (.of_mem_decodedStarts mem' rfl) le
  · exact sound.walk_to_end mem

/-! ## Regions in a row -/

variable {previous last : Nat} {region : FunctionRegion} {regions : List FunctionRegion}

theorem validateRegions_cons (h : validateRegions program previous (region :: regions) = .ok last) :
    previous ≤ region.startIp.toNat ∧ region.startIp.toNat < region.endIp.toNat ∧
      region.endIp.toNat ≤ program.code.length ∧
      validateRegions program region.endIp.toNat regions = .ok last := by
  simp only [validateRegions] at h
  split at h
  · cases h
  · next inOrder =>
      split at h
      · cases h
      · exact ⟨by omega, by omega, by omega, h⟩

theorem countP_owns_before (h : validateRegions program previous regions = .ok last)
    (before : ip < previous) : regions.countP (FunctionRegion.owns ip) = 0 := by
  induction regions generalizing previous with
  | nil => rfl
  | cons region regions ih =>
    obtain ⟨after, nonempty, _, rest⟩ := validateRegions_cons h
    have out : FunctionRegion.owns ip region = false := by
      simp [FunctionRegion.owns]
      omega
    rw [countP_cons_of_neg (by simp [out])]
    exact ih rest (by omega)

/-- Region by region: tiling from an instruction on is covering every offset once, by regions
that start at instructions. -/
theorem tiled_iff (sound : SoundCode program starts)
    (h : validateRegions program previous regions = .ok program.code.length) :
    (Boundary program starts previous ∧ Tiled program previous regions) ↔
      (∀ ip, previous ≤ ip → ip < program.code.length →
        regions.countP (FunctionRegion.owns ip) = 1) ∧
      ∀ region ∈ regions, region.startIp.toNat ∈ starts := by
  induction regions generalizing previous with
  | nil =>
    cases h
    exact ⟨fun _ => ⟨fun ip _ _ => by omega, by simp⟩, fun _ => ⟨.inr rfl, trivial⟩⟩
  | cons region regions ih =>
    obtain ⟨after, nonempty, inside, rest⟩ := validateRegions_cons h
    constructor
    · rintro ⟨boundary, start, walk, tiled⟩
      obtain ⟨owned, later⟩ := (ih rest).mp ⟨sound.boundary_of_walk boundary walk, tiled⟩
      refine ⟨fun ip ge lt => ?_, forall_mem_cons.mpr ⟨?_, later⟩⟩
      · by_cases here : ip < region.endIp.toNat
        · rw [countP_cons_of_pos (by simp [FunctionRegion.owns, start, ge, here]),
            countP_owns_before rest here]
        · rw [countP_cons_of_neg (by simp [FunctionRegion.owns, here])]
          exact owned ip (by omega) lt
      · rw [start]
        exact boundary.resolve_right (by omega)
    · rintro ⟨owned, atStart⟩
      obtain ⟨mem, later⟩ := forall_mem_cons.mp atStart
      have start : region.startIp.toNat = previous := by
        by_contra gap
        have one := owned previous (Nat.le_refl _) (by omega)
        rw [countP_cons_of_neg (by simp [FunctionRegion.owns]; omega),
          countP_owns_before rest (by omega)] at one
        cases one
      obtain ⟨boundary, tiled⟩ := (ih rest).mpr ⟨fun ip ge lt => by
        rw [← owned ip (by omega) lt, countP_cons_of_neg]
        simp [FunctionRegion.owns, ge], later⟩
      rw [start] at mem nonempty
      exact ⟨.inl mem, start, sound.walk mem boundary (by omega), tiled⟩

/-- **When the regions of a validated program partition its code.** -/
theorem regions_partition_iff {catalog : BuiltinCatalog} {hostFnCount : UInt16}
    (valid : validateProgram catalog program hostFnCount = .ok ())
    (declared : program.functionRegions ≠ []) :
    RegionsPartition program ↔ Tiled program 0 program.functionRegions := by
  obtain ⟨analysis, analyzed, _⟩ := bind_eq_ok.mp valid
  have sound := analyzeProgram_sound analyzed
  obtain ⟨_, metadata, _⟩ := bind_eq_ok.mp analyzed
  obtain ⟨last, inOrder, checked⟩ := bind_eq_ok.mp metadata
  have complete : last = program.code.length := by
    cases regions : program.functionRegions with
    | nil => exact absurd regions declared
    | cons first rest =>
      simp only [regions] at checked
      split at checked
      · cases checked
      · next covered => exact not_not.mp (not_or.mp covered).2
  subst complete
  have iff := tiled_iff sound inOrder
  simp only [sound.zero, true_and, Nat.zero_le, true_implies] at iff
  rw [RegionsPartition, sound.decoded, iff]

/-- A gap after the first instruction; the second region starts inside an instruction. -/
def gappedProgram : Program where
  code := [OpCode.nop.toByte, OpCode.ldloc.toByte, 0, OpCode.ret.toByte]
  functionRegions := [⟨0, 1, none⟩, ⟨2, 4, none⟩]

theorem gappedProgram_not_partitioned : validateProgram (fun _ => none) gappedProgram 0 = .ok () ∧
      gappedProgram.functionRegions.countP (FunctionRegion.owns 1) = 0 ∧
      2 ∉ decodedStarts 4 0 gappedProgram.code ∧ ¬ RegionsPartition gappedProgram := by
  refine ⟨rfl, by decide, by decide, ?_⟩
  rintro ⟨owned, -⟩
  exact absurd (owned 1 (by decide)) (by decide)

/-- A load and a return, and another function. -/
def tiledProgram : Program where
  code := [OpCode.ldloc.toByte, 0, OpCode.ret.toByte, OpCode.ret.toByte]
  functionRegions := [⟨0, 3, none⟩, ⟨3, 4, none⟩]

theorem tiledProgram_partitioned : RegionsPartition tiledProgram :=
  (@regions_partition_iff _ (fun _ => none) 0 rfl (List.cons_ne_nil _ _)).mpr
    ⟨rfl, .step rfl (.step rfl (.refl _)), rfl, .step rfl (.refl _), trivial⟩

end RustScript.Vm
