import RustScript.Vm.Step

/-!
# Fused scalar sequences

A load may start a sequence of scalar instructions that the interpreter executes at
once, on a private stack.  `fusedView s cursor stack` is the instance that plain
execution has reached when the fused one stands at `cursor` with that private stack:
nothing but the instruction pointer and the operands differ from `s`.

One instruction of a sequence is one plain instruction between two views, if the
type hint of the instruction fits its operands, or if the plain instruction succeeds
at all (`SequenceStep.step`).  The end of a sequence does what the plain instructions do
(`store_commit`, `branch_commit`), with one exception: a fault in the sequence.  The fused
execution then leaves the instruction pointer behind the load and takes no operands,
while the plain one has come as far as the fault (`fusion_invisible_iff`).
-/

namespace RustScript.Vm

open Wp BinaryOp NumericValue

variable {W : Type} {E : Engine W}

/-! ## Hints -/

def HintFits (hint : ValueType) (value : Value) : Prop :=
  hint = .unknown ∨ hint = value.valueType

/-- The recorded operand types are those of the operands, where they are known. -/
def HintsFit (hint : OperandTypes) (lhs rhs : Value) : Prop :=
  HintFits hint.1 lhs ∧ HintFits hint.2 rhs

/-- An operation computes a result, unless a hint that does not fit makes it fail. -/
def Computes (op : BinaryOp) (hint : OperandTypes) (lhs rhs : Value)
    (result : Except VmError Value) : Prop :=
  op.eval lhs rhs = result ∨ ¬ HintsFit hint lhs rhs ∧ ∃ e, op.eval lhs rhs = .error e

variable {op : BinaryOp} {result : Except VmError Value} {hint : OperandTypes} {lhs rhs : Value}

theorem Computes.of_fits (h : Computes op hint lhs rhs result) (fits : HintsFit hint lhs rhs) :
    op.eval lhs rhs = result := by
  rcases h with same | ⟨misfit, _⟩
  · exact same
  · exact absurd fits misfit

variable {value : Value}

theorem Computes.of_ok (h : Computes op hint lhs rhs result) (ok : op.eval lhs rhs = .ok value) :
    result = .ok value := by
  rcases h with same | ⟨_, e, failed⟩
  · rw [← same]
    exact ok
  · rw [failed] at ok
    cases ok

variable {e : VmError}

/-- A specialised operation fails on a left operand of another type than it insists on. -/
theorem computes_of_left (failed : op.eval lhs rhs = .error e) (known : hint.1 ≠ .unknown)
    (other : hint.1 ≠ lhs.valueType) : Computes op hint lhs rhs result :=
  .inr ⟨fun fits => fits.1.elim known other, e, failed⟩

theorem computes_of_right (failed : op.eval lhs rhs = .error e) (known : hint.2 ≠ .unknown)
    (other : hint.2 ≠ rhs.valueType) : Computes op hint lhs rhs result :=
  .inr ⟨fun fits => fits.2.elim known other, e, failed⟩

/-! ## Scalar operations -/

variable {F : FloatOps} {intOp : Int64 → Int64 → Except VmError Int64}
  {floatOp : UInt64 → UInt64 → UInt64} {rest : List Value} {s : Instance W}

/-- Arithmetic on two integers with the specialised operation. -/
theorem intBinaryNumericOp_computes
    {lhs rhs : NumericValue} :
    Computes (intBinaryNumericOp intOp) (.int, .int) lhs.toValue rhs.toValue
      ((scalarOp F intOp floatOp lhs rhs).map toValue) := by
  cases rhs with
  | float r => exact computes_of_right rfl nofun nofun
  | int r =>
    cases lhs with
    | float l => exact computes_of_left rfl nofun nofun
    | int l =>
      left
      cases computed : intOp l r <;>
        simp [eval, intBinaryNumericOp, toValue, asInt, scalarOp,
          computed, bind, Except.bind, Except.map, pure, Except.pure]

theorem floatBinaryNumericOp_computes
    {lhs rhs : NumericValue} :
    Computes (floatBinaryNumericOp floatOp) (.float, .float) lhs.toValue rhs.toValue
      ((scalarOp F intOp floatOp lhs rhs).map toValue) := by
  cases rhs with
  | int r => exact computes_of_right rfl nofun nofun
  | float r =>
    cases lhs with
    | int l => exact computes_of_left rfl nofun nofun
    | float l => exact .inl rfl

theorem numericOp_computes {hint : OperandTypes}
    {lhs rhs : NumericValue} :
    Computes (numericOp F hint intOp floatOp) hint lhs.toValue rhs.toValue
      ((scalarOp F intOp floatOp lhs rhs).map toValue) := by
  unfold numericOp
  split
  · exact intBinaryNumericOp_computes
  · exact floatBinaryNumericOp_computes
  · left
    cases lhs with
    | float l => cases rhs <;> rfl
    | int l =>
      cases rhs with
      | float r => rfl
      | int r =>
        cases computed : intOp l r <;>
          simp [eval, binaryNumericOp, toValue, asNumeric, scalarOp,
            computed, bind, Except.bind, Except.map, pure, Except.pure]

theorem addOp_computes {fresh : Nat} {hint : OperandTypes}
    {lhs rhs : NumericValue} :
    Computes (addOp F fresh hint) hint lhs.toValue rhs.toValue
      ((scalarOp F (fun lhs rhs => .ok (lhs + rhs)) F.add lhs rhs).map toValue) := by
  unfold addOp
  split
  · exact intBinaryNumericOp_computes
  · exact floatBinaryNumericOp_computes
  · cases rhs <;> exact computes_of_right rfl nofun nofun
  · cases rhs <;> exact computes_of_right rfl nofun nofun
  · left
    cases lhs <;> cases rhs <;> rfl

/-- Comparisons always have a result. -/
theorem compareOp_computes {hint : OperandTypes} {intOp : Int64 → Int64 → Bool}
    {floatOp : UInt64 → UInt64 → Bool} {lhs rhs : NumericValue} :
    Computes (compareOp F hint intOp floatOp) hint lhs.toValue rhs.toValue
      (.ok (.bool (scalarCompare F intOp floatOp lhs rhs))) := by
  unfold compareOp
  split
  · cases rhs with
    | float r => exact computes_of_right rfl nofun nofun
    | int r =>
      cases lhs with
      | float l => exact computes_of_left rfl nofun nofun
      | int l => exact .inl rfl
  · cases rhs with
    | int r => exact computes_of_right rfl nofun nofun
    | float r =>
      cases lhs with
      | int l => exact computes_of_left rfl nofun nofun
      | float l => exact .inl rfl
  · left
    cases lhs <;> cases rhs <;> rfl

theorem shlOp_eval {lhs rhs : Int64} : shlOp.eval (.int lhs) (.int rhs) =
      ((checkedShl lhs rhs).map int).map toValue := by
  by_cases small : 0 ≤ rhs ∧ rhs ≤ 63
  · simp [eval, shlOp, shiftAmount, asInt, checkedShl, small, bind, Except.bind,
      Except.map, pure, Except.pure, toValue]
  · simp only [eval, shlOp, shiftAmount, asInt, checkedShl, small, bind, Except.bind]
    rfl

variable {ip : Nat}

namespace Engine

/-- **A scalar instruction computes what the plain one computes.** -/
theorem scalarArithmetic_computes {opcode : OpCode} {fresh : Nat} {lhs rhs : NumericValue}
    {result : Except VmError NumericValue} (known : E.binaryOp ip fresh opcode = some op)
    (computed : E.scalarArithmetic opcode lhs rhs = some result) :
    Computes op (E.operandTypeHint ip) lhs.toValue rhs.toValue (result.map toValue) := by
  cases opcode with
  | add =>
    cases known
    cases computed
    exact addOp_computes
  | sub | mul | div | mod =>
    cases known
    cases computed
    exact numericOp_computes
  | shl =>
    cases known
    cases lhs with
    | float l => cases computed
    | int l =>
      cases rhs with
      | float r => cases computed
      | int r =>
        cases computed
        exact .inl shlOp_eval
  | _ => cases computed

end Engine

/-! ## Plain instructions -/

variable {α : Type}

theorem popAs_ok {check : Value → Except VmError α} {a : α} (h : check value = .ok a) :
    popAs check { s with stack := value :: rest } = .ok a { s with stack := rest } := by
  change lift (check value) _ = _
  rw [h]
  rfl

theorem popAs_error {check : Value → Except VmError α} (h : check value = .error e) :
    popAs check { s with stack := value :: rest } = .error e { s with stack := rest } := by
  change lift (check value) _ = _
  rw [h]
  rfl

/-- An operation on the two operands on top of the stack. -/
theorem BinaryOp.exec_ok (rest : List Value) (s : Instance W) (h : op.eval lhs rhs = .ok value) :
    op.exec { s with stack := rhs :: lhs :: rest } = .ok () { s with stack := value :: rest } := by
  obtain ⟨r, hr, h⟩ := Fallible.bind_eq_ok.mp h
  obtain ⟨l, hl, applied⟩ := Fallible.bind_eq_ok.mp h
  unfold exec
  rw [bind_ok (popAs_ok hr), bind_ok (popAs_ok hl), applied]
  rfl

/-- A failing operation leaves everything but the operands as it was. -/
theorem BinaryOp.exec_error (s : Instance W) (h : op.eval lhs rhs = .error e) :
    ∃ stack, op.exec { s with stack := rhs :: lhs :: rest } = .error e { s with stack } := by
  unfold exec
  unfold eval at h
  cases hr : op.rhs rhs with
  | error e' =>
    rw [hr] at h
    cases h
    exact ⟨lhs :: rest, by rw [bind_error (popAs_error hr)]⟩
  | ok r =>
    rw [hr] at h
    refine ⟨rest, ?_⟩
    rw [bind_ok (popAs_ok hr)]
    cases hl : op.lhs lhs with
    | error e' =>
      rw [hl] at h
      cases h
      rw [bind_error (popAs_error hl)]
    | ok l =>
      rw [hl] at h
      rw [bind_ok (popAs_ok hl)]
      change op.apply l r = .error e at h
      rw [h]
      rfl

namespace Engine

variable {opcode : OpCode} {lhs rhs : NumericValue} {cursor : Nat} {stack : List NumericValue}
  {number : NumericValue} {index : UInt8} {result : FusedEnd} {floatOp : UInt64 → UInt64 → Bool}

theorem step_eq (known : opcodeAt E.program s.ip = some opcode) :
    E.step s = E.execute opcode { s with ip := s.ip + 1 } := by
  obtain ⟨raw, byte, decoded⟩ := Option.bind_eq_some_iff.mp known
  change EStateM.bind (readU8 E.program.code) E.executeRaw s = _
  simp [EStateM.bind, readU8, byte, executeRaw, decoded]

/-- A value that is not a new array claims no object. -/
theorem claimObject_eq (plain : ∀ object values, value ≠ .array object values) :
    claimObject { s with stack := value :: rest } = .ok () { s with stack := value :: rest } := by
  cases value with
  | array object values => exact absurd rfl (plain object values)
  | _ => rfl

theorem executeBinary_eq (operation : E.binaryOp ip s.nextObject opcode = some op) :
    E.executeBinary ip opcode s = (do
      op.exec
      claimObject) s := by
  rw [executeBinary, get_bind, operation]

/-- A plain instruction on two operands. -/
theorem step_binary (known : opcodeAt E.program s.ip = some opcode)
    (operation : E.binaryOp s.ip s.nextObject opcode = some op) : E.step s = (do
      op.exec
      claimObject
      return .continue : CoreM W Stepped) { s with ip := s.ip + 1 } := by
  have inline : E.execute opcode { s with ip := s.ip + 1 } = (do
      E.executeBinary s.ip opcode
      return .continue : CoreM W Stepped) { s with ip := s.ip + 1 } := by
    cases opcode with
    | add | sub | mul | div | mod | shl | shr | lshr | and | or | ceq | clt | cgt => rfl
    | _ => cases operation
  rw [step_eq known, inline,
    bind_congr_of_eq (executeBinary_eq (s := { s with ip := s.ip + 1 }) operation), bind_assoc]

variable {dst : UInt8} {absolute : Nat} {s₁ s₂ : Instance W}

/-- The operation of a plain instruction on two operands. -/
theorem step_binary_ok {lhs rhs : Value} (known : opcodeAt E.program s.ip = some opcode)
    (stack : s.stack = rhs :: lhs :: rest)
    (operation : E.binaryOp s.ip s.nextObject opcode = some op) (h : op.eval lhs rhs = .ok value)
    (plain : ∀ object values, value ≠ .array object values) :
    E.step s = .ok .continue { s with ip := s.ip + 1, stack := value :: rest } := by
  have run := exec_ok rest { s with ip := s.ip + 1 } h
  rw [← stack] at run
  rw [step_binary known operation, bind_ok run,
    bind_ok (claimObject_eq (s := { s with ip := s.ip + 1 }) plain)]
  rfl

theorem step_binary_error {lhs rhs : Value} (known : opcodeAt E.program s.ip = some opcode)
    (stack : s.stack = rhs :: lhs :: rest)
    (operation : E.binaryOp s.ip s.nextObject opcode = some op) (h : op.eval lhs rhs = .error e) :
    ∃ stack, E.step s = .error e { s with ip := s.ip + 1, stack } := by
  obtain ⟨left, run⟩ := exec_error { s with ip := s.ip + 1 } h
  rw [← stack] at run
  refine ⟨left, ?_⟩
  rw [step_binary known operation, bind_error run]

/-! ## Views -/

/-- The instance that plain execution has reached when the fused one stands at `cursor`. -/
def fusedView (s : Instance W) (cursor : Nat) (stack : List NumericValue) : Instance W :=
  { s with ip := cursor, stack := stack.map NumericValue.toValue ++ s.stack }

/-- The type hint of the next instruction fits the operands it is about to take. -/
def HintsAgree (E : Engine W) (s : Instance W) : Prop :=
  ∀ opcode op lhs rhs rest, opcodeAt E.program s.ip = some opcode →
    E.binaryOp s.ip s.nextObject opcode = some op → s.stack = rhs :: lhs :: rest →
    HintsFit (E.operandTypeHint s.ip) lhs rhs

/-- The plain instruction does what the fused one assumes: its hint fits, or it succeeds. -/
def Dependable (E : Engine W) (s : Instance W) : Prop :=
  E.HintsAgree s ∨ ∃ stepped s', E.step s = .ok stepped s'

/-- What a dependable instruction computes. -/
theorem Dependable.eval (h : E.Dependable s) {lhs rhs : Value} {result : Except VmError Value}
    (known : opcodeAt E.program s.ip = some opcode)
    (operation : E.binaryOp s.ip s.nextObject opcode = some op)
    (stack : s.stack = rhs :: lhs :: rest)
    (computes : Computes op (E.operandTypeHint s.ip) lhs rhs result) :
    op.eval lhs rhs = result := by
  rcases h with fits | ⟨stepped, s', ok⟩
  · exact computes.of_fits (fits opcode op lhs rhs rest known operation stack)
  · cases evaluated : op.eval lhs rhs with
    | ok value => exact (computes.of_ok evaluated).symm
    | error e =>
      obtain ⟨_, failed⟩ := step_binary_error known stack operation evaluated
      rw [failed] at ok
      cases ok

theorem binaryOp_of_scalarArithmetic {result : Except VmError NumericValue} {ip fresh : Nat}
    (h : E.scalarArithmetic opcode lhs rhs = some result) :
    ∃ op, E.binaryOp ip fresh opcode = some op := by
  cases opcode with
  | add | sub | mul | div | mod | shl => exact ⟨_, rfl⟩
  | _ => cases h

/-- A scalar instruction between two views. -/
theorem step_of_arithmetic {value : NumericValue} (known : opcodeAt E.program cursor = some opcode)
    (h : E.scalarArithmetic opcode lhs rhs = some (.ok value))
    (dependable : E.Dependable (fusedView s cursor (rhs :: lhs :: stack))) :
    E.step (fusedView s cursor (rhs :: lhs :: stack)) =
      .ok .continue (fusedView s (cursor + 1) (value :: stack)) := by
  obtain ⟨op, operation⟩ := binaryOp_of_scalarArithmetic h
  have evaluated := dependable.eval known operation rfl (scalarArithmetic_computes operation h)
  refine step_binary_ok known rfl operation evaluated fun object values => ?_
  cases value <;> rintro ⟨⟩

theorem step_of_arithmetic_error {s : Instance W} {stack : List NumericValue}
    (known : opcodeAt E.program cursor = some opcode)
    (h : E.scalarArithmetic opcode lhs rhs = some (.error e)) :
    ∃ e' stack', E.step (fusedView s cursor (rhs :: lhs :: stack)) =
      .error e' { s with ip := cursor + 1, stack := stack' } := by
  obtain ⟨op, operation⟩ := binaryOp_of_scalarArithmetic h
  cases evaluated : op.eval lhs.toValue rhs.toValue with
  | ok value =>
    have same := (scalarArithmetic_computes operation h).of_ok evaluated
    cases same
  | error e' =>
    obtain ⟨stack', failed⟩ := step_binary_error
      (s := fusedView s cursor (rhs :: lhs :: stack)) known rfl operation evaluated
    exact ⟨e', stack', failed⟩

/-! ## Loads and stores -/

theorem asNumeric_eq (h : (asNumeric value).toOption = some number) : value = number.toValue := by
  cases value with
  | int v | float bits =>
    cases h
    rfl
  | _ => cases h

/-- The operand of a load or store, whether it is in the table or not. -/
theorem readLocalIndex_eq (byte : E.program.code[ip + 1]? = some index) :
    E.readLocalIndex ip { s with ip := ip + 1 } = .ok index { s with ip := ip + 2 } := by
  unfold readLocalIndex
  cases decoded : E.decodedLocalIndexAt ip with
  | some index' =>
    have same := decodedLocalIndexAt_eq decoded
    rw [byte] at same
    cases same
    rfl
  | none => simp [readU8, byte]

theorem readLocalIndex_none (byte : E.program.code[ip + 1]? = none) :
    E.readLocalIndex ip { s with ip := ip + 1 } =
      .error .bytecodeBounds { s with ip := ip + 1 } := by
  unfold readLocalIndex
  cases decoded : E.decodedLocalIndexAt ip with
  | some index =>
    have some := decodedLocalIndexAt_eq decoded
    rw [byte] at some
    cases some
  | none => simp [readU8, byte]

theorem step_load (known : opcodeAt E.program s.ip = some .ldloc)
    (byte : E.program.code[s.ip + 1]? = some index) :
    E.step s = (do
      pushLocal index
      return .continue : CoreM W Stepped) { s with ip := s.ip + 2 } := by
  rw [step_eq known]
  change ((E.readLocalIndex s.ip >>= fun index => pushLocal index) >>=
    fun _ => pure Stepped.continue) { s with ip := s.ip + 1 } = _
  rw [bind_assoc, bind_ok (readLocalIndex_eq byte)]

theorem step_store (known : opcodeAt E.program s.ip = some .stloc)
    (byte : E.program.code[s.ip + 1]? = some index) (stack : s.stack = value :: rest) :
    E.step s = (do
      storeLocal index value
      return .continue : CoreM W Stepped) { s with ip := s.ip + 2, stack := rest } := by
  rw [step_eq known]
  have popped : popValue { s with ip := s.ip + 2 } =
      .ok value { s with ip := s.ip + 2, stack := rest } := by
    simp [popValue, stack]
  change ((E.readLocalIndex s.ip >>= fun index => popValue >>= storeLocal index) >>=
    fun _ => pure Stepped.continue) { s with ip := s.ip + 1 } = _
  rw [bind_assoc, bind_ok (readLocalIndex_eq byte), bind_assoc, bind_ok popped]

variable {s' : Instance W}

theorem absoluteLocalIndex_eq (inside : s.activeLocalBase + index.toNat < s.locals.length) :
    absoluteLocalIndex index s = .ok (s.activeLocalBase + index.toNat) s := by
  exact if_pos inside

/-- A slot with a number is there, and is loaded as that number. -/
theorem loadLocalValue_of_scalar (h : E.localScalarValueWithHint s index = some number)
    (same : ∃ ip stack, s' = { s with ip, stack }) :
    loadLocalValue index s' = .ok number.toValue s' := by
  obtain ⟨ip, stack, rfl⟩ := same
  have numeric : s.localNumericValue index = some number := by
    unfold localScalarValueWithHint at h
    split at h
    · cases h
    · next value found =>
        rw [found]
        split at h <;> first | exact h | cases h
  unfold Instance.localNumericValue at numeric
  split at numeric
  · next inside =>
      obtain ⟨value, found, isNumber⟩ := Option.bind_eq_some_iff.mp numeric
      have spelled := asNumeric_eq isNumber
      subst spelled
      unfold loadLocalValue
      rw [bind_ok (absoluteLocalIndex_eq (s := { s with ip, stack }) inside)]
      change EStateM.Result.ok ((s.slotValue (s.activeLocalBase + index.toNat)).getD .null) _ = _
      rw [found]
      rfl
  · cases numeric

/-- The load at the start of a sequence, or inside it. -/
theorem step_of_load (known : opcodeAt E.program cursor = some .ldloc)
    (byte : E.program.code[cursor + 1]? = some index)
    (h : E.localScalarValueWithHint s index = some number) :
    E.step (fusedView s cursor stack) =
      .ok .continue (fusedView s (cursor + 2) (number :: stack)) := by
  have loaded : loadLocalValue index (fusedView s (cursor + 2) stack) =
      .ok number.toValue (fusedView s (cursor + 2) stack) :=
    loadLocalValue_of_scalar h ⟨_, _, rfl⟩
  refine (step_load known byte).trans ?_
  change ((loadLocalValue index >>= push) >>= fun _ => pure Stepped.continue)
    (fusedView s (cursor + 2) stack) = _
  rw [bind_assoc, bind_ok loaded]
  rfl

theorem step_of_constant (known : opcodeAt E.program cursor = some .ldc)
    (decoded : E.decodedLdcValueAt cursor = some value)
    (h : (asNumeric value).toOption = some number) :
    E.step (fusedView s cursor stack) =
      .ok .continue (fusedView s (cursor + 5) (number :: stack)) := by
  have spelled := asNumeric_eq h
  subst spelled
  rw [step_eq known]
  have constant : E.readConstant cursor (fusedView s (cursor + 1) stack) =
      .ok number.toValue (fusedView s (cursor + 5) stack) := by
    unfold readConstant
    rw [decoded]
    rfl
  change ((E.readConstant cursor >>= push) >>= fun _ => pure Stepped.continue)
    (fusedView s (cursor + 1) stack) = _
  rw [bind_assoc, bind_ok constant]
  rfl

/-! ## One instruction of a sequence -/

variable {cursor' : Nat} {stack' : List NumericValue}

/-- **One instruction of a sequence is one plain instruction.** -/
theorem SequenceStep.step (h : E.SequenceStep s opcode cursor stack cursor' stack')
    (known : opcodeAt E.program cursor = some opcode)
    (dependable : E.Dependable (fusedView s cursor stack)) :
    E.step (fusedView s cursor stack) = .ok .continue (fusedView s cursor' stack') := by
  cases h with
  | constant load decoded isNumber =>
    subst load
    exact step_of_constant known decoded isNumber
  | load load byte loaded =>
    subst load
    exact step_of_load known byte loaded
  | arithmetic operands computed =>
    subst operands
    exact step_of_arithmetic known computed dependable

theorem SequenceStep.le (h : E.SequenceStep s opcode cursor stack cursor' stack') :
    cursor ≤ cursor' := by
  cases h with
  | constant | load | arithmetic => exact Nat.le_add_right _ _

/-! ## The end of a sequence -/

theorem storeLocal_outside (outside : s.locals.length ≤ s.activeLocalBase + index.toNat) :
    storeLocal index value s = .error (.invalidLocal index) s := by
  have absolute : absoluteLocalIndex index s = .error (.invalidLocal index) s := by
    exact if_neg (Nat.not_lt.mpr outside)
  unfold storeLocal
  rw [bind_error absolute]

/-- Storing a number never fails in a slot that is there: a number holds no cell. -/
theorem storeLocalAbsolute_number {index : UInt8} (inside : absolute < s.locals.length) :
    ∃ locals cells, ∀ ip stack, storeLocalAbsolute absolute index number.toValue
      { s with ip, stack } = .ok () { s with ip, stack, locals, cells } := by
  cases shared : s.captureCells absolute with
  | none =>
    refine ⟨s.locals.set absolute number.toValue, s.cells, fun ip stack => ?_⟩
    simp [storeLocalAbsolute, shared, inside]
  | some cell =>
    have free : ∀ s : Instance W, s.valueReferencesCaptureCell number.toValue cell = false := by
      intro s
      have none : s.cellsOf number.toValue = [] := by cases number <;> rfl
      have fixed : ∀ n, s.expand^[n] [] = [] := by
        intro n
        induction n with
        | zero => rfl
        | succ n ih => rw [Function.iterate_succ_apply', ih]; rfl
      rw [Instance.valueReferencesCaptureCell, none, fixed]
      rfl
    simp [storeLocalAbsolute, shared, free]

theorem storeLocalAbsolute_error
    (h : storeLocalAbsolute absolute index value s = .error e s') : s' = s := by
  unfold storeLocalAbsolute at h
  split at h <;> split at h <;> cases h <;> rfl

/-! ## Whole sequences -/

/-- The path of a fused execution: from `cursor` with a private stack, over `count`
instructions, to the one that ends the sequence. -/
inductive Sequence (E : Engine W) (s : Instance W) (result : FusedEnd) :
    Nat → List NumericValue → Nat → Prop where
  | last {cursor : Nat} {stack : List NumericValue} {opcode : OpCode} :
      opcodeAt E.program cursor = some opcode →
      E.SequenceEnd opcode cursor stack result → Sequence E s result cursor stack 0
  | next {cursor cursor' : Nat} {stack stack' : List NumericValue} {opcode : OpCode}
      {count : Nat} :
      opcodeAt E.program cursor = some opcode →
      E.SequenceStep s opcode cursor stack cursor' stack' →
      Sequence E s result cursor' stack' count → Sequence E s result cursor stack (count + 1)

theorem scan_sequence {steps : Nat} (ends : (E.scanScalarSequence s steps cursor stack).2 = result)
    (fused : result ≠ .declined) : ∃ count, E.Sequence s result cursor stack count ∧
      (E.scanScalarSequence s steps cursor stack).1.length =
        count + 1 + (FusedEnd.fetches result).length := by
  induction steps generalizing cursor stack with
  | zero => exact absurd ends.symm fused
  | succ steps ih =>
    unfold scanScalarSequence at ends ⊢
    cases byte : E.program.code[cursor]? with
    | none =>
      simp only [byte] at ends
      exact absurd ends.symm fused
    | some raw =>
      simp only [byte] at ends ⊢
      cases decoded : OpCode.tryFrom raw with
      | none =>
        simp only [decoded] at ends
        exact absurd ends.symm fused
      | some opcode =>
        have known : opcodeAt E.program cursor = some opcode := by
          rw [opcodeAt, byte, Option.bind_some, decoded]
        simp only [decoded] at ends ⊢
        have move : E.SequenceMove s opcode cursor stack _ := scalarStep_moves
        generalize E.scalarStep s opcode cursor stack = step at move ends ⊢
        cases move with
        | last last =>
          subst ends
          exact ⟨0, .last known last, by simp [Nat.add_comm]⟩
        | next next =>
          obtain ⟨count, path, length⟩ := ih ends
          refine ⟨count + 1, .next known next path, ?_⟩
          rw [List.length_cons, length]
          omega

/-- An instruction at the instruction pointer that is about to fail for a reason that lies in
its operands: a division that has no result, a shift by a wrong amount, or a store into a slot
that is not there. -/
def FaultsOn (E : Engine W) (s : Instance W) (opcode : Option OpCode) : Prop :=
  match opcode, s.stack with
  | some .div, .int rhs :: .int lhs :: _ => rhs = 0 ∨ lhs = Int64.minValue ∧ rhs = -1
  | some .mod, .int rhs :: .int lhs :: _ => rhs = 0 ∨ lhs = Int64.minValue ∧ rhs = -1
  | some .shl, .int rhs :: .int _ :: _ => ¬ (0 ≤ rhs ∧ rhs ≤ 63)
  | some .stloc, _ => ∃ dst, E.program.code[s.ip + 1]? = some dst ∧
      s.locals.length ≤ s.activeLocalBase + dst.toNat
  | _, _ => False

/-- The next instruction faults. -/
def Faults (E : Engine W) (s : Instance W) : Prop :=
  E.FaultsOn s (opcodeAt E.program s.ip)

instance (E : Engine W) (s : Instance W) (opcode : Option OpCode) :
    Decidable (E.FaultsOn s opcode) := by
  have slot : Decidable (∃ dst, E.program.code[s.ip + 1]? = some dst ∧
      s.locals.length ≤ s.activeLocalBase + dst.toNat) :=
    match E.program.code[s.ip + 1]? with
    | none => isFalse nofun
    | some dst => decidable_of_iff (s.locals.length ≤ s.activeLocalBase + dst.toNat) (by simp)
  delta FaultsOn
  split <;> infer_instance

instance (E : Engine W) (s : Instance W) : Decidable (E.Faults s) :=
  inferInstanceAs (Decidable (E.FaultsOn s (opcodeAt E.program s.ip)))

theorem guarded_error_iff {p q : Prop} [Decidable p] [Decidable q] {e₁ e₂ : VmError} {n : Int64} :
    (∃ e, (if p then .error e₁ else if q then .error e₂ else .ok n : Except VmError Int64) =
      .error e) ↔ p ∨ q := by
  split
  · next first => exact ⟨fun _ => .inl first, fun _ => ⟨_, rfl⟩⟩
  · next other =>
      split
      · next second => exact ⟨fun _ => .inr second, fun _ => ⟨_, rfl⟩⟩
      · next neither => exact ⟨nofun, fun h => absurd h (not_or.mpr ⟨other, neither⟩)⟩

/-- A scalar instruction fails where the plain one faults. -/
theorem faults_iff {result : Except VmError NumericValue} (s : Instance W)
    (stack : List NumericValue) (known : opcodeAt E.program cursor = some opcode)
    (h : E.scalarArithmetic opcode lhs rhs = some result) :
    E.Faults (fusedView s cursor (rhs :: lhs :: stack)) ↔ ∃ e, result = .error e := by
  have total : ∀ {intOp : Int64 → Int64 → Int64} {floatOp : UInt64 → UInt64 → UInt64},
      ¬ ∃ e, scalarOp E.floatOps (fun lhs rhs => .ok (intOp lhs rhs)) floatOp lhs rhs =
        .error e := by
    rintro intOp floatOp ⟨e, failed⟩
    obtain ⟨_, _, _, _, ⟨⟩⟩ := scalarOp_eq_error.mp failed
  change E.FaultsOn _ (opcodeAt E.program cursor) ↔ _
  rw [known]
  cases opcode with
  | add | sub | mul =>
    cases h
    exact ⟨False.elim, fun failed => absurd failed total⟩
  | div | mod =>
    cases h
    simp only [scalarOp_eq_error]
    cases lhs with
    | float l => cases rhs <;> exact ⟨nofun, nofun⟩
    | int l =>
      cases rhs with
      | float r => exact ⟨nofun, nofun⟩
      | int r => simp [FaultsOn, fusedView, toValue, checkedIntDiv, checkedIntRem,
          guarded_error_iff]
  | shl =>
    cases lhs with
    | float l => cases h
    | int l =>
      cases rhs with
      | float r => cases h
      | int r =>
        cases h
        by_cases small : 0 ≤ r ∧ r ≤ 63
        · simp [FaultsOn, fusedView, toValue, checkedShl, small, Except.map]
        · simp only [checkedShl, small]
          exact ⟨fun _ => ⟨_, rfl⟩, fun _ => small⟩
  | _ => cases h

theorem not_faults (known : opcodeAt E.program s.ip = some opcode)
    (calm : ¬ E.FaultsOn s (some opcode)) : ¬ E.Faults s := by
  unfold Faults
  rw [known]
  exact calm

/-- An instruction in the middle of a sequence does not fault. -/
theorem SequenceStep.not_faults (h : E.SequenceStep s opcode cursor stack cursor' stack')
    (known : opcodeAt E.program cursor = some opcode) : ¬ E.Faults (fusedView s cursor stack) := by
  cases h with
  | constant load | load load =>
    subst load
    exact not_faults known not_false
  | arithmetic operands computed =>
    subst operands
    rw [faults_iff s _ known computed]
    rintro ⟨_, ⟨⟩⟩

variable {k : Nat}

theorem plainSteps_continue (before : E.plainSteps k s = .ok () s₁)
    (step : E.step s₁ = .ok .continue s₂) : E.plainSteps (k + 1) s = .ok () s₂ := by
  refine (bind_ok before).trans ?_
  have stepped : E.plainStep s₁ = .ok .continue s₂ := bind_ok step
  exact bind_ok stepped

theorem plainSteps_error (before : E.plainSteps k s = .ok () s₁)
    (step : E.step s₁ = .error e s₂) : E.plainSteps (k + 1) s = .error e s₂ := by
  refine (bind_ok before).trans ?_
  have stepped : E.plainStep s₁ = .error e s₂ := bind_error step
  exact bind_error stepped

variable {s₀ : Instance W}

/-- Plain execution from `s₀` meets `P` in front of each of its first `n` instructions. -/
abbrev Along (E : Engine W) (s₀ : Instance W) (n : Nat) (P : Instance W → Prop) : Prop :=
  ∀ k < n, ∀ s', E.plainSteps k s₀ = .ok () s' → P s'

/-- A sequence is run up to its last instruction without a fault. -/
theorem Sequence.run {count : Nat} (path : E.Sequence s result cursor stack count)
    (before : E.plainSteps k s₀ = .ok () (fusedView s cursor stack))
    (hints : E.Along s₀ (k + count) E.HintsAgree) (calm : E.Along s₀ k (¬ E.Faults ·)) :
    ∃ cursor' stack' opcode, opcodeAt E.program cursor' = some opcode ∧
      E.SequenceEnd opcode cursor' stack' result ∧ cursor ≤ cursor' ∧
      E.plainSteps (k + count) s₀ = .ok () (fusedView s cursor' stack') ∧
      E.Along s₀ (k + count) (¬ E.Faults ·) := by
  induction path generalizing k with
  | last known ends => exact ⟨_, _, _, known, ends, Nat.le_refl _, before, calm⟩
  | @next cursor cursor' stack stack' opcode count known next path ih =>
    have fits : E.HintsAgree (fusedView s cursor stack) := hints k (by omega) _ before
    have step := next.step known (.inl fits)
    have calm' : E.Along s₀ (k + 1) (¬ E.Faults ·) := by
      intro j below s' reached
      rcases Nat.lt_succ_iff_lt_or_eq.mp below with earlier | rfl
      · exact calm j earlier s' reached
      · rw [before] at reached
        cases reached
        exact next.not_faults known
    have same : k + (count + 1) = k + 1 + count := by omega
    rw [same] at hints ⊢
    obtain ⟨last, stack'', opcode', known', ends, later, reached, calm''⟩ :=
      ih (plainSteps_continue before step) hints calm'
    exact ⟨last, stack'', opcode', known', ends, Nat.le_trans next.le later, reached, calm''⟩

/-! ## Fusion is invisible -/

/-- How a run ended: its error, and the locals, the operand stack and the instruction pointer. -/
def ending {σ α : Type} (inst : σ → Instance W) :
    EStateM.Result VmError σ α → Option VmError × List Value × List Value × Nat
  | .ok _ s => (none, (inst s).locals, (inst s).stack, (inst s).ip)
  | .error e s => (some e, (inst s).locals, (inst s).stack, (inst s).ip)

theorem Mirrors.ending_eq {x : VmM W α} {y : CoreM W α} {st : State W} (h : Mirrors x y st) :
    ending State.inst (x st) = ending id (y st.inst) := by
  cases result : x st with
  | ok a st' =>
    obtain ⟨_, _, run, _, rfl, _⟩ := h.ok result
    rw [run]
    rfl
  | error e st' =>
    obtain ⟨_, _, run, rfl, rfl, _⟩ := h.error result
    rw [run]
    rfl

/-- How many instructions a round executes that starts with a load. -/
def sequenceLength (E : Engine W) (s : Instance W) : Nat :=
  match E.program.code[s.ip + 1]? with
  | none => 1
  | some src =>
    match E.localScalarValueWithHint { s with ip := s.ip + 2 } src with
    | none => 1
    | some initial =>
      match E.scanScalarSequence { s with ip := s.ip + 2 } 16 (s.ip + 2) [initial] with
      | (_, .declined) => 1
      | (offsets, _) => offsets.length + 1

theorem fusedRound_eq (known : opcodeAt E.program s.ip = some .ldloc) :
    ∃ raw, E.fusedRound s = (do
      let src ← E.readLocalIndex s.ip
      let fused ← E.fuse src
      pushUnless fused src
      return (raw, .continue) : CoreM W (UInt8 × ExecOutcome)) { s with ip := s.ip + 1 } := by
  obtain ⟨raw, first, decoded⟩ := Option.bind_eq_some_iff.mp known
  refine ⟨raw, ?_⟩
  have fetched : readU8 E.program.code s = .ok raw { s with ip := s.ip + 1 } := by
    simp [readU8, first]
  have fused : E.executeFused raw = E.fusedLoad := by
    unfold executeFused
    rw [decoded]
  unfold fusedRound
  rw [bind_ok fetched, fused]
  unfold fusedLoad
  simp only [bind_assoc]
  rfl

variable {src : UInt8}

theorem fusedRound_load (known : opcodeAt E.program s.ip = some .ldloc)
    (byte : E.program.code[s.ip + 1]? = some src) : ∃ raw, E.fusedRound s = (do
      let fused ← E.fuse src
      pushUnless fused src
      return (raw, .continue) : CoreM W (UInt8 × ExecOutcome)) { s with ip := s.ip + 2 } := by
  obtain ⟨raw, round⟩ := fusedRound_eq known
  exact ⟨raw, round.trans (bind_ok (readLocalIndex_eq byte))⟩

/-- No sequence begins with the load. -/
def LoadsAlone (E : Engine W) (s : Instance W) : Prop :=
  ∀ src, E.program.code[s.ip + 1]? = some src →
    E.fuse src { s with ip := s.ip + 2 } = .ok false { s with ip := s.ip + 2 }

/-- Without a sequence the round is the load alone. -/
theorem fusedRound_declined (known : opcodeAt E.program s.ip = some .ldloc)
    (declined : E.LoadsAlone s) :
    (∃ raw s', E.step s = .ok .continue s' ∧ E.fusedRound s = .ok (raw, .continue) s') ∨
      ∃ e s', E.step s = .error e s' ∧ E.fusedRound s = .error e s' := by
  cases byte : E.program.code[s.ip + 1]? with
  | none =>
    obtain ⟨raw, round⟩ := fusedRound_eq known
    right
    refine ⟨_, _, ?_, round.trans (bind_error (readLocalIndex_none byte))⟩
    rw [step_eq known]
    change ((E.readLocalIndex s.ip >>= fun index => pushLocal index) >>=
      fun _ => pure Stepped.continue) { s with ip := s.ip + 1 } = _
    exact bind_error (bind_error (readLocalIndex_none byte))
  | some src =>
    obtain ⟨raw, round⟩ := fusedRound_load known byte
    have load := round.trans (bind_ok (declined src byte))
    cases pushed : pushLocal src { s with ip := s.ip + 2 } with
    | ok _ s' =>
      exact .inl ⟨raw, s', (step_load known byte).trans (bind_ok pushed),
        load.trans (bind_ok pushed)⟩
    | error e s' =>
      exact .inr ⟨e, s', (step_load known byte).trans (bind_error pushed),
        load.trans (bind_error pushed)⟩

theorem commitFused_true {answer : Bool} (fused : result ≠ .declined)
    (h : E.commitFused result s = .ok answer s') : answer = true := by
  cases result with
  | declined => exact absurd rfl fused
  | failed e => cases h
  | store dst value cursor | branch condition jumpOpcodeIp target cursor =>
    obtain ⟨_, _, _, h⟩ := bind_eq_ok h
    obtain ⟨_, _, _, h⟩ := bind_eq_ok h
    cases h
    rfl

theorem fuse_of_none (h : E.localScalarValueWithHint s src = none) :
    E.fuse src s = .ok false s := by
  refine (bind_ok rfl).trans ?_
  rw [h]
  rfl

variable {initial : NumericValue} {intOp : Int64 → Int64 → Bool}

theorem fuse_of_some (h : E.localScalarValueWithHint s src = some initial) :
    E.fuse src s = E.commitFused (E.scanScalarSequence s 16 s.ip [initial]).2 s := by
  refine (bind_ok rfl).trans ?_
  rw [h]

/-- The load begins a sequence that is fused up to `result`. -/
structure Fuses (E : Engine W) (s : Instance W) (src : UInt8) (initial : NumericValue)
    (offsets : List Nat) (result : FusedEnd) : Prop where
  byte : E.program.code[s.ip + 1]? = some src
  loaded : E.localScalarValueWithHint { s with ip := s.ip + 2 } src = some initial
  scan : E.scanScalarSequence { s with ip := s.ip + 2 } 16 (s.ip + 2) [initial] = (offsets, result)
  fused : result ≠ .declined

variable {offsets : List Nat}

/-- A load stands alone or begins a sequence. -/
theorem loadsAlone_or_sequence (E : Engine W) (s : Instance W) :
    (E.sequenceLength s = 1 ∧ E.LoadsAlone s) ∨
      ∃ src initial offsets result, E.Fuses s src initial offsets result ∧
        E.sequenceLength s = offsets.length + 1 := by
  cases byte : E.program.code[s.ip + 1]? with
  | none =>
    exact .inl ⟨by simp [sequenceLength, byte], fun _ found => nomatch byte.symm.trans found⟩
  | some src =>
    cases loaded : E.localScalarValueWithHint { s with ip := s.ip + 2 } src with
    | none =>
      refine .inl ⟨by simp [sequenceLength, byte, loaded], fun _ found => ?_⟩
      cases byte.symm.trans found
      exact fuse_of_none loaded
    | some initial =>
      cases scan : E.scanScalarSequence { s with ip := s.ip + 2 } 16 (s.ip + 2) [initial] with
      | mk offsets result =>
        cases result with
        | declined =>
          refine .inl ⟨by simp [sequenceLength, byte, loaded, scan], fun _ found => ?_⟩
          cases byte.symm.trans found
          refine (fuse_of_some loaded).trans ?_
          simp only [scan]
          rfl
        | failed | store | branch =>
          refine .inr ⟨src, initial, offsets, _, ⟨byte, loaded, scan, nofun⟩, ?_⟩
          simp [sequenceLength, byte, loaded, scan]

theorem Fuses.fuse (h : E.Fuses s src initial offsets result) :
    E.fuse src { s with ip := s.ip + 2 } = E.commitFused result { s with ip := s.ip + 2 } := by
  rw [fuse_of_some h.loaded, h.scan]

theorem Fuses.load (known : opcodeAt E.program s.ip = some .ldloc)
    (h : E.Fuses s src initial offsets result) :
    E.step (fusedView { s with ip := s.ip + 2 } s.ip []) =
      .ok .continue (fusedView { s with ip := s.ip + 2 } (s.ip + 2) [initial]) :=
  step_of_load known h.byte h.loaded

theorem Fuses.sequence (h : E.Fuses s src initial offsets result) :
    ∃ count, E.Sequence { s with ip := s.ip + 2 } result (s.ip + 2) [initial] count ∧
      offsets.length = count + 1 + (FusedEnd.fetches result).length := by
  have sequence := scan_sequence (congrArg Prod.snd h.scan) h.fused
  rwa [h.scan] at sequence

/-- The end of a sequence that the fused round reaches. -/
theorem fusedRound_of_scan (known : opcodeAt E.program s.ip = some .ldloc)
    (h : E.Fuses s src initial offsets result) :
    ending id (E.fusedRound s) = ending id (E.commitFused result { s with ip := s.ip + 2 }) := by
  obtain ⟨raw, round⟩ := fusedRound_load known h.byte
  rw [round]
  cases committed : E.commitFused result { s with ip := s.ip + 2 } with
  | error e s' =>
    rw [bind_error (h.fuse.trans committed)]
    rfl
  | ok answer s' =>
    have done := commitFused_true h.fused committed
    subst done
    rw [bind_ok (h.fuse.trans committed)]
    rfl

/-- An instruction pointer that is elsewhere is visible. -/
theorem ending_ne_of_ip {β : Type} {x : EStateM.Result VmError (Instance W) α}
    {y : EStateM.Result VmError (Instance W) β} (other : (resultState x).ip ≠ (resultState y).ip) :
    ending id x ≠ ending id y := by
  have ip : ∀ {α : Type} (x : EStateM.Result VmError (Instance W) α),
      (ending id x).2.2.2 = (resultState x).ip := by
    intro α x
    cases x <;> rfl
  intro same
  apply other
  rw [← ip x, ← ip y, same]

theorem failed_ending {rest : List NumericValue}
    (computed : E.scalarArithmetic opcode lhs rhs = some (.error e))
    (known : opcodeAt E.program cursor = some opcode) (later : s.ip ≤ cursor)
    (before : E.plainSteps k s₀ = .ok () (fusedView s cursor (rhs :: lhs :: rest))) :
    ending id (E.commitFused (.failed e) s) ≠ ending id (E.plainSteps (k + 1) s₀) := by
  obtain ⟨e', stack', step⟩ := step_of_arithmetic_error known computed
  rw [plainSteps_error before step]
  apply ending_ne_of_ip
  change s.ip ≠ cursor + 1
  omega

/-- A store into a slot that is there: the plain instruction and the fused end agree. -/
theorem store_commit {value : NumericValue} (byte : E.program.code[cursor + 1]? = some dst)
    (known : opcodeAt E.program cursor = some .stloc)
    (inside : s.activeLocalBase + dst.toNat < s.locals.length) :
    ∃ s', E.step (fusedView s cursor [value]) = .ok .continue s' ∧
      E.commitFused (.store dst value cursor) s = .ok true s' := by
  obtain ⟨locals, cells, stored⟩ := storeLocalAbsolute_number inside
  refine ⟨{ s with ip := cursor + 2, locals, cells }, ?_, bind_ok (stored s.ip s.stack)⟩
  rw [step_store known byte rfl]
  have run : storeLocal dst value.toValue { s with ip := cursor + 2 } =
      .ok () { s with ip := cursor + 2, locals, cells } := by
    exact (bind_ok (absoluteLocalIndex_eq (by exact inside))).trans (stored (cursor + 2) s.stack)
  exact bind_ok run

theorem store_outside {value : NumericValue} (byte : E.program.code[cursor + 1]? = some dst)
    (known : opcodeAt E.program cursor = some .stloc)
    (outside : s.locals.length ≤ s.activeLocalBase + dst.toNat) :
    E.step (fusedView s cursor [value]) =
      .error (.invalidLocal dst) { s with ip := cursor + 2 } := by
  rw [step_store known byte rfl]
  exact bind_error (storeLocal_outside (by exact outside))

theorem store_ending_outside {value : NumericValue} (byte : E.program.code[cursor + 1]? = some dst)
    (known : opcodeAt E.program cursor = some .stloc) (later : s.ip ≤ cursor)
    (before : E.plainSteps k s₀ = .ok () (fusedView s cursor [value]))
    (outside : s.locals.length ≤ s.activeLocalBase + dst.toNat) :
    ending id (E.commitFused (.store dst value cursor) s) ≠
      ending id (E.plainSteps (k + 1) s₀) := by
  rw [plainSteps_error before (store_outside byte known outside)]
  cases committed : E.commitFused (.store dst value cursor) s with
  | ok _ s' => rintro ⟨⟩
  | error e s' =>
    have same : s' = s := by
      cases stored : storeLocalAbsolute (s.activeLocalBase + dst.toNat) dst value.toValue s with
      | ok _ s₁ => cases committed.symm.trans ((bind_ok rfl).trans (bind_ok stored))
      | error _ s₁ =>
        cases committed.symm.trans ((bind_ok rfl).trans (bind_error stored))
        exact storeLocalAbsolute_error stored
    subst same
    apply ending_ne_of_ip
    change s'.ip ≠ cursor + 2
    omega

/-- A comparison and its branch: the two plain instructions and the fused end agree. -/
theorem branch_commit {target : Nat} (known : opcodeAt E.program cursor = some opcode)
    (operation : ∀ fresh, E.binaryOp cursor fresh opcode =
        some (compareOp E.floatOps (E.operandTypeHint cursor) intOp floatOp))
    (jump : opcodeAt E.program (cursor + 1) = some .brfalse)
    (decoded : E.decodedJumpTargetAt (cursor + 1) = some target)
    (dependable : E.Dependable (fusedView s cursor [rhs, lhs])) :
    ∃ s₁, E.step (fusedView s cursor [rhs, lhs]) = .ok .continue s₁ ∧ s₁.ip = cursor + 1 ∧
      E.step s₁ = (do
        let _ ← E.commitFused (.branch (scalarCompare E.floatOps intOp floatOp lhs rhs)
          (cursor + 1) target cursor)
        return .continue : CoreM W Stepped) s := by
  have evaluated := dependable.eval known (operation s.nextObject) rfl compareOp_computes
  refine ⟨_, step_binary_ok known rfl (operation s.nextObject) evaluated (by rintro _ _ ⟨⟩), rfl,
    (step_eq jump).trans ?_⟩
  have read : ∀ stack, E.readTarget (cursor + 1) { s with ip := cursor + 2, stack } =
      .ok target { s with ip := cursor + 6, stack } := by
    intro stack
    unfold readTarget
    rw [decoded]
    rfl
  refine (bind_ok (read _)).trans ?_
  simp only [commitFused, bind_assoc]
  exact (bind_ok rfl).symm

/-- The last instruction of a sequence: the fused and the plain run end alike unless it
faults. -/
theorem SequenceEnd.ending_iff (h : E.SequenceEnd opcode cursor stack result)
    (fused : result ≠ .declined) (known : opcodeAt E.program cursor = some opcode)
    (later : s.ip ≤ cursor) (before : E.plainSteps k s₀ = .ok () (fusedView s cursor stack))
    (fits : E.HintsAgree (fusedView s cursor stack)) : ending id (E.commitFused result s) =
        ending id (E.plainSteps (k + 1 + (FusedEnd.fetches result).length) s₀) ↔
      ∀ j < k + 1 + (FusedEnd.fetches result).length, k ≤ j →
        ∀ s', E.plainSteps j s₀ = .ok () s' → ¬ E.Faults s' := by
  have single : (∀ j < k + 1, k ≤ j → ∀ s', E.plainSteps j s₀ = .ok () s' → ¬ E.Faults s') ↔
      ¬ E.Faults (fusedView s cursor stack) := by
    constructor
    · intro calm
      exact calm k (Nat.lt_succ_self k) (Nat.le_refl k) _ before
    · intro calm j below above s' reached
      obtain rfl : j = k := by omega
      cases before.symm.trans reached
      exact calm
  cases h with
  | declined => exact absurd rfl fused
  | @failed lhs rhs rest e operands computed =>
    subst operands
    have faults := (faults_iff s rest known computed).mpr ⟨e, rfl⟩
    exact iff_of_false (failed_ending computed known later before)
      (fun calm => single.mp calm faults)
  | @store dst value store operands byte =>
    subst store operands
    rw [show k + 1 + (FusedEnd.fetches (.store dst value cursor)).length = k + 1 from rfl, single]
    have faults : E.Faults (fusedView s cursor [value]) ↔
        s.locals.length ≤ s.activeLocalBase + dst.toNat := by
      change E.FaultsOn _ (opcodeAt E.program cursor) ↔ _
      rw [known]
      change (∃ dst', E.program.code[cursor + 1]? = some dst' ∧
        s.locals.length ≤ s.activeLocalBase + dst'.toNat) ↔ _
      simp [byte]
    rw [faults]
    rcases Nat.lt_or_ge _ _ with inside | outside
    · obtain ⟨s', step, committed⟩ := store_commit byte known inside
      rw [committed, plainSteps_continue before step]
      exact iff_of_true rfl (Nat.not_le.mpr inside)
    · exact iff_of_false (store_ending_outside byte known later before outside)
        (not_not_intro outside)
  | @branch lhs rhs target intOp floatOp operands compares operation jump decoded =>
    subst operands
    obtain ⟨s₁, compare, ip, branch⟩ := branch_commit known operation jump decoded (.inl fits)
    have compared := plainSteps_continue before compare
    refine iff_of_true ?_ ?_
    · cases committed : E.commitFused (.branch (scalarCompare E.floatOps intOp floatOp lhs rhs)
          (cursor + 1) target cursor) s with
      | ok _ s₂ =>
        have plain := plainSteps_continue compared (branch.trans (bind_ok committed))
        exact (congrArg (ending id) plain).symm
      | error e s₂ =>
        have plain := plainSteps_error compared (branch.trans (bind_error committed))
        exact (congrArg (ending id) plain).symm
    intro j below above s' reached
    obtain rfl | rfl : j = k ∨ j = k + 1 := by
      change j < k + 1 + 1 at below
      omega
    · cases before.symm.trans reached
      rcases compares with rfl | rfl <;> exact not_faults known not_false
    · cases compared.symm.trans reached
      rw [← ip] at jump
      exact not_faults jump not_false

/-- A round without a sequence. -/
theorem ending_of_declined (known : opcodeAt E.program s.ip = some .ldloc)
    (length : E.sequenceLength s = 1) (declined : E.LoadsAlone s) :
    ending id (E.fusedRound s) = ending id (E.plainSteps (E.sequenceLength s) s) ↔
      E.Along s (E.sequenceLength s) (¬ E.Faults ·) := by
  rw [length]
  have same : ending id (E.fusedRound s) = ending id (E.plainSteps 1 s) := by
    rcases fusedRound_declined known declined with ⟨raw, s', step, round⟩ | ⟨e, s', step, round⟩
    · rw [round, plainSteps_continue rfl step]
      rfl
    · rw [round, plainSteps_error rfl step]
      rfl
  refine iff_of_true same ?_
  intro k below s' reached
  obtain rfl : k = 0 := by omega
  cases reached
  exact not_faults known not_false

/-- A round with a sequence. -/
theorem ending_of_fused (known : opcodeAt E.program s.ip = some .ldloc)
    (fuses : E.Fuses s src initial offsets result)
    (length : E.sequenceLength s = offsets.length + 1)
    (hints : E.Along s (E.sequenceLength s) E.HintsAgree) :
    ending id (E.fusedRound s) = ending id (E.plainSteps (E.sequenceLength s) s) ↔
      E.Along s (E.sequenceLength s) (¬ E.Faults ·) := by
  obtain ⟨count, path, scanned⟩ := fuses.sequence
  have total : E.sequenceLength s = 1 + count + 1 + (FusedEnd.fetches result).length := by omega
  rw [total] at hints ⊢
  have first : E.plainSteps 1 s =
      .ok () (fusedView { s with ip := s.ip + 2 } (s.ip + 2) [initial]) :=
    plainSteps_continue rfl (fuses.load known)
  have calm : E.Along s 1 (¬ E.Faults ·) := by
    intro j below s' reached
    obtain rfl : j = 0 := by omega
    cases reached
    exact not_faults known not_false
  obtain ⟨cursor, stack, opcode, known', ending, later, reached, calm'⟩ :=
    path.run first (fun j below => hints j (by omega)) calm
  rw [fusedRound_of_scan known fuses,
    ending.ending_iff fuses.fused known' later reached (hints _ (by omega) _ reached)]
  constructor
  · intro last k below s' reached'
    rcases Nat.lt_or_ge k _ with earlier | atEnd
    · exact calm' k earlier s' reached'
    · exact last k below atEnd s' reached'
  · intro all k below _
    exact all k below

theorem fusedRound_ending_iff (known : opcodeAt E.program s.ip = some .ldloc)
    (hints : E.Along s (E.sequenceLength s) E.HintsAgree) :
    ending id (E.fusedRound s) = ending id (E.plainSteps (E.sequenceLength s) s) ↔
      E.Along s (E.sequenceLength s) (¬ E.Faults ·) := by
  rcases E.loadsAlone_or_sequence s with ⟨length, alone⟩ | ⟨_, _, _, _, fuses, length⟩
  · exact ending_of_declined known length alone
  · exact ending_of_fused known fuses length hints

/-- **A round with fusion ends where the rounds without it end**, with the same error, locals,
operand stack and instruction pointer, exactly if no instruction of the sequence faults.  The
recorded type hints are those of the operands met. -/
theorem fusion_invisible_iff (E : Engine W) (st : State W) (free : st.runCtx.interruptMode = .none)
    (load : opcodeAt E.program st.inst.ip = some .ldloc)
    (hints : ∀ k < E.sequenceLength st.inst, ∀ st', E.plainRounds k st = .ok () st' →
      E.HintsAgree st'.inst) :
    ending State.inst (E.fastRound st) =
        ending State.inst (E.plainRounds (E.sequenceLength st.inst) st) ↔
      ∀ k < E.sequenceLength st.inst, ∀ st', E.plainRounds k st = .ok () st' →
        ¬ E.Faults st'.inst := by
  have transfer : ∀ P : Instance W → Prop,
      (∀ k < E.sequenceLength st.inst, ∀ st', E.plainRounds k st = .ok () st' → P st'.inst) ↔
        E.Along st.inst (E.sequenceLength st.inst) P := by
    intro P
    constructor
    · intro rounds k below s' reached
      obtain ⟨_, st', run, _, rfl, _⟩ := (plainRounds_mirrors free).ok_right reached
      exact rounds k below st' run
    · intro steps k below st' reached
      obtain ⟨_, s', run, _, rfl, _⟩ := (plainRounds_mirrors free).ok reached
      exact steps k below _ run
  rw [(fastRound_mirrors free).ending_eq, (plainRounds_mirrors free).ending_eq,
    transfer fun s => ¬ E.Faults s]
  exact fusedRound_ending_iff load ((transfer E.HintsAgree).mp hints)

end Engine

/-! ## A division -/

/-- Store 6 in local 0 and divide it by a constant. -/
def divisionEngine (divisor : Int64) : Engine Unit where
  program :=
    { constants := [.int 6, .int divisor]
      code := [OpCode.ldc.toByte, 0, 0, 0, 0, OpCode.stloc.toByte, 0,
        OpCode.ldloc.toByte, 0, OpCode.ldc.toByte, 1, 0, 0, 0, OpCode.div.toByte,
        OpCode.stloc.toByte, 0, OpCode.ret.toByte]
      localCount := 1 }
  constants := [.int 6, .int divisor]
  erase_constants := rfl
  floatOps := noFloats
  host := promptHost
  validate _ _ _ := .ok ()

theorem divisionEngine_hintsAgree (divisor : Int64) (s : Instance Unit) :
    (divisionEngine divisor).HintsAgree s := by
  intro _ _ _ _ _ _ _ _
  exact ⟨.inl rfl, .inl rfl⟩

/-- The state in front of the load. -/
def beforeDivision (divisor : Int64) : State Unit :=
  resultState ((divisionEngine divisor).plainRounds 2
    ((divisionEngine divisor).newState 8 0 () fun _ => 0))

/-- The instruction after `k` rounds does not fault. -/
def calm (E : Engine Unit) (st : State Unit) (k : Nat) : Bool :=
  match E.plainRounds k st with
  | .ok _ st' => !decide (E.Faults st'.inst)
  | .error .. => true

/-- A division by two is fused, and nobody can tell. -/
theorem division_by_two_invisible : (beforeDivision 2).runCtx.interruptMode = .none ∧
      opcodeAt (divisionEngine 2).program (beforeDivision 2).inst.ip = some .ldloc ∧
      (divisionEngine 2).sequenceLength (beforeDivision 2).inst = 4 ∧
      Engine.ending State.inst ((divisionEngine 2).fastRound (beforeDivision 2)) =
        Engine.ending State.inst ((divisionEngine 2).plainRounds 4 (beforeDivision 2)) := by
  have free : (beforeDivision 2).runCtx.interruptMode = .none := by decide +kernel
  have load : opcodeAt (divisionEngine 2).program (beforeDivision 2).inst.ip = some .ldloc := by
    decide +kernel
  have length : (divisionEngine 2).sequenceLength (beforeDivision 2).inst = 4 := by decide +kernel
  have calmly : ∀ k < 4, calm (divisionEngine 2) (beforeDivision 2) k := by decide +kernel
  refine ⟨free, load, length, ?_⟩
  have same := Engine.fusion_invisible_iff _ _ free load
    (fun _ _ _ _ => divisionEngine_hintsAgree 2 _)
  apply same.mpr
  intro k below st' reached
  have := calmly k below
  rw [calm, reached] at this
  simpa using this

/-- A division by zero is fused, too, and fails.  The fused round has then read its operands
without taking them, and its instruction pointer is behind the load. -/
theorem division_by_zero_visible :
    Vmbc.validateProgram (fun _ => none) (divisionEngine 0).program 1 = .ok () ∧
      (beforeDivision 0).runCtx.interruptMode = .none ∧
      opcodeAt (divisionEngine 0).program (beforeDivision 0).inst.ip = some .ldloc ∧
      (∀ s, (divisionEngine 0).HintsAgree s) ∧
      (divisionEngine 0).sequenceLength (beforeDivision 0).inst = 3 ∧
      Engine.ending State.inst ((divisionEngine 0).fastRound (beforeDivision 0)) ≠
        Engine.ending State.inst ((divisionEngine 0).plainRounds 3 (beforeDivision 0)) := by
  refine ⟨by decide, by decide +kernel, by decide +kernel, divisionEngine_hintsAgree 0,
    by decide +kernel, ?_⟩
  have elsewhere :
      (Engine.ending State.inst ((divisionEngine 0).fastRound (beforeDivision 0))).2.2.2 = 9 ∧
        (Engine.ending State.inst
          ((divisionEngine 0).plainRounds 3 (beforeDivision 0))).2.2.2 = 15 := by
    decide +kernel
  intro same
  rw [same, elsewhere.2] at elsewhere
  exact absurd elsewhere.1 (by decide)

end RustScript.Vm
