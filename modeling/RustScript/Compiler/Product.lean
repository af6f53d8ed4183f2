import RustScript.Compiler.Ir
import RustScript.Vm.Ops

/-!
# Products with a power of two

A product with an integer literal that is a power of two is compiled to a shift
of the other factor, whatever the type of that factor.  On integers the shift is
the product, also where it wraps, and on a value that is no number both fail.  A
float has a product but cannot be shifted: `product_lowering_iff`.
-/

namespace RustScript.Compiler

open Vm BitVec List

open Vm (VmError FloatOps)

/-! ## The emitted code -/

/-- The steps of the code for a product: the code of a factor, which leaves the value of the
factor, and the instructions around it. -/
inductive ProductStep where
  | factor (expr : Expr)
  | pushConst (value : Vm.Value)
  | shl
  | mul

def compileMul (lhs rhs : Expr) : List ProductStep :=
  match rhs.literalShift with
  | some shift => [.factor lhs, .pushConst (.int (Int64.ofNat shift)), .shl]
  | none =>
    match lhs.literalShift with
    | some shift => [.factor rhs, .pushConst (.int (Int64.ofNat shift)), .shl]
    | none => [.factor lhs, .factor rhs, .mul]

/-- The product without the special case. -/
def plainMul (lhs rhs : Expr) : List ProductStep := [.factor lhs, .factor rhs, .mul]

section Run

variable (F : FloatOps) (value : Expr → Vm.Value)

/-- What an instruction on two operands does to the operand stack. -/
def binary (op : Vm.BinaryOp) : List Vm.Value → Except VmError (List Vm.Value)
  | rhs :: lhs :: stack => return (← op.eval lhs rhs) :: stack
  | _ => .error .stackUnderflow

def ProductStep.run (stack : List Vm.Value) : ProductStep → Except VmError (List Vm.Value)
  | .factor expr => .ok (value expr :: stack)
  | .pushConst constant => .ok (constant :: stack)
  | .shl => binary Vm.shlOp stack
  | .mul => binary (Vm.mulOp F (.unknown, .unknown)) stack

def runProduct (code : List ProductStep) (stack : List Vm.Value) : Except VmError (List Vm.Value) :=
  code.foldlM (ProductStep.run F value) stack

end Run

/-- The same values, or an error in both. -/
def SameOutcome : Except VmError (List Vm.Value) → Except VmError (List Vm.Value) → Prop
  | .ok stack, .ok stack' => stack = stack'
  | .error _, .error _ => True
  | _, _ => False

/-! ## Shifts of integers -/

variable {shift : Nat} {factor : Int64}

theorem shift_eq_mul (small : shift < 63) (power : factor.toInt = 2 ^ shift) (value : Int64) :
    value <<< Int64.ofNat shift = value * factor := by
  have amount : ∀ shift < 63, ((Int64.ofNat shift).toBitVec.smod 64).toNat = shift := by decide
  have literal : ∀ shift < 63, BitVec.ofInt 64 (2 ^ shift) = twoPow 64 shift := by decide
  have bits : factor.toBitVec = twoPow 64 shift := by
    rw [← literal shift small, ← power]
    exact ofInt_toInt.symm
  rw [← Int64.toBitVec_inj, Int64.toBitVec_shiftLeft, Int64.toBitVec_mul, shiftLeft_eq',
    amount shift small, shiftLeft_eq_mul_twoPow, bits]

theorem shiftAmount_spec (h : shiftAmountForPowerOfTwo factor = some shift) :
    shift < 63 ∧ factor.toInt = 2 ^ shift := by
  simp only [shiftAmountForPowerOfTwo] at h
  split at h
  · cases h
  · have power := find?_some h
    exact ⟨mem_range.mp (mem_of_find?_eq_some h), beq_iff_eq.mp power⟩

/-- Every power of two among the integers has its shift. -/
theorem shiftAmount_of_power (power : factor.toInt = 2 ^ shift) :
    shiftAmountForPowerOfTwo factor = some shift := by
  have positive : ¬ factor ≤ 0 := by
    rw [Int64.le_iff_toInt_le, power]
    exact Int.not_le.mpr (Int.pow_pos (by decide))
  have small : shift < 63 := by
    refine (Nat.pow_lt_pow_iff_right (a := 2) (by decide)).mp ?_
    have bound := factor.toInt_lt
    rw [power] at bound
    exact_mod_cast bound
  cases found : shiftAmountForPowerOfTwo factor with
  | none =>
    rw [shiftAmountForPowerOfTwo, if_neg positive] at found
    have none := find?_eq_none.mp found shift (mem_range.mpr small)
    exact absurd (beq_iff_eq.mpr power) none
  | some amount =>
    have same : (2 : Int) ^ amount = 2 ^ shift := (shiftAmount_spec found).2.symm.trans power
    exact congrArg some ((Nat.pow_right_inj (a := 2) (by decide)).mp (by exact_mod_cast same))

theorem shlOp_literal (small : shift < 63) (value : Vm.Value) :
    shlOp.eval value (.int (Int64.ofNat shift)) =
      (asInt value).map fun factor => .int (factor <<< Int64.ofNat shift) := by
  have inRange : ∀ shift < 63, (0 : Int64) ≤ Int64.ofNat shift ∧ Int64.ofNat shift ≤ 63 := by decide
  simp only [Vm.BinaryOp.eval, shlOp, shiftAmount, asInt, bind, Except.bind,
    if_pos (inRange shift small)]
  cases value <;> rfl

/-- The shift of a value against its product with the literal, on either side. -/
theorem shifted_iff {F : FloatOps} (power : shiftAmountForPowerOfTwo factor = some shift)
    {value : Vm.Value} {stack : List Vm.Value} :
    (SameOutcome (binary shlOp (.int (Int64.ofNat shift) :: value :: stack))
        (binary (mulOp F (.unknown, .unknown)) (.int factor :: value :: stack)) ↔
      ∀ bits, value ≠ .float bits) ∧
    (SameOutcome (binary shlOp (.int (Int64.ofNat shift) :: value :: stack))
        (binary (mulOp F (.unknown, .unknown)) (value :: .int factor :: stack)) ↔
      ∀ bits, value ≠ .float bits) := by
  obtain ⟨small, isPower⟩ := shiftAmount_spec power
  simp only [binary, shlOp_literal small]
  cases value with
  | int value =>
    have product := shift_eq_mul small isPower value
    refine ⟨iff_of_true ?_ nofun, iff_of_true ?_ nofun⟩
    · exact congrArg (fun result => Vm.Value.int result :: stack) product
    · rw [Int64.mul_comm] at product
      exact congrArg (fun result => Vm.Value.int result :: stack) product
  | float bits => exact ⟨iff_of_false id fun h => h bits rfl, iff_of_false id fun h => h bits rfl⟩
  | _ => exact ⟨iff_of_true trivial nofun, iff_of_true trivial nofun⟩

theorem run_shifted (F : FloatOps) (value : Expr → Vm.Value) (expr : Expr) (constant : Vm.Value)
    (stack : List Vm.Value) :
    runProduct F value [.factor expr, .pushConst constant, .shl] stack =
      binary shlOp (constant :: value expr :: stack) :=
  bind_pure (binary shlOp (constant :: value expr :: stack))

theorem run_plainMul (F : FloatOps) (value : Expr → Vm.Value) (lhs rhs : Expr)
    (stack : List Vm.Value) :
    runProduct F value (plainMul lhs rhs) stack =
      binary (mulOp F (.unknown, .unknown)) (value rhs :: value lhs :: stack) :=
  bind_pure (binary (mulOp F (.unknown, .unknown)) (value rhs :: value lhs :: stack))

/-- **The lowering of a product is the product** exactly when the other factor is no float. -/
theorem product_lowering_iff (F : FloatOps) (value : Expr → Vm.Value)
    (literals : ∀ n, value (.int n) = .int n) (expr : Expr) (factor : Int64) (shift : Nat)
    (power : factor.toInt = 2 ^ shift) (stack : List Vm.Value) :
    (SameOutcome (runProduct F value (compileMul expr (.int factor)) stack)
        (runProduct F value (plainMul expr (.int factor)) stack) ∧
      SameOutcome (runProduct F value (compileMul (.int factor) expr) stack)
        (runProduct F value (plainMul (.int factor) expr) stack)) ↔
      ∀ bits, value expr ≠ .float bits := by
  replace power := shiftAmount_of_power power
  have isLiteral : (Expr.int factor).literalShift = some shift := power
  have atRight : compileMul expr (.int factor) =
      [.factor expr, .pushConst (.int (Int64.ofNat shift)), .shl] := by
    simp [compileMul, isLiteral]
  obtain ⟨afterExpr, beforeExpr⟩ := shifted_iff power
  rw [atRight, run_shifted, run_plainMul, run_plainMul, literals, afterExpr]
  refine and_iff_left_of_imp fun noFloat => ?_
  cases other : expr.literalShift with
  | none =>
    simp only [compileMul, other, isLiteral, run_shifted]
    exact beforeExpr.mpr noFloat
  | some amount =>
    -- Both factors are literals: the shift is by the right one.
    match expr, other with
    | .literal (.int n), isPower =>
      rw [compileMul, isPower, run_shifted, literals, literals]
      exact (shifted_iff isPower).1.mpr nofun

section Samples

/-- Every product of floats is zero. -/
def zeroFloats : FloatOps :=
  ⟨fun _ => 0, fun _ _ => 0, fun _ _ => 0, fun _ _ => 0, fun _ _ => 0, fun _ _ => 0, fun _ => 0,
    fun _ _ => false⟩

/-- Literals stand for themselves and everything else has one value. -/
def literalOr (other : Vm.Value) : Expr → Vm.Value
  | .literal (.int n) => .int n
  | _ => other

theorem product_of_integer : (∀ bits, literalOr (.int 5) (.var 0) ≠ .float bits) ∧ SameOutcome
        (runProduct zeroFloats (literalOr (.int 5)) (compileMul (.var 0) (.int 8)) [])
        (runProduct zeroFloats (literalOr (.int 5)) (plainMul (.var 0) (.int 8)) []) :=
  ⟨nofun, ((product_lowering_iff _ (literalOr (.int 5)) (fun _ => rfl) (.var 0)
    8 3 (by decide) []).mpr nofun).1⟩

def oneAndAHalf : Vm.Value := .float 0x3FF8000000000000

/-- One and a half times eight is a float, but its shift is an error. -/
theorem float_product_fails : ¬ SameOutcome
      (runProduct zeroFloats (literalOr oneAndAHalf) (compileMul (.var 0) (.int 8)) [])
      (runProduct zeroFloats (literalOr oneAndAHalf) (plainMul (.var 0) (.int 8)) []) :=
  id

end Samples

end RustScript.Compiler
