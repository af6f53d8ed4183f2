import Mathlib

/-!
# Instructions

The one-byte opcodes, the number of operand bytes that follow each of them, and
the number of local slots that a code string addresses.
-/

namespace RustScript

inductive OpCode where
  | nop
  | ret
  | ldc
  | add
  | sub
  | mul
  | div
  | neg
  | ceq
  | clt
  | cgt
  | br
  | brfalse
  | pop
  | dup
  | ldloc
  | stloc
  | call
  | shl
  | shr
  | mod
  | and
  | or
  | not
  | lshr
  | callValue
  | callScript
  deriving DecidableEq, Repr

namespace OpCode

def toByte : OpCode → UInt8
  | .nop => 0x00
  | .ret => 0x01
  | .ldc => 0x02
  | .add => 0x03
  | .sub => 0x04
  | .mul => 0x05
  | .div => 0x06
  | .neg => 0x07
  | .ceq => 0x08
  | .clt => 0x09
  | .cgt => 0x0A
  | .br => 0x0B
  | .brfalse => 0x0C
  | .pop => 0x0D
  | .dup => 0x0E
  | .ldloc => 0x0F
  | .stloc => 0x10
  | .call => 0x11
  | .shl => 0x12
  | .shr => 0x13
  | .mod => 0x14
  | .and => 0x15
  | .or => 0x16
  | .not => 0x17
  | .lshr => 0x18
  | .callValue => 0x19
  | .callScript => 0x1A

/-- The opcodes in the order of their bytes. -/
def all : List OpCode :=
  [.nop, .ret, .ldc, .add, .sub, .mul, .div, .neg, .ceq, .clt, .cgt, .br, .brfalse, .pop, .dup,
    .ldloc, .stloc, .call, .shl, .shr, .mod, .and, .or, .not, .lshr, .callValue, .callScript]

/-- `OpCode::try_from`: the opcode whose byte this is. -/
def tryFrom (byte : UInt8) : Option OpCode := all.find? fun op => op.toByte == byte

@[simp] theorem tryFrom_toByte (op : OpCode) : tryFrom op.toByte = some op := by
  cases op <;> decide

/-- The number of operand bytes after the opcode. -/
def operandLen : OpCode → Nat
  | .ldc | .br | .brfalse => 4
  | .ldloc | .stloc | .callValue => 1
  | .call => 3
  | .callScript => 5
  | _ => 0

end OpCode

/-- The largest local index addressed from here on, scanning instruction by
instruction and stopping at the first byte that is no complete instruction. -/
def maxLocalIndex : Nat → List UInt8 → Option UInt8 → Option UInt8
  | 0, _, acc => acc
  | _ + 1, [], acc => acc
  | fuel + 1, byte :: rest, acc =>
    match OpCode.tryFrom byte with
    | none => acc
    | some opcode =>
      if rest.length < opcode.operandLen then acc
      else
        let acc := match opcode, rest with
          | .ldloc, index :: _ | .stloc, index :: _ =>
            some (match acc with
              | some prev => max prev index
              | none => index)
          | _, _ => acc
        maxLocalIndex fuel (rest.drop opcode.operandLen) acc

/-- Every instruction has at least one byte, so the scan ends within `code.length` steps. -/
def inferLocalCountFromCode (code : List UInt8) : Nat :=
  match maxLocalIndex code.length code none with
  | some index => index.toNat + 1
  | none => 0

/-- Hard upper bound for a single interpreter frame's local slots. -/
def maxFrameLocalCount : Nat := 65536

end RustScript
