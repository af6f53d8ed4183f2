import RustScript.Vm.Ops

/-!
# Equality in the two virtual machines

A program builds values with constants, `array_new`, `map_new`, `array_push` and
`set`; each result stays available to later operations.  The standard VM keeps a
map as a hash map whose array and map keys are compared by address, and storing
null removes the key.  The embedded VM keeps a map as the list of its entries in
the order of insertion, compares keys like all other values, and stores null.

The embedded equality is equality of the values as they are spelled
(`valueEq_iff`).  The standard one identifies the two zeroes, never a NaN, and
compares maps as sets of entries.  As long as `set` is given constant keys and no
null, the two agree on all values a program builds exactly if it uses no NaN, not
both zeroes, and inserts the entries of equal maps in one order
(`equality_agrees_iff`).
-/

namespace RustScript.Nostd

open List Option Vm

open Vm (VmError isNan isZero floatEq)

/-! ## The embedded VM -/

mutual
/-- `Value::eq`: floats by their bits, maps entry by entry in order.  A callable and its
environment are made together, so the environment stands for the object. -/
def valueEq : Value → Value → Bool
  | .null, .null => true
  | .int lhs, .int rhs => lhs == rhs
  | .float lhs, .float rhs => lhs == rhs
  | .bool lhs, .bool rhs => lhs == rhs
  | .string lhs, .string rhs => lhs == rhs
  | .bytes lhs, .bytes rhs => lhs == rhs
  | .array lhs, .array rhs => valuesEq lhs rhs
  | .map lhs, .map rhs => entriesEq lhs rhs
  | .callable lhs, .callable rhs => lhs == rhs
  | _, _ => false

def valuesEq : List Value → List Value → Bool
  | [], [] => true
  | v :: vs, w :: ws => valueEq v w && valuesEq vs ws
  | _, _ => false

def entriesEq : List (Value × Value) → List (Value × Value) → Bool
  | [], [] => true
  | (k, v) :: es, (k', v') :: es' => valueEq k k' && valueEq v v' && entriesEq es es'
  | _, _ => false
end

mutual
/-- The embedded equality is equality of the spelled values. -/
theorem valueEq_iff : ∀ v w : Value, valueEq v w = true ↔ v = w
  | .array vs, w => by
      cases w with
      | array ws => simpa [valueEq] using valuesEq_iff vs ws
      | _ => simp [valueEq]
  | .map es, w => by
      cases w with
      | map es' => simpa [valueEq] using entriesEq_iff es es'
      | _ => simp [valueEq]
  | .null, w | .int _, w | .float _, w | .bool _, w | .string _, w | .bytes _, w
  | .callable _, w => by cases w <;> simp [valueEq]

theorem valuesEq_iff : ∀ vs ws : List Value, valuesEq vs ws = true ↔ vs = ws
  | [], ws => by cases ws <;> simp [valuesEq]
  | v :: vs, ws => by
      cases ws with
      | nil => simp [valuesEq]
      | cons w ws => simp [valuesEq, valueEq_iff v w, valuesEq_iff vs ws]

theorem entriesEq_iff : ∀ es es' : List (Value × Value), entriesEq es es' = true ↔ es = es'
  | [], es' => by cases es' <;> simp [entriesEq]
  | (k, v) :: es, es' => by
      cases es' with
      | nil => simp [entriesEq]
      | cons e es' =>
        obtain ⟨k', v'⟩ := e
        simp [entriesEq, valueEq_iff k k', valueEq_iff v v', entriesEq_iff es es']
end

/-- The builtin `array_push`. -/
def arrayPush (items value : Value) : Except VmError Value :=
  match items with
  | .array values => .ok (.array (values ++ [value]))
  | _ => .error (.typeMismatch "array")

/-- The builtin `set`: the first entry with an equal key takes the value, a new key goes
to the end. -/
def set (container key value : Value) : Except VmError Value :=
  match container with
  | .map entries => .ok (.map (AssocMap.insert valueEq entries key value))
  | _ => .error (.typeMismatch "map")

/-! ## Building values -/

/-- The constants that values are built from. -/
inductive Scalar where
  | null
  | int (value : Int64)
  | float (bits : UInt64)
  | bool (value : Bool)
  | string (value : String)
  | bytes (value : List UInt8)

def Scalar.standard : Scalar → Vm.Value
  | .null => .null
  | .int value => .int value
  | .float bits => .float bits
  | .bool value => .bool value
  | .string value => .string value
  | .bytes value => .bytes value

def Scalar.embedded : Scalar → Value
  | .null => .null
  | .int value => .int value
  | .float bits => .float bits
  | .bool value => .bool value
  | .string value => .string value
  | .bytes value => .bytes value

/-- An operation on the values built so far, which are referred to by their number. -/
inductive BuildOp where
  | scalar (value : Scalar)
  | arrayNew
  | mapNew
  | arrayPush (items value : Nat)
  | set (map key value : Nat)

/-- The standard VM: the new value is an object of its own. -/
def standardStep (built : List Vm.Value) : BuildOp → Option Vm.Value
  | .scalar value => some value.standard
  | .arrayNew => some (.array built.length [])
  | .mapNew => some (.map built.length [])
  | .arrayPush items value => do
      (Vm.arrayPush built.length (← built[items]?) (← built[value]?)).toOption
  | .set map key value => do
      (Vm.setOwned built.length (← built[map]?) (← built[key]?) (← built[value]?)).toOption

def embeddedStep (built : List Value) : BuildOp → Option Value
  | .scalar value => some value.embedded
  | .arrayNew => some (.array [])
  | .mapNew => some (.map [])
  | .arrayPush items value => do (arrayPush (← built[items]?) (← built[value]?)).toOption
  | .set map key value => do (set (← built[map]?) (← built[key]?) (← built[value]?)).toOption

/-- The values built by a list of operations, when none of them fails. -/
def buildFrom {V : Type} (step : List V → BuildOp → Option V) :
    List V → List BuildOp → Option (List V)
  | built, [] => some built
  | built, op :: ops => do buildFrom step (built ++ [← step built op]) ops

def build {V : Type} (step : List V → BuildOp → Option V) (ops : List BuildOp) : Option (List V) :=
  buildFrom step [] ops

/-- What operation number `k` is given and what it makes. -/
theorem buildFrom_spec {V : Type} {step : List V → BuildOp → Option V} {built all : List V}
    {ops : List BuildOp} (h : buildFrom step built ops = some all) :
    all.length = built.length + ops.length ∧ built <+: all ∧ ∀ {k op}, ops[k]? = some op →
      ∃ v, all[built.length + k]? = some v ∧ step (all.take (built.length + k)) op = some v := by
  induction ops generalizing built with
  | nil =>
    cases h
    exact ⟨rfl, ⟨[], append_nil _⟩, by simp⟩
  | cons op ops ih =>
    simp only [buildFrom, bind_eq_bind, bind_eq_some_iff] at h
    obtain ⟨v, made, h⟩ := h
    obtain ⟨length, ⟨rest, rfl⟩, later⟩ := ih h
    refine ⟨by simp at length ⊢; omega, ⟨v :: rest, by simp⟩, ?_⟩
    intro k other found
    cases k with
    | zero =>
      cases found
      exact ⟨v, by simp, by simpa using made⟩
    | succ k =>
      have next := later found
      rwa [length_append, length_singleton, Nat.add_assoc, Nat.add_comm 1 k] at next

/-! ## What is built in both machines -/

/-- The values of one list of operations in the two machines. -/
structure Built (ops : List BuildOp) (S : List Vm.Value) (N : List Value) : Prop where
  lengths : S.length = ops.length ∧ N.length = ops.length
  standard {k : Nat} {op : BuildOp} : ops[k]? = some op →
    ∃ v, S[k]? = some v ∧ standardStep (S.take k) op = some v
  embedded {k : Nat} {op : BuildOp} : ops[k]? = some op →
    ∃ n, N[k]? = some n ∧ embeddedStep (N.take k) op = some n

/-- The two machines built these two values in one operation before number `bound`. -/
def TwinBelow (S : List Vm.Value) (N : List Value) (bound : Nat) (v : Vm.Value) (n : Value) :
    Prop :=
  ∃ k < bound, S[k]? = some v ∧ N[k]? = some n

/-- The two machines built these two values in one operation. -/
def Twin (S : List Vm.Value) (N : List Value) (v : Vm.Value) (n : Value) : Prop :=
  ∃ k : Nat, S[k]? = some v ∧ N[k]? = some n

/-- An entry of a map in the two machines: a constant key, and a value built before. -/
def PairTwin (S : List Vm.Value) (N : List Value) (bound : Nat) (e : Vm.Value × Vm.Value)
    (p : Value × Value) : Prop :=
  (∃ s : Scalar, s.standard ∈ S ∧ e.1 = s.standard ∧ p.1 = s.embedded) ∧
    TwinBelow S N bound e.2 p.2

/-- What operation number `k` can have built. -/
inductive Shape (S : List Vm.Value) (N : List Value) (k : Nat) : Vm.Value → Value → Prop where
  | scalar (value : Scalar) : Shape S N k value.standard value.embedded
  | array {vs ns} : Forall₂ (TwinBelow S N k) vs ns → Shape S N k (.array k vs) (.array ns)
  | map {es ns} : Forall₂ (PairTwin S N k) es ns → AssocMap.KeysDistinct valueEq ns →
      Shape S N k (.map k es) (.map ns)

/-- `set` is given constants as keys, and no null to store. -/
def PlainSets (ops : List BuildOp) : Prop :=
  ∀ map key value, .set map key value ∈ ops →
    (∃ s, ops[key]? = some (.scalar s)) ∧ ops[value]? ≠ some (.scalar .null)

/-- No NaN is used, and not both zeroes. -/
structure PlainFloats (ops : List BuildOp) : Prop where
  noNan : ∀ bits, .scalar (.float bits) ∈ ops → isNan bits = false
  oneZero : ¬ (.scalar (.float 0) ∈ ops ∧ .scalar (.float 0x8000000000000000) ∈ ops)

/-- Maps with the same entries got them in the same order. -/
def InOneOrder (N : List Value) : Prop :=
  ∀ ns ns', Value.map ns ∈ N → Value.map ns' ∈ N → ns ~ ns' → ns = ns'

variable {bound k : Nat} {v w : Vm.Value} {n : Value} {es es' : List (Vm.Value × Vm.Value)}
  {S : List Vm.Value} {N : List Value} {ops : List BuildOp} {s t : Scalar} {bits : UInt64}

theorem build_built (standard : build standardStep ops = some S)
    (embedded : build embeddedStep ops = some N) : Built ops S N := by
  obtain ⟨lengthS, -, specS⟩ := buildFrom_spec standard
  obtain ⟨lengthN, -, specN⟩ := buildFrom_spec embedded
  simp only [length_nil, Nat.zero_add] at lengthS lengthN specS specN
  exact ⟨⟨lengthS, lengthN⟩, specS, specN⟩

theorem TwinBelow.mono {bound' : Nat} (le : bound ≤ bound') (twin : TwinBelow S N bound v n) :
    TwinBelow S N bound' v n := by
  obtain ⟨k, lt, found⟩ := twin
  exact ⟨k, Nat.lt_of_lt_of_le lt le, found⟩

theorem TwinBelow.twin (twin : TwinBelow S N bound v n) : Twin S N v n := by
  obtain ⟨k, -, found⟩ := twin
  exact ⟨k, found⟩

theorem Scalar.standard_injective (same : s.standard = t.standard) : s = t := by
  cases s <;> cases t <;> simp_all [Scalar.standard]

/-- An operation makes a constant, or an object of its own. -/
theorem standardStep_cases {built : List Vm.Value} {op : BuildOp}
    (h : standardStep built op = some v) : (∃ s, op = .scalar s ∧ v = s.standard) ∨
      (∃ vs, v = .array built.length vs) ∨ ∃ es, v = .map built.length es := by
  cases op with
  | scalar s =>
    cases h
    exact .inl ⟨s, rfl, rfl⟩
  | arrayNew =>
    cases h
    exact .inr (.inl ⟨_, rfl⟩)
  | mapNew =>
    cases h
    exact .inr (.inr ⟨_, rfl⟩)
  | arrayPush items value =>
    simp only [standardStep, bind_eq_bind, bind_eq_some_iff] at h
    obtain ⟨a, -, b, -, h⟩ := h
    cases a <;> cases h
    exact .inr (.inl ⟨_, rfl⟩)
  | set map key value =>
    simp only [standardStep, bind_eq_bind, bind_eq_some_iff] at h
    obtain ⟨a, -, b, -, c, -, h⟩ := h
    cases a with
    | array o vs =>
      cases b with
      | int index =>
        simp only [setOwned] at h
        cases stored : setArray vs index c <;> rw [stored] at h <;> cases h
        exact .inr (.inl ⟨_, rfl⟩)
      | _ => cases h
    | map o es =>
      simp only [setOwned] at h
      split at h <;> cases h
      exact .inr (.inr ⟨_, rfl⟩)
    | _ => cases h

/-- A float that is not a NaN equals itself and, if it is a zero, the other zero. -/
theorem floatEq_iff {x y : UInt64} (finite : isNan x = false)
    (zeroes : x ≠ y → ¬ (isZero x = true ∧ isZero y = true)) : floatEq x y = true ↔ x = y := by
  by_cases same : x = y
  · subst same
    simp [floatEq, finite]
  · have apart := zeroes same
    simp only [floatEq, finite, same, beq_eq_false_iff_ne.mpr same]
    simpa using apart

/-- Two floats are one key if they are the same or both zeroes. -/
theorem canonicalFloatKeyBits_iff {x y : UInt64}
    (zeroes : x ≠ y → ¬ (isZero x = true ∧ isZero y = true)) :
    canonicalFloatKeyBits x = canonicalFloatKeyBits y ↔ x = y := by
  refine ⟨fun same => ?_, fun same => by rw [same]⟩
  by_contra differ
  have apart := zeroes differ
  simp only [isZero, Bool.or_eq_true, beq_iff_eq] at apart
  unfold canonicalFloatKeyBits at same
  split at same <;> split at same
  · next zeroX zeroY => exact apart ⟨zeroX, zeroY⟩
  · next notZero => exact notZero (.inl same.symm)
  · next notZero _ => exact notZero (.inl same)
  · exact differ same

section Built

variable (built : Built ops S N)

include built

theorem Built.op_at (found : S[k]? = some v) :
    ∃ op, ops[k]? = some op ∧ standardStep (S.take k) op = some v := by
  have inside : k < ops.length := built.lengths.1 ▸ (List.getElem?_eq_some_iff.mp found).1
  obtain ⟨other, found', made⟩ := built.standard (getElem?_eq_getElem inside)
  cases found.symm.trans found'
  exact ⟨_, getElem?_eq_getElem inside, made⟩

theorem Built.scalar_at (op : ops[k]? = some (.scalar s)) :
    S[k]? = some s.standard ∧ N[k]? = some s.embedded := by
  obtain ⟨_, foundS, ⟨⟩⟩ := built.standard op
  obtain ⟨_, foundN, ⟨⟩⟩ := built.embedded op
  exact ⟨foundS, foundN⟩

/-- A constant in the standard machine is one of the program. -/
theorem Built.scalar_op (found : S[k]? = some s.standard) : ops[k]? = some (.scalar s) := by
  obtain ⟨op, at_k, made⟩ := built.op_at found
  rcases standardStep_cases made with ⟨t, rfl, same⟩ | ⟨_, same⟩ | ⟨_, same⟩
  · rw [at_k, Scalar.standard_injective same]
  · cases s <;> cases same
  · cases s <;> cases same

theorem Built.used (mem : s.standard ∈ S) : .scalar s ∈ ops := by
  obtain ⟨k, found⟩ := getElem?_of_mem mem
  exact mem_of_getElem? (built.scalar_op found)

theorem Built.zeroes (floats : PlainFloats ops) {x y : UInt64}
    (memX : (Scalar.float x).standard ∈ S) (memY : (Scalar.float y).standard ∈ S)
    (differ : x ≠ y) : ¬ (isZero x = true ∧ isZero y = true) := by
  rintro ⟨zeroX, zeroY⟩
  simp only [isZero, Bool.or_eq_true, beq_iff_eq] at zeroX zeroY
  rcases zeroX with rfl | rfl <;> rcases zeroY with rfl | rfl
  · exact differ rfl
  · exact floats.oneZero ⟨built.used memX, built.used memY⟩
  · exact floats.oneZero ⟨built.used memY, built.used memX⟩
  · exact differ rfl

/-- Constants are equal in both machines or in none. -/
theorem Built.scalar_iff (floats : PlainFloats ops) (memS : s.standard ∈ S)
    (memT : t.standard ∈ S) :
    Vm.valueEq s.standard t.standard = true ↔ s.embedded = t.embedded := by
  cases s with
  | float x =>
    cases t with
    | float y =>
      have same := floatEq_iff (floats.noNan x (built.used memS))
        (built.zeroes floats memS memT)
      simpa [Vm.valueEq, Scalar.standard, Scalar.embedded] using same
    | _ => simp [Vm.valueEq, Scalar.standard, Scalar.embedded]
  | _ => cases t <;> simp [Vm.valueEq, Scalar.standard, Scalar.embedded]

/-- Constants are one key in both machines or in none. -/
theorem Built.key_iff (floats : PlainFloats ops) (memS : s.standard ∈ S) (memT : t.standard ∈ S) :
    Vm.mapKeyEq s.standard t.standard = true ↔ s.embedded = t.embedded := by
  cases s with
  | float x =>
    cases t with
    | float y =>
      have same := canonicalFloatKeyBits_iff (built.zeroes floats memS memT)
      simpa [Vm.mapKeyEq, Scalar.standard, Scalar.embedded] using same
    | _ => simp [Vm.mapKeyEq, Scalar.standard, Scalar.embedded]
  | _ => cases t <;> simp [Vm.mapKeyEq, Scalar.standard, Scalar.embedded]

end Built

theorem getElem?_of_take {α : Type} {l : List α} {i : Nat} {a : α}
    (found : (l.take k)[i]? = some a) : i < k ∧ l[i]? = some a := by
  rw [getElem?_take] at found
  split at found
  · next lt => exact ⟨lt, found⟩
  · cases found

/-- Storing a value under a constant key in both machines. -/
theorem Built.set_pairs (built : Built ops S N) (floats : PlainFloats ops)
    {ns : List (Value × Value)} (pairs : Forall₂ (PairTwin S N bound) es ns) (mem : s.standard ∈ S)
    (twin : TwinBelow S N bound v n) (stored : v ≠ .null) :
    Forall₂ (PairTwin S N bound) (setMap es s.standard v)
      (AssocMap.insert valueEq ns s.embedded n) := by
  have inserts : setMap es s.standard v = AssocMap.insert Vm.mapKeyEq es s.standard v := by
    cases v with
    | null => exact absurd rfl stored
    | _ => rfl
  rw [inserts]
  refine AssocMap.insert_forall₂ pairs ?_ ?_ ⟨⟨s, mem, rfl, rfl⟩, twin⟩
  · rintro e p ⟨⟨t, memT, keyE, keyP⟩, -⟩
    rw [keyE, keyP, Bool.eq_iff_iff, built.key_iff floats memT mem, valueEq_iff]
  · rintro e p ⟨key, -⟩
    exact ⟨key, twin⟩

/-- **What the operations build.**  The induction is on the number of the operation, whose
operands were built before. -/
theorem Built.shape (built : Built ops S N) (sets : PlainSets ops) (floats : PlainFloats ops) :
    ∀ {k : Nat} {v n}, S[k]? = some v → N[k]? = some n → Shape S N k v n := by
  intro k
  induction k using Nat.strongRecOn with
  | ind k ih =>
    intro v n foundS foundN
    have id : (S.take k).length = k := by
      rw [length_take]
      exact Nat.min_eq_left (Nat.le_of_lt (List.getElem?_eq_some_iff.mp foundS).1)
    obtain ⟨op, at_k, standard⟩ := built.op_at foundS
    obtain ⟨_, foundN', embedded⟩ := built.embedded at_k
    cases foundN.symm.trans foundN'
    cases op with
    | scalar value =>
      cases standard
      cases embedded
      exact .scalar value
    | arrayNew =>
      cases standard
      cases embedded
      rw [id]
      exact .array .nil
    | mapNew =>
      cases standard
      cases embedded
      rw [id]
      exact .map .nil .nil
    | arrayPush items value =>
      simp only [standardStep, embeddedStep, bind_eq_bind, bind_eq_some_iff] at standard embedded
      obtain ⟨a, foundA, b, foundB, standard⟩ := standard
      obtain ⟨a', foundA', b', foundB', embedded⟩ := embedded
      obtain ⟨ltA, foundA⟩ := getElem?_of_take foundA
      obtain ⟨ltB, foundB⟩ := getElem?_of_take foundB
      cases ih items ltA foundA (getElem?_of_take foundA').2 with
      | scalar value => cases value <;> cases standard
      | map _ _ => cases standard
      | array twins =>
        cases standard
        cases embedded
        rw [id]
        refine .array (rel_append (twins.imp fun _ _ twin => twin.mono (Nat.le_of_lt ltA)) ?_)
        exact .cons ⟨value, ltB, foundB, (getElem?_of_take foundB').2⟩ .nil
    | set map key value =>
      obtain ⟨⟨s, constant⟩, notNull⟩ := sets map key value (mem_of_getElem? at_k)
      obtain ⟨keyS, keyN⟩ := built.scalar_at constant
      simp only [standardStep, embeddedStep, bind_eq_bind, bind_eq_some_iff] at standard embedded
      obtain ⟨a, foundA, b, foundB, c, foundC, standard⟩ := standard
      obtain ⟨a', foundA', b', foundB', c', foundC', embedded⟩ := embedded
      obtain ⟨ltA, foundA⟩ := getElem?_of_take foundA
      obtain ⟨ltC, foundC⟩ := getElem?_of_take foundC
      cases keyS.symm.trans (getElem?_of_take foundB).2
      cases keyN.symm.trans (getElem?_of_take foundB').2
      have stored : c ≠ .null := by
        rintro rfl
        exact notNull (built.scalar_op (s := .null) foundC)
      cases ih map ltA foundA (getElem?_of_take foundA').2 with
      | scalar value => cases value <;> cases embedded
      | array _ => cases embedded
      | map pairs distinct =>
        cases embedded
        simp only [setOwned] at standard
        split at standard
        · cases standard
        · cases standard
          rw [id]
          have pairs' := pairs.imp fun e p pair => (⟨pair.1, pair.2.mono (Nat.le_of_lt ltA)⟩ :
            PairTwin S N k e p)
          exact .map (built.set_pairs floats pairs' (mem_of_getElem? keyS)
            ⟨value, ltC, foundC, (getElem?_of_take foundC').2⟩ stored)
            (AssocMap.insert_keysDistinct distinct)

/-! ## The standard equality, one level at a time -/

theorem vm_valuesEq_iff (vs ws : List Vm.Value) :
    Vm.valuesEq vs ws = true ↔ Forall₂ (fun v w => Vm.valueEq v w = true) vs ws := by
  induction vs generalizing ws with
  | nil => cases ws <;> simp [Vm.valuesEq]
  | cons v vs ih => cases ws <;> simp [Vm.valuesEq, ih]

theorem vm_entriesEq_iff (es es' : List (Vm.Value × Vm.Value)) : Vm.entriesEq es es' = true ↔
      ∀ e ∈ es, ∃ w, Vm.VmMap.get es' e.1 = some w ∧ Vm.valueEq e.2 w = true := by
  induction es with
  | nil => simp [Vm.entriesEq]
  | cons e es ih =>
    obtain ⟨key, value⟩ := e
    simp only [Vm.entriesEq, Bool.and_eq_true, ih, forall_mem_cons]
    cases Vm.VmMap.get es' key <;> simp

/-- Two maps: the same object, or the same entries. -/
theorem vm_valueEq_map {o o' : Nat} : Vm.valueEq (.map o es) (.map o' es') = true ↔
      o = o' ∨ (es.length = es'.length ∧ Vm.entriesEq es es' = true) := by
  simp [Vm.valueEq]

/-! ## When the two equalities agree -/

/-- The two equalities give one answer on every two values that were built. -/
def EqualitiesAgree (S : List Vm.Value) (N : List Value) : Prop :=
  ∀ {i j : Nat} {v w n m}, S[i]? = some v → S[j]? = some w → N[i]? = some n → N[j]? = some m →
    (Vm.valueEq v w = true ↔ n = m)

variable {ns ns' : List (Value × Value)} {bound' : Nat}

/-- Looking a constant up in a map of both machines. -/
theorem Built.get_pairs (built : Built ops S N) (floats : PlainFloats ops)
    (pairs : Forall₂ (PairTwin S N bound) es ns) (mem : s.standard ∈ S) :
    (Vm.VmMap.get es s.standard = none ∧ ∀ p ∈ ns, p.1 ≠ s.embedded) ∨
      ∃ w, ∃ p ∈ ns, Vm.VmMap.get es s.standard = some w ∧ p.1 = s.embedded ∧
        TwinBelow S N bound w p.2 := by
  induction pairs with
  | nil => exact .inl ⟨rfl, by simp⟩
  | @cons e p es ns pair _ ih =>
    obtain ⟨⟨t, memT, keyE, keyP⟩, twin⟩ := pair
    have key := built.key_iff floats memT mem
    by_cases same : t.embedded = s.embedded
    · refine .inr ⟨e.2, p, mem_cons_self, ?_, keyP.trans same, twin⟩
      simp [Vm.VmMap.get, keyE, key.mpr same]
    · have skips : Vm.VmMap.get (e :: es) s.standard = Vm.VmMap.get es s.standard := by
        simp [Vm.VmMap.get, keyE, Bool.eq_false_iff.mpr (mt key.mp same)]
      rw [skips]
      rcases ih with ⟨missing, fresh⟩ | ⟨w, q, inside, found⟩
      · refine .inl ⟨missing, forall_mem_cons.mpr ⟨?_, fresh⟩⟩
        rw [keyP]
        exact same
      · exact .inr ⟨w, q, mem_cons_of_mem _ inside, found⟩

/-- Entries with one key are one entry. -/
theorem eq_of_keysDistinct (distinct : AssocMap.KeysDistinct valueEq ns) {p q : Value × Value}
    (memP : p ∈ ns) (memQ : q ∈ ns) (same : p.1 = q.1) : p = q := by
  have symmetric : Std.Symm fun a b : Value × Value => valueEq a.1 b.1 = false := by
    refine ⟨fun a b apart => ?_⟩
    rw [← Bool.not_eq_true, valueEq_iff] at apart ⊢
    exact fun same => apart same.symm
  by_contra differ
  have apart := distinct.forall memP memQ differ
  rw [← Bool.not_eq_true, valueEq_iff] at apart
  exact apart same

/-- An entry of one map is found in the other. -/
theorem Built.entry_iff (built : Built ops S N) (floats : PlainFloats ops)
    (pairs' : Forall₂ (PairTwin S N bound') es' ns')
    (distinct : AssocMap.KeysDistinct valueEq ns')
    (agree : ∀ {v w n m}, TwinBelow S N bound v n → Twin S N w m →
      (Vm.valueEq v w = true ↔ n = m)) {e : Vm.Value × Vm.Value} {p : Value × Value}
    (pair : PairTwin S N bound e p) :
    (∃ w, Vm.VmMap.get es' e.1 = some w ∧ Vm.valueEq e.2 w = true) ↔ p ∈ ns' := by
  obtain ⟨⟨s, mem, keyE, keyP⟩, twin⟩ := pair
  rw [keyE]
  rcases built.get_pairs floats pairs' mem with ⟨missing, fresh⟩ | ⟨w, q, inside, found, key, twin'⟩
  · rw [missing]
    exact iff_of_false (by simp) fun inside => fresh p inside keyP
  · simp only [found, some.injEq, exists_eq_left', agree twin twin'.twin]
    constructor
    · intro same
      rwa [show p = q from Prod.ext (keyP.trans key.symm) same]
    · intro inside'
      rw [eq_of_keysDistinct distinct inside' inside (keyP.trans key.symm)]

theorem forall_iff_of_forall₂ {α β : Type} {R : α → β → Prop} {P : α → Prop} {Q : β → Prop}
    {xs : List α} {ys : List β} (paired : Forall₂ R xs ys) (same : ∀ x y, R x y → (P x ↔ Q y)) :
    (∀ x ∈ xs, P x) ↔ ∀ y ∈ ys, Q y := by
  induction paired with
  | nil => simp
  | cons pair _ ih => rw [forall_mem_cons, forall_mem_cons, same _ _ pair, ih]

/-- When the equalities agree on the values of a map, the standard comparison says that the
embedded machine lists the same entries, in whatever order. -/
theorem Built.entries_agree (built : Built ops S N) (floats : PlainFloats ops)
    (pairs : Forall₂ (PairTwin S N bound) es ns) (pairs' : Forall₂ (PairTwin S N bound') es' ns')
    (distinct : AssocMap.KeysDistinct valueEq ns) (distinct' : AssocMap.KeysDistinct valueEq ns')
    (agree : ∀ {v w n m}, TwinBelow S N bound v n → Twin S N w m →
      (Vm.valueEq v w = true ↔ n = m)) :
    (es.length = es'.length ∧ Vm.entriesEq es es' = true) ↔ ns ~ ns' := by
  rw [vm_entriesEq_iff, forall_iff_of_forall₂ pairs fun _ _ pair =>
    built.entry_iff floats pairs' distinct' agree pair, pairs.length_eq, pairs'.length_eq]
  have nodup : ns.Nodup := distinct.imp fun {a b} apart same => by
    rw [← Bool.not_eq_true, valueEq_iff] at apart
    exact apart (congrArg Prod.fst same)
  constructor
  · rintro ⟨length, inside⟩
    exact (subperm_of_subset nodup inside).perm_of_length_le (Nat.le_of_eq length.symm)
  · exact fun same => ⟨same.length_eq, fun p mem => same.mem_iff.mp mem⟩

/-- When the equalities agree on the elements of an array, they agree on the array. -/
theorem arrays_agree {vs ws : List Vm.Value} {ns ms : List Value}
    (agree : ∀ {v w n m}, TwinBelow S N bound v n → Twin S N w m → (Vm.valueEq v w = true ↔ n = m))
    (twins : Forall₂ (TwinBelow S N bound) vs ns)
    (twins' : Forall₂ (TwinBelow S N bound') ws ms) :
    Forall₂ (fun v w => Vm.valueEq v w = true) vs ws ↔ ns = ms := by
  induction twins generalizing ws ms with
  | nil => cases twins' <;> simp
  | cons twin _ ih =>
    cases twins' with
    | nil => simp
    | cons twin' twins' => rw [forall₂_cons, cons.injEq, ih twins', agree twin twin'.twin]

/-- The standard equality is equality of the embedded values; the induction is on the number
of the first value, whose parts were built before. -/
theorem Built.agree (built : Built ops S N) (sets : PlainSets ops) (floats : PlainFloats ops)
    (ordered : InOneOrder N) : EqualitiesAgree S N := by
  intro i
  induction i using Nat.strongRecOn with
  | ind i ih =>
    intro j v w n m standardI standardJ embeddedI embeddedJ
    have parts : ∀ {v w n m}, TwinBelow S N i v n → Twin S N w m →
        (Vm.valueEq v w = true ↔ n = m) := by
      rintro v w n m ⟨k, lt, foundV, foundN⟩ ⟨k', foundW, foundM⟩
      exact ih k lt foundV foundW foundN foundM
    have shapeW := built.shape sets floats standardJ embeddedJ
    cases built.shape sets floats standardI embeddedI with
    | scalar s =>
      cases shapeW with
      | scalar t =>
        exact built.scalar_iff floats (mem_of_getElem? standardI) (mem_of_getElem? standardJ)
      | _ => cases s <;> simp [Vm.valueEq, Scalar.standard, Scalar.embedded]
    | @array vs ns twins =>
      cases shapeW with
      | scalar t => cases t <;> simp [Vm.valueEq, Scalar.standard, Scalar.embedded]
      | map _ _ => simp [Vm.valueEq]
      | @array ws ms twins' =>
        rw [Vm.valueEq, vm_valuesEq_iff, Value.array.injEq]
        exact arrays_agree parts twins twins'
    | @map es ns pairs distinct =>
      cases shapeW with
      | scalar t => cases t <;> simp [Vm.valueEq, Scalar.standard, Scalar.embedded]
      | array _ => simp [Vm.valueEq]
      | @map es' ns' pairs' distinct' =>
        rw [vm_valueEq_map, built.entries_agree floats pairs pairs' distinct distinct' parts,
          Value.map.injEq]
        constructor
        · rintro (rfl | same)
          · cases embeddedI.symm.trans embeddedJ
            rfl
          · exact ordered ns ns' (mem_of_getElem? embeddedI) (mem_of_getElem? embeddedJ) same
        · rintro rfl
          exact .inr (.refl ns)

theorem EqualitiesAgree.floats (built : Built ops S N) (agree : EqualitiesAgree S N) :
    PlainFloats ops where
  noNan := by
    intro bits mem
    obtain ⟨k, op⟩ := getElem?_of_mem mem
    obtain ⟨standard, embedded⟩ := built.scalar_at op
    have reflexive := (agree standard standard embedded embedded).mpr rfl
    simp only [Scalar.standard, Vm.valueEq, floatEq, Bool.and_eq_true, Bool.not_eq_true']
      at reflexive
    exact reflexive.1
  oneZero := by
    rintro ⟨mem, mem'⟩
    obtain ⟨k, op⟩ := getElem?_of_mem mem
    obtain ⟨k', op'⟩ := getElem?_of_mem mem'
    obtain ⟨standard, embedded⟩ := built.scalar_at op
    obtain ⟨standard', embedded'⟩ := built.scalar_at op'
    have same := (agree standard standard' embedded embedded').mp (by decide)
    simp [Scalar.embedded] at same

theorem Shape.of_map (shape : Shape S N k v (.map ns)) :
    ∃ es, v = .map k es ∧ Forall₂ (PairTwin S N k) es ns ∧ AssocMap.KeysDistinct valueEq ns := by
  generalize known : Value.map ns = n at shape
  cases shape with
  | scalar s => cases s <;> cases known
  | array _ => cases known
  | map pairs distinct =>
    cases known
    exact ⟨_, rfl, pairs, distinct⟩

theorem EqualitiesAgree.ordered (built : Built ops S N) (sets : PlainSets ops)
    (agree : EqualitiesAgree S N) : InOneOrder N := by
  intro ns ns' mem mem' same
  have floats := agree.floats built
  obtain ⟨i, embeddedI⟩ := getElem?_of_mem mem
  obtain ⟨j, embeddedJ⟩ := getElem?_of_mem mem'
  have standardAt : ∀ {k : Nat} {n : Value}, N[k]? = some n → ∃ v, S[k]? = some v := by
    intro k n found
    have inside : k < S.length := by
      rw [built.lengths.1, ← built.lengths.2]
      exact (List.getElem?_eq_some_iff.mp found).1
    exact ⟨_, getElem?_eq_getElem inside⟩
  obtain ⟨v, standardI⟩ := standardAt embeddedI
  obtain ⟨w, standardJ⟩ := standardAt embeddedJ
  obtain ⟨es, rfl, pairs, distinct⟩ := (built.shape sets floats standardI embeddedI).of_map
  obtain ⟨es', rfl, pairs', distinct'⟩ := (built.shape sets floats standardJ embeddedJ).of_map
  have parts : ∀ {v w n m}, TwinBelow S N i v n → Twin S N w m →
      (Vm.valueEq v w = true ↔ n = m) := by
    rintro v w n m ⟨k, -, foundV, foundN⟩ ⟨k', foundW, foundM⟩
    exact agree foundV foundW foundN foundM
  have equal := (built.entries_agree floats pairs pairs' distinct distinct' parts).mpr same
  exact Value.map.inj ((agree standardI standardJ embeddedI embeddedJ).mp
    (vm_valueEq_map.mpr (.inr equal)))

/-- **Equality in the two virtual machines.**  Whatever a program builds that gives `set`
constant keys and no null, the equality instruction gives one answer in both machines on all
values it built, if and only if it uses no NaN and not both zeroes, and no two of its maps got
the same entries in different orders. -/
theorem equality_agrees_iff {ops : List BuildOp} {S : List Vm.Value} {N : List Value}
    (standard : build standardStep ops = some S) (embedded : build embeddedStep ops = some N)
    (sets : PlainSets ops) :
    (∀ (i j : Nat) (v w n m), S[i]? = some v → S[j]? = some w → N[i]? = some n →
      N[j]? = some m → (Vm.ceqOp (.unknown, .unknown)).eval v w = .ok (.bool (valueEq n m))) ↔
    PlainFloats ops ∧ InOneOrder N := by
  have built := build_built standard embedded
  have answers : ∀ v w n m, (ceqOp (.unknown, .unknown)).eval v w = .ok (.bool (valueEq n m)) ↔
      (Vm.valueEq v w = true ↔ n = m) := by
    intro v w n m
    rw [← valueEq_iff, Bool.coe_iff_coe]
    simp [ceqOp, BinaryOp.eval, bind, Except.bind]
  simp only [answers]
  constructor
  · intro agree
    have agrees : EqualitiesAgree S N := agree _ _ _ _ _ _
    exact ⟨agrees.floats built, agrees.ordered built sets⟩
  · rintro ⟨floats, ordered⟩ i j v w n m
    exact built.agree sets floats ordered

/-- Two maps with the same entries, inserted in one order. -/
def sampleOps : List BuildOp :=
  [.scalar (.int 1), .scalar (.int 2), .mapNew, .set 2 0 0, .set 3 1 1, .mapNew, .set 5 0 0,
    .set 6 1 1]

theorem equality_agrees_iff_sample :
    (Vm.ceqOp (.unknown, .unknown)).eval (.map 4 [(.int 1, .int 1), (.int 2, .int 2)])
        (.map 7 [(.int 1, .int 1), (.int 2, .int 2)]) =
      .ok (.bool (valueEq (.map [(.int 1, .int 1), (.int 2, .int 2)])
        (.map [(.int 1, .int 1), (.int 2, .int 2)]))) := by
  have standard : build standardStep sampleOps = some [.int 1, .int 2, .map 2 [],
      .map 3 [(.int 1, .int 1)], .map 4 [(.int 1, .int 1), (.int 2, .int 2)], .map 5 [],
      .map 6 [(.int 1, .int 1)], .map 7 [(.int 1, .int 1), (.int 2, .int 2)]] := rfl
  have embedded : build embeddedStep sampleOps = some [.int 1, .int 2, .map [],
      .map [(.int 1, .int 1)], .map [(.int 1, .int 1), (.int 2, .int 2)], .map [],
      .map [(.int 1, .int 1)], .map [(.int 1, .int 1), (.int 2, .int 2)]] := rfl
  have sets : PlainSets sampleOps := by
    intro map key value mem
    simp only [sampleOps, mem_cons, BuildOp.set.injEq, reduceCtorEq, false_or, not_mem_nil,
      or_false] at mem
    rcases mem with ⟨rfl, rfl, rfl⟩ | ⟨rfl, rfl, rfl⟩ | ⟨rfl, rfl, rfl⟩ | ⟨rfl, rfl, rfl⟩ <;>
      exact ⟨⟨_, rfl⟩, by simp [sampleOps]⟩
  have floats : PlainFloats sampleOps := ⟨by simp [sampleOps], by simp [sampleOps]⟩
  -- Maps of one size are the same map here.
  have ordered : InOneOrder [.int 1, .int 2, .map [], .map [(.int 1, .int 1)],
      .map [(.int 1, .int 1), (.int 2, .int 2)], .map [], .map [(.int 1, .int 1)],
      .map [(.int 1, .int 1), (.int 2, .int 2)]] := by
    intro ns ns' mem mem' same
    have length := same.length_eq
    simp only [mem_cons, reduceCtorEq, Value.map.injEq, false_or, not_mem_nil, or_false] at mem mem'
    rcases mem with rfl | rfl | rfl | rfl | rfl | rfl <;>
      rcases mem' with rfl | rfl | rfl | rfl | rfl | rfl <;> first | rfl | cases length
  have agree := (equality_agrees_iff standard embedded sets).mpr ⟨floats, ordered⟩
  exact agree 4 7 _ _ _ _ rfl rfl rfl rfl

/-- Two maps with the same entries, inserted in different orders. -/
def reorderedOps : List BuildOp :=
  [.scalar (.int 1), .scalar (.int 2), .mapNew, .set 2 0 0, .set 3 1 1, .set 2 1 1, .set 5 0 0]

theorem reordered_maps_differ :
    ∃ S N, build standardStep reorderedOps = some S ∧ build embeddedStep reorderedOps = some N ∧
      ∃ v w n m, S[4]? = some v ∧ S[6]? = some w ∧ N[4]? = some n ∧ N[6]? = some m ∧
        (Vm.ceqOp (.unknown, .unknown)).eval v w = .ok (.bool true) ∧ valueEq n m = false :=
  ⟨_, _, rfl, rfl, _, _, _, _, rfl, rfl, rfl, rfl, rfl, rfl⟩

end RustScript.Nostd
