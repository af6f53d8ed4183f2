import RustScript.Vm.Run

/-!
# What an instruction can touch

`Inline A` describes the states that a piece of an instruction can reach without a
call, a return or a branch: the instruction pointer, the frames and the number of
local slots stay, and a slot can come to share a cell only if it is in `A`.  Almost
everything an instruction is made of obeys it for every `A`; closures share slots of
the active frame (`ActiveSteady`), and a new frame shares its own.

All of it fails only with errors that say nothing about the code
(`VmError.Harmless`).
-/

namespace RustScript.Vm

open Wp BinaryOp List VmError

variable {W : Type}

structure Inline (A : Nat → Prop) (s s' : Instance W) : Prop where
  ip : s'.ip = s.ip
  frames : s'.executionFrames = s.executionFrames
  localBase : s'.activeLocalBaseCache = s.activeLocalBaseCache
  operandBase : s'.activeOperandStackBaseCache = s.activeOperandStackBaseCache
  callDepth : s'.callDepth = s.callDepth
  maxDepth : s'.maxScriptCallDepth = s.maxScriptCallDepth
  waiting : s'.waitingHostOp = s.waitingHostOp
  world : s'.world = s.world
  locals : s'.locals.length = s.locals.length
  cells : ∀ slot, s'.captureCells slot ≠ none → s.captureCells slot ≠ none ∨ A slot

variable {A : Nat → Prop}

section Touch

variable {s : Instance W} {stack locals cells : List Value} {ownedCallables : List Nat}
  {nextObject : Nat} {environments : List (List Nat)}

/-- Operands, the values in the slots and the heap may change. -/
theorem Inline.touch (same : locals.length = s.locals.length) : Inline A s
    { s with stack, locals, ownedCallables, nextObject, cells, environments } :=
  ⟨rfl, rfl, rfl, rfl, rfl, rfl, rfl, rfl, same, fun _ => .inl⟩

instance : Effect (Inline (W := W) A) where
  refl _ := .touch rfl
  trans h h' := by
    refine ⟨h'.ip.trans h.ip, h'.frames.trans h.frames, h'.localBase.trans h.localBase,
      h'.operandBase.trans h.operandBase, h'.callDepth.trans h.callDepth,
      h'.maxDepth.trans h.maxDepth, h'.waiting.trans h.waiting, h'.world.trans h.world,
      h'.locals.trans h.locals, ?_⟩
    intro slot shared
    rcases h'.cells slot shared with before | inside
    · exact h.cells slot before
    · exact .inr inside

/-- In line, and the operand stack does not get shorter. -/
structure Steady (A : Nat → Prop) (s s' : Instance W) : Prop extends Inline A s s' where
  stack : s.stack.length ≤ s'.stack.length

theorem Steady.touch (same : locals.length = s.locals.length)
    (grows : s.stack.length ≤ stack.length) :
    Steady A s { s with stack, locals, ownedCallables, nextObject, cells, environments } :=
  ⟨.touch same, grows⟩

end Touch

instance : Effect (Steady (W := W) A) where
  refl s := ⟨Effect.refl s, Nat.le_refl _⟩
  trans h h' := ⟨Effect.trans h.toInline h'.toInline, Nat.le_trans h.stack h'.stack⟩

/-- The slots of the active frame. -/
def Instance.ActiveSlot (s : Instance W) (slot : Nat) : Prop :=
  s.activeLocalBaseCache ≤ slot ∧ slot < s.locals.length

/-- Steady, with new shared slots only in the active frame. -/
def ActiveSteady (s s' : Instance W) : Prop := Steady s.ActiveSlot s s'

instance : Effect (ActiveSteady (W := W)) where
  refl s := Effect.refl (P := Steady s.ActiveSlot) s
  trans h h' := by
    unfold ActiveSteady Instance.ActiveSlot at h' ⊢
    rw [h.localBase, h.locals] at h'
    exact Effect.trans h h'

instance : Effect (Eq (α := Instance W)) where
  refl _ := rfl
  trans := Eq.trans

/-- Computations that change nothing. -/
abbrev ReadOnlyM {α : Type} (x : CoreM W α) : Prop := Obeys Eq VmError.Harmless x

/-- Computations that obey a relation whatever slots may be shared: they share none. -/
def Always {α : Type} (P : (Nat → Prop) → Instance W → Instance W → Prop) (x : CoreM W α) : Prop :=
  ∀ A : Nat → Prop, Obeys (P A) VmError.Harmless x

abbrev SteadyM {α : Type} (x : CoreM W α) : Prop := Always Steady x

abbrev ActiveSteadyM {α : Type} (x : CoreM W α) : Prop := Obeys ActiveSteady VmError.Harmless x

variable {e : VmError} {α : Type}

section Rules

variable {β : Type} {P : (Nat → Prop) → Instance W → Instance W → Prop}

theorem always_ite {c : Prop} [Decidable c] {x y : CoreM W α} (hx : Always P x)
    (hy : Always P y) : Always P (if c then x else y) := fun A => obeys_ite (hx A) (hy A)

theorem always_modify {g : Instance W → Instance W} (h : ∀ A s, P A s (g s)) :
    Always P (modify g : CoreM W PUnit) := fun A => obeys_modify (h A)

variable [∀ A, Effect (P A)]

theorem always_pure (a : α) : Always P (pure a : CoreM W α) := fun _ => obeys_pure a

theorem always_bind {x : CoreM W α} {f : α → CoreM W β} (first : Always P x)
    (second : ∀ a, Always P (f a)) : Always P (x >>= f) :=
  fun A => obeys_bind (first A) fun a => second a A

theorem always_lift {r : Except VmError α} (h : ∀ e, r = .error e → e.Harmless) :
    Always P (lift r : CoreM W α) := fun _ => obeys_lift h

theorem always_require {c : Prop} [Decidable c] (h : e.Harmless) :
    Always P (require c e : CoreM W Unit) := fun _ => obeys_require h

theorem always_expect {o : Option α} (h : e.Harmless) :
    Always P (expect o e : CoreM W α) := fun _ => obeys_expect h

theorem always_forM {f : β → CoreM W PUnit} {l : List β} (pass : ∀ b ∈ l, Always P (f b)) :
    Always P (l.forM f) := fun A => obeys_forM fun b mem => pass b mem A

theorem always_get : Always P (get : CoreM W (Instance W)) := fun _ => obeys_get

end Rules

variable {hint : OperandTypes} {x : CoreM W α} {F : FloatOps} {value : Value} {index : UInt8}
  {absolute : Nat}

theorem Always.activeSteady (h : SteadyM x) : ActiveSteadyM x :=
  fun s => h s.ActiveSlot s

/-! ## Operands -/

/-- In line, sharing no slot; of the operands up to `down` are gone and `up` are new. -/
def Shifts {α : Type} (down up : Nat) (x : CoreM W α) : Prop :=
  ∀ s, wp x
    (fun _ s' => Inline (fun _ => False) s s' ∧ s.stack.length + up ≤ s'.stack.length + down)
    (fun e s' => Inline (fun _ => False) s s' ∧ e.Harmless) s

theorem Shifts.bind {β : Type} {f : α → CoreM W β} {down up down' up' : Nat}
    (first : Shifts down up x) (second : ∀ a, Shifts down' up' (f a)) :
    Shifts (down + down') (up + up') (x >>= f) := by
  intro s
  apply wp_seq (first s)
  rintro a s₁ ⟨step, stack⟩
  apply wp_mono (second a s₁)
  · rintro _ s₂ ⟨step', stack'⟩
    exact ⟨Effect.trans step step', by omega⟩
  · exact fun _ _ failed => ⟨Effect.trans step failed.1, failed.2⟩

theorem Always.shifts (h : SteadyM x) : Shifts 0 0 x := fun s =>
  wp_mono (h _ s) (fun _ _ step => ⟨step.toInline, step.stack⟩) fun _ _ failed =>
    ⟨failed.1.toInline, failed.2⟩

theorem popValue_shifts : Shifts 1 0 (popValue (W := W)) := by
  intro s
  unfold wp popValue
  cases stack : s.stack with
  | nil => exact ⟨Effect.refl s, trivial⟩
  | cons value rest => exact ⟨.touch rfl, Nat.le_refl _⟩

theorem peekValue_steady : SteadyM (peekValue (W := W)) := by
  intro A s
  unfold wp peekValue
  cases s.stack with
  | nil => exact ⟨Effect.refl s, trivial⟩
  | cons value stack => exact Effect.refl s

theorem push_shifts (value : Value) : Shifts 0 1 (push value : CoreM W Unit) :=
  fun _ => ⟨.touch rfl, Nat.le_refl _⟩

theorem push_steady (value : Value) : SteadyM (push value : CoreM W Unit) :=
  always_modify fun _ _ => .touch rfl (Nat.le_succ _)

theorem popAs_shifts {check : Value → Except VmError α}
    (h : ∀ v e, check v = .error e → e.Harmless) : Shifts 1 0 (popAs check : CoreM W α) :=
  popValue_shifts.bind fun value => (always_lift (h value)).shifts

/-- A check of an operand fails only with harmless errors. -/
def HarmlessCheck {α : Type} (check : Value → Except VmError α) : Prop :=
  ∀ v e, check v = .error e → e.Harmless

theorem asInt_harmless : HarmlessCheck asInt := by
  intro v e h
  cases v <;> cases h <;> trivial

theorem asBool_harmless : HarmlessCheck asBool := by
  intro v e h
  cases v <;> cases h <;> trivial

theorem asFloatExact_harmless : HarmlessCheck asFloatExact := by
  intro v e h
  cases v <;> cases h <;> trivial

theorem asString_harmless : HarmlessCheck asString := by
  intro v e h
  cases v <;> cases h <;> trivial

theorem asBytes_harmless : HarmlessCheck asBytes := by
  intro v e h
  cases v <;> cases h <;> trivial

theorem asNumeric_harmless : HarmlessCheck asNumeric := by
  intro v e h
  cases v <;> cases h <;> trivial

theorem ok_harmless : HarmlessCheck (.ok : Value → Except VmError Value) := nofun

theorem shiftAmount_harmless : HarmlessCheck shiftAmount := by
  intro v e h
  cases v with
  | int value =>
    simp only [shiftAmount, asInt, bind, Except.bind] at h
    split at h
    · cases h
    · cases h
      trivial
  | _ =>
    cases h
    trivial

/-! ## Operations -/

structure BinaryOp.Harmless (op : BinaryOp) : Prop where
  rhs : HarmlessCheck op.rhs
  lhs : HarmlessCheck op.lhs
  apply : ∀ lhs rhs e, op.apply lhs rhs = .error e → e.Harmless

structure UnaryOp.Harmless (op : UnaryOp) : Prop where
  operand : HarmlessCheck op.operand
  apply : ∀ operand e, op.apply operand = .error e → e.Harmless

theorem BinaryOp.exec_shifts {op : BinaryOp} (h : op.Harmless) :
    Shifts 2 1 (op.exec : CoreM W Unit) := by
  have steps := (popAs_shifts (W := W) h.rhs).bind fun rhs => (popAs_shifts h.lhs).bind fun lhs =>
    (always_lift (h.apply lhs rhs)).shifts.bind push_shifts
  exact steps

theorem UnaryOp.exec_shifts {op : UnaryOp} (h : op.Harmless) :
    Shifts 1 1 (op.exec : CoreM W Unit) := by
  have steps := (popAs_shifts (W := W) h.operand).bind fun operand =>
    (always_lift (h.apply operand)).shifts.bind push_shifts
  exact steps

/-- An operation on two checked operands that cannot fail. -/
theorem BinaryOp.harmless_total {Rhs Lhs : Type} {rhs : Value → Except VmError Rhs}
    {lhs : Value → Except VmError Lhs} {f : Lhs → Rhs → Value} (hrhs : HarmlessCheck rhs)
    (hlhs : HarmlessCheck lhs) :
    Harmless ⟨rhs, lhs, fun l r => .ok (f l r)⟩ where
  rhs := hrhs
  lhs := hlhs
  apply := nofun

theorem numericOp_harmless
    {intOp : Int64 → Int64 → Except VmError Int64} {floatOp : UInt64 → UInt64 → UInt64}
    (h : ∀ lhs rhs e, intOp lhs rhs = .error e → e.Harmless) :
    (numericOp F hint intOp floatOp).Harmless := by
  have int : ∀ lhs rhs e, (do return Value.int (← intOp lhs rhs)) = Except.error e →
      e.Harmless := by
    intro lhs rhs e failed
    cases result : intOp lhs rhs with
    | ok value =>
      rw [result] at failed
      cases failed
    | error e' =>
      rw [result] at failed
      cases failed
      exact h lhs rhs e result
  have general : (binaryNumericOp F intOp floatOp).Harmless := by
    refine ⟨asNumeric_harmless, asNumeric_harmless, ?_⟩
    intro lhs rhs e failed
    cases lhs <;> cases rhs
    · exact int _ _ e failed
    all_goals cases failed
  unfold numericOp
  split
  · exact ⟨asInt_harmless, asInt_harmless, int⟩
  · exact harmless_total asFloatExact_harmless asFloatExact_harmless
  · exact general

theorem ite_harmless {α : Type} {p q : Prop} [Decidable p] [Decidable q] {e₁ e₂ e : VmError} {a : α}
    (first : e₁.Harmless) (second : e₂.Harmless)
    (h : (if p then .error e₁ else if q then .error e₂ else .ok a) = Except.error e) :
    e.Harmless := by
  split_ifs at h <;> cases h
  · exact first
  · exact second

theorem checkedIntDiv_harmless (lhs rhs : Int64) (e : VmError) :
    checkedIntDiv lhs rhs = .error e → e.Harmless := ite_harmless trivial trivial

theorem checkedIntRem_harmless (lhs rhs : Int64) (e : VmError) :
    checkedIntRem lhs rhs = .error e → e.Harmless := ite_harmless trivial trivial

theorem addOp_harmless {fresh : Nat} : (addOp F fresh hint).Harmless := by
  unfold addOp
  split
  · exact ⟨asInt_harmless, asInt_harmless, nofun⟩
  · exact harmless_total asFloatExact_harmless asFloatExact_harmless
  · exact harmless_total asString_harmless asString_harmless
  · exact harmless_total asBytes_harmless asBytes_harmless
  · refine ⟨ok_harmless, ok_harmless, ?_⟩
    intro lhs rhs e failed
    cases lhs <;> cases rhs <;> cases failed <;> trivial

theorem negOp_harmless (F : FloatOps) (hint : OperandTypes) : (negOp F hint).Harmless := by
  unfold negOp
  split
  · exact ⟨asInt_harmless, nofun⟩
  · exact ⟨asFloatExact_harmless, nofun⟩
  · refine ⟨asNumeric_harmless, ?_⟩
    intro operand e failed
    cases operand <;> cases failed

theorem ceqOp_harmless : (ceqOp hint).Harmless := by
  unfold ceqOp
  split
  · exact harmless_total asInt_harmless asInt_harmless
  · exact harmless_total asFloatExact_harmless asFloatExact_harmless
  · exact harmless_total asBool_harmless asBool_harmless
  · exact harmless_total asString_harmless asString_harmless
  · refine ⟨ok_harmless, ok_harmless, ?_⟩
    intro lhs rhs e failed
    cases lhs <;> cases rhs <;> cases failed <;> trivial
  · exact harmless_total ok_harmless ok_harmless

theorem compareOp_harmless {intOp : Int64 → Int64 → Bool}
    {floatOp : UInt64 → UInt64 → Bool} : (compareOp F hint intOp floatOp).Harmless := by
  unfold compareOp
  split
  · exact harmless_total asInt_harmless asInt_harmless
  · exact harmless_total asFloatExact_harmless asFloatExact_harmless
  · refine ⟨asNumeric_harmless, asNumeric_harmless, ?_⟩
    intro lhs rhs e failed
    cases lhs <;> cases rhs <;> cases failed

/-! ## Local slots -/

theorem allocate_steady : SteadyM (allocate (W := W)) :=
  fun _ _ => .touch rfl (Nat.le_refl _)

theorem allocateCell_steady : SteadyM (allocateCell value : CoreM W Nat) :=
  fun _ _ => .touch rfl (Nat.le_refl _)

theorem setSlot_steady : SteadyM (setSlot absolute value : CoreM W Unit) :=
  always_modify fun _ _ => .touch length_set (Nat.le_refl _)

theorem absoluteLocalIndex_steady : SteadyM (absoluteLocalIndex index : CoreM W Nat) := by
  intro A s
  unfold wp absoluteLocalIndex
  by_cases inside : s.activeLocalBase + index.toNat < s.locals.length
  · simp only [inside]
    exact Effect.refl s
  · simp only [inside]
    exact ⟨Effect.refl s, trivial⟩

theorem loadLocalValue_steady (index : UInt8) : SteadyM (loadLocalValue index : CoreM W Value) := by
  apply always_bind absoluteLocalIndex_steady
  intro absolute
  apply always_bind always_get
  intro s
  exact always_pure _

theorem storeLocalAbsolute_steady :
    SteadyM (storeLocalAbsolute absolute index value : CoreM W Unit) := by
  intro A s
  unfold wp storeLocalAbsolute
  cases s.captureCells absolute with
  | some cell =>
    by_cases cyclic : s.valueReferencesCaptureCell value cell
    · simp only [cyclic]
      exact ⟨Effect.refl s, trivial⟩
    · simp only [cyclic]
      exact .touch length_set (Nat.le_refl _)
  | none =>
    by_cases inside : absolute < s.locals.length
    · simp only [inside]
      exact .touch length_set (Nat.le_refl _)
    · simp only [inside]
      exact ⟨Effect.refl s, trivial⟩

theorem storeLocal_steady (index : UInt8) (value : Value) :
    SteadyM (storeLocal index value : CoreM W Unit) := by
  apply always_bind absoluteLocalIndex_steady
  intro absolute
  exact storeLocalAbsolute_steady

theorem detachLocal_steady : SteadyM (detachLocal index : CoreM W Unit) := by
  apply always_bind absoluteLocalIndex_steady
  intro absolute A s
  refine ⟨⟨rfl, rfl, rfl, rfl, rfl, rfl, rfl, rfl, length_set, ?_⟩, Nat.le_refl _⟩
  intro slot shared
  by_cases same : slot = absolute
  · simp [same] at shared
  · simp only [same] at shared
    exact .inl shared

namespace Engine

variable (E : Engine W)

/-! ## Closures -/

variable {localBase localCount : Nat} {prototype : CallablePrototype}
  {callable : Option (Nat × CallableValue)}

theorem cellOr_steady {cell : Option Nat} : SteadyM (cellOr cell value : CoreM W Nat) := by
  cases cell with
  | some cell => exact always_pure cell
  | none => exact allocateCell_steady

theorem shareCell_active {source : UInt16} :
    ActiveSteadyM (shareCell source value : CoreM W Nat) := by
  apply obeys_get_bind
  intro s
  rw [wp_bind, wp_require]
  constructor
  · intro inside
    apply wp_seq (cellOr_steady.activeSteady s)
    intro cell s' step
    refine { step with locals := length_set.trans step.locals, cells := ?_ }
    intro slot shared
    by_cases same : slot = s.activeLocalBase + source.toNat
    · exact .inr ⟨by rw [same]; exact Nat.le_add_right _ _, by rw [same]; exact inside⟩
    · simp only [same] at shared
      exact step.cells slot shared
  · intro _
    exact ⟨Effect.refl s, trivial⟩

theorem bindCapture_active (prototype : CallablePrototype) (value : Value)
    (source target : UInt16) (mode : CaptureBindingMode) :
    ActiveSteadyM (bindCapture prototype value source target mode : CoreM W Nat) := by
  apply obeys_ite
  · exact shareCell_active
  · exact allocateCell_steady.activeSteady

theorem bindCaptures_active (prototype : CallablePrototype) (values : List Value)
    (sources targets : List UInt16) (modes : List CaptureBindingMode) :
    ActiveSteadyM (bindCaptures prototype values sources targets modes : CoreM W (List Nat)) := by
  induction values generalizing sources targets modes with
  | nil => exact obeys_pure []
  | cons value values ih =>
    cases sources with
    | nil => exact obeys_pure []
    | cons source sources =>
      cases targets with
      | nil => exact obeys_pure []
      | cons target targets =>
        cases modes with
        | nil => exact obeys_pure []
        | cons mode modes =>
          apply obeys_bind (bindCapture_active prototype value source target mode)
          intro cell
          apply obeys_bind (ih sources targets modes)
          intro cells
          exact obeys_pure _

theorem bindCallableValue_active (prototypeId : UInt32) (captures : List Value) :
    ActiveSteadyM (E.bindCallableValue prototypeId captures) := by
  apply obeys_bind (obeys_expect trivial)
  intro prototype
  apply obeys_bind (obeys_require trivial)
  intro _
  apply obeys_bind (bindCaptures_active _ _ _ _ _)
  intro cells
  apply obeys_bind obeys_get
  intro s
  apply obeys_bind allocate_steady.activeSteady
  intro object
  apply obeys_bind
  · apply Always.activeSteady
    intro A s
    exact .touch rfl (Nat.le_refl _)
  · intro _
    exact obeys_pure _

variable {value : Option Value}

theorem callablePrototypeId_harmless (h : callablePrototypeId value = .error e) : e.Harmless := by
  unfold callablePrototypeId at h
  split at h
  · split at h
    · cases h
    · cases h
      trivial
  · cases h
    trivial

theorem callableCaptures_harmless (h : callableCaptures value = .error e) : e.Harmless := by
  unfold callableCaptures at h
  split at h
  · cases h
  · cases h
    trivial

theorem detachedSlot_harmless (h : detachedSlot value = .error e) : e.Harmless := by
  unfold detachedSlot at h
  split at h
  · split at h
    · cases h
    · cases h
      trivial
  · cases h
    trivial

theorem bindCallableBuiltin_active (args : List Value) :
    ActiveSteadyM (E.bindCallableBuiltin args) := by
  apply obeys_bind (obeys_lift fun _ => callablePrototypeId_harmless)
  intro prototypeId
  apply obeys_bind (obeys_lift fun _ => callableCaptures_harmless)
  intro captures
  exact E.bindCallableValue_active prototypeId captures

theorem detachLocalBuiltin_steady {args : List Value} :
    SteadyM (detachLocalBuiltin args : CoreM W Unit) := by
  apply always_bind (always_lift fun _ => detachedSlot_harmless)
  intro index
  exact detachLocal_steady

/-! ## Frames -/

theorem mapError_harmless {α : Type} {r : Except String α}
    (h : r.mapError hostError = .error e) : e.Harmless := by
  cases r with
  | ok a => cases h
  | error message =>
    cases h
    trivial

theorem schemaError_harmless {r : Except VmError Unit} {context : String}
    (h : r.mapError (fun error => mapCallableSchemaError error context) = .error e) :
    e.Harmless := by
  cases r with
  | ok a => cases h
  | error error => cases error <;> cases h <;> trivial

theorem checkedFrameEnd_harmless
    (h : checkedFrameEnd localBase localCount = .error e) : e.Harmless := by
  unfold checkedFrameEnd at h
  split at h
  · cases h
    trivial
  · cases h

theorem inheritedCallables_readOnly : ReadOnlyM (inheritedCallables (W := W)) := by
  intro s
  unfold wp inheritedCallables
  cases s.executionFrames with
  | nil => exact rfl
  | cons frame frames =>
    by_cases inside : frame.localBase + frame.localCount > s.locals.length
    · simp only [inside, if_true]
      exact ⟨trivial, trivial⟩
    · simp [inside]

theorem storeRootCallable_steady (localBase localCount : Nat) (binding : RootCallableBinding) :
    SteadyM (E.storeRootCallable localBase localCount binding) := by
  apply always_bind (always_require (by trivial))
  intro _
  apply always_bind (always_expect (by trivial))
  intro prototype
  apply always_bind allocate_steady
  intro object
  apply always_bind
  · exact always_modify fun _ _ => .touch rfl (Nat.le_refl _)
  · intro _
    exact setSlot_steady

theorem storeInherited_steady {inherited : Nat × Value} :
    SteadyM (storeInherited localBase localCount inherited : CoreM W Unit) := by
  apply always_ite
  · exact setSlot_steady
  · exact always_pure ()

theorem storeArgument_steady {argument : UInt16 × Value} :
    SteadyM (storeArgument localBase localCount argument : CoreM W Unit) := by
  apply always_bind (always_require (by trivial))
  intro _
  exact setSlot_steady

theorem storeSelf_steady : SteadyM (storeSelf prototype localBase callable : CoreM W Unit) := by
  unfold storeSelf
  cases prototype.selfSlot with
  | none => exact always_pure ()
  | some slot =>
    apply always_bind (always_require (by trivial))
    intro _
    apply always_bind (always_expect (by trivial))
    intro callable
    exact setSlot_steady

/-- The slots of a frame of a prototype. -/
def FrameSlot (prototype : CallablePrototype) (localBase slot : Nat) : Prop :=
  localBase ≤ slot ∧ slot < localBase + prototype.frameLocalCount

theorem storeCapture_obeys
    {capture : UInt16 × Nat} :
    Obeys (Steady (FrameSlot prototype localBase)) Harmless
      (storeCapture prototype localBase capture : CoreM W Unit) := by
  intro s
  unfold storeCapture
  rw [wp_bind, wp_require]
  constructor
  · intro inside
    have own : FrameSlot prototype localBase (localBase + capture.1.toNat) :=
      ⟨Nat.le_add_right _ _, Nat.add_lt_add_left inside _⟩
    split
    · exact .touch length_set (Nat.le_refl _)
    · refine ⟨⟨rfl, rfl, rfl, rfl, rfl, rfl, rfl, rfl, length_set, ?_⟩, Nat.le_refl _⟩
      intro slot shared
      by_cases same : slot = localBase + capture.1.toNat
      · rw [same]
        exact .inr own
      · simp only [same] at shared
        exact .inl shared
  · intro _
    exact ⟨Effect.refl s, trivial⟩

theorem storeCaptures_obeys : Obeys (Steady (FrameSlot prototype localBase)) Harmless
      (storeCaptures prototype localBase callable : CoreM W Unit) := by
  unfold storeCaptures
  cases callable.bind fun callable => callable.2.env with
  | none => exact obeys_pure ()
  | some env =>
    intro s
    apply obeys_bind (obeys_require trivial)
    intro _
    apply obeys_forM
    intro capture _
    exact storeCapture_obeys

/-- A new frame comes from its null slots in line. -/
theorem initializeLocals_wp (prototype : CallablePrototype)
    (callable : Option (Nat × CallableValue)) (operands : List Value) (localBase : Nat)
    (inherited : List (Nat × Value)) (s : Instance W) :
    wp (E.initializeLocals prototype callable operands localBase inherited)
      (fun _ s' => Steady (FrameSlot prototype localBase)
        { s with locals := s.locals ++ replicate prototype.frameLocalCount .null } s')
      (fun e s' => Steady (FrameSlot prototype localBase)
        { s with locals := s.locals ++ replicate prototype.frameLocalCount .null } s' ∧
          e.Harmless) s := by
  unfold initializeLocals
  have rest : Obeys (Steady (FrameSlot prototype localBase)) Harmless (do
      E.program.rootCallableBindings.forM (E.storeRootCallable localBase prototype.frameLocalCount)
      inherited.forM (storeInherited localBase prototype.frameLocalCount)
      (prototype.parameterSlots.zip operands).forM
        (storeArgument localBase prototype.frameLocalCount)
      storeCaptures prototype localBase callable
      storeSelf prototype localBase callable) := by
    apply obeys_bind
    · exact always_forM (fun binding _ => E.storeRootCallable_steady _ _ binding) _
    · intro _
      apply obeys_bind
      · exact always_forM (fun slot _ => storeInherited_steady) _
      · intro _
        apply obeys_bind
        · exact always_forM (fun argument _ => storeArgument_steady) _
        · intro _
          apply obeys_bind storeCaptures_obeys
          intro _
          exact storeSelf_steady _
  exact rest _

theorem checkArguments_readOnly (schema : Option TypeSchema) (operands : List Value) :
    ReadOnlyM (E.checkArguments schema operands) := by
  unfold checkArguments
  split
  · apply obeys_bind (obeys_require (by trivial))
    intro _ s
    apply obeys_forM
    intro argument _
    exact obeys_lift fun _ => schemaError_harmless
  · exact obeys_pure ()

theorem checkCall_readOnly (prototypeId : UInt32) (callable : Option (Nat × CallableValue))
    (operands : List Value) : ReadOnlyM (E.checkCall prototypeId callable operands) := by
  apply obeys_bind (obeys_expect (by trivial))
  intro prototype
  apply obeys_bind (obeys_require (by trivial))
  intro _
  apply obeys_bind (obeys_require (by trivial))
  intro _
  apply obeys_bind (obeys_require (by trivial))
  intro _
  apply obeys_bind (E.checkArguments_readOnly _ operands)
  intro _
  exact obeys_pure _

theorem checkResult_readOnly (frame : ExecutionFrame) (result : Value) :
    ReadOnlyM (E.checkResult frame result) := by
  unfold checkResult
  cases E.resultSchema frame with
  | none => exact obeys_pure ()
  | some schema =>
    apply obeys_bind obeys_get
    intro s
    exact obeys_lift fun _ => schemaError_harmless

/-! ## Operations -/

theorem binaryOp_harmless {opcodeIp fresh : Nat} {opcode : OpCode} {op : BinaryOp}
    (h : E.binaryOp opcodeIp fresh opcode = some op) : op.Harmless := by
  cases opcode with
  | add =>
    cases h
    exact addOp_harmless
  | sub | mul =>
    cases h
    exact numericOp_harmless (by rintro _ _ _ ⟨⟩)
  | div =>
    cases h
    exact numericOp_harmless checkedIntDiv_harmless
  | mod =>
    cases h
    exact numericOp_harmless checkedIntRem_harmless
  | shl | shr | lshr =>
    cases h
    exact harmless_total shiftAmount_harmless asInt_harmless
  | and | or =>
    cases h
    exact harmless_total asBool_harmless asBool_harmless
  | ceq =>
    cases h
    exact ceqOp_harmless
  | clt | cgt =>
    cases h
    exact compareOp_harmless
  | _ => cases h

theorem claimObject_steady : SteadyM (claimObject (W := W)) := by
  apply always_modify
  intro A s
  split
  · exact .touch rfl (Nat.le_refl _)
  · exact Effect.refl s

theorem executeBinary_shifts (opcodeIp : Nat) (opcode : OpCode) :
    Shifts 2 1 (E.executeBinary opcodeIp opcode) := by
  intro s
  unfold executeBinary
  rw [wp_bind, wp_get]
  cases h : E.binaryOp opcodeIp s.nextObject opcode with
  | none => exact ⟨Effect.refl s, Nat.le_succ _⟩
  | some op =>
    have steps := (exec_shifts (W := W) (E.binaryOp_harmless h)).bind fun _ =>
      claimObject_steady.shifts
    exact steps s

/-! ## New instances -/

theorem bindRootCallable_steady (s : Instance W) (binding : RootCallableBinding) :
    Steady A s (E.bindRootCallable s binding) := by
  unfold bindRootCallable
  split
  · exact Effect.refl s
  · split
    · exact Effect.refl s
    · exact .touch length_set (Nat.le_refl _)

theorem foldl_bindRootCallable_steady (bindings : List RootCallableBinding) (s : Instance W) :
    Steady A s (bindings.foldl E.bindRootCallable s) := by
  induction bindings generalizing s with
  | nil => exact Effect.refl s
  | cons binding bindings ih => exact Effect.trans (E.bindRootCallable_steady s binding) (ih _)

end Engine

end RustScript.Vm
