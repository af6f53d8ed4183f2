import RustScript.Lib.Reader
import RustScript.Vm.Invocation

/-!
# Ownership of the callables in an argument

An invocation looks through its callable and arguments for callables of other machines.  It
keeps a stack of values to look at and the identities of the objects it has seen, and gives up
after a fixed number of values, so it ends on every value graph.  If it accepts, every callable
that can be reached through arrays, maps and captured cells belongs to this machine
(`callables_owned`).

Two references to one object see the same contents.  The values of the model carry both an
identity and the contents, so this is an assumption on the graph (`Coherent`).
-/

namespace RustScript.Vm

open List Vm.Value Instance
open Fallible (bind_eq_ok)

variable {W : Type}

def Value.identity : Value → Option CallableOwnershipIdentity
  | .array object _ => some (.array object)
  | .map object _ => some (.map object)
  | .callable object _ => some (.callable object)
  | _ => none

namespace Instance

variable (s : Instance W)

/-- The values that a value refers to directly. -/
def children : Value → List Value
  | .array _ values => values
  | .map _ entries => entries.flatMap fun entry => [entry.1, entry.2]
  | .callable _ value => value.env.toList.flatMap (capturedValues s)
  | _ => []

def Reaches : Value → Value → Prop := Relation.ReflTransGen fun v w => w ∈ s.children v

def Reachable (roots : List Value) : Set Value := { v | ∃ root ∈ roots, s.Reaches root v }

/-- What every object and every environment holds. -/
structure Holds (R : Set Value) (contents : CallableOwnershipIdentity → List Value) : Prop where
  environment : ∀ e, contents (.environment e) = capturedValues s e
  object : ∀ v ∈ R, ∀ id ∈ v.identity, contents id = s.children v

/-- Two references to one object see the same contents. -/
def Coherent (R : Set Value) : Prop := ∃ contents, s.Holds R contents

end Instance

/-! ## The search -/

variable {values pending : List Value} {error : VmError}

theorem mem_foldlM_pushPending {pending' : List Value}
    (h : values.foldlM pushPending pending = .ok pending') (v : Value) :
    v ∈ pending' ↔ v ∈ values ∨ v ∈ pending := by
  induction values generalizing pending with
  | nil =>
    cases h
    simp
  | cons value values ih =>
    obtain ⟨pushed, first, rest⟩ := bind_eq_ok.mp h
    simp only [pushPending] at first
    split at first <;> cases first
    rw [ih rest, mem_cons, mem_cons]
    tauto

theorem foldlM_entries (entries : List (Value × Value)) (pending : List Value) :
    entries.foldlM (fun pending entry => do pushPending (← pushPending pending entry.1) entry.2)
      pending = (entries.flatMap fun entry => [entry.1, entry.2]).foldlM pushPending pending := by
  induction entries generalizing pending with
  | nil => rfl
  | cons entry entries ih => simp [ih]

section Search

variable {s : Instance W} {R : Set Value} {contents : CallableOwnershipIdentity → List Value}
  {pending' : List Value} {left : Nat} {visited ids : List CallableOwnershipIdentity} {v : Value}

/-- The object of the value, if it has one, has been seen. -/
def Seen (visited : List CallableOwnershipIdentity) (v : Value) : Prop :=
  ∀ id ∈ v.identity, id ∈ visited

/-- The callables seen are owned, and everything seen holds only what has been seen or is still
to be looked at. -/
structure Searched (s : Instance W) (contents : CallableOwnershipIdentity → List Value)
    (pending : List Value) (visited : List CallableOwnershipIdentity) : Prop where
  owned : ∀ object, .callable object ∈ visited → object ∈ s.ownedCallables
  held : ∀ id ∈ visited, ∀ w ∈ contents id, Seen visited w ∨ w ∈ pending

/-- Looking at a value: some objects are new, and what they hold is pushed or was known. -/
structure Looked (s : Instance W) (contents : CallableOwnershipIdentity → List Value) (v : Value)
    (pending pending' : List Value) (visited ids : List CallableOwnershipIdentity) : Prop where
  seen : Seen (ids ++ visited) v
  more : pending ⊆ pending'
  pushed : ∀ w ∈ pending', w ∈ s.children v ∨ w ∈ pending
  owned : ∀ object, .callable object ∈ ids → object ∈ s.ownedCallables
  held : ∀ id ∈ ids, contents id ⊆ pending' ∨ ∃ id' ∈ visited, contents id ⊆ contents id'

theorem Searched.look (searched : Searched s contents (v :: pending) visited)
    (look : Looked s contents v pending pending' visited ids) :
    Searched s contents pending' (ids ++ visited) := by
  have old : ∀ id ∈ visited, ∀ w ∈ contents id, Seen (ids ++ visited) w ∨ w ∈ pending' := by
    intro id mem w held
    rcases searched.held id mem w held with seen | waiting
    · exact .inl fun id mem => mem_append_right _ (seen id mem)
    · rcases mem_cons.mp waiting with rfl | waiting
      · exact .inl look.seen
      · exact .inr (look.more waiting)
  constructor
  · intro object mem
    exact (mem_append.mp mem).elim (look.owned object) (searched.owned object)
  · intro id mem w held
    rcases mem_append.mp mem with new | seen
    · rcases look.held id new with pushed | ⟨id', seen, known⟩
      · exact .inr (pushed held)
      · exact old id' seen w (known held)
    · exact old id seen w held

theorem Looked.again (seen : Seen visited v) : Looked s contents v pending pending visited [] :=
  ⟨seen, fun _ mem => mem, fun _ mem => .inr mem, by simp, by simp⟩

theorem Looked.push (pushed : ∀ w, w ∈ pending' ↔ w ∈ s.children v ∨ w ∈ pending)
    (seen : Seen (ids ++ visited) v) (owned : ∀ o, .callable o ∈ ids → o ∈ s.ownedCallables)
    (held : ∀ id ∈ ids, contents id = s.children v) :
    Looked s contents v pending pending' visited ids :=
  ⟨seen, fun w mem => (pushed w).mpr (.inr mem), fun w => (pushed w).mp, owned,
    fun id mem => .inl fun w inside => (pushed w).mpr (.inl (held id mem ▸ inside))⟩

theorem checkOwnership_cons (holds : s.Holds R contents) (inside : v ∈ R)
    (h : checkOwnership s (left + 1) (v :: pending) visited = .ok ()) :
    ∃ pending' ids, checkOwnership s left pending' (ids ++ visited) = .ok () ∧
      Looked s contents v pending pending' visited ids := by
  have held := holds.object v inside
  cases v with
  | array object values =>
    simp only [checkOwnership] at h
    split at h
    · next seen => exact ⟨_, [], h, .again (by simpa [Seen, identity] using seen)⟩
    · obtain ⟨pending', pushed, h⟩ := bind_eq_ok.mp h
      exact ⟨_, [.array object], h, .push (mem_foldlM_pushPending pushed)
        (by simp [Seen, identity]) (by simp) (by simpa using held _ rfl)⟩
  | map object entries =>
    simp only [checkOwnership] at h
    split at h
    · next seen => exact ⟨_, [], h, .again (by simpa [Seen, identity] using seen)⟩
    · obtain ⟨pending', pushed, h⟩ := bind_eq_ok.mp h
      rw [foldlM_entries] at pushed
      exact ⟨_, [.map object], h, .push (mem_foldlM_pushPending pushed)
        (by simp [Seen, identity]) (by simp) (by simpa using held _ rfl)⟩
  | callable object value =>
    simp only [checkOwnership] at h
    split at h
    · next seen => exact ⟨_, [], h, .again (by simpa [Seen, identity] using seen)⟩
    split at h
    · cases h
    next owned =>
      split at h
      · next env =>
          exact ⟨_, [.callable object], h, .push (by simp [children, env])
            (by simp [Seen, identity]) (by simpa using owned) (by simpa using held _ rfl)⟩
      next e env =>
        have captured : s.children (.callable object value) = contents (.environment e) := by
          simp [children, env, holds.environment]
        split at h
        · next before =>
            refine ⟨_, [.callable object], h, by simp [Seen, identity],
              fun _ mem => mem, fun _ mem => .inr mem, by simpa using owned, ?_⟩
            simpa using .inr ⟨_, before, fun w mem => captured ▸ held _ rfl ▸ mem⟩
        · obtain ⟨pending', pushed, h⟩ := bind_eq_ok.mp h
          rw [← holds.environment, ← captured] at pushed
          exact ⟨_, [.environment e, .callable object], h, .push (mem_foldlM_pushPending pushed)
            (by simp [Seen, identity]) (by simpa using owned)
            (by simpa using ⟨captured.symm, held _ rfl⟩)⟩
  | _ => exact ⟨_, [], h, .again (by simp [Seen, identity])⟩

theorem checkOwnership_searches (holds : s.Holds R contents)
    (closed : ∀ v ∈ R, ∀ w ∈ s.children v, w ∈ R) (inside : ∀ v ∈ pending, v ∈ R)
    (searched : Searched s contents pending visited)
    (h : checkOwnership s left pending visited = .ok ()) :
    ∃ visited', Searched s contents [] visited' ∧ visited ⊆ visited' ∧
      ∀ v ∈ pending, Seen visited' v := by
  induction left generalizing pending visited with
  | zero =>
    cases pending with
    | nil => exact ⟨visited, searched, fun _ mem => mem, by simp⟩
    | cons v pending => cases h
  | succ left ih =>
    cases pending with
    | nil => exact ⟨visited, searched, fun _ mem => mem, by simp⟩
    | cons v pending =>
      obtain ⟨here, rest⟩ := forall_mem_cons.mp inside
      obtain ⟨pending', ids, h, look⟩ := checkOwnership_cons holds here h
      obtain ⟨last, all, grown, seen⟩ := ih
        (fun w mem => (look.pushed w mem).elim (closed v here w) (rest w)) (searched.look look) h
      exact ⟨last, all, fun id mem => grown (mem_append_right _ mem),
        forall_mem_cons.mpr ⟨fun id mem => grown (look.seen id mem),
          fun w mem => seen w (look.more mem)⟩⟩

/-- A finished search has seen everything that the values it saw lead to. -/
theorem Searched.seen_of_reaches {root : Value} (searched : Searched s contents [] visited)
    (holds : s.Holds R contents) (closed : ∀ v ∈ R, ∀ w ∈ s.children v, w ∈ R) (inside : root ∈ R)
    (seen : Seen visited root) (reaches : s.Reaches root v) : v ∈ R ∧ Seen visited v := by
  induction reaches with
  | refl => exact ⟨inside, seen⟩
  | @tail v w _ child ih =>
    refine ⟨closed v ih.1 w child, ?_⟩
    cases object : v.identity with
    | none => cases v <;> simp [identity, children] at object child
    | some id =>
      rw [← holds.object v ih.1 id object] at child
      exact (searched.held id (ih.2 id object) w child).resolve_right not_mem_nil

end Search

/-! ## The answer -/

theorem pushed_error {next : List Value → Except VmError Unit}
    (rest : ∀ pending, next pending = .error error → error = .invalidCallable)
    (h : values.foldlM pushPending pending >>= next = .error error) :
    error = .invalidCallable := by
  induction values generalizing pending with
  | nil => exact rest pending h
  | cons value values ih =>
    rw [foldlM_cons, pushPending] at h
    split at h
    · cases h
      rfl
    · exact ih h

/-- There is one kind of refusal. -/
theorem checkOwnership_error {s : Instance W} {left : Nat}
    {visited : List CallableOwnershipIdentity}
    (h : checkOwnership s left pending visited = .error error) : error = .invalidCallable := by
  fun_induction checkOwnership s left pending visited with
  | case1 => cases h
  | case2 | case8 =>
    cases h
    rfl
  | case4 _ _ _ _ _ _ ih | case11 _ _ _ _ _ _ _ _ _ _ ih => exact pushed_error ih h
  | case6 _ _ _ _ _ _ ih =>
    rw [foldlM_entries] at h
    exact pushed_error ih h
  | case3 _ _ _ _ _ _ ih | case5 _ _ _ _ _ _ ih | case7 _ _ _ _ _ _ ih
  | case9 _ _ _ _ _ _ _ _ ih | case10 _ _ _ _ _ _ _ _ _ _ ih | case12 _ _ _ _ _ _ _ ih => exact ih h

/-- **A callable of another machine is found however it is hidden**, and the search has an
answer for every value graph. -/
theorem callables_owned (s : Instance W) (callable : Value) (args : List Value) :
    (validateInvocationCallableOwnership s callable args = .ok () ∨
      validateInvocationCallableOwnership s callable args = .error .invalidCallable) ∧
    (s.Coherent (s.Reachable (callable :: args)) →
      validateInvocationCallableOwnership s callable args = .ok () →
      ∀ arg ∈ callable :: args, ∀ object value, s.Reaches arg (.callable object value) →
        object ∈ s.ownedCallables) := by
  simp only [validateInvocationCallableOwnership]
  split
  · exact ⟨.inr rfl, nofun⟩
  constructor
  · cases answer : checkOwnership s maxCallableOwnershipNodes (callable :: args).reverse [] with
    | ok _ => exact .inl rfl
    | error error => exact .inr (congrArg _ (checkOwnership_error answer))
  rintro ⟨contents, holds⟩ accepted arg mem object value reaches
  have closed : ∀ v ∈ s.Reachable (callable :: args), ∀ w ∈ s.children v,
      w ∈ s.Reachable (callable :: args) :=
    fun v ⟨root, mem, reaches⟩ w child => ⟨root, mem, reaches.tail child⟩
  obtain ⟨visited, searched, _, seen⟩ := checkOwnership_searches holds closed
    (fun v mem => ⟨v, mem_reverse.mp mem, .refl⟩) ⟨by simp, by simp⟩ accepted
  have found := searched.seen_of_reaches holds closed ⟨arg, mem, .refl⟩
    (seen arg (mem_reverse.mpr mem)) reaches
  exact searched.owned object (found.2 _ rfl)

/-- A closure that has captured itself. -/
def knot : Value := .callable 0 ⟨0, .closure, some 0⟩

/-- An array that refers to it twice. -/
def knots : Value := .array 1 [knot, knot]

def knottedInstance : Instance Unit where
  ip := 0
  stack := []
  locals := []
  captureCells _ := none
  executionFrames := []
  activeLocalBaseCache := 0
  activeOperandStackBaseCache := 0
  callDepth := 0
  maxScriptCallDepth := 8
  hostReturn := none
  waitingHostOp := none
  ownedCallables := [0]
  nextObject := 2
  cells := [knot]
  environments := [[0]]
  world := ()
  hostCalls := []

def knotContents : CallableOwnershipIdentity → List Value
  | .environment e => capturedValues knottedInstance e
  | .array _ => [knot, knot]
  | _ => [knot]

theorem reachable_knots {v : Value} (h : v ∈ knottedInstance.Reachable [knot, knots, knots]) :
    v = knot ∨ v = knots := by
  obtain ⟨root, mem, reaches⟩ := h
  induction reaches with
  | refl => simpa using mem
  | tail _ child ih =>
    rcases ih with rfl | rfl
    · exact .inl (by simpa [knot, children, capturedValues, knottedInstance] using child)
    · exact .inl (by simpa [knots, children] using child)

theorem callables_owned_knots :
    knottedInstance.Coherent (knottedInstance.Reachable [knot, knots, knots]) ∧
      knottedInstance.Reaches knots knot ∧ 0 ∈ knottedInstance.ownedCallables := by
  have coherent : knottedInstance.Coherent (knottedInstance.Reachable [knot, knots, knots]) := by
    refine ⟨knotContents, fun _ => rfl, fun v mem id isId => ?_⟩
    rcases reachable_knots mem with rfl | rfl <;> cases isId <;> rfl
  have reaches : knottedInstance.Reaches knots knot := .single (by simp [knots, children])
  exact ⟨coherent, reaches,
    (callables_owned _ knot [knots, knots]).2 coherent rfl knots (by simp) _ _ reaches⟩

end RustScript.Vm
