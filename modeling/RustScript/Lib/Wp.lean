import Mathlib

/-!
# Preconditions of stateful computations that may fail

A computation `EStateM ε σ α` ends with a value or with an error, and in both
cases with a state.  `wp x Q R s` says that running `x` from `s` ends with a value
and a state that satisfy `Q`, or with an error and a state that satisfy `R`.  The
equations below compute it along the structure of a computation (`wp_bind`);
`wp_mono` weakens what is said of the end, `wp_seq` goes on from what a first part is
known to do, `wp_and` combines two statements, and `wp_forM` is the rule for a loop over
a list.

`Obeys P G x` says of every run of `x` that it goes from a state to one related to it
by `P`, and fails only with errors in `G`.  For a reflexive and transitive `P` it is
closed under all ways to build computations.
-/

namespace Wp

variable {ε σ τ α β : Type}

/-- Running `x` from `s` ends in `Q`, or fails in `R`. -/
def wp (x : EStateM ε σ α) (Q : α → σ → Prop) (R : ε → σ → Prop) (s : σ) : Prop :=
  match x s with
  | .ok a s' => Q a s'
  | .error e s' => R e s'

/-- The state in which a computation ended. -/
def resultState : EStateM.Result ε σ α → σ
  | .ok _ s => s
  | .error _ s => s

/-- A computation that does not touch the state. -/
def lift : Except ε α → EStateM ε σ α
  | .ok a => pure a
  | .error e => throw e

/-- Go on only if a condition holds. -/
def require (c : Prop) [Decidable c] (e : ε) : EStateM ε σ Unit := if c then pure () else throw e

/-- Go on only with a value that is there. -/
def expect (o : Option α) (e : ε) : EStateM ε σ α :=
  match o with
  | some a => pure a
  | none => throw e

/-- A computation on a part of the state. -/
def zoom (part : σ → τ) (update : σ → τ → σ) (x : EStateM ε τ α) : EStateM ε σ α := fun s =>
  match x (part s) with
  | .ok a t => .ok a (update s t)
  | .error e t => .error e (update s t)

/-- Handle some errors where they are raised; the state is the one of the error. -/
def rescue (x : EStateM ε σ α) (handle : ε → Option (EStateM ε σ α)) : EStateM ε σ α := fun s =>
  match x s with
  | .ok a s' => .ok a s'
  | .error e s' =>
    match handle e with
    | some y => y s'
    | none => .error e s'

/-! ## Results -/

variable {e : ε} {y x : EStateM ε σ α} {f : α → EStateM ε σ β} {s' s : σ}

section Results

theorem bind_ok {a : α} (h : x s = .ok a s') : (x >>= f) s = f a s' := by
  change EStateM.bind x f s = _
  rw [EStateM.bind, h]

theorem bind_error (h : x s = .error e s') : (x >>= f) s = .error e s' := by
  change EStateM.bind x f s = _
  rw [EStateM.bind, h]

theorem bind_congr_of_eq (h : x s = y s) : (x >>= f) s = (y >>= f) s := by
  change EStateM.bind x f s = EStateM.bind y f s
  rw [EStateM.bind, EStateM.bind, h]

theorem get_bind {g : σ → EStateM ε σ β} : (get >>= g) s = g s s := rfl

/-- A sequence that succeeds succeeds in both parts. -/
theorem bind_eq_ok {b : β} (h : (x >>= f) s = .ok b s') :
    ∃ a s₁, x s = .ok a s₁ ∧ f a s₁ = .ok b s' := by
  cases first : x s with
  | ok a s₁ =>
    rw [bind_ok first] at h
    exact ⟨a, s₁, rfl, h⟩
  | error e s₁ =>
    rw [bind_error first] at h
    cases h

end Results

/-! ## Preconditions -/

variable {c : Prop} {Q : α → σ → Prop} {R : ε → σ → Prop}

section Equations

variable {Q' : β → σ → Prop}

@[simp] theorem wp_pure {a : α} : wp (pure a) Q R s ↔ Q a s := Iff.rfl

@[simp] theorem wp_throw : wp (throw e) Q R s ↔ R e s := Iff.rfl

@[simp] theorem wp_get {Q : σ → σ → Prop} : wp get Q R s ↔ Q s s := Iff.rfl

@[simp] theorem wp_set {Q : PUnit → σ → Prop} : wp (set s') Q R s ↔ Q ⟨⟩ s' := Iff.rfl

@[simp] theorem wp_modify {g : σ → σ} {Q : PUnit → σ → Prop} :
    wp (modify g) Q R s ↔ Q ⟨⟩ (g s) := Iff.rfl

@[simp] theorem wp_bind : wp (x >>= f) Q' R s ↔ wp x (fun a => wp (f a) Q' R) R s := by
  simp only [wp, bind, EStateM.bind]
  cases x s <;> rfl

@[simp] theorem wp_map {g : α → β} : wp (g <$> x) Q' R s ↔ wp x (fun a => Q' (g a)) R s := by
  simp only [wp, Functor.map, EStateM.map]
  cases x s <;> rfl

@[simp] theorem wp_ite [Decidable c] :
    wp (if c then x else y) Q R s ↔ (c → wp x Q R s) ∧ (¬ c → wp y Q R s) := by
  by_cases h : c <;> simp [h]

@[simp] theorem wp_lift {r : Except ε α} :
    wp (lift r) Q R s ↔ (∀ a, r = .ok a → Q a s) ∧ (∀ e, r = .error e → R e s) := by
  cases r <;> simp [lift]

@[simp] theorem wp_require [Decidable c] {Q : Unit → σ → Prop} :
    wp (require c e) Q R s ↔ (c → Q () s) ∧ (¬ c → R e s) := by
  by_cases h : c <;> simp [require]

@[simp] theorem wp_expect {o : Option α} :
    wp (expect o e) Q R s ↔ (∀ a, o = some a → Q a s) ∧ (o = none → R e s) := by
  cases o <;> simp [expect]

theorem wp_expect_some {a : α} : wp (expect (some a) e) Q R s ↔ Q a s := Iff.rfl

theorem wp_zoom {part : σ → τ} {update : σ → τ → σ} {x : EStateM ε τ α} :
    wp (zoom part update x) Q R s ↔
      wp x (fun a t => Q a (update s t)) (fun e t => R e (update s t)) (part s) := by
  simp only [wp, zoom]
  cases x (part s) <;> rfl

theorem wp_rescue {handle : ε → Option (EStateM ε σ α)} : wp (rescue x handle) Q R s ↔
      wp x Q (fun e s' =>
        (∀ y, handle e = some y → wp y Q R s') ∧ (handle e = none → R e s')) s := by
  simp only [wp, rescue]
  cases x s with
  | ok a s' => rfl
  | error e s' => cases handled : handle e <;> simp [handled]

end Equations

section Rules

variable {Q' : α → σ → Prop} {R' : ε → σ → Prop} {a : α} {I : σ → Prop}

theorem wp_mono (h : wp x Q R s)
    (ok : ∀ a s', Q a s' → Q' a s') (error : ∀ e s', R e s' → R' e s') : wp x Q' R' s := by
  unfold wp at h ⊢
  cases result : x s with
  | ok a s' => exact ok a s' (by simpa [result] using h)
  | error e s' => exact error e s' (by simpa [result] using h)

/-- What is known after the first part is where the rest starts. -/
theorem wp_seq {f : α → EStateM ε σ β} {Q' : β → σ → Prop} (first : wp x Q R s)
    (rest : ∀ a s', Q a s' → wp (f a) Q' R s') : wp (x >>= f) Q' R s :=
  wp_bind.mpr (wp_mono first rest fun _ _ h => h)

theorem wp_require_bind [Decidable c] {f : Unit → EStateM ε σ β} {Q : β → σ → Prop}
    (refused : R e s) (rest : c → wp (f ()) Q R s) : wp (require c e >>= f) Q R s :=
  wp_bind.mpr (wp_require.mpr ⟨rest, fun _ => refused⟩)

theorem wp_and (h : wp x Q R s) (h' : wp x Q' R' s) :
    wp x (fun a s' => Q a s' ∧ Q' a s') (fun e s' => R e s' ∧ R' e s') s := by
  unfold wp at h h' ⊢
  cases result : x s with
  | ok a s' | error e s' => exact ⟨by simpa [result] using h, by simpa [result] using h'⟩

theorem wp_iff : wp x Q R s ↔
    (∀ a s', x s = .ok a s' → Q a s') ∧ ∀ e s', x s = .error e s' → R e s' := by
  unfold wp
  cases x s with
  | ok a s' | error e s' => simp

theorem wp_ok (h : wp x Q R s) (result : x s = .ok a s') : Q a s' := by
  simpa [wp, result] using h

theorem wp_of_ok (result : x s = .ok a s') (h : Q a s') : wp x Q R s := by
  simpa [wp, result] using h

theorem wp_error (h : wp x Q R s) (result : x s = .error e s') : R e s' := by
  simpa [wp, result] using h

theorem wp_resultState (h : wp x (fun _ => I) (fun _ => I) s) : I (resultState (x s)) := by
  unfold wp at h
  cases result : x s with
  | ok a s' | error e s' =>
    rw [result] at h
    exact h

/-- A loop keeps what every pass keeps. -/
theorem wp_forM {f : β → EStateM ε σ PUnit} {l : List β}
    (pass : ∀ b ∈ l, ∀ s, I s → wp (f b) (fun _ => I) R s) (start : I s) :
    wp (l.forM f) (fun _ => I) R s := by
  induction l generalizing s with
  | nil => exact start
  | cons b l ih =>
    have rest : ∀ s, I s → wp (l.forM f) (fun _ => I) R s := fun s =>
      ih fun b mem => pass b (List.mem_cons_of_mem _ mem)
    exact wp_seq (pass b List.mem_cons_self s start) fun _ => rest

end Rules

/-! ## Effects -/

/-- Every run of `x` is a step of `P`, and fails only with errors in `G`. -/
def Obeys (P : σ → σ → Prop) (G : ε → Prop) (x : EStateM ε σ α) : Prop :=
  ∀ s, wp x (fun _ s' => P s s') (fun e s' => P s s' ∧ G e) s

theorem Obeys.mono {P P' : σ → σ → Prop} {G G' : ε → Prop} {x : EStateM ε σ α}
    (h : Obeys P G x) (weaker : ∀ s s', P s s' → P' s s') (errors : ∀ e, G e → G' e) :
    Obeys P' G' x := by
  intro s
  exact wp_mono (h s) (fun _ s' => weaker s s')
    fun e s' step => ⟨weaker s s' step.1, errors e step.2⟩

/-- A relation between states that describes what any number of steps may do. -/
class Effect (P : σ → σ → Prop) : Prop where
  refl : ∀ s, P s s
  trans : ∀ {s₁ s₂ s₃}, P s₁ s₂ → P s₂ s₃ → P s₁ s₃

section Effects

variable {P : σ → σ → Prop} {G : ε → Prop} [Effect P]

theorem obeys_pure (a : α) : Obeys P G (pure a : EStateM ε σ α) := fun s => Effect.refl s

theorem obeys_throw (h : G e) : Obeys P G (throw e : EStateM ε σ α) :=
  fun s => ⟨Effect.refl s, h⟩

theorem obeys_get : Obeys P G (get : EStateM ε σ σ) := fun s => Effect.refl s

omit [Effect P] in
theorem obeys_modify {g : σ → σ} (h : ∀ s, P s (g s)) :
    Obeys P G (modify g : EStateM ε σ PUnit) := h

theorem obeys_bind {f : α → EStateM ε σ β} (first : Obeys P G x)
    (second : ∀ a, Obeys P G (f a)) : Obeys P G (x >>= f) := by
  intro s
  apply wp_seq (first s)
  intro a s' step
  apply wp_mono (second a s')
  · intro _ s'' step'
    exact Effect.trans step step'
  · intro e s'' h
    exact ⟨Effect.trans step h.1, h.2⟩

omit [Effect P] in
/-- The state is read: the rest is looked at from that state only. -/
theorem obeys_get_bind {f : σ → EStateM ε σ β}
    (h : ∀ s, wp (f s) (fun _ s' => P s s') (fun e s' => P s s' ∧ G e) s) :
    Obeys P G (get >>= f) := by
  intro s
  exact h s

theorem obeys_lift {r : Except ε α} (h : ∀ e, r = .error e → G e) :
    Obeys P G (lift r : EStateM ε σ α) := by
  intro s
  rw [wp_lift]
  exact ⟨fun _ _ => Effect.refl s, fun e he => ⟨Effect.refl s, h e he⟩⟩

theorem obeys_require [Decidable c] (h : G e) : Obeys P G (require c e : EStateM ε σ Unit) := by
  intro s
  rw [wp_require]
  exact ⟨fun _ => Effect.refl s, fun _ => ⟨Effect.refl s, h⟩⟩

theorem obeys_expect {o : Option α} (h : G e) : Obeys P G (expect o e : EStateM ε σ α) := by
  intro s
  rw [wp_expect]
  exact ⟨fun _ _ => Effect.refl s, fun _ => ⟨Effect.refl s, h⟩⟩

omit [Effect P] in
theorem obeys_ite [Decidable c] (hx : Obeys P G x) (hy : Obeys P G y) :
    Obeys P G (if c then x else y) := by
  by_cases h : c
  · simpa only [h, if_true] using hx
  · simpa only [h, if_false] using hy

theorem obeys_forM {f : β → EStateM ε σ PUnit} {l : List β} (pass : ∀ b ∈ l, Obeys P G (f b)) :
    Obeys P G (l.forM f) := by
  induction l with
  | nil => exact obeys_pure _
  | cons b l ih =>
    apply obeys_bind (pass b List.mem_cons_self)
    intro _
    exact ih fun b mem => pass b (List.mem_cons_of_mem _ mem)

end Effects

end Wp
