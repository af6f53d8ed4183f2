import RustScript.Lib.Wp

/-!
# Two computations side by side

`Coupled Q F x y s t` says that `x` from `s` and `y` from `t` both end with a value, in
`Q`, or both fail, in `F`.  The two may act on different states, and their values and
errors may be of different types.  Coupled computations compose (`Coupled.bind`), and
what one of them does is read off the other (`Coupled.ok`, `Coupled.error`).
-/

namespace Wp

variable {ε δ σ τ α β α' β' : Type}

/-- Both succeed in `Q`, or both fail in `F`. -/
def Coupled (Q : α → σ → β → τ → Prop) (F : ε → σ → δ → τ → Prop) (x : EStateM ε σ α)
    (y : EStateM δ τ β) (s : σ) (t : τ) : Prop :=
  match x s, y t with
  | .ok a s', .ok b t' => Q a s' b t'
  | .error e s', .error d t' => F e s' d t'
  | _, _ => False

variable {Q : α → σ → β → τ → Prop} {F : ε → σ → δ → τ → Prop} {x : EStateM ε σ α}
  {y : EStateM δ τ β} {s : σ} {t : τ}

theorem Coupled.mono {Q' : α → σ → β → τ → Prop} {F' : ε → σ → δ → τ → Prop}
    (h : Coupled Q F x y s t) (ok : ∀ a s' b t', Q a s' b t' → Q' a s' b t')
    (error : ∀ e s' d t', F e s' d t' → F' e s' d t') : Coupled Q' F' x y s t := by
  unfold Coupled at h ⊢
  cases left : x s with
  | ok a s' =>
    cases right : y t with
    | ok b t' =>
      simp only [left, right] at h
      exact ok a s' b t' h
    | error d t' => simp [left, right] at h
  | error e s' =>
    cases right : y t with
    | ok b t' => simp [left, right] at h
    | error d t' =>
      simp only [left, right] at h
      exact error e s' d t' h

theorem Coupled.bind {P : α → σ → β → τ → Prop} {Q : α' → σ → β' → τ → Prop}
    {f : α → EStateM ε σ α'} {g : β → EStateM δ τ β'} (first : Coupled P F x y s t)
    (second : ∀ a s' b t', P a s' b t' → Coupled Q F (f a) (g b) s' t') :
    Coupled Q F (x >>= f) (y >>= g) s t := by
  unfold Coupled at first
  cases left : x s with
  | ok a s' =>
    cases right : y t with
    | ok b t' =>
      simp only [left, right] at first
      have rest := second a s' b t' first
      unfold Coupled at rest ⊢
      simpa only [Bind.bind, EStateM.bind, left, right] using rest
    | error d t' => simp [left, right] at first
  | error e s' =>
    cases right : y t with
    | ok b t' => simp [left, right] at first
    | error d t' =>
      unfold Coupled
      simpa only [Bind.bind, EStateM.bind, left, right] using first

theorem Coupled.ok (h : Coupled Q F x y s t) {a : α} {s' : σ} (left : x s = .ok a s') :
    ∃ b t', y t = .ok b t' ∧ Q a s' b t' := by
  unfold Coupled at h
  cases right : y t with
  | ok b t' =>
    simp only [left, right] at h
    exact ⟨b, t', rfl, h⟩
  | error d t' => simp [left, right] at h

theorem Coupled.error (h : Coupled Q F x y s t) {e : ε} {s' : σ} (left : x s = .error e s') :
    ∃ d t', y t = .error d t' ∧ F e s' d t' := by
  unfold Coupled at h
  cases right : y t with
  | ok b t' => simp [left, right] at h
  | error d t' =>
    simp only [left, right] at h
    exact ⟨d, t', rfl, h⟩

theorem Coupled.ok_right (h : Coupled Q F x y s t) {b : β} {t' : τ} (right : y t = .ok b t') :
    ∃ a s', x s = .ok a s' ∧ Q a s' b t' := by
  unfold Coupled at h
  cases left : x s with
  | ok a s' =>
    simp only [left, right] at h
    exact ⟨a, s', rfl, h⟩
  | error e s' => simp [left, right] at h

end Wp
