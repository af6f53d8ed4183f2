import Mathlib

/-!
# Fallible passes over lists

Inversion and invariant rules for computations in `Except`: what a successful
sequence, a successful map and a successful fold consist of.  A fold keeps every
invariant that ties its state to the elements it has consumed
(`foldlM_invariant`).
-/

namespace Fallible

open List

universe u v

/-- A sequence of fallible steps succeeds when both steps do. -/
theorem bind_eq_ok {ε : Type u} {α β : Type v} {x : Except ε α} {f : α → Except ε β} {b : β} :
    x >>= f = .ok b ↔ ∃ a, x = .ok a ∧ f a = .ok b := by
  cases x with
  | error e | ok a => simp [bind, Except.bind]

variable {ε α β σ : Type} {f : α → Except ε β}

theorem pure_eq_ok {a b : α} : (pure a : Except ε α) = .ok b ↔ a = b :=
  ⟨fun h => by cases h; rfl, fun h => h ▸ rfl⟩

/-- A successful map pairs every element with its result. -/
theorem forall₂_of_mapM : ∀ {xs : List α} {ys : List β}, xs.mapM f = .ok ys →
      Forall₂ (fun x y => f x = .ok y) xs ys
  | [], ys, h => by
      cases pure_eq_ok.mp h
      exact .nil
  | x :: xs, ys, h => by
      rw [mapM_cons] at h
      obtain ⟨y, atHead, rest⟩ := bind_eq_ok.mp h
      obtain ⟨zs, atTail, done⟩ := bind_eq_ok.mp rest
      cases pure_eq_ok.mp done
      exact .cons atHead (forall₂_of_mapM atTail)

variable {xs : List α} {ys : List β}

theorem map_eq_of_forall₂ {g : α → σ} {h : β → σ}
    (paired : Forall₂ (fun x y => h y = g x) xs ys) : ys.map h = xs.map g := by
  induction paired with
  | nil => rfl
  | cons atHead _ ih => rw [map_cons, map_cons, atHead, ih]

/-- A loop of checks succeeds when every check does. -/
theorem forM_eq_ok {f : α → Except ε Unit} : xs.forM f = .ok () ↔ ∀ x ∈ xs, f x = .ok () := by
  induction xs with
  | nil => simp [pure, Except.pure]
  | cons x xs ih =>
    change (f x >>= fun _ => xs.forM f) = _ ↔ _
    rw [bind_eq_ok, forall_mem_cons]
    constructor
    · rintro ⟨_, first, rest⟩
      exact ⟨first, ih.mp rest⟩
    · rintro ⟨first, rest⟩
      exact ⟨(), first, ih.mpr rest⟩

/-- An invariant between the consumed elements and the state of a fold. -/
theorem foldlM_invariant {f : σ → α → Except ε σ} {I : List α → σ → Prop}
    (step : ∀ {consumed x s s'}, I consumed s → f s x = .ok s' → I (consumed ++ [x]) s') :
    ∀ {xs : List α} {consumed : List α} {s s' : σ}, I consumed s → xs.foldlM f s = .ok s' →
      I (consumed ++ xs) s'
  | [], consumed, s, s', holds, h => by
      cases pure_eq_ok.mp h
      rwa [append_nil]
  | x :: xs, consumed, s, s', holds, h => by
      obtain ⟨mid, first, rest⟩ := bind_eq_ok.mp h
      have next := foldlM_invariant step (step holds first) rest
      rwa [append_assoc, singleton_append] at next

end Fallible
