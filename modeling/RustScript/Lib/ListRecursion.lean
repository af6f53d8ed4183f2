import Mathlib

/-!
# Functions that recurse over a list

A recursion over trees also goes through their lists of children.  There it adds up
(`eq_sum_of_cons`) or asks the same of each element (`iff_forall_of_cons`).
-/

namespace List

variable {α : Type}

theorem eq_sum_of_cons {M : Type} [AddMonoid M] {f : List α → M} {g : α → M} (nil : f [] = 0)
    (cons : ∀ a l, f (a :: l) = g a + f l) (l : List α) : f l = (l.map g).sum := by
  induction l with
  | nil => exact nil
  | cons a l ih => rw [cons, ih, map_cons, sum_cons]

theorem iff_forall_of_cons {P : List α → Prop} {Q : α → Prop} (nil : P [])
    (cons : ∀ a l, P (a :: l) ↔ Q a ∧ P l) (l : List α) : P l ↔ ∀ a ∈ l, Q a := by
  induction l with
  | nil => exact iff_of_true nil nofun
  | cons a l ih => rw [cons, ih, forall_mem_cons]

end List
