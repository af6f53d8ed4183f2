import RustScript.Lib.ListRecursion

/-!
# Finite maps as sorted association lists

A finite map over a linearly ordered key type has one canonical representation:
its entries in increasing key order (`SortedKeys`).  Two maps with the same
entries are then equal lists, whatever order the entries were inserted in, so a
hash map whose iteration order is never observed can be represented this way.

`insertKey` inserts or replaces an entry.  Inserting entries that already come
in increasing order rebuilds the list (`insertAll_of_sorted`), inserting keeps the
list sorted (`insertAll_sorted`), and the weight of the map never exceeds the
weight of what was inserted (`sum_insertAll`, `length_insertAll_le`).
-/

namespace SortedAssoc

open List

variable {κ ν : Type} [LinearOrder κ]

/-- The keys increase strictly. -/
def SortedKeys (es : List (κ × ν)) : Prop := es.Pairwise fun a b => a.1 < b.1

/-- Insert an entry at its place, replacing the value of an equal key. -/
def insertKey (k : κ) (v : ν) : List (κ × ν) → List (κ × ν)
  | [] => [(k, v)]
  | (k', v') :: es =>
    if k < k' then (k, v) :: (k', v') :: es
    else if k = k' then (k', v) :: es
    else (k', v') :: insertKey k v es

/-- Insert a list of entries from left to right. -/
def insertAll (es : List (κ × ν)) (m : List (κ × ν)) : List (κ × ν) :=
  es.foldl (fun m e => insertKey e.1 e.2 m) m

variable {m : List (κ × ν)} {k : κ} {v : ν} {e : κ × ν}

theorem mem_insertKey (h : e ∈ insertKey k v m) : e = (k, v) ∨ e ∈ m := by
  induction m with
  | nil =>
    simp only [insertKey, mem_singleton] at h
    exact Or.inl h
  | cons x m ih =>
    simp only [insertKey] at h
    split at h
    · rcases mem_cons.mp h with rfl | h
      · exact Or.inl rfl
      · exact Or.inr h
    · split at h
      · rename_i _ hk
        rcases mem_cons.mp h with rfl | h
        · exact Or.inl (by rw [hk])
        · exact Or.inr (mem_cons_of_mem _ h)
      · rcases mem_cons.mp h with rfl | h
        · exact Or.inr (by simp)
        · rcases ih h with rfl | h
          · exact Or.inl rfl
          · exact Or.inr (mem_cons_of_mem _ h)

theorem insertKey_sorted (h : SortedKeys m) : SortedKeys (insertKey k v m) := by
  induction m with
  | nil => exact pairwise_singleton _ _
  | cons x m ih =>
    obtain ⟨below, tail⟩ := pairwise_cons.mp h
    simp only [insertKey]
    split
    · rename_i lt
      refine pairwise_cons.mpr ⟨?_, h⟩
      intro e he
      rcases mem_cons.mp he with rfl | he
      · exact lt
      · exact lt.trans (below e he)
    · split
      · exact pairwise_cons.mpr ⟨fun e he => below e he, tail⟩
      · rename_i nlt ne
        refine pairwise_cons.mpr ⟨?_, ih tail⟩
        intro e he
        rcases mem_insertKey he with rfl | he
        · exact lt_of_le_of_ne (not_lt.mp nlt) (Ne.symm ne)
        · exact below e he

variable {es : List (κ × ν)}

theorem insertAll_sorted (h : SortedKeys m) : SortedKeys (insertAll es m) := by
  induction es generalizing m with
  | nil => exact h
  | cons e es ih => exact ih (insertKey_sorted h)

theorem mem_insertAll (h : e ∈ insertAll es m) : e ∈ es ∨ e ∈ m := by
  induction es generalizing m with
  | nil => exact Or.inr h
  | cons x es ih =>
    rcases ih h with h | h
    · exact Or.inl (mem_cons_of_mem _ h)
    · rcases mem_insertKey h with rfl | h
      · exact Or.inl (by simp)
      · exact Or.inr h

/-- A key above all present keys goes to the end. -/
theorem insertKey_append (h : ∀ e ∈ m, e.1 < k) : insertKey k v m = m ++ [(k, v)] := by
  induction m with
  | nil => rfl
  | cons x m ih =>
    obtain ⟨k', v'⟩ := x
    have lt : k' < k := h (k', v') (by simp)
    simp only [insertKey, if_neg (not_lt.mpr lt.le), if_neg lt.ne', cons_append]
    rw [ih fun e he => h e (by simp [he])]

theorem insertAll_append (h : SortedKeys (m ++ es)) : insertAll es m = m ++ es := by
  induction es generalizing m with
  | nil => simp [insertAll]
  | cons x es ih =>
    have above : ∀ e ∈ m, e.1 < x.1 := fun e he =>
      (pairwise_append.mp h).2.2 e he x (by simp)
    change insertAll es (insertKey x.1 x.2 m) = _
    rw [insertKey_append above, ih (by simpa using h)]
    simp

/-- Entries that already come in key order rebuild the map they came from. -/
theorem insertAll_of_sorted (h : SortedKeys es) : insertAll es [] = es :=
  insertAll_append (by simpa using h)

/-! ## Weights -/

section Weight

variable {β : Type} [AddCommMonoid β]

theorem sum_insertKey (f : κ × ν → β) {k : κ} {v : ν} {m : List (κ × ν)} :
    ∃ slack, f (k, v) + (m.map f).sum = ((insertKey k v m).map f).sum + slack := by
  induction m with
  | nil => exact ⟨0, by simp [insertKey]⟩
  | cons x m ih =>
    obtain ⟨k', v'⟩ := x
    simp only [insertKey]
    split
    · exact ⟨0, by simp⟩
    · split
      · rename_i _ hk
        subst hk
        refine ⟨f (k, v'), ?_⟩
        simp only [map_cons, sum_cons]
        rw [add_comm (f (k, v')), add_assoc]
      · obtain ⟨slack, hs⟩ := ih
        refine ⟨slack, ?_⟩
        simp only [map_cons, sum_cons]
        rw [add_left_comm, hs, add_assoc]

/-- What was inserted weighs at least as much as the map it became. -/
theorem sum_insertAll (f : κ × ν → β) (es m : List (κ × ν)) :
    ∃ slack, (es.map f).sum + (m.map f).sum = ((insertAll es m).map f).sum + slack := by
  induction es generalizing m with
  | nil => exact ⟨0, by simp [insertAll]⟩
  | cons x es ih =>
    obtain ⟨slack, hs⟩ := sum_insertKey f
    obtain ⟨slack', hs'⟩ := ih (insertKey x.1 x.2 m)
    refine ⟨slack' + slack, ?_⟩
    change _ = ((insertAll es (insertKey x.1 x.2 m)).map f).sum + _
    rw [← add_assoc, ← hs', add_assoc, ← hs, map_cons, sum_cons]
    rw [add_comm (f x), add_assoc]

end Weight

theorem length_insertAll_le (es m : List (κ × ν)) :
    (insertAll es m).length ≤ es.length + m.length := by
  obtain ⟨slack, hs⟩ := sum_insertAll (fun _ => 1) es m
  simp only [map_const', sum_replicate_nat] at hs
  omega

end SortedAssoc
