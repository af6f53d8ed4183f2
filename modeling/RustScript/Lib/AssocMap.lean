import RustScript.Lib.ListRecursion

/-!
# Finite maps as association lists

A finite map whose keys are compared by an arbitrary test `same`, represented by
the list of its entries in the order of first insertion.  Inserting an existing
key replaces its value and keeps the key that is there.

The map built from a list of entries has distinct keys
(`fromEntries_keysDistinct`), is the list itself when its keys are distinct
already (`fromEntries_of_keysDistinct`), and weighs no more than the entries it
was built from (`sum_fromEntries`).
-/

namespace AssocMap

open List

variable {κ ν : Type} (same : κ → κ → Bool)

/-- Insert an entry at the end, or replace the value of the key that is there. -/
def insert (m : List (κ × ν)) (key : κ) (value : ν) : List (κ × ν) :=
  match m with
  | [] => [(key, value)]
  | (k, v) :: rest =>
    if same k key then (k, value) :: rest else (k, v) :: insert rest key value

/-- Insert the entries from left to right. -/
def insertAll (m : List (κ × ν)) (entries : List (κ × ν)) : List (κ × ν) :=
  entries.foldl (fun m e => insert same m e.1 e.2) m

def fromEntries (entries : List (κ × ν)) : List (κ × ν) := insertAll same [] entries

/-- No later entry repeats the key of an earlier one. -/
def KeysDistinct (m : List (κ × ν)) : Prop := m.Pairwise fun a b => same a.1 b.1 = false

variable {same} {m : List (κ × ν)} {value : ν} {key : κ}

theorem mem_insert {e : κ × ν} (h : e ∈ insert same m key value) :
    e ∈ m ∨ (e.2 = value ∧ (e.1 = key ∨ ∃ v, (e.1, v) ∈ m)) := by
  induction m with
  | nil =>
    simp only [insert, mem_singleton] at h
    subst h
    exact Or.inr ⟨rfl, Or.inl rfl⟩
  | cons x m ih =>
    obtain ⟨k, v⟩ := x
    simp only [insert] at h
    split at h
    · rcases mem_cons.mp h with rfl | h
      · exact Or.inr ⟨rfl, Or.inr ⟨v, by simp⟩⟩
      · exact Or.inl (mem_cons_of_mem _ h)
    · rcases mem_cons.mp h with rfl | h
      · exact Or.inl (by simp)
      · rcases ih h with h | ⟨hv, hk | ⟨w, hw⟩⟩
        · exact Or.inl (mem_cons_of_mem _ h)
        · exact Or.inr ⟨hv, Or.inl hk⟩
        · exact Or.inr ⟨hv, Or.inr ⟨w, mem_cons_of_mem _ hw⟩⟩

variable {entries : List (κ × ν)}

/-- Keys and values of the map built from `entries` are keys and values of `entries`. -/
theorem mem_insertAll {P : κ → Prop} {Q : ν → Prop} (hm : ∀ e ∈ m, P e.1 ∧ Q e.2)
    (he : ∀ e ∈ entries, P e.1 ∧ Q e.2) : ∀ e ∈ insertAll same m entries, P e.1 ∧ Q e.2 := by
  induction entries generalizing m with
  | nil => exact hm
  | cons x entries ih =>
    refine ih (m := insert same m x.1 x.2) ?_ fun e h => he e (mem_cons_of_mem _ h)
    intro e h
    have hx := he x (by simp)
    rcases mem_insert h with h | ⟨hv, hk | ⟨w, hw⟩⟩
    · exact hm e h
    · exact ⟨hk ▸ hx.1, hv ▸ hx.2⟩
    · exact ⟨(hm _ hw).1, hv ▸ hx.2⟩

/-- A key that is not there yet goes to the end. -/
theorem insert_append (h : ∀ e ∈ m, same e.1 key = false) :
    insert same m key value = m ++ [(key, value)] := by
  induction m with
  | nil => rfl
  | cons x m ih =>
    obtain ⟨k, v⟩ := x
    have hk : same k key = false := h (k, v) (by simp)
    have rest := ih fun e he => h e (mem_cons_of_mem _ he)
    simp [insert, hk, rest]

theorem insertAll_append (h : KeysDistinct same (m ++ entries)) :
    insertAll same m entries = m ++ entries := by
  induction entries generalizing m with
  | nil => simp [insertAll]
  | cons x entries ih =>
    have fresh : ∀ e ∈ m, same e.1 x.1 = false := fun e he =>
      (pairwise_append.mp h).2.2 e he x (by simp)
    change insertAll same (insert same m x.1 x.2) entries = _
    rw [insert_append fresh, ih (by simpa using h)]
    simp

theorem fromEntries_of_keysDistinct (h : KeysDistinct same entries) :
    fromEntries same entries = entries :=
  insertAll_append (by simpa using h)

/-- Inserting changes the keys only by adding the new one when it is fresh. -/
theorem insert_keys {same : κ → κ → Bool} {m : List (κ × ν)} {value : ν} :
    (insert same m key value).map Prod.fst = m.map Prod.fst ∨ (∀ e ∈ m, same e.1 key = false) ∧
        (insert same m key value).map Prod.fst = m.map Prod.fst ++ [key] := by
  induction m with
  | nil => exact Or.inr ⟨by simp, rfl⟩
  | cons x m ih =>
    simp only [insert]
    split
    · exact Or.inl rfl
    · rename_i hk
      rcases ih with ih | ⟨fresh, ih⟩
      · exact Or.inl (by simp [ih])
      · refine Or.inr ⟨?_, by simp [ih]⟩
        intro e he
        rcases mem_cons.mp he with rfl | he
        · simpa using hk
        · exact fresh e he

/-- Inserting keeps two maps paired entry by entry. -/
theorem insert_forall₂ {κ' ν' : Type} {same' : κ' → κ' → Bool} {m' : List (κ' × ν')} {key' : κ'}
    {value' : ν'} {R : κ × ν → κ' × ν' → Prop} (pairs : Forall₂ R m m')
    (keys : ∀ e e', R e e' → same e.1 key = same' e'.1 key')
    (replaced : ∀ e e', R e e' → R (e.1, value) (e'.1, value'))
    (new : R (key, value) (key', value')) :
    Forall₂ R (insert same m key value) (insert same' m' key' value') := by
  induction pairs with
  | nil => exact .cons new .nil
  | @cons e e' m m' pair pairs ih =>
    simp only [insert, keys e e' pair]
    split
    · exact .cons (replaced e e' pair) pairs
    · exact .cons pair ih

theorem keysDistinct_iff :
    KeysDistinct same m ↔ (m.map Prod.fst).Pairwise fun a b => same a b = false := by
  rw [pairwise_map]
  rfl

theorem insert_keysDistinct (h : KeysDistinct same m) :
    KeysDistinct same (insert same m key value) := by
  rw [keysDistinct_iff] at h ⊢
  rcases insert_keys with hk | ⟨fresh, hk⟩
  · rwa [hk]
  · rw [hk]
    refine pairwise_append.mpr ⟨h, pairwise_singleton _ _, ?_⟩
    intro a ha b hb
    obtain ⟨e, he, rfl⟩ := mem_map.mp ha
    rw [mem_singleton.mp hb]
    exact fresh e he

theorem insertAll_keysDistinct (h : KeysDistinct same m) :
    KeysDistinct same (insertAll same m entries) := by
  induction entries generalizing m with
  | nil => exact h
  | cons x entries ih => exact ih (insert_keysDistinct h)

theorem fromEntries_keysDistinct (same : κ → κ → Bool) (entries : List (κ × ν)) :
    KeysDistinct same (fromEntries same entries) :=
  insertAll_keysDistinct List.Pairwise.nil

/-! ## Weights -/

section Weight

variable {β : Type} [AddCommMonoid β] (same : κ → κ → Bool) (f : κ → β) (g : ν → β)

/-- The weight of an entry is the weight of its key and of its value. -/
def entryWeight (e : κ × ν) : β := f e.1 + g e.2

theorem sum_insert (m : List (κ × ν)) (key : κ) (value : ν) :
    ∃ slack, (m.map (entryWeight f g)).sum + (f key + g value) =
      ((insert same m key value).map (entryWeight f g)).sum + slack := by
  induction m with
  | nil => exact ⟨0, by simp [insert, entryWeight]⟩
  | cons x m ih =>
    obtain ⟨k, v⟩ := x
    simp only [insert]
    split
    · refine ⟨g v + f key, ?_⟩
      simp only [map_cons, sum_cons, entryWeight]
      ac_rfl
    · obtain ⟨slack, hs⟩ := ih
      refine ⟨slack, ?_⟩
      simp only [map_cons, sum_cons]
      rw [add_assoc, hs, add_assoc]

theorem sum_insertAll (m entries : List (κ × ν)) :
    ∃ slack, (m.map (entryWeight f g)).sum + (entries.map (entryWeight f g)).sum =
      ((insertAll same m entries).map (entryWeight f g)).sum + slack := by
  induction entries generalizing m with
  | nil => exact ⟨0, by simp [insertAll]⟩
  | cons x entries ih =>
    obtain ⟨slack, hs⟩ := sum_insert same f g m x.1 x.2
    obtain ⟨slack', hs'⟩ := ih (insert same m x.1 x.2)
    refine ⟨slack' + slack, ?_⟩
    change _ = ((insertAll same (insert same m x.1 x.2) entries).map _).sum + _
    rw [← add_assoc, ← hs', map_cons, sum_cons, ← add_assoc]
    change _ + (f x.1 + g x.2) + _ = _
    rw [hs]
    ac_rfl

theorem length_insertAll_le (m entries : List (κ × ν)) :
    (insertAll same m entries).length ≤ m.length + entries.length := by
  obtain ⟨slack, hs⟩ := sum_insertAll same (fun _ => 1) (fun _ => 0) m entries
  unfold entryWeight at hs
  simp only [map_const', sum_replicate_nat] at hs
  omega

/-- The map weighs no more than the entries it was built from. -/
theorem sum_fromEntries (entries : List (κ × ν)) : ∃ slack, (entries.map (entryWeight f g)).sum =
      ((fromEntries same entries).map (entryWeight f g)).sum + slack := by
  obtain ⟨slack, hs⟩ := sum_insertAll same f g [] _
  exact ⟨slack, by simpa [fromEntries] using hs⟩

end Weight

section Strict

variable {same : κ → κ → Bool} {f : κ → Nat} {g : ν → Nat}

/-- A key that is there already loses weight. -/
theorem fresh_of_sum_insert (hf : ∀ k, 0 < f k) {key : κ}
    (h : ((insert same m key value).map (entryWeight f g)).sum =
      (m.map (entryWeight f g)).sum + (f key + g value)) : ∀ e ∈ m, same e.1 key = false := by
  induction m with
  | nil => exact fun e he => absurd he not_mem_nil
  | cons x m ih =>
    obtain ⟨k, v⟩ := x
    have pos := hf key
    simp only [insert] at h
    by_cases hit : same k key = true
    · simp only [hit, if_true, map_cons, sum_cons, entryWeight] at h
      omega
    · simp only [hit, if_false, Bool.false_eq_true, map_cons, sum_cons] at h
      intro e he
      rcases mem_cons.mp he with rfl | he
      · simpa using hit
      · exact ih (by omega) e he

theorem keysDistinct_of_sum_insertAll (hf : ∀ k, 0 < f k) (hm : KeysDistinct same m)
    (h : ((insertAll same m entries).map (entryWeight f g)).sum =
      (m.map (entryWeight f g)).sum + (entries.map (entryWeight f g)).sum) :
    KeysDistinct same (m ++ entries) := by
  induction entries generalizing m with
  | nil => simpa using hm
  | cons x entries ih =>
    change ((insertAll same (insert same m x.1 x.2) entries).map _).sum = _ at h
    obtain ⟨slack, hs⟩ := sum_insert same f g m x.1 x.2
    obtain ⟨slack', hs'⟩ := sum_insertAll same f g (insert same m x.1 x.2) entries
    have weight : entryWeight f g x = f x.1 + g x.2 := rfl
    rw [map_cons, sum_cons] at h
    have kept : ((insert same m x.1 x.2).map (entryWeight f g)).sum =
        (m.map (entryWeight f g)).sum + (f x.1 + g x.2) := by omega
    have appended : insert same m x.1 x.2 = m ++ [x] :=
      insert_append (fresh_of_sum_insert hf kept)
    have rest := ih (m := insert same m x.1 x.2) (insert_keysDistinct hm) (by omega)
    rwa [appended, append_assoc] at rest

/-- When building the map loses no weight, no key was repeated. -/
theorem keysDistinct_of_sum_fromEntries (hf : ∀ k, 0 < f k)
    (h : ((fromEntries same entries).map (entryWeight f g)).sum =
      (entries.map (entryWeight f g)).sum) : KeysDistinct same entries := by
  have whole : KeysDistinct same ([] ++ entries) :=
    keysDistinct_of_sum_insertAll hf List.Pairwise.nil (by simpa [fromEntries] using h)
  simpa using whole

end Strict

end AssocMap
