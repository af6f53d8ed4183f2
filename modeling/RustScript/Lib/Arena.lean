import Mathlib

/-!
# Generational arenas

An arena hands out names for the entries it holds.  A name is a slot number and
a generation; a slot that was released is used again under the next generation,
until its generations are used up.  Only the names matter here, so a slot is its
generation and whether it is occupied.

* `WellFormed` — the counter counts the occupied slots, and the free list holds
  the vacant slots that may be used again, once each;
* `Issued` and `Live` — the names that were ever handed out, and those that name
  an entry now;
* `Evolves` — no name is forgotten, and a name that was issued and is not live
  does not come to life again.

Releasing a slot, using a slot again and adding a slot keep an arena well formed
and are evolutions; the last two issue a name that is new.
-/

/-- A slot: its current generation, and whether it holds an entry. -/
structure ArenaSlot where
  generation : Nat
  occupied : Bool
  deriving DecidableEq, Repr

structure Arena where
  slots : List ArenaSlot
  /-- The free list; the next slot to be used stands first. -/
  vacant : List Nat
  active : Nat
  deriving DecidableEq, Repr

namespace Arena

open List Option

/-! ## Names -/

/-- The name was handed out. -/
def Issued (A : Arena) (index generation : Nat) : Prop :=
  ∃ slot, A.slots[index]? = some slot ∧ 1 ≤ generation ∧ generation ≤ slot.generation

/-- The name stands for an entry. -/
def Live (A : Arena) (index generation : Nat) : Prop :=
  ∃ slot, A.slots[index]? = some slot ∧ slot.generation = generation ∧ slot.occupied = true

/-- A vacant slot whose generations are not used up. -/
def Reusable (limit : Nat) (A : Arena) (index : Nat) : Prop :=
  ∃ slot, A.slots[index]? = some slot ∧ slot.occupied = false ∧ slot.generation < limit

structure WellFormed (limit : Nat) (A : Arena) : Prop where
  active : A.active = A.slots.countP ArenaSlot.occupied
  nodup : A.vacant.Nodup
  vacant : ∀ index, index ∈ A.vacant ↔ A.Reusable limit index
  generations : ∀ slot ∈ A.slots, 1 ≤ slot.generation ∧ slot.generation ≤ limit

structure Evolves (A B : Arena) : Prop where
  issued : ∀ {index generation}, A.Issued index generation → B.Issued index generation
  live : ∀ {index generation}, B.Live index generation → A.Issued index generation →
    A.Live index generation

theorem Evolves.refl (A : Arena) : A.Evolves A := ⟨fun h => h, fun h _ => h⟩

variable {A B : Arena} {limit j : Nat}

theorem Evolves.trans {C : Arena} (first : A.Evolves B) (second : B.Evolves C) : A.Evolves C where
  issued issued := second.issued (first.issued issued)
  live live issued := first.live (second.live live (first.issued issued)) issued

/-! ## The operations -/

/-- Give up an occupied slot; it returns to the free list while it has generations left. -/
def release (limit : Nat) (A : Arena) (index : Nat) : Arena where
  slots := A.slots.modify index fun slot => { slot with occupied := false }
  vacant :=
    match A.slots[index]? with
    | some slot => if slot.generation < limit then index :: A.vacant else A.vacant
    | none => A.vacant
  active := A.active - 1

/-- Use the slot at the head of the free list under its next generation. -/
def reuse (A : Arena) (index : Nat) (rest : List Nat) : Arena where
  slots := A.slots.modify index fun slot => ⟨slot.generation + 1, true⟩
  vacant := rest
  active := A.active + 1

/-- Add a slot. -/
def grow (A : Arena) : Arena where
  slots := A.slots ++ [⟨1, true⟩]
  vacant := A.vacant
  active := A.active + 1

def empty : Arena := ⟨[], [], 0⟩

theorem wellFormed_empty : empty.WellFormed limit where
  active := rfl
  nodup := nodup_nil
  vacant := by simp [empty, Reusable]
  generations := by simp [empty]

section Modify

variable {α : Type} {l : List α} {i : Nat} {f : α → α} {a : α}

theorem getElem?_modify_self (found : l[i]? = some a) : (l.modify i f)[i]? = some (f a) := by
  simp [found]

theorem countP_modify {p : α → Bool} (found : l[i]? = some a) :
    (l.modify i f).countP p + (if p a then 1 else 0) = l.countP p + (if p (f a) then 1 else 0) := by
  induction l generalizing i with
  | nil => simp at found
  | cons b l ih =>
    cases i with
    | zero =>
      obtain rfl : b = a := by simpa using found
      simp only [modify_zero_cons, countP_cons]
      omega
    | succ i =>
      have rest := ih (i := i) (by simpa using found)
      simp only [modify_succ_cons, countP_cons]
      omega

/-- What holds of all elements but the modified one, and of that one as modified. -/
theorem forall_mem_modify {P : α → Prop} (found : l[i]? = some a) (all : ∀ b ∈ l, P b)
    (here : P (f a)) : ∀ b ∈ l.modify i f, P b := by
  intro b mem
  obtain ⟨j, at'⟩ := getElem?_of_mem mem
  by_cases same : i = j
  · subst same
    rw [getElem?_modify_self found] at at'
    obtain rfl : f a = b := by simpa using at'
    exact here
  · rw [getElem?_modify_ne _ _ same] at at'
    exact all b (mem_of_getElem? at')

theorem map_modify {β : Type} {g : α → β} {h : β → β}
    (commutes : ∀ a, l[i]? = some a → g (f a) = h (g a)) :
    (l.modify i f).map g = (l.map g).modify i h := by
  apply ext_getElem?
  intro j
  simp only [getElem?_map, getElem?_modify]
  by_cases here : i = j
  · subst here
    cases found : l[i]? with
    | none => rfl
    | some a => simp [commutes a found]
  · simp [here]

end Modify

section Operations

variable {A : Arena} {index : Nat} {slot : ArenaSlot}

/-! ## Releasing a slot -/

theorem WellFormed.not_vacant (wf : A.WellFormed limit) (found : A.slots[index]? = some slot)
    (occupied : slot.occupied = true) : index ∉ A.vacant := by
  intro mem
  obtain ⟨other, found', vacant, _⟩ := (wf.vacant index).mp mem
  obtain rfl := some.inj (found.symm.trans found')
  simp [occupied] at vacant

theorem WellFormed.release (wf : A.WellFormed limit) (found : A.slots[index]? = some slot)
    (occupied : slot.occupied = true) : (A.release limit index).WellFormed limit where
  active := by
    have count := countP_modify (p := ArenaSlot.occupied) found
      (f := fun slot => { slot with occupied := false })
    have active := wf.active
    simp only [occupied, if_true, Bool.false_eq_true, if_false] at count
    simp only [Arena.release]
    omega
  nodup := by
    simp only [Arena.release, found]
    by_cases left : slot.generation < limit
    · simp only [left]
      exact nodup_cons.mpr ⟨wf.not_vacant found occupied, wf.nodup⟩
    · simpa only [left, if_false] using wf.nodup
  vacant := by
    intro j
    simp only [Arena.release, found, Reusable]
    by_cases same : index = j
    · subst same
      rw [getElem?_modify_self found]
      by_cases left : slot.generation < limit
      · simp [left]
      · simp [left, wf.not_vacant found occupied]
    · rw [getElem?_modify_ne _ _ same, ← Reusable, ← wf.vacant j]
      by_cases left : slot.generation < limit
      · simp [left, Ne.symm same]
      · simp [left]
  generations := forall_mem_modify found wf.generations
    (wf.generations slot (mem_of_getElem? found))

variable {g : Nat}

theorem issued_release : (A.release limit index).Issued j g ↔ A.Issued j g := by
  by_cases same : index = j
  · subst same
    simp [Issued, Arena.release]
  · simp [Issued, Arena.release, getElem?_modify_ne _ _ same]

theorem live_release : (A.release limit index).Live j g ↔ j ≠ index ∧ A.Live j g := by
  by_cases same : index = j
  · subst same
    simp [Live, Arena.release]
  · simp [Live, Arena.release, getElem?_modify_ne _ _ same, Ne.symm same]

theorem evolves_release : A.Evolves (A.release limit index) where
  issued issued := issued_release.mpr issued
  live live _ := (live_release.mp live).2

/-! ## Using a slot again -/

variable {rest : List Nat}

theorem WellFormed.reuse (wf : A.WellFormed limit) (free : A.vacant = index :: rest) :
    (A.reuse index rest).WellFormed limit := by
  obtain ⟨slot, found, vacant, left⟩ := (wf.vacant index).mp (by simp [free])
  have nodup := wf.nodup
  rw [free, nodup_cons] at nodup
  exact
    { active := by
        have count := countP_modify (p := ArenaSlot.occupied) found
          (f := fun slot => ⟨slot.generation + 1, true⟩)
        have active := wf.active
        simp only [vacant, if_true, Bool.false_eq_true, if_false] at count
        simp only [Arena.reuse]
        omega
      nodup := nodup.2
      vacant := by
        intro j
        simp only [Arena.reuse, Reusable]
        by_cases same : index = j
        · subst same
          simp [nodup.1]
        · rw [getElem?_modify_ne _ _ same, ← Reusable, ← wf.vacant j, free]
          simp [Ne.symm same]
      generations := forall_mem_modify found wf.generations ⟨Nat.le_add_left .., left⟩ }

section

variable (found : A.slots[index]? = some slot)

include found

theorem issued_reuse :
    (A.reuse index rest).Issued j g ↔ A.Issued j g ∨ (j = index ∧ g = slot.generation + 1) := by
  by_cases same : index = j
  · subst same
    simp only [Issued, Arena.reuse, getElem?_modify_self found, found, some.injEq,
      exists_eq_left', true_and]
    omega
  · simp [Issued, Arena.reuse, getElem?_modify_ne _ _ same, Ne.symm same]

theorem live_reuse (vacant : slot.occupied = false) :
    (A.reuse index rest).Live j g ↔ A.Live j g ∨ (j = index ∧ g = slot.generation + 1) := by
  by_cases same : index = j
  · subst same
    simp only [Live, Arena.reuse, getElem?_modify_self found, found, vacant, some.injEq,
      exists_eq_left', and_true, true_and, Bool.false_eq_true, and_false, false_or]
    exact eq_comm
  · simp [Live, Arena.reuse, getElem?_modify_ne _ _ same, Ne.symm same]

theorem not_issued_next : ¬A.Issued index (slot.generation + 1) := by
  rintro ⟨other, found', _, le⟩
  obtain rfl := some.inj (found.symm.trans found')
  omega

theorem evolves_reuse (vacant : slot.occupied = false) : A.Evolves (A.reuse index rest) where
  issued issued := (issued_reuse found).mpr (.inl issued)
  live live issued := by
    rcases (live_reuse found vacant).mp live with live | ⟨rfl, rfl⟩
    · exact live
    · exact absurd issued (not_issued_next found)

end

/-! ## Adding a slot -/

theorem getElem?_grow :
    A.grow.slots[j]? = if j = A.slots.length then some ⟨1, true⟩ else A.slots[j]? := by
  simp only [grow, getElem?_append]
  by_cases same : j = A.slots.length
  · simp [same]
  · by_cases inside : j < A.slots.length
    · simp [same, inside]
    · have beyond : j - A.slots.length ≠ 0 := by omega
      simp [same, beyond]

theorem not_issued_length : ¬A.Issued A.slots.length g := by
  rintro ⟨slot, found, _⟩
  simp at found

theorem WellFormed.grow (wf : A.WellFormed limit) (positive : 1 ≤ limit) :
    A.grow.WellFormed limit where
  active := by simp [Arena.grow, wf.active]
  nodup := wf.nodup
  vacant := by
    intro j
    simp only [Reusable, getElem?_grow]
    by_cases same : j = A.slots.length
    · have absent : A.slots.length ∉ A.vacant := by
        intro mem
        obtain ⟨slot, found, _⟩ := (wf.vacant _).mp mem
        simp at found
      simp [same, Arena.grow, absent]
    · simp only [same]
      exact wf.vacant j
  generations := by
    intro slot mem
    rcases mem_append.mp mem with mem | mem
    · exact wf.generations slot mem
    · obtain rfl : slot = ⟨1, true⟩ := by simpa using mem
      exact ⟨Nat.le_refl _, positive⟩

theorem issued_grow : A.grow.Issued j g ↔ A.Issued j g ∨ (j = A.slots.length ∧ g = 1) := by
  simp only [Issued, getElem?_grow]
  by_cases same : j = A.slots.length
  · simp only [same, if_true, some.injEq, exists_eq_left', true_and,
      getElem?_length, reduceCtorEq, false_and, exists_false, false_or]
    omega
  · simp [same]

theorem live_grow : A.grow.Live j g ↔ A.Live j g ∨ (j = A.slots.length ∧ g = 1) := by
  simp only [Live, getElem?_grow]
  by_cases same : j = A.slots.length
  · simp only [same, if_true, some.injEq, exists_eq_left', and_true, true_and,
      getElem?_length, reduceCtorEq, false_and, exists_false, false_or]
    exact eq_comm
  · simp [same]

theorem evolves_grow : A.Evolves A.grow where
  issued issued := issued_grow.mpr (.inl issued)
  live live issued := by
    rcases live_grow.mp live with live | ⟨rfl, rfl⟩
    · exact live
    · exact absurd issued not_issued_length

end Operations

/-! ## Steps -/

/-- What an operation on an arena can do to its names. -/
inductive Step (limit : Nat) (A : Arena) : Arena → Prop where
  | stay : Step limit A A
  | release {index : Nat} {slot : ArenaSlot} : A.slots[index]? = some slot →
      slot.occupied = true → Step limit A (A.release limit index)
  | reuse {index : Nat} {rest : List Nat} : A.vacant = index :: rest →
      Step limit A (A.reuse index rest)
  | grow : Step limit A A.grow

theorem Step.wellFormed (step : Step limit A B) (positive : 1 ≤ limit)
    (wf : A.WellFormed limit) : B.WellFormed limit := by
  cases step with
  | stay => exact wf
  | release found occupied => exact wf.release found occupied
  | reuse free => exact wf.reuse free
  | grow => exact wf.grow positive

theorem Step.evolves (step : Step limit A B) (wf : A.WellFormed limit) : A.Evolves B := by
  cases step with
  | stay => exact .refl A
  | release found occupied => exact evolves_release
  | @reuse index rest free =>
    obtain ⟨slot, found, vacant, _⟩ := (wf.vacant index).mp (by simp [free])
    exact evolves_reuse found vacant
  | grow => exact evolves_grow

end Arena
