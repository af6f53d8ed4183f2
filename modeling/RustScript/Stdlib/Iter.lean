import Mathlib

/-!
# `iter.rss`: ranges with a step

`range_step` adds the step to a value as long as the value is before the stop.  Addition wraps
around at 64 bits.  A value read back after wrapping is on the other side of the stop again, so
the loop goes on where it should end.

The result is the arithmetic progression up to the stop exactly if the first term that is not
before the stop is a number of 64 bits (`range_step_exact_iff`).
-/

namespace RustScript.Stdlib

open List

/-! ## The function -/

/-- `while before(value) { out[out.length] = value; value = value + step; }`, for fewer rounds
than given. -/
def rangeLoop (before : Int64 → Bool) (step : Int64) :
    Nat → Int64 → List Int64 → Option (List Int64)
  | 0, _, _ => none
  | rounds + 1, value, out =>
    if before value then rangeLoop before step rounds (value + step) (out ++ [value])
    else some out

def rangeStep (rounds : Nat) (start stop step : Int64) : Option (List Int64) :=
  if step ≠ 0 then
    if step > 0 then rangeLoop (fun value => decide (value < stop)) step rounds start []
    else rangeLoop (fun value => decide (value > stop)) step rounds start []
  else some []

/-! ## The progression -/

def InRange (x : Int) : Prop := -2 ^ 63 ≤ x ∧ x < 2 ^ 63

theorem inRange_toInt (x : Int64) : InRange x.toInt := ⟨x.le_toInt, x.toInt_lt⟩

def term (start step : Int64) (k : Nat) : Int := start.toInt + k * step.toInt

/-- Strictly before the stop, in the direction of the step. -/
def Before (stop step : Int64) (x : Int) : Prop :=
  0 < step.toInt ∧ x < stop.toInt ∨ step.toInt < 0 ∧ stop.toInt < x

instance (stop step : Int64) : DecidablePred (Before stop step) := fun _ =>
  inferInstanceAs (Decidable (_ ∨ _))

/-- The terms before the stop, in order. -/
structure Exact (start stop step : Int64) (values : List Int64) : Prop where
  terms : values.map Int64.toInt = (List.range values.length).map (term start step)
  complete : ∀ k, k < values.length ↔ Before stop step (term start step k)

variable {start stop step : Int64}

theorem term_succ (k : Nat) : term start step (k + 1) = term start step k + step.toInt := by
  simp only [term]
  push_cast
  ring

theorem toInt_step (nonzero : step ≠ 0) : 0 < step.toInt ∨ step.toInt < 0 := by
  have : step.toInt ≠ 0 := fun zero => nonzero (Int64.toInt.inj zero)
  omega

theorem rangeStep_eq (nonzero : step ≠ 0) (rounds : Nat) : rangeStep rounds start stop step =
      rangeLoop (fun value => decide (Before stop step value.toInt)) step rounds start [] := by
  have sign : step > 0 ↔ 0 < step.toInt := Int64.lt_iff_toInt_lt
  rw [rangeStep, if_pos nonzero]
  rcases toInt_step nonzero with up | down
  · rw [if_pos (sign.mpr up)]
    congr
    simp [Before, up, Int64.lt_iff_toInt_lt, not_lt_of_gt up]
  · rw [if_neg (fun up => not_lt_of_gt down (sign.mp up))]
    congr
    simp [Before, down, Int64.lt_iff_toInt_lt, not_lt_of_gt down]

/-- The loop stops at the first value that is not before the stop. -/
theorem rangeLoop_eq_some (before : Int64 → Bool) (d : Int) (values : List Int64) (rounds : Nat) :
    ∀ (x : Int) (out : List Int64),
      rangeLoop before (.ofInt d) rounds (.ofInt x) out = some values ↔
        ∃ n < rounds, (∀ k < n, before (.ofInt (x + k * d)) = true) ∧
          before (.ofInt (x + n * d)) = false ∧
          values = out ++ (range n).map fun k : Nat => .ofInt (x + k * d) := by
  induction rounds with
  | zero => simp [rangeLoop]
  | succ rounds ih =>
    intro x out
    have shift : ∀ k : Nat, x + d + k * d = x + (k + 1 : Nat) * d := by
      intro k
      push_cast
      ring
    rw [rangeLoop]
    by_cases here : before (.ofInt x) = true
    · rw [if_pos here, ← Int64.ofInt_add, ih]
      constructor
      · rintro ⟨n, fewer, all, stops, rfl⟩
        refine ⟨n + 1, by omega, ?_, by rw [← shift]; exact stops, ?_⟩
        · intro k small
          cases k with
          | zero => simpa using here
          | succ k =>
            rw [← shift]
            exact all k (by omega)
        · rw [range_succ_eq_map, map_cons, map_map]
          simp [shift]
      · rintro ⟨n, fewer, all, stops, rfl⟩
        cases n with
        | zero => simp [here] at stops
        | succ n =>
          refine ⟨n, by omega, ?_, by rw [shift]; exact stops, ?_⟩
          · intro k small
            rw [shift]
            exact all (k + 1) (by omega)
          · rw [range_succ_eq_map, map_cons, map_map]
            simp [shift]
    · rw [if_neg here]
      constructor
      · rintro ⟨⟩
        exact ⟨0, by omega, by simp, by simpa using here, by simp⟩
      · rintro ⟨n, fewer, all, stops, rfl⟩
        cases n with
        | zero => simp
        | succ n => exact absurd (by simpa using all 0 (by omega)) here

variable {rounds : Nat} {values : List Int64} {x : Int}

theorem rangeStep_eq_some (nonzero : step ≠ 0) : rangeStep rounds start stop step = some values ↔
      ∃ n < rounds, (∀ k < n, Before stop step (Int64.ofInt (term start step k)).toInt) ∧
        ¬ Before stop step (Int64.ofInt (term start step n)).toInt ∧
        values = (range n).map fun k => Int64.ofInt (term start step k) := by
  have run := rangeLoop_eq_some (fun value => decide (Before stop step value.toInt)) step.toInt
    values rounds start.toInt []
  simp only [Int64.ofInt_toInt, ← rangeStep_eq nonzero, decide_eq_true_eq,
    decide_eq_false_iff_not] at run
  exact run

/-! ## Exactness -/

theorem toInt_ofInt (h : InRange x) : (Int64.ofInt x).toInt = x :=
  Int64.toInt_ofInt_of_le h.1 h.2

/-- A sum that leaves the range comes back in front of everything. -/
theorem before_of_wrapped (x_in : InRange x) (before : Before stop step x)
    (out : ¬ InRange (x + step.toInt)) :
    Before stop step (Int64.ofInt (x + step.toInt)).toInt := by
  have d_in := inRange_toInt step
  rw [Int64.toInt_ofInt]
  simp only [Before, InRange, Int.bmod, Int64.size] at *
  split <;> omega

/-- Some term is not before the stop. -/
theorem exists_not_before (nonzero : step ≠ 0) : ∃ n, ¬ Before stop step (term start step n) := by
  refine ⟨(stop.toInt - start.toInt).natAbs, ?_⟩
  have large := Int.natCast_nonneg (stop.toInt - start.toInt).natAbs
  unfold Before term
  rcases toInt_step nonzero with up | down
  · have := Int.mul_le_mul_of_nonneg_left (Int.add_one_le_of_lt up) large
    omega
  · have := Int.mul_le_mul_of_nonneg_left (Int.le_sub_one_of_lt down) large
    omega

theorem not_before_mono {n k : Nat} (after : n ≤ k) (h : ¬ Before stop step (term start step n)) :
    ¬ Before stop step (term start step k) := by
  induction k, after using Nat.le_induction with
  | base => exact h
  | succ k _ ih =>
    rw [term_succ]
    unfold Before at *
    omega

/-- Every term that has only terms before the stop ahead of it is a number of 64 bits. -/
def TermsFit (start stop step : Int64) : Prop :=
  ∀ n, (∀ k < n, Before stop step (term start step k)) → InRange (term start step n)

theorem termsFit_of_exact (nonzero : step ≠ 0)
    (run : rangeStep rounds start stop step = some values) (exact : Exact start stop step values) :
    TermsFit start stop step := by
  intro n ahead
  obtain ⟨m, -, -, stops, rfl⟩ := (rangeStep_eq_some nonzero).mp run
  have read : ∀ k < m, (Int64.ofInt (term start step k)).toInt = term start step k := by
    intro k small
    have same := congrArg (fun terms => terms[k]?) exact.terms
    simpa only [length_map, length_range, getElem?_map,
      getElem?_range small, Option.map_some, Option.some.injEq, Function.comp_apply] using same
  have fits : ∀ k < m, InRange (term start step k) := fun k small =>
    read k small ▸ inRange_toInt _
  have complete : ∀ k, k < m ↔ Before stop step (term start step k) := by simpa using exact.complete
  have bound : n ≤ m := by
    by_contra more
    exact lt_irrefl m ((complete m).mpr (ahead m (by omega)))
  rcases Nat.lt_or_eq_of_le bound with small | rfl
  · exact fits n small
  · by_contra out
    cases n with
    | zero => exact out (by simpa [term] using inRange_toInt start)
    | succ n =>
      rw [term_succ] at out stops
      exact stops (before_of_wrapped (fits n n.lt_succ_self) ((complete n).mp n.lt_succ_self) out)

theorem exact_of_termsFit (nonzero : step ≠ 0) (fits : TermsFit start stop step) :
    ∃ rounds values, rangeStep rounds start stop step = some values ∧
      Exact start stop step values := by
  classical
  have last : ∃ n, ¬ Before stop step (term start step n) := exists_not_before nonzero
  have ahead : ∀ k < Nat.find last, Before stop step (term start step k) := fun k small =>
    not_not.mp (Nat.find_min last small)
  have read : ∀ k ≤ Nat.find last,
      (Int64.ofInt (term start step k)).toInt = term start step k := fun k small =>
    toInt_ofInt (fits k fun j smaller => ahead j (lt_of_lt_of_le smaller small))
  refine ⟨Nat.find last + 1, _, (rangeStep_eq_some nonzero).mpr
    ⟨Nat.find last, Nat.lt_succ_self _, ?_, ?_, rfl⟩, ?_, ?_⟩
  · intro k small
    rw [read k small.le]
    exact ahead k small
  · rw [read _ le_rfl]
    exact Nat.find_spec last
  · rw [map_map, length_map, length_range]
    exact map_congr_left fun k mem => read k (mem_range.mp mem).le
  · intro k
    rw [length_map, length_range]
    refine ⟨ahead k, fun before => ?_⟩
    by_contra more
    exact not_before_mono (not_lt.mp more) (Nat.find_spec last) before

/-- **Ranges are exact up to wrapping.**  `range_step` ends with the progression up to the stop if
and only if the terms up to the first one that is not before the stop are numbers of 64 bits. -/
theorem range_step_exact_iff (start stop step : Int64) (nonzero : step ≠ 0) :
    (∃ rounds values, rangeStep rounds start stop step = some values ∧
      Exact start stop step values) ↔ TermsFit start stop step :=
  ⟨fun ⟨_, _, run, exact⟩ => termsFit_of_exact nonzero run exact, exact_of_termsFit nonzero⟩

theorem range_by_three :
    ∃ rounds values, rangeStep rounds 0 10 3 = some values ∧ Exact 0 10 3 values := by
  refine (range_step_exact_iff 0 10 3 (by decide)).mpr fun n ahead => ?_
  have few : n ≤ 4 := by
    by_contra more
    exact absurd (ahead 4 (by omega)) (by decide)
  have value : term 0 3 n = 0 + n * 3 := rfl
  unfold InRange
  omega

/-- The only term before `i64::MAX` is followed by `i64::MIN`. -/
theorem range_to_max_wraps :
    ¬ ∃ rounds values, rangeStep rounds (Int64.maxValue - 1) Int64.maxValue 2 = some values ∧
      Exact (Int64.maxValue - 1) Int64.maxValue 2 values := by
  rintro ⟨rounds, values, run, exact⟩
  have first : ∀ k < 1, Before Int64.maxValue 2 (term (Int64.maxValue - 1) 2 k) := by decide
  exact absurd (termsFit_of_exact (by decide) run exact 1 first).2 (by decide)

end RustScript.Stdlib
