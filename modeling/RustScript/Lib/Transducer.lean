import RustScript.Lib.Wp

/-!
# Feeding a machine piece by piece

A machine takes its inputs one by one, changes its state and sometimes has an output.  `feed`
gives it a list of inputs and collects the outputs.  A driver often works with larger steps: it
lets the machine run until it has an output (`untilOutput`), hands the output on, and goes on
with the inputs that are left (`drain`).  The steps do not matter: draining a list is feeding it
(`drain_eq_feed`), and feeding two lists one after the other is feeding them together
(`feed_append`).
-/

namespace Transducer

open Wp List

variable {ε σ ι ω : Type}

/-- A computation of the machine; its output is appended to the outputs so far. -/
def collect {α : Type} (x : EStateM ε σ (α × Option ω)) : EStateM ε (σ × List ω) α := fun s =>
  match x s.1 with
  | .ok (a, output) s' => .ok a (s', s.2 ++ output.toList)
  | .error e s' => .error e (s', s.2)

variable (step : ι → EStateM ε σ (Option ω))

/-- Give the machine some inputs. -/
def feed (inputs : List ι) : EStateM ε (σ × List ω) Unit :=
  inputs.forM fun input => collect ((fun output => ((), output)) <$> step input)

/-- Give the machine inputs until it has an output; how many it took is counted. -/
def untilOutput : List ι → Nat → EStateM ε σ (Nat × Option ω)
  | [], taken => return (taken, none)
  | input :: inputs, taken => do
      match ← step input with
      | some output => return (taken + 1, some output)
      | none => untilOutput inputs (taken + 1)

/-- Take inputs, in so many rounds, until there are none. -/
def drain (take : List ι → EStateM ε σ (Nat × Option ω)) (inputs : List ι) :
    Nat → Nat → EStateM ε (σ × List ω) Unit
  | 0, _ => return ()
  | rounds + 1, offset =>
    if offset < inputs.length then do
      let taken ← collect (take (inputs.drop offset))
      drain take inputs rounds (offset + taken)
    else return ()

variable {step}

theorem feed_cons (input : ι) (inputs : List ι) : feed step (input :: inputs) =
      collect ((fun output => ((), output)) <$> step input) >>= fun _ => feed step inputs := rfl

theorem feed_append (first second : List ι) :
    feed step (first ++ second) = feed step first >>= fun _ => feed step second := by
  induction first with
  | nil => rfl
  | cons input first ih => rw [cons_append, feed_cons, feed_cons, ih, bind_assoc]

variable {s s' : σ} {log : List ω} {input : ι} {output : Option ω} {e : ε} {taken : Nat}
  {I : σ → Prop}

theorem collect_step_ok (log : List ω) (done : step input s = .ok output s') :
    collect ((fun output => ((), output)) <$> step input) (s, log) =
      .ok () (s', log ++ output.toList) := by
  have mapped : ((fun output => ((), output)) <$> step input) s = .ok ((), output) s' := by
    change EStateM.map _ _ s = _
    rw [EStateM.map, done]
  rw [collect, mapped]

theorem collect_step_error (failed : step input s = .error e s') :
    collect ((fun output => ((), output)) <$> step input) (s, log) = .error e (s', log) := by
  have mapped : ((fun output => ((), output)) <$> step input) s = .error e s' := by
    change EStateM.map _ _ s = _
    rw [EStateM.map, failed]
  rw [collect, mapped]

variable {inputs : List ι}

/-- What was taken until an output has been fed; without an output everything was taken. -/
theorem untilOutput_ok {count : Nat}
    (done : untilOutput step inputs taken s = .ok (count, output) s') :
    ∃ more, count = taken + more ∧ (inputs ≠ [] → 0 < more) ∧
      feed step (inputs.take more) (s, log) = .ok () (s', log ++ output.toList) := by
  induction inputs generalizing taken s with
  | nil =>
    cases done
    exact ⟨0, rfl, fun some => absurd rfl some, by rw [Option.toList_none, append_nil]; rfl⟩
  | cons input inputs ih =>
    obtain ⟨first, s₁, stepped, done⟩ := bind_eq_ok done
    have fed := collect_step_ok log stepped
    cases first with
    | some value =>
      cases done
      refine ⟨1, rfl, fun _ => Nat.one_pos, ?_⟩
      rw [take_succ_cons, take_zero, feed_cons, bind_ok fed]
      rfl
    | none =>
      obtain ⟨more, rfl, -, rest⟩ := ih done
      refine ⟨more + 1, by omega, fun _ => Nat.succ_pos more, ?_⟩
      rw [Option.toList_none, append_nil] at fed
      rw [take_succ_cons, feed_cons, bind_ok fed]
      exact rest

theorem untilOutput_error (failed : untilOutput step inputs taken s = .error e s') :
    feed step inputs (s, log) = .error e (s', log) := by
  induction inputs generalizing taken s with
  | nil => cases failed
  | cons input inputs ih =>
    unfold untilOutput at failed
    rw [feed_cons]
    cases stepped : step input s with
    | error e₁ s₁ =>
      rw [bind_error stepped] at failed
      cases failed
      exact bind_error (collect_step_error stepped)
    | ok first s₁ =>
      rw [bind_ok stepped] at failed
      have fed := collect_step_ok log stepped
      cases first with
      | some value => cases failed
      | none =>
        rw [Option.toList_none, append_nil] at fed
        rw [bind_ok fed]
        exact ih failed

/-- Feeding keeps what every step keeps. -/
theorem feed_wp (keeps : ∀ input s, I s → wp (step input) (fun _ => I) (fun _ => I) s)
    {inputs : List ι} {s : σ × List ω} (start : I s.1) :
    wp (feed step inputs) (fun _ s' => I s'.1) (fun _ s' => I s'.1) s := by
  apply wp_forM (I := fun s : σ × List ω => I s.1) _ start
  intro input _ s start
  have kept := keeps input s.1 start
  cases stepped : step input s.1 with
  | ok output s' => exact wp_of_ok (collect_step_ok s.2 stepped) (wp_ok kept stepped)
  | error e s' =>
    unfold wp
    rw [collect_step_error stepped]
    exact (wp_error kept stepped : I s')

/-- **Draining is feeding**, as long as the driver takes inputs until there is an output. -/
theorem drain_eq_feed {take : List ι → EStateM ε σ (Nat × Option ω)}
    (takes : ∀ inputs s, I s → take inputs s = untilOutput step inputs 0 s)
    (keeps : ∀ input s, I s → wp (step input) (fun _ => I) (fun _ => I) s) {rounds offset : Nat}
    (enough : inputs.length ≤ offset + rounds) {s : σ × List ω} (start : I s.1) :
    drain take inputs rounds offset s = feed step (inputs.drop offset) s := by
  induction rounds generalizing offset s with
  | zero =>
    have none : inputs.drop offset = [] := drop_eq_nil_of_le enough
    rw [none]
    rfl
  | succ rounds ih =>
    unfold drain
    split
    · have some : inputs.drop offset ≠ [] := by
        rw [ne_eq, drop_eq_nil_iff]
        omega
      cases took : untilOutput step (inputs.drop offset) 0 s.1 with
      | error e s' =>
        have failed : collect (take (inputs.drop offset)) s = .error e (s', s.2) := by
          rw [collect, takes _ _ start, took]
        rw [bind_error failed]
        exact (untilOutput_error took).symm
      | ok result s' =>
        obtain ⟨count, output⟩ := result
        have done : collect (take (inputs.drop offset)) s =
            .ok count (s', s.2 ++ output.toList) := by
          rw [collect, takes _ _ start, took]
        obtain ⟨more, counted, positive, fed⟩ := untilOutput_ok took
        rw [Nat.zero_add] at counted
        have pos := positive some
        have start' : I s' := wp_ok (feed_wp keeps start) fed
        rw [bind_ok done, ih (by omega) start', counted]
        have split : inputs.drop offset =
            (inputs.drop offset).take more ++ inputs.drop (offset + more) := by
          rw [← drop_drop, take_append_drop]
        rw [split, feed_append, bind_ok fed]
    · rw [drop_eq_nil_of_le (by omega)]
      rfl

end Transducer
