import RustScript.Lib.Fallible

/-!
# Budgeted byte readers

A decoder for untrusted bytes reads a prefix of its input and, for every element
it is about to build, debits a budget.  A reader is therefore a state
transformer over a `Cursor`: the bytes that are left and the budget that is
left.  The budget is an arbitrary additive monoid, so one counter and several
counters are treated alike.

Three properties of a reader compose through sequencing, and everything a codec
needs follows from them.

* `Decodes r bs a P k m`: on input that starts with `bs` and goes on for at least
  `m` more bytes, `r` succeeds exactly when the limit `P` holds and the budget
  has room for `k`; it then returns `a`, consumes exactly `bs` and debits
  exactly `k` (`Decodes.bind`, `Decodes.replicate`).
* `Accepts r I`: whatever `r` accepts, the value, the debited amount and the
  number of consumed bytes are related by `I` (`Accepts.bind`,
  `Accepts.replicate`).
-/

namespace ByteCodec

open List

universe u v w

/-- The bytes still to be read and the budget still to be spent. -/
structure Cursor (β : Type u) where
  rest : List UInt8
  budget : β

/-- A reader fails with an error or returns a value and the cursor after it. -/
abbrev Reader (ε : Type u) (β : Type u) (α : Type u) := StateT (Cursor β) (Except ε) α

section Basic

variable {ε β α γ : Type u} {c c' : Cursor β}

/-- A sequence of readers succeeds when the second succeeds where the first stopped. -/
theorem Reader.bind_ok {r : Reader ε β α} {s : α → Reader ε β γ} {b : γ} :
    (r >>= s) c = .ok (b, c') ↔ ∃ a d, r c = .ok (a, d) ∧ s a d = .ok (b, c') := by
  change (r c >>= fun p => s p.1 p.2) = _ ↔ _
  rw [Fallible.bind_eq_ok]
  constructor
  · rintro ⟨⟨a, d⟩, hr, hs⟩
    exact ⟨a, d, hr, hs⟩
  · rintro ⟨a, d, hr, hs⟩
    exact ⟨(a, d), hr, hs⟩

theorem Reader.pure_ok {a b : α} : (pure a : Reader ε β α) c = .ok (b, c') ↔ b = a ∧ c' = c := by
  change Except.ok (a, c) = Except.ok (b, c') ↔ _
  simp only [Except.ok.injEq, Prod.mk.injEq]
  exact ⟨fun h => ⟨h.1.symm, h.2.symm⟩, fun h => ⟨h.1.symm, h.2.symm⟩⟩

theorem Reader.throw_ok {e : ε} {a : α} : (throw e : Reader ε β α) c = .ok (a, c') ↔ False := by
  change Except.error e = Except.ok (a, c') ↔ _
  simp

/-- Fail with `e` unless the condition holds. -/
def ensure (p : Prop) [Decidable p] (e : ε) : Reader ε β PUnit :=
  if p then pure ⟨⟩ else throw e

theorem ensure_ok {p : Prop} [Decidable p] {e : ε} {u : PUnit} :
    (ensure p e : Reader ε β PUnit) c = .ok (u, c') ↔ p ∧ c' = c := by
  unfold ensure
  split
  · simp [Reader.pure_ok, *]
  · simp [Reader.throw_ok, *]

/-- Run a reader a fixed number of times and collect the values. -/
def replicateM (n : Nat) (r : Reader ε β α) : Reader ε β (List α) :=
  match n with
  | 0 => pure []
  | n + 1 => do
      let a ← r
      let as ← replicateM n r
      pure (a :: as)

end Basic

/-! ## Reading what was written -/

section Decodes

variable {ε β α γ : Type u} [AddCommMonoid β]

/-- On input `bs` followed by at least `m` bytes, `r` returns `a`, consumes `bs`
and debits `k`, provided that the limit `P` holds and the budget has room for
`k`; otherwise it fails. -/
structure Decodes (r : Reader ε β α) (bs : List UInt8) (a : α) (P : Prop) (k : β) (m : Nat) :
    Prop where
  reads : P → ∀ tail b, m ≤ tail.length → r ⟨bs ++ tail, k + b⟩ = .ok (a, ⟨tail, b⟩)
  only : ∀ tail B a' c, r ⟨bs ++ tail, B⟩ = .ok (a', c) →
    P ∧ a' = a ∧ ∃ b, B = k + b ∧ c = ⟨tail, b⟩

variable {r : Reader ε β α} {bs bs' : List UInt8} {m : Nat} {a : α} {P Q : Prop} {k l : β} {b : γ}
  {n : Nat} {s : α → Reader ε β γ}

/-- The limits may be restated. -/
theorem Decodes.congr {P' : Prop} (h : Decodes r bs a P k m) (hP : P ↔ P') :
    Decodes r bs a P' k m :=
  propext hP ▸ h

/-- More may be demanded to follow. -/
theorem Decodes.weaken {m' : Nat} (h : Decodes r bs a P k m)
    (hm : m ≤ m') : Decodes r bs a P k m' :=
  { h with reads := fun p tail b ht => h.reads p tail b (Nat.le_trans hm ht) }

theorem Decodes.pure (a : α) : Decodes (Pure.pure a : Reader ε β α) [] a True 0 0 := by
  constructor
  · simp [Reader.pure_ok]
  · intro tail B a' c h
    obtain ⟨rfl, rfl⟩ := Reader.pure_ok.mp h
    exact ⟨trivial, rfl, B, by simp, rfl⟩

theorem Decodes.ensure (p : Prop) [Decidable p] (e : ε) :
    Decodes (ByteCodec.ensure p e : Reader ε β PUnit) [] ⟨⟩ p 0 0 := by
  constructor
  · intro hp tail b _
    simp [ensure_ok, hp]
  · intro tail B a' c h
    obtain ⟨hp, rfl⟩ := ensure_ok.mp h
    exact ⟨hp, rfl, B, by simp, rfl⟩

/-- Two readings in a row: the bytes follow each other, the limits both apply and
the debits add up.  The second part's bytes count towards what the first part
demands to follow; that they suffice may depend on the limits. -/
theorem Decodes.bind_of_limits (hr : Decodes r bs a P k m) (hs : Decodes (s a) bs' b Q l n)
    (hm : Q → m ≤ bs'.length + n) : Decodes (r >>= s) (bs ++ bs') b (P ∧ Q) (k + l) n := by
  constructor
  · rintro ⟨p, q⟩ tail x ht
    have room := hm q
    have first := hr.reads p (bs' ++ tail) (l + x) (by simp; omega)
    rw [Reader.bind_ok]
    refine ⟨a, ⟨bs' ++ tail, l + x⟩, ?_, hs.reads q tail x ht⟩
    simpa [add_assoc] using first
  · intro tail B b' c h
    obtain ⟨a', d, ha, hb⟩ := Reader.bind_ok.mp h
    rw [append_assoc] at ha
    obtain ⟨p, rfl, x, rfl, rfl⟩ := hr.only (bs' ++ tail) B a' d ha
    obtain ⟨q, rfl, y, rfl, rfl⟩ := hs.only tail x b' c hb
    exact ⟨⟨p, q⟩, rfl, y, by rw [add_assoc], rfl⟩

theorem Decodes.bind
    (hr : Decodes r bs a P k m) (hs : Decodes (s a) bs' b Q l n) (hm : m ≤ bs'.length + n) :
    Decodes (r >>= s) (bs ++ bs') b (P ∧ Q) (k + l) n :=
  hr.bind_of_limits hs fun _ => hm

/-- The first part debits nothing and demands nothing to follow. -/
theorem Decodes.free_bind (hr : Decodes r bs a P 0 0) (hs : Decodes (s a) bs' b Q l n) :
    Decodes (r >>= s) (bs ++ bs') b (P ∧ Q) l n :=
  zero_add l ▸ hr.bind hs (Nat.zero_le _)

/-- The second part takes no bytes and debits nothing. -/
theorem Decodes.bind_free (hr : Decodes r bs a P k m) (hs : Decodes (s a) [] b Q 0 n) (hm : m ≤ n) :
    Decodes (r >>= s) bs b (P ∧ Q) k n := by
  have whole := hr.bind hs (Nat.le_trans hm (Nat.le_add_left n _))
  rwa [append_nil, add_zero] at whole

/-- A check in front of a reading adds its condition to the limits. -/
theorem Decodes.ensure_bind {p : Prop} [Decidable p] {e : ε} {s : Reader ε β γ}
    (hs : Decodes s bs b Q l n) : Decodes (ByteCodec.ensure p e >>= fun _ => s) bs b (p ∧ Q) l n :=
  Decodes.free_bind (Decodes.ensure p e) (s := fun _ => s) hs

/-- The value of a reading may be transformed. -/
theorem Decodes.map {f : α → γ} (hr : Decodes r bs a P k m) :
    Decodes (r >>= fun x => Pure.pure (f x)) bs (f a) P k m := by
  constructor
  · intro p tail b ht
    rw [Reader.bind_ok]
    exact ⟨a, _, hr.reads p tail b ht, rfl⟩
  · intro tail B b' c h
    obtain ⟨a', d, ha, hb⟩ := Reader.bind_ok.mp h
    obtain ⟨p, rfl, x, rfl, rfl⟩ := hr.only tail B a' d ha
    obtain ⟨rfl, rfl⟩ := Reader.pure_ok.mp hb
    exact ⟨p, rfl, x, rfl, rfl⟩

/-- A list of readings, one per element of `xs`. -/
theorem Decodes.replicate {P : α → Prop} {k : α → β} {xs : List α} {bss : List (List UInt8)}
    (h : Forall₂ (fun x bs => Decodes r bs x (P x) (k x) m) xs bss) :
    Decodes (replicateM xs.length r) bss.flatten xs (∀ x ∈ xs, P x) (xs.map k).sum m := by
  induction h with
  | nil => exact ((Decodes.pure []).congr (by simp)).weaken (Nat.zero_le _)
  | @cons x bs xs bss head _ ih =>
    have room : m ≤ bss.flatten.length + m := by omega
    refine (Decodes.bind head (Decodes.map (f := fun as => x :: as) ih) room).congr ?_
    simp

end Decodes

/-! ## What an accepted input is worth -/

section Accepts

variable {ε β α γ : Type u} [AddCommMonoid β]

/-- Whatever `r` accepts, its value, the amount it debited and the number of
bytes it consumed are related by `I`. -/
def Accepts (r : Reader ε β α) (I : α → β → Nat → Prop) : Prop :=
  ∀ c a c', r c = .ok (a, c') →
    ∃ k n, c.budget = k + c'.budget ∧ c.rest.length = n + c'.rest.length ∧ I a k n

variable {r : Reader ε β α} {I : α → β → Nat → Prop}

theorem Accepts.mono {J : α → β → Nat → Prop} (h : Accepts r I) (hIJ : ∀ a k n, I a k n → J a k n) :
    Accepts r J := by
  intro c a c' hr
  obtain ⟨k, n, hk, hn, hi⟩ := h c a c' hr
  exact ⟨k, n, hk, hn, hIJ a k n hi⟩

theorem Accepts.pure {a : α} (h : I a 0 0) : Accepts (.pure a : Reader ε β α) I := by
  intro c a' c' hr
  obtain ⟨rfl, rfl⟩ := Reader.pure_ok.mp hr
  exact ⟨0, 0, by simp, by simp, h⟩

variable {e : ε} {J : γ → β → Nat → Prop}

theorem Accepts.throw : Accepts (MonadExcept.throw e : Reader ε β α) I := by
  intro c a' c' hr
  exact (Reader.throw_ok.mp hr).elim

/-- Sequencing: the second reader is judged on top of what the first one consumed. -/
theorem Accepts.bind {s : α → Reader ε β γ} (hr : Accepts r I)
    (hs : ∀ a k n, I a k n → Accepts (s a) (fun b k' n' => J b (k + k') (n + n'))) :
    Accepts (r >>= s) J := by
  intro c b c' h
  obtain ⟨a, d, ha, hb⟩ := Reader.bind_ok.mp h
  obtain ⟨k, n, hk, hn, hi⟩ := hr c a d ha
  obtain ⟨k', n', hk', hn', hj⟩ := hs a k n hi d b c' hb
  exact ⟨k + k', n + n', by rw [hk, hk', add_assoc], by omega, hj⟩

theorem Accepts.ensure (p : Prop) [Decidable p] (e : ε) :
    Accepts (ByteCodec.ensure p e : Reader ε β PUnit) (fun _ k n => p ∧ k = 0 ∧ n = 0) := by
  intro c u c' h
  obtain ⟨hp, rfl⟩ := ensure_ok.mp h
  exact ⟨0, 0, by simp, by simp, hp, rfl, rfl⟩

theorem Accepts.ensure_bind {p : Prop} [Decidable p] {s : Reader ε β γ} (hs : p → Accepts s J) :
    Accepts (ByteCodec.ensure p e >>= fun _ => s) J := by
  intro c b c' h
  obtain ⟨u, d, ha, hb⟩ := Reader.bind_ok.mp h
  obtain ⟨hp, rfl⟩ := ensure_ok.mp ha
  exact hs hp d b c' hb

/-- The value is valid, the debit covers its cost and the bytes cover its size. -/
def Covers (V : α → Prop) (cost : α → β) (size : α → Nat) (a : α) (k : β) (n : Nat) : Prop :=
  V a ∧ (∃ slack, k = cost a + slack) ∧ size a ≤ n

theorem Accepts.replicate {V : α → Prop} {cost : α → β} {size : α → Nat}
    (h : Accepts r (Covers V cost size)) (count : Nat) :
    Accepts (replicateM count r) (fun as k n => as.length = count ∧
      Covers (fun as => ∀ a ∈ as, V a) (fun as => (as.map cost).sum)
        (fun as => (as.map size).sum) as k n) := by
  induction count with
  | zero => exact Accepts.pure ⟨rfl, by simp, ⟨0, by simp⟩, by simp⟩
  | succ count ih =>
    refine Accepts.bind h ?_
    rintro a k n ⟨hv, ⟨slack, rfl⟩, hsize⟩
    refine Accepts.bind ih ?_
    rintro as k' n' ⟨hlen, hvs, ⟨slack', rfl⟩, hsizes⟩
    refine Accepts.pure ⟨by simp [hlen], ?_, ⟨slack + slack', ?_⟩, ?_⟩
    · intro x hx
      rcases mem_cons.mp hx with rfl | hx
      · exact hv
      · exact hvs x hx
    · simp only [add_zero]
      exact add_add_add_comm _ _ _ _
    · simp only [map_cons, sum_cons] at hsizes ⊢
      omega

end Accepts

end ByteCodec
