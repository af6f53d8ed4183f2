import RustScript.Lib.Format

/-!
# Two readers of one input

`Simulates S R r r'` says that whatever `r` accepts is accepted by `r'`, which
consumes the same bytes; `R` relates the values and `S` the budgets.  It composes
like the readers do (`Simulates.bind`, `Simulates.replicate`), and a check or a
debit that only the first reader makes can be dropped (`Simulates.ensure_left`,
`Simulates.spend_left`).

`Consumes r P` says that the value of `r` and the bytes it consumed are related by
`P`.
-/

namespace ByteCodec

open Format List Reader

universe u

section Simulates

variable {ε ε' β β' α α' γ γ' : Type u}

/-- Whatever `r` accepts is accepted by `r'` from a related budget: both consume
the same bytes, the values are related by `R` and the budgets stay related. -/
def Simulates (S : β → β' → Prop) (R : α → α' → Prop) (r : Reader ε β α) (r' : Reader ε' β' α') :
    Prop :=
  ∀ rest b b' a c, S b b' → r ⟨rest, b⟩ = .ok (a, c) →
    ∃ a' x, r' ⟨rest, b'⟩ = .ok (a', ⟨c.rest, x⟩) ∧ S c.budget x ∧ R a a'

variable {S : β → β' → Prop} {r : Reader ε β α} {r' : Reader ε' β' α'} {R : α → α' → Prop}

theorem Simulates.mono {R' : α → α' → Prop} (h : Simulates S R r r')
    (hR : ∀ a a', R a a' → R' a a') : Simulates S R' r r' := by
  intro rest b b' a c hb hr
  obtain ⟨a', x, hr', hx, ha⟩ := h rest b b' a c hb hr
  exact ⟨a', x, hr', hx, hR a a' ha⟩

theorem Simulates.pure {a : α} {a' : α'} (h : R a a') :
    Simulates S R (.pure a : Reader ε β α) (.pure a' : Reader ε' β' α') := by
  intro rest b b' x c hb hr
  obtain ⟨rfl, rfl⟩ := pure_ok.mp hr
  exact ⟨a', b', rfl, hb, h⟩

theorem Simulates.throw {e : ε} : Simulates S R (MonadExcept.throw e : Reader ε β α) r' := by
  intro rest b b' x c hb hr
  exact (throw_ok.mp hr).elim

variable {Q : γ → γ' → Prop}

theorem Simulates.bind {s : α → Reader ε β γ} {s' : α' → Reader ε' β' γ'} (hr : Simulates S R r r')
    (hs : ∀ a a', R a a' → Simulates S Q (s a) (s' a')) : Simulates S Q (r >>= s) (r' >>= s') := by
  intro rest b b' y c hb h
  obtain ⟨a, d, ha, hy⟩ := bind_ok.mp h
  obtain ⟨a', x, ha', hx, hR⟩ := hr rest b b' a d hb ha
  obtain ⟨y', z, hy', hz, hQ⟩ := hs a a' hR d.rest d.budget x y c hx hy
  exact ⟨y', z, bind_ok.mpr ⟨a', _, ha', hy'⟩, hz, hQ⟩

/-- A check that only the first reader makes. -/
theorem Simulates.ensure_left {p : Prop} [Decidable p] {e : ε} {s : Reader ε β γ}
    {r' : Reader ε' β' γ'} (h : p → Simulates S Q s r') :
    Simulates S Q (ByteCodec.ensure p e >>= fun _ => s) r' := by
  intro rest b b' y c hb hr
  obtain ⟨u, d, ha, hy⟩ := bind_ok.mp hr
  obtain ⟨hp, rfl⟩ := ensure_ok.mp ha
  exact h hp rest b b' y c hb hy

/-- A check that only the second reader makes, and that holds. -/
theorem Simulates.ensure_right {p : Prop} [Decidable p] {e : ε'} {r : Reader ε β γ}
    {s' : Reader ε' β' γ'} (hp : p) (h : Simulates S Q r s') :
    Simulates S Q r (ByteCodec.ensure p e >>= fun _ => s') := by
  intro rest b b' y c hb hr
  obtain ⟨y', z, hy', hz, hQ⟩ := h rest b b' y c hb hr
  exact ⟨y', z, bind_ok.mpr ⟨⟨⟩, _, ensure_ok.mpr ⟨hp, rfl⟩, hy'⟩, hz, hQ⟩

theorem Simulates.replicate (h : Simulates S R r r') (count : Nat) :
    Simulates S (Forall₂ R) (replicateM count r) (replicateM count r') := by
  induction count with
  | zero => exact .pure Forall₂.nil
  | succ count ih =>
    refine .bind h fun a a' ha => .bind ih fun as as' has => ?_
    exact .pure (Forall₂.cons ha has)

/-- Strengthen the relation by what holds of everything the first reader returns. -/
theorem Simulates.keep {P : α → Prop} (h : Simulates S R r r')
    (hP : ∀ c a c', r c = .ok (a, c') → P a) : Simulates S (fun a a' => P a ∧ R a a') r r' := by
  intro rest b b' a c hb hr
  obtain ⟨a', x, hr', hx, ha⟩ := h rest b b' a c hb hr
  exact ⟨a', x, hr', hx, hP _ a c hr, ha⟩

theorem replicateM_length {count : Nat} {c c' : Cursor β} {as : List α}
    (h : replicateM count r c = .ok (as, c')) : as.length = count := by
  induction count generalizing c c' as with
  | zero =>
    obtain ⟨rfl, _⟩ := pure_ok.mp h
    rfl
  | succ count ih =>
    obtain ⟨a, d, _, hmore⟩ := bind_ok.mp h
    obtain ⟨tail, d', htail, hpure⟩ := bind_ok.mp hmore
    obtain ⟨rfl, _⟩ := pure_ok.mp hpure
    exact congrArg _ (ih htail)

end Simulates

/-! ## Primitive readers -/

section Primitive

variable {ε ε' β β' α α' γ γ' : Type} {S : β → β' → Prop} {e : ε} {e' : ε'} {R : α → α' → Prop}
  {r : Reader ε β α} {r' : Reader ε' β' α'} {sub : β → Option β} {Q : γ → γ' → Prop}
  {bad : UInt8 → ε} {bad' : UInt8 → ε'}

/-- Drop the value that the first reader returns. -/
theorem Simulates.map_left {Q : γ → α' → Prop} {f : α → γ}
    (h : Simulates S R r r') (hf : ∀ a a', R a a' → Q (f a) a') :
    Simulates S Q (r >>= fun a => .pure (f a)) r' := by
  intro rest b b' y c hb hr
  obtain ⟨a, d, ha, hy⟩ := bind_ok.mp hr
  obtain ⟨rfl, rfl⟩ := pure_ok.mp hy
  obtain ⟨a', x, hr', hx, hR⟩ := h rest b b' a c hb ha
  exact ⟨a', x, hr', hx, hf a a' hR⟩

theorem Simulates.ensure {p p' : Prop} [Decidable p] [Decidable p'] (h : p → p') :
    Simulates S (fun _ _ => p) (ByteCodec.ensure p e) (ByteCodec.ensure p' e') := by
  intro rest b b' y c hb hr
  obtain ⟨hp, rfl⟩ := ensure_ok.mp hr
  exact ⟨⟨⟩, b', ensure_ok.mpr ⟨h hp, rfl⟩, hb, hp⟩

theorem Simulates.readByte : Simulates S Eq (ByteCodec.readByte e) (ByteCodec.readByte e') := by
  intro rest b b' y c hb hr
  obtain ⟨first, same⟩ := readByte_ok.mp hr
  exact ⟨y, b', readByte_ok.mpr ⟨first, rfl⟩, same ▸ hb, rfl⟩

theorem Simulates.readBytes (n : Nat) :
    Simulates S Eq (ByteCodec.readBytes e n) (ByteCodec.readBytes e' n) := by
  intro rest b b' y c hb hr
  obtain ⟨room, rfl, rfl⟩ := readBytes_ok.mp hr
  exact ⟨_, b', readBytes_ok.mpr ⟨room, rfl, rfl⟩, hb, rfl⟩

theorem Simulates.demand (n : Nat) :
    Simulates S Eq (ByteCodec.demand e n) (ByteCodec.demand e' n) := by
  intro rest b b' y c hb hr
  obtain ⟨room, rfl⟩ := demand_ok.mp hr
  exact ⟨(), b', demand_ok.mpr ⟨room, rfl⟩, hb, rfl⟩

/-- A debit that both readers make. -/
theorem Simulates.spend {sub' : β' → Option β'}
    (h : ∀ b b' x, S b b' → sub b = some x → ∃ x', sub' b' = some x' ∧ S x x') :
    Simulates S Eq (ByteCodec.spend e sub) (ByteCodec.spend e' sub') := by
  intro rest b b' y c hb hr
  obtain ⟨x, spent, rfl⟩ := spend_ok.mp hr
  obtain ⟨x', spent', hx⟩ := h b b' x hb spent
  exact ⟨(), x', spend_ok.mpr ⟨x', spent', rfl⟩, hx, rfl⟩

/-- A debit that only the first reader makes, from a counter the second does not have. -/
theorem Simulates.spend_left {s : Reader ε β γ}
    {r' : Reader ε' β' γ'} (hsub : ∀ b b' x, S b b' → sub b = some x → S x b')
    (h : Simulates S Q s r') :
    Simulates S Q (ByteCodec.spend e sub >>= fun _ => s) r' := by
  intro rest b b' y c hb hr
  obtain ⟨u, d, hu, hy⟩ := bind_ok.mp hr
  obtain ⟨x, spent, rfl⟩ := spend_ok.mp hu
  exact h rest x b' y c (hsub b b' x hb spent) hy

theorem Simulates.readEnum {ofByte : UInt8 → Option α}
    {ofByte' : UInt8 → Option α'}
    (h : ∀ byte a, ofByte byte = some a → ∃ a', ofByte' byte = some a' ∧ R a a') :
    Simulates S R (readEnum e bad ofByte) (readEnum e' bad' ofByte') := by
  refine .bind Simulates.readByte fun byte byte' same => ?_
  subst same
  cases known : ofByte byte with
  | none => exact .throw
  | some a =>
    obtain ⟨a', known', hR⟩ := h byte a known
    simp only [known']
    exact .pure hR

theorem Simulates.readOptional (h : Simulates S R r r') :
    Simulates S (Option.Rel R) (readOptional e bad r) (readOptional e' bad' r') := by
  refine .bind Simulates.readByte fun byte byte' same => ?_
  subst same
  split
  · exact .pure Option.Rel.none
  · exact .bind h fun a a' ha => .pure (Option.Rel.some ha)
  · exact .throw

/-- A validation that only the first reader makes. -/
theorem Simulates.liftResult_left {x : Except ε α} {s : α → Reader ε β γ}
    {r' : Reader ε' β' γ'} (h : ∀ a, x = .ok a → Simulates S Q (s a) r') :
    Simulates S Q (liftResult x >>= s) r' := by
  cases x with
  | error e =>
    intro rest b b' y c hb hr
    obtain ⟨_, _, hthrow, _⟩ := bind_ok.mp hr
    exact (throw_ok.mp hthrow).elim
  | ok a => exact h a rfl

theorem Simulates.readDistinct {κ : Type} [DecidableEq κ] {key : α → κ} {r' : Reader ε' β' α}
    (h : Simulates S Eq r r') (count : Nat) (seen : List α) :
    Simulates S Eq (readDistinct key e r count seen)
      (readDistinct key e' r' count seen) := by
  induction count generalizing seen with
  | zero => exact .pure rfl
  | succ count ih =>
    refine .bind h fun a a' same => ?_
    subst same
    exact .bind (.ensure id) fun _ _ _ => ih (seen ++ [a])

end Primitive

/-! ## Readers of fixed width -/

section FixedWidth

variable {ε ε' β β' α γ : Type} {e : ε}

/-- Whatever `r` accepts, it consumes exactly `n` bytes and debits nothing. -/
def FixedWidth (r : Reader ε β α) (n : Nat) : Prop :=
  ∀ c a c', r c = .ok (a, c') → n ≤ c.rest.length ∧ c' = ⟨c.rest.drop n, c.budget⟩

theorem FixedWidth.pure (a : α) : FixedWidth (.pure a : Reader ε β α) 0 := by
  intro c x c' h
  obtain ⟨_, rfl⟩ := pure_ok.mp h
  exact ⟨Nat.zero_le _, rfl⟩

theorem FixedWidth.readBytes (n : Nat) :
    FixedWidth (ByteCodec.readBytes e n : Reader ε β (List UInt8)) n := by
  intro c a c' h
  obtain ⟨room, -, rest⟩ := readBytes_ok.mp h
  exact ⟨room, rest⟩

variable {r : Reader ε β α}

theorem FixedWidth.bind {s : α → Reader ε β γ} {n m : Nat} (hr : FixedWidth r n)
    (hs : ∀ a, FixedWidth (s a) m) : FixedWidth (r >>= s) (n + m) := by
  intro c x c' h
  obtain ⟨a, d, ha, hx⟩ := bind_ok.mp h
  obtain ⟨room, rfl⟩ := hr c a d ha
  obtain ⟨room', rfl⟩ := hs a _ x c' hx
  rw [length_drop] at room'
  exact ⟨by omega, by rw [drop_drop]⟩

theorem FixedWidth.replicate {n : Nat} (h : FixedWidth r n) (count : Nat) :
    FixedWidth (replicateM count r) (count * n) := by
  induction count with
  | zero =>
    rw [Nat.zero_mul]
    exact .pure []
  | succ count ih =>
    have whole := h.bind fun a => ih.bind fun as => .pure (a :: as)
    rw [Nat.succ_mul, Nat.add_comm (count * n)]
    exact whole

/-- A part of fixed width can be skipped as one block. -/
theorem FixedWidth.simulates {S : β → β' → Prop} {n : Nat} {e' : ε'} (h : FixedWidth r n) :
    Simulates S (fun _ _ => True) r (ByteCodec.readBytes e' n : Reader ε' β' (List UInt8)) := by
  intro rest b b' a c hb hr
  obtain ⟨room, rfl⟩ := h ⟨rest, b⟩ a c hr
  exact ⟨rest.take n, b', if_neg (Nat.not_lt.mpr room), hb, trivial⟩

end FixedWidth

/-! ## Returned values -/

section Returns

variable {ε β α γ : Type}

/-- Everything that `r` returns satisfies `P`. -/
def Returns (r : Reader ε β α) (P : α → Prop) : Prop := ∀ c a c', r c = .ok (a, c') → P a

theorem Returns.pure {a : α} {P : α → Prop} (h : P a) : Returns (.pure a : Reader ε β α) P := by
  intro c x c' hr
  obtain ⟨rfl, _⟩ := pure_ok.mp hr
  exact h

variable {r : Reader ε β α} {s : α → Reader ε β γ}

theorem Returns.bind {P : γ → Prop} (h : ∀ a, Returns (s a) P) : Returns (r >>= s) P := by
  intro c x c' hr
  obtain ⟨a, d, _, hx⟩ := bind_ok.mp hr
  exact h a d x c' hx

/-- The first of several readings, when its value is a part `f` of what is returned. -/
theorem Returns.first {f : γ → α} {c c' : Cursor β}
    {x : γ} (h : ∀ a, Returns (s a) (f · = a)) (hr : (r >>= s) c = .ok (x, c')) :
    ∃ d, r c = .ok (f x, d) := by
  obtain ⟨a, d, ha, hx⟩ := bind_ok.mp hr
  exact ⟨d, (h a d x c' hx).symm ▸ ha⟩

end Returns

/-! ## Consumed bytes -/

section Consumes

variable {ε β α γ : Type} {e : ε}

/-- The value that `r` returns and the bytes that it consumed are related by `P`. -/
def Consumes (r : Reader ε β α) (P : α → List UInt8 → Prop) : Prop :=
  ∀ c c' a, r c = .ok (a, c') → ∃ bs, c.rest = bs ++ c'.rest ∧ P a bs

variable {r : Reader ε β α} {P : α → List UInt8 → Prop}

theorem Consumes.mono {Q : α → List UInt8 → Prop} (h : Consumes r P)
    (hPQ : ∀ a bs, P a bs → Q a bs) : Consumes r Q := by
  intro c c' a hr
  obtain ⟨bs, hbs, ha⟩ := h c c' a hr
  exact ⟨bs, hbs, hPQ a bs ha⟩

theorem Consumes.pure {a : α} (h : P a []) : Consumes (.pure a : Reader ε β α) P := by
  intro c c' x hr
  obtain ⟨rfl, rfl⟩ := pure_ok.mp hr
  exact ⟨[], rfl, h⟩

theorem Consumes.throw : Consumes (MonadExcept.throw e : Reader ε β α) P :=
  fun _ _ _ hr => (throw_ok.mp hr).elim

theorem Consumes.bind {s : α → Reader ε β γ} {Q : γ → List UInt8 → Prop} (hr : Consumes r P)
    (hs : ∀ a bs, P a bs → Consumes (s a) fun x bs' => Q x (bs ++ bs')) : Consumes (r >>= s) Q := by
  intro c c' x h
  obtain ⟨a, d, ha, hx⟩ := bind_ok.mp h
  obtain ⟨bs, hbs, hP⟩ := hr c d a ha
  obtain ⟨bs', hbs', hQ⟩ := hs a bs hP d c' x hx
  exact ⟨bs ++ bs', by rw [hbs, hbs', append_assoc], hQ⟩

theorem Consumes.ensure {p : Prop} [Decidable p] :
    Consumes (ByteCodec.ensure p e : Reader ε β PUnit) fun _ bs => p ∧ bs = [] := by
  intro c c' x hr
  obtain ⟨hp, rfl⟩ := ensure_ok.mp hr
  exact ⟨[], rfl, hp, rfl⟩

theorem Consumes.readByte :
    Consumes (ByteCodec.readByte e : Reader ε β UInt8) fun byte bs => bs = [byte] := by
  intro c c' x hr
  exact ⟨_, (readByte_ok.mp hr).1, rfl⟩

theorem Consumes.readBytes (n : Nat) : Consumes (ByteCodec.readBytes e n : Reader ε β (List UInt8))
      fun bytes bs => bs = bytes ∧ bytes.length = n := by
  intro c c' x hr
  obtain ⟨room, rfl, rfl⟩ := readBytes_ok.mp hr
  exact ⟨_, (take_append_drop n _).symm, rfl, length_take_of_le room⟩

theorem Consumes.demand (n : Nat) :
    Consumes (ByteCodec.demand e n : Reader ε β Unit) fun _ bs => bs = [] := by
  intro c c' x hr
  obtain ⟨-, rfl⟩ := demand_ok.mp hr
  exact ⟨[], rfl, rfl⟩

theorem Consumes.spend (sub : β → Option β) :
    Consumes (ByteCodec.spend e sub : Reader ε β Unit) fun _ bs => bs = [] := by
  intro c c' x hr
  obtain ⟨_, -, rfl⟩ := spend_ok.mp hr
  exact ⟨[], rfl, rfl⟩

theorem Consumes.readEnum {bad : UInt8 → ε} {ofByte : UInt8 → Option α} :
    Consumes (readEnum e bad ofByte : Reader ε β α)
      fun a bs => ∃ byte, ofByte byte = some a ∧ bs = [byte] := by
  refine .bind Consumes.readByte fun byte bs hbs => ?_
  cases known : ofByte byte with
  | none => exact .throw
  | some a => exact .pure ⟨byte, known, by simp [hbs]⟩

/-- Repetition writes one piece after the other. -/
theorem Consumes.replicate {ε' : Type} {w : α → Except ε' (List UInt8)}
    (h : Consumes r fun a bs => w a = .ok bs) (count : Nat) :
    Consumes (replicateM count r) fun as bs => as.length = count ∧ writeAll w as = .ok bs := by
  induction count with
  | zero => exact .pure ⟨rfl, rfl⟩
  | succ count ih =>
    refine .bind h fun a bs ha => .bind ih fun as bs' has => ?_
    refine .pure ⟨congrArg _ has.1, ?_⟩
    rw [append_nil]
    exact appendBytes_ok.mpr ⟨bs, bs', ha, has.2, rfl⟩

end Consumes

end ByteCodec
