import RustScript.Lib.LittleEndian
import RustScript.Lib.Reader
import RustScript.Lib.SortedAssoc

/-!
# Wire formats

A `Format` pairs a writer with a reader and records what the reader demands of a
value: the limits it enforces, the budget it debits, the bytes the value takes
and the bytes that must follow.  A lawful format (`Format.Lawful`) has all three
codec properties at once: the reader succeeds on written bytes exactly within
the limits and the budget and then returns the value; written bytes have the
recorded size; and every value the reader accepts, from any input, is within the
limits, can be written again, and neither costs nor occupies more than the input
it was read from.

Formats compose.  A record is a chain of fields (`Format.field`, `Format.last`),
a sequence carries its length in front (`Format.counted`), a finite map is the
sequence of its entries (`Format.collected`), an optional part is flagged
(`Format.optional`), and an enumeration is a byte (`Format.enum`).
-/

namespace ByteCodec

open List SortedAssoc

/-! ## Writing sequences -/

section Writers

variable {ε α : Type}

/-- Two pieces of output, one after the other. -/
def appendBytes (x y : Except ε (List UInt8)) : Except ε (List UInt8) := do
  let a ← x
  let b ← y
  pure (a ++ b)

variable {xs : List α} {x y : Except ε (List UInt8)} {bs : List UInt8}

theorem appendBytes_ok : appendBytes x y = .ok bs ↔ ∃ a b, x = .ok a ∧ y = .ok b ∧ bs = a ++ b := by
  cases x with
  | error e => simp [appendBytes, bind, Except.bind]
  | ok a =>
    cases y with
    | error e => simp [appendBytes, bind, Except.bind]
    | ok b => simp [appendBytes, bind, Except.bind, pure, Except.pure, eq_comm]

/-- Whatever is written has `n` bytes. -/
def HasLength (x : Except ε (List UInt8)) (n : Nat) : Prop := ∀ bs, x = .ok bs → bs.length = n

theorem HasLength.ok (bs : List UInt8) : HasLength (.ok bs : Except ε (List UInt8)) bs.length := by
  rintro _ ⟨⟩
  rfl

theorem HasLength.append {n m : Nat} (hx : HasLength x n)
    (hy : HasLength y m) : HasLength (appendBytes x y) (n + m) := by
  intro bs h
  obtain ⟨a, b, ha, hb, rfl⟩ := appendBytes_ok.mp h
  rw [length_append, hx a ha, hy b hb]

/-- Write the elements one after the other. -/
def writeAll (w : α → Except ε (List UInt8)) : List α → Except ε (List UInt8)
  | [] => .ok []
  | x :: xs => appendBytes (w x) (writeAll w xs)

variable {w : α → Except ε (List UInt8)}

theorem writeAll_ok (h : writeAll w xs = .ok bs) :
    ∃ bss, Forall₂ (fun x b => w x = .ok b) xs bss ∧ bs = bss.flatten := by
  induction xs generalizing bs with
  | nil =>
    cases h
    exact ⟨[], Forall₂.nil, rfl⟩
  | cons x xs ih =>
    obtain ⟨a, b, hx, hxs, rfl⟩ := appendBytes_ok.mp h
    obtain ⟨bss, hall, rfl⟩ := ih hxs
    exact ⟨a :: bss, Forall₂.cons hx hall, rfl⟩

theorem writeAll_isOk : (∃ bs, writeAll w xs = .ok bs) ↔ ∀ x ∈ xs, ∃ b, w x = .ok b := by
  induction xs with
  | nil => exact ⟨fun _ x hx => absurd hx not_mem_nil, fun _ => ⟨[], rfl⟩⟩
  | cons x xs ih =>
    rw [forall_mem_cons, ← ih]
    constructor
    · rintro ⟨bs, h⟩
      obtain ⟨a, b, ha, hb, -⟩ := appendBytes_ok.mp h
      exact ⟨⟨a, ha⟩, ⟨b, hb⟩⟩
    · rintro ⟨⟨a, ha⟩, ⟨b, hb⟩⟩
      exact ⟨a ++ b, appendBytes_ok.mpr ⟨a, b, ha, hb, rfl⟩⟩

theorem flatten_length {size : α → Nat} {bss : List (List UInt8)}
    (h : Forall₂ (fun x b => w x = .ok b) xs bss)
    (hsize : ∀ x ∈ xs, ∀ b, w x = .ok b → b.length = size x) :
    bss.flatten.length = (xs.map size).sum := by
  induction h with
  | nil => rfl
  | @cons x b xs bss head _ ih =>
    have tail := ih fun y hy => hsize y (by simp [hy])
    simp [tail, hsize x (by simp) b head]

end Writers

/-! ## Reading bytes -/

section Primitive

variable {ε β : Type}

/-- The next byte. -/
def readByte (e : ε) : Reader ε β UInt8 := fun c =>
  match c.rest with
  | [] => .error e
  | b :: bs => .ok (b, ⟨bs, c.budget⟩)

/-- The next `n` bytes. -/
def readBytes (e : ε) (n : Nat) : Reader ε β (List UInt8) := fun c =>
  if c.rest.length < n then .error e
  else .ok (c.rest.take n, ⟨c.rest.drop n, c.budget⟩)

/-- Fail unless at least `n` bytes are left. -/
def demand (e : ε) (n : Nat) : Reader ε β Unit := fun c =>
  if c.rest.length < n then .error e else .ok ((), c)

/-- Debit the budget, or fail when it has no room. -/
def spend (e : ε) (sub : β → Option β) : Reader ε β Unit := fun c =>
  match sub c.budget with
  | none => .error e
  | some b => .ok ((), ⟨c.rest, b⟩)

variable {c c' : Cursor β} {e : ε}

theorem readByte_ok {b : UInt8} :
    readByte e c = .ok (b, c') ↔ c.rest = b :: c'.rest ∧ c'.budget = c.budget := by
  unfold readByte
  grind [Cursor]

variable {sub : β → Option β} {n : Nat} {u : Unit} {k : β}

theorem readBytes_ok {bs : List UInt8} : readBytes e n c = .ok (bs, c') ↔
    n ≤ c.rest.length ∧ bs = c.rest.take n ∧ c' = ⟨c.rest.drop n, c.budget⟩ := by
  unfold readBytes
  grind

theorem demand_ok : demand e n c = .ok (u, c') ↔ n ≤ c.rest.length ∧ c' = c := by
  unfold demand
  grind

theorem spend_ok : spend e sub c = .ok (u, c') ↔ ∃ b, sub c.budget = some b ∧ c' = ⟨c.rest, b⟩ := by
  unfold spend
  grind

variable [AddCommMonoid β]

theorem Decodes.readByte (e : ε) (b : UInt8) :
    Decodes (ByteCodec.readByte e : Reader ε β UInt8) [b] b True 0 0 := by
  constructor
  · simp [ByteCodec.readByte]
  · intro tail B a c h
    cases h
    exact ⟨trivial, rfl, B, by simp, rfl⟩

theorem Decodes.readBytes (e : ε) (bs : List UInt8) :
    Decodes (ByteCodec.readBytes e bs.length : Reader ε β (List UInt8)) bs bs True 0 0 := by
  have value : ∀ tail (B : β),
      ByteCodec.readBytes e bs.length ⟨bs ++ tail, B⟩ = .ok (bs, ⟨tail, B⟩) := by
    simp [ByteCodec.readBytes]
  constructor
  · intro _ tail x _
    rw [value, zero_add]
  · intro tail B a c h
    rw [value] at h
    cases h
    exact ⟨trivial, rfl, B, by simp, rfl⟩

theorem Decodes.demand (e : ε) (n : Nat) :
    Decodes (ByteCodec.demand e n : Reader ε β Unit) [] () True 0 n := by
  constructor
  · intro _ tail x ht
    have room : ¬ tail.length < n := by omega
    simp [ByteCodec.demand, room]
  · intro tail B a c h
    obtain ⟨-, rfl⟩ := demand_ok.mp h
    exact ⟨trivial, rfl, B, by simp, rfl⟩

theorem Decodes.spend {e : ε} (hsub : ∀ B b, sub B = some b ↔ B = k + b) :
    Decodes (ByteCodec.spend e sub : Reader ε β Unit) [] () True k 0 := by
  constructor
  · intro _ tail x _
    have room : sub (k + x) = some x := (hsub _ _).mpr rfl
    simp [ByteCodec.spend, room]
  · intro tail B a c h
    obtain ⟨b, hs, rfl⟩ := spend_ok.mp h
    exact ⟨trivial, rfl, b, (hsub B b).mp hs, rfl⟩

theorem Accepts.readByte (e : ε) :
    Accepts (ByteCodec.readByte e : Reader ε β UInt8) (fun _ k n => k = 0 ∧ n = 1) := by
  intro c a c' h
  obtain ⟨first, same⟩ := readByte_ok.mp h
  exact ⟨0, 1, by simp [same], by simp [first, Nat.add_comm], rfl, rfl⟩

theorem Accepts.readBytes (e : ε) (len : Nat) :
    Accepts (ByteCodec.readBytes e len : Reader ε β (List UInt8))
      (fun bs k n => bs.length = len ∧ k = 0 ∧ n = len) := by
  intro c a c' h
  obtain ⟨room, rfl, rfl⟩ := readBytes_ok.mp h
  exact ⟨0, len, by simp, by simp; omega, by simp; omega, rfl, rfl⟩

theorem Accepts.demand (e : ε) (len : Nat) :
    Accepts (ByteCodec.demand e len : Reader ε β Unit) (fun _ k n => k = 0 ∧ n = 0) := by
  intro c a c' h
  obtain ⟨-, rfl⟩ := demand_ok.mp h
  exact ⟨0, 0, by simp, by simp, rfl, rfl⟩

theorem Accepts.spend {e : ε} (hsub : ∀ B b, sub B = some b ↔ B = k + b) :
    Accepts (ByteCodec.spend e sub : Reader ε β Unit) (fun _ k' n => k' = k ∧ n = 0) := by
  intro c a c' h
  obtain ⟨b, hs, rfl⟩ := spend_ok.mp h
  exact ⟨k, 0, (hsub _ b).mp hs, by simp, rfl, rfl⟩

end Primitive

/-! ## Formats -/

/-- A writer and a reader, with what the reader demands of a value. -/
structure Format (ε β α : Type) where
  write : α → Except ε (List UInt8)
  read : Reader ε β α
  /-- The representation invariant of the type. -/
  valid : α → Prop
  /-- The limits the reader enforces. -/
  limits : α → Prop
  /-- What the reader debits. -/
  cost : α → β
  /-- How many bytes the value takes. -/
  size : α → Nat
  /-- How many bytes the reader demands after the value. -/
  tail : α → Nat

namespace Format

variable {ε β α γ : Type} [AddCommMonoid β]

structure Lawful (F : Format ε β α) : Prop where
  decodes : ∀ {x bs}, F.valid x → F.write x = .ok bs →
    Decodes F.read bs x (F.limits x) (F.cost x) (F.tail x)
  length : ∀ {x bs}, F.valid x → F.write x = .ok bs → bs.length = F.size x
  accepts : Accepts F.read
    (Covers (fun x => F.valid x ∧ F.limits x ∧ ∃ bs, F.write x = .ok bs) F.cost F.size)

/-- The last field of a record: the value `f a` is known once the field `a` is read. -/
def last (F : Format ε β γ) (proj : α → γ) (f : γ → α) : Format ε β α where
  write x := F.write (proj x)
  read := F.read >>= fun a => Pure.pure (f a)
  valid x := F.valid (proj x) ∧ x = f (proj x)
  limits x := F.limits (proj x)
  cost x := F.cost (proj x)
  size x := F.size (proj x)
  tail x := F.tail (proj x)

variable {proj : α → γ} {f : γ → α} {t : UInt8} {G : Format ε β γ} {N : Format ε β α}
  {branch : UInt8 → Reader ε β α} {bs : List UInt8}

theorem last_lawful {F : Format ε β γ} (hF : F.Lawful)
    (hproj : ∀ a, proj (f a) = a) : (last F proj f).Lawful where
  decodes := by
    rintro x bs ⟨hv, hx⟩ hw
    have part := Decodes.map (f := f) (hF.decodes hv hw)
    rw [← hx] at part
    exact part
  length := fun hv hw => hF.length hv.1 hw
  accepts := by
    refine .bind hF.accepts ?_
    rintro a k n ⟨⟨hv, hl, hw⟩, ⟨slack, rfl⟩, hsize⟩
    refine .pure ?_
    simp only [last, hproj, Covers, add_zero]
    exact ⟨⟨⟨hv, trivial⟩, hl, hw⟩, ⟨slack, rfl⟩, hsize⟩

/-- One field of a record, and the rest of the record given that field. -/
def field (F : Format ε β γ) (proj : α → γ) (G : γ → Format ε β α) : Format ε β α where
  write x := appendBytes (F.write (proj x)) ((G (proj x)).write x)
  read := F.read >>= fun a => (G a).read
  valid x := F.valid (proj x) ∧ (G (proj x)).valid x
  limits x := F.limits (proj x) ∧ (G (proj x)).limits x
  cost x := F.cost (proj x) + (G (proj x)).cost x
  size x := F.size (proj x) + (G (proj x)).size x
  tail x := (G (proj x)).tail x

omit [AddCommMonoid β] in
/-- An optional value demands no more to follow than the value does. -/
theorem optional_tail_le {F : Format ε β α} {t : Nat} {x : Option α} (h : ∀ a, F.tail a ≤ t) :
    (x.map F.tail).getD 0 ≤ t := by
  cases x with
  | none => exact Nat.zero_le _
  | some a => exact h a

/-- The bytes of the rest of the record may suffice for what the field demands to follow
only within the limits of the record. -/
theorem field_lawful_of_limits {F : Format ε β γ} {G : γ → Format ε β α} (hF : F.Lawful)
    (hG : ∀ a, (G a).Lawful) (hproj : ∀ a x, (G a).valid x → proj x = a)
    (htail : ∀ x, (G (proj x)).valid x → (G (proj x)).limits x →
      F.tail (proj x) ≤ (G (proj x)).size x + (G (proj x)).tail x) : (field F proj G).Lawful where
  decodes := by
    rintro x bs ⟨hv, hv'⟩ hw
    obtain ⟨a, b, ha, hb, rfl⟩ := appendBytes_ok.mp hw
    have size := (hG _).length hv' hb
    exact .bind_of_limits (hF.decodes hv ha) ((hG _).decodes hv' hb) fun hl => size ▸ htail x hv' hl
  length := by
    rintro x bs ⟨hv, hv'⟩ hw
    obtain ⟨a, b, ha, hb, rfl⟩ := appendBytes_ok.mp hw
    rw [length_append, hF.length hv ha, (hG _).length hv' hb]
    rfl
  accepts := by
    refine .bind hF.accepts ?_
    rintro a k n ⟨⟨hv, hl, bs, hw⟩, ⟨slack, rfl⟩, hsize⟩
    refine (hG a).accepts.mono ?_
    rintro x k' n' ⟨⟨hv', hl', bs', hw'⟩, ⟨slack', rfl⟩, hsize'⟩
    cases hproj a x hv'
    refine ⟨⟨⟨hv, hv'⟩, ⟨hl, hl'⟩, bs ++ bs', appendBytes_ok.mpr ⟨bs, bs', hw, hw', rfl⟩⟩,
      ⟨slack + slack', ?_⟩, ?_⟩
    · exact add_add_add_comm _ _ _ _
    · exact Nat.add_le_add hsize hsize'

theorem field_lawful {F : Format ε β γ} {G : γ → Format ε β α} (hF : F.Lawful)
    (hG : ∀ a, (G a).Lawful)
    (hrest : ∀ a x, (G a).valid x → proj x = a ∧ F.tail a ≤ (G a).size x + (G a).tail x) :
    (field F proj G).Lawful :=
  field_lawful_of_limits hF hG (fun a x hx => (hrest a x hx).1) fun x hx _ => (hrest _ x hx).2

/-- A check between two fields. -/
def check (p : Prop) [Decidable p] (e : ε) (G : Format ε β α) : Format ε β α :=
  { G with
    read := ByteCodec.ensure p e >>= fun _ => G.read
    limits := fun x => p ∧ G.limits x }

variable {e : ε}

theorem check_lawful {p : Prop} [Decidable p] {G : Format ε β α} (hG : G.Lawful) :
    (check p e G).Lawful where
  decodes := fun hv hw => .ensure_bind (hG.decodes hv hw)
  length := fun hv hw => hG.length hv hw
  accepts := Accepts.ensure_bind fun hp => hG.accepts.mono fun _ _ _ h =>
    ⟨⟨h.1.1, ⟨hp, h.1.2.1⟩, h.1.2.2⟩, h.2⟩

/-- A sequence of known length; `t` is what its last element demands to follow. -/
def repeated (n : Nat) (F : Format ε β α) (t : Nat) : Format ε β (List α) where
  write := writeAll F.write
  read := replicateM n F.read
  valid xs := xs.length = n ∧ ∀ x ∈ xs, F.valid x
  limits xs := ∀ x ∈ xs, F.limits x
  cost xs := (xs.map F.cost).sum
  size xs := (xs.map F.size).sum
  tail _ := t

variable {F : Format ε β α} {κ : Type}

theorem repeated_lawful {t : Nat} (n : Nat) (hF : F.Lawful) (ht : ∀ x, F.tail x ≤ t) :
    (repeated n F t).Lawful where
  decodes := by
    rintro xs bs ⟨rfl, hvs⟩ hw
    obtain ⟨bss, hall, rfl⟩ := writeAll_ok hw
    refine .replicate (((forall₂_and_left xs bss).mpr ⟨hvs, hall⟩).imp ?_)
    rintro x b ⟨hx, hb⟩
    exact (hF.decodes hx hb).weaken (ht x)
  length := by
    rintro xs bs ⟨_, hvs⟩ hw
    obtain ⟨bss, hall, rfl⟩ := writeAll_ok hw
    exact flatten_length hall fun x hx b hb => hF.length (hvs x hx) hb
  accepts := by
    refine (Accepts.replicate hF.accepts n).mono ?_
    rintro xs k m ⟨hlen, hvs, hcost, hsize⟩
    exact ⟨⟨⟨hlen, fun x hx => (hvs x hx).1⟩, fun x hx => (hvs x hx).2.1,
      writeAll_isOk.mpr fun x hx => (hvs x hx).2.2⟩, hcost, hsize⟩

/-- A sequence with its length in front; `t` is what its last element demands to follow. -/
def counted (N : Format ε β Nat) (F : Format ε β α) (t : Nat) : Format ε β (List α) where
  write xs := appendBytes (N.write xs.length) (writeAll F.write xs)
  read := N.read >>= fun n => replicateM n F.read
  valid xs := N.valid xs.length ∧ ∀ x ∈ xs, F.valid x
  limits xs := N.limits xs.length ∧ ∀ x ∈ xs, F.limits x
  cost xs := N.cost xs.length + (xs.map F.cost).sum
  size xs := N.size xs.length + (xs.map F.size).sum
  tail _ := t

theorem counted_lawful {N : Format ε β Nat} {t : Nat} (hN : N.Lawful) (hF : F.Lawful)
    (ht : ∀ x, F.tail x ≤ t) (hmin : ∀ xs : List α, N.tail xs.length ≤ (xs.map F.size).sum + t) :
    (counted N F t).Lawful := by
  have law := field_lawful (F := N) (G := fun n => repeated n F t) hN
    (fun n => repeated_lawful n hF ht) fun _ xs hx => ⟨hx.1, hx.1 ▸ hmin xs⟩
  exact ⟨fun hv hw => law.decodes ⟨hv.1, rfl, hv.2⟩ hw,
    fun hv hw => law.length ⟨hv.1, rfl, hv.2⟩ hw,
    law.accepts.mono fun _ _ _ h => ⟨⟨⟨h.1.1.1, h.1.1.2.2⟩, h.1.2⟩, h.2⟩⟩

/-- Whatever holds of a count holds of every smaller one: it can be written, is within the
limits, and costs and takes no more. -/
def Antitone (N : Format ε β Nat) : Prop :=
  ∀ n m, n ≤ m → N.valid m → N.limits m → (∃ bs, N.write m = .ok bs) →
    (N.valid n ∧ N.limits n ∧ ∃ bs, N.write n = .ok bs) ∧
      (∃ slack, N.cost m = N.cost n + slack) ∧ N.size n ≤ N.size m

/-- Read `n` more items, failing on one whose key was seen before. -/
def readDistinct {κ : Type} [DecidableEq κ] (key : α → κ) (e : ε) (r : Reader ε β α) :
    Nat → List α → Reader ε β (List α)
  | 0, seen => Pure.pure seen
  | n + 1, seen => do
      let x ← r
      ByteCodec.ensure (key x ∉ seen.map key) e
      readDistinct key e r n (seen ++ [x])

/-- A counted sequence whose items the reader wants to have different keys. -/
def distinct {κ : Type} [DecidableEq κ] (N : Format ε β Nat) (F : Format ε β α) (t : Nat)
    (key : α → κ) (e : ε) : Format ε β (List α) :=
  { counted N F t with
    read := N.read >>= fun n => readDistinct key e F.read n []
    limits := fun xs => (counted N F t).limits xs ∧ (xs.map key).Nodup }

section Distinct

variable [DecidableEq κ] {key : α → κ} {e : ε}

/-- The keys of `xs` are new after `seen`, and different from each other. -/
def NewKeys (key : α → κ) : List α → List α → Prop
  | _, [] => True
  | seen, x :: xs => key x ∉ seen.map key ∧ NewKeys key (seen ++ [x]) xs

variable {xs : List α} {r : Reader ε β α}

theorem newKeys_iff {seen : List α} (hseen : (seen.map key).Nodup) :
    NewKeys key seen xs ↔ ((seen ++ xs).map key).Nodup := by
  induction xs generalizing seen with
  | nil => simp [NewKeys, hseen]
  | cons x xs ih =>
    have assoc : seen ++ x :: xs = (seen ++ [x]) ++ xs := by simp
    have step : ((seen ++ [x]).map key).Nodup ↔ key x ∉ seen.map key := by grind [nodup_append]
    rw [NewKeys, assoc]
    constructor
    · intro h
      exact (ih (step.mpr h.1)).mp h.2
    · intro h
      have front : ((seen ++ [x]).map key).Nodup := by
        rw [map_append] at h
        exact (nodup_append.mp h).1
      exact ⟨step.mp front, (ih front).mpr h⟩

theorem newKeys_nil_iff : NewKeys key [] xs ↔ (xs.map key).Nodup :=
  newKeys_iff nodup_nil

theorem readDistinct_decodes {P : α → Prop} {k : α → β} {m : Nat} {bss : List (List UInt8)}
    (h : Forall₂ (fun x bs => Decodes r bs x (P x) (k x) m) xs bss) (seen : List α) :
    Decodes (readDistinct key e r xs.length seen) bss.flatten (seen ++ xs)
      ((∀ x ∈ xs, P x) ∧ NewKeys key seen xs) (xs.map k).sum m := by
  induction h generalizing seen with
  | nil =>
    rw [append_nil]
    exact ((Decodes.pure seen).congr (by simp [NewKeys])).weaken (Nat.zero_le _)
  | @cons x bs xs bss head _ ih =>
    have rest := Decodes.ensure_bind (p := key x ∉ seen.map key) (e := e) (ih (seen ++ [x]))
    have whole := Decodes.bind (s := fun x => ByteCodec.ensure (key x ∉ seen.map key) e >>=
      fun _ => readDistinct key e r xs.length (seen ++ [x])) head rest (Nat.le_add_left m _)
    rw [append_assoc] at whole
    refine whole.congr ?_
    simp only [forall_mem_cons, NewKeys]
    tauto

theorem readDistinct_accepts {V : α → Prop} {cost : α → β} {size : α → Nat}
    (h : Accepts r (Covers V cost size)) (n : Nat) (seen : List α) :
    Accepts (readDistinct key e r n seen) (fun ys k m => ∃ xs, ys = seen ++ xs ∧ xs.length = n ∧
      NewKeys key seen xs ∧ (∀ x ∈ xs, V x) ∧ (∃ slack, k = (xs.map cost).sum + slack) ∧
        (xs.map size).sum ≤ m) := by
  induction n generalizing seen with
  | zero =>
    exact .pure ⟨[], (append_nil _).symm, rfl, trivial, by simp, ⟨0, by simp⟩,
      by simp⟩
  | succ n ih =>
    refine .bind h ?_
    intro x k m hx
    obtain ⟨hV, ⟨slack, rfl⟩, hsize⟩ := hx
    refine .ensure_bind fun hnew => (ih (seen ++ [x])).mono ?_
    intro ys k' m' hys
    obtain ⟨xs, rfl, rfl, hkeys, hVs, ⟨slack', rfl⟩, hsizes⟩ := hys
    refine ⟨x :: xs, by simp, rfl, ⟨hnew, hkeys⟩, forall_mem_cons.mpr ⟨hV, hVs⟩,
      ⟨slack + slack', ?_⟩, ?_⟩
    · exact add_add_add_comm _ _ _ _
    · exact Nat.add_le_add hsize hsizes

theorem distinct_lawful {N : Format ε β Nat} {F : Format ε β α} {t : Nat} (hN : N.Lawful)
    (hF : F.Lawful) (ht : ∀ x, F.tail x ≤ t)
    (hmin : ∀ xs : List α, N.tail xs.length ≤ (xs.map F.size).sum + t) :
    (distinct N F t key e).Lawful where
  decodes := by
    intro xs bs hv hw
    obtain ⟨hv, hvs⟩ := hv
    obtain ⟨a, b, ha, hb, rfl⟩ := appendBytes_ok.mp hw
    obtain ⟨bss, hall, rfl⟩ := writeAll_ok hb
    have items : Forall₂ (fun x b => Decodes F.read b x (F.limits x) (F.cost x) t) xs bss := by
      refine ((forall₂_and_left xs bss).mpr ⟨hvs, hall⟩).imp ?_
      intro x b hx
      exact (hF.decodes hx.1 hx.2).weaken (ht x)
    have sizes := flatten_length hall fun x hx b hb => hF.length (hvs x hx) hb
    have rest : Decodes (readDistinct key e F.read xs.length []) bss.flatten xs
        ((∀ x ∈ xs, F.limits x) ∧ NewKeys key [] xs) (xs.map F.cost).sum t :=
      readDistinct_decodes items []
    refine (Decodes.bind (hN.decodes hv ha) rest (sizes ▸ hmin xs)).congr ?_
    rw [newKeys_nil_iff]
    exact and_assoc.symm
  length := (counted_lawful hN hF ht hmin).length
  accepts := by
    refine Accepts.bind hN.accepts ?_
    intro count k n hcount
    obtain ⟨⟨hv, hl, bs, hw⟩, ⟨slack, rfl⟩, hsize⟩ := hcount
    refine (readDistinct_accepts hF.accepts count []).mono ?_
    intro ys k' n' hys
    obtain ⟨xs, rfl, rfl, hkeys, hvs, ⟨slack', rfl⟩, hsizes⟩ := hys
    rw [newKeys_nil_iff] at hkeys
    obtain ⟨bs', hw'⟩ := writeAll_isOk.mpr fun x hx => (hvs x hx).2.2
    refine ⟨⟨⟨hv, fun x hx => (hvs x hx).1⟩, ⟨⟨hl, fun x hx => (hvs x hx).2.1⟩, hkeys⟩,
      bs ++ bs', appendBytes_ok.mpr ⟨bs, bs', hw, hw', rfl⟩⟩, ⟨slack + slack', ?_⟩, ?_⟩
    · exact add_add_add_comm _ _ _ _
    · exact Nat.add_le_add hsize hsizes

end Distinct

section Collected

variable {ν : Type} [LinearOrder κ]

/-- A finite map: its entries in increasing key order.  The reader inserts the entries in
the order it meets them, so it also accepts other orders and what `C` allows of
repeated keys. -/
def collected (C : Format ε β (List (κ × ν))) : Format ε β (List (κ × ν)) :=
  { C with
    read := C.read >>= fun es => Pure.pure (SortedAssoc.insertAll es [])
    valid := fun es => SortedAssoc.SortedKeys es ∧ C.valid es }

/-- The map of spelled entries is covered by what spelling them took. -/
def Collectable (C : Format ε β (List (κ × ν))) : Prop :=
  ∀ es, C.valid es → C.limits es → (∃ bs, C.write es = .ok bs) →
    (C.valid (SortedAssoc.insertAll es []) ∧ C.limits (SortedAssoc.insertAll es []) ∧
        ∃ bs, C.write (SortedAssoc.insertAll es []) = .ok bs) ∧
      (∃ slack, C.cost es = C.cost (SortedAssoc.insertAll es []) + slack) ∧
      C.size (SortedAssoc.insertAll es []) ≤ C.size es

variable {N : Format ε β Nat} {t : Nat}

theorem counted_collectable {F : Format ε β (κ × ν)}
    (hN : N.Antitone) : (counted N F t).Collectable := by
  intro es hv hl hw
  have kept : ∀ e ∈ insertAll es [], e ∈ es := fun e he =>
    (mem_insertAll he).resolve_right not_mem_nil
  have shorter : (insertAll es []).length ≤ es.length := by simpa using length_insertAll_le es []
  obtain ⟨bs, hw⟩ := hw
  obtain ⟨a, b, ha, hb, -⟩ := appendBytes_ok.mp hw
  obtain ⟨⟨hv', hl', a', ha'⟩, ⟨countSlack, hcount⟩, hcountSize⟩ :=
    hN _ _ shorter hv.1 hl.1 ⟨a, ha⟩
  obtain ⟨b', hb'⟩ := writeAll_isOk.mpr fun e he => writeAll_isOk.mp ⟨b, hb⟩ e (kept e he)
  obtain ⟨costSlack, hcost⟩ := sum_insertAll F.cost es []
  obtain ⟨sizeSlack, hsizes⟩ := sum_insertAll F.size es []
  simp only [map_nil, sum_nil, add_zero] at hcost hsizes
  refine ⟨⟨⟨hv', fun e he => hv.2 e (kept e he)⟩, ⟨hl', fun e he => hl.2 e (kept e he)⟩,
    a' ++ b', appendBytes_ok.mpr ⟨a', b', ha', hb', rfl⟩⟩, ⟨countSlack + costSlack, ?_⟩, ?_⟩
  · simp only [counted, hcount, hcost]
    exact add_add_add_comm _ _ _ _
  · simp only [counted]
    omega

theorem distinct_collectable {F : Format ε β (κ × ν)} {e : ε}
    (hN : N.Antitone) : (distinct N F t Prod.fst e).Collectable := by
  intro es hv hl hw
  obtain ⟨⟨hv', hl', hw'⟩, covered⟩ := counted_collectable hN es hv hl.1 hw
  have sorted : SortedKeys (insertAll es []) :=
    insertAll_sorted List.Pairwise.nil
  have keys : ((insertAll es []).map Prod.fst).Nodup :=
    pairwise_map.mpr (sorted.imp fun h => ne_of_lt h)
  exact ⟨⟨hv', ⟨hl', keys⟩, hw'⟩, covered⟩

theorem collected_lawful {C : Format ε β (List (κ × ν))} (hC : C.Lawful) (h : C.Collectable) :
    (collected C).Lawful where
  decodes := by
    intro es bs hv hw
    have part := Decodes.map (f := fun es => insertAll es []) (hC.decodes hv.2 hw)
    rw [insertAll_of_sorted hv.1] at part
    exact part
  length := fun hv hw => hC.length hv.2 hw
  accepts := by
    refine .bind hC.accepts ?_
    intro es k n hes
    obtain ⟨⟨hv, hl, hw⟩, ⟨slack, rfl⟩, hsize⟩ := hes
    obtain ⟨⟨hv', hl', hw'⟩, ⟨slack', hcost⟩, hsize'⟩ := h es hv hl hw
    have sorted : SortedKeys (insertAll es []) :=
      insertAll_sorted List.Pairwise.nil
    refine .pure ⟨⟨⟨sorted, hv'⟩, hl', hw'⟩, ⟨slack' + slack, ?_⟩, ?_⟩
    · rw [hcost, add_zero, add_assoc]
      rfl
    · exact Nat.le_trans hsize' hsize

end Collected

/-- A flagged optional part: `0` for absent, `1` for present. -/
def readOptional (e : ε) (bad : UInt8 → ε) (r : Reader ε β α) : Reader ε β (Option α) := do
  match ← readByte e with
  | 0 => Pure.pure none
  | 1 => r >>= fun a => Pure.pure (some a)
  | other => throw (bad other)

def writeOptional (w : α → Except ε (List UInt8)) : Option α → Except ε (List UInt8)
  | none => .ok [0]
  | some a => appendBytes (.ok [1]) (w a)

def optional (e : ε) (bad : UInt8 → ε) (F : Format ε β α) : Format ε β (Option α) where
  write := writeOptional F.write
  read := readOptional e bad F.read
  valid x := ∀ a ∈ x, F.valid a
  limits x := ∀ a ∈ x, F.limits a
  cost x := (x.map F.cost).getD 0
  size x := 1 + (x.map F.size).getD 0
  tail x := (x.map F.tail).getD 0

variable {bad : UInt8 → ε}

theorem optional_lawful (hF : F.Lawful) : (optional e bad F).Lawful where
  decodes := by
    intro x bs hv hw
    cases x with
    | none =>
      cases hw
      refine (Decodes.free_bind (.readByte e 0) (Decodes.pure none)).congr ?_
      simp [optional]
    | some a =>
      obtain ⟨one, b, hone, hb, rfl⟩ := appendBytes_ok.mp hw
      cases hone
      have inner := hF.decodes (hv a rfl) hb
      refine (Decodes.free_bind (.readByte e 1) (Decodes.map inner)).congr ?_
      simp [optional]
  length := by
    intro x bs hv hw
    cases x with
    | none =>
      cases hw
      rfl
    | some a =>
      obtain ⟨one, b, hone, hb, rfl⟩ := appendBytes_ok.mp hw
      cases hone
      rw [List.length_append, hF.length (hv a rfl) hb]
      rfl
  accepts := by
    refine .bind (.readByte e) ?_
    rintro flag k n ⟨rfl, rfl⟩
    split
    · exact .pure ⟨⟨by simp [optional], by simp [optional], [0], rfl⟩,
        ⟨0, by simp [optional]⟩, by simp [optional]⟩
    · refine .bind hF.accepts ?_
      rintro a k n ⟨⟨hv, hl, bs, hw⟩, ⟨slack, rfl⟩, hsize⟩
      refine .pure ⟨⟨by simpa [optional] using hv, by simpa [optional] using hl,
        [1] ++ bs, appendBytes_ok.mpr ⟨[1], bs, rfl, hw, rfl⟩⟩, ⟨slack, by simp [optional]⟩, ?_⟩
      simp only [optional, Option.map_some, Option.getD_some]
      omega
    · exact .throw

/-- One value of an enumeration, as a byte. -/
def readEnum (e : ε) (bad : UInt8 → ε) (ofByte : UInt8 → Option α) : Reader ε β α := do
  let byte ← readByte e
  match ofByte byte with
  | some a => Pure.pure a
  | none => throw (bad byte)

def enum (e : ε) (bad : UInt8 → ε) (ofByte : UInt8 → Option α) (toByte : α → UInt8) :
    Format ε β α where
  write a := .ok [toByte a]
  read := readEnum e bad ofByte
  valid _ := True
  limits _ := True
  cost _ := 0
  size _ := 1
  tail _ := 0

theorem enum_lawful {ofByte : UInt8 → Option α} {toByte : α → UInt8}
    (h : ∀ a, ofByte (toByte a) = some a) : (enum e bad ofByte toByte : Format ε β α).Lawful where
  decodes := by
    intro x bs _ hw
    cases hw
    have rest : Decodes (match ofByte (toByte x) with
        | some a => Pure.pure a
        | none => throw (bad (toByte x)) : Reader ε β α) [] x True 0 0 := by
      rw [h x]
      exact .pure x
    exact (Decodes.free_bind (.readByte e (toByte x)) rest).congr (by simp [enum])
  length := by
    intro x bs _ hw
    cases hw
    rfl
  accepts := by
    refine .bind (.readByte e) ?_
    rintro byte k n ⟨rfl, rfl⟩
    split
    · exact .pure ⟨⟨trivial, trivial, _, rfl⟩, ⟨0, by simp [enum]⟩, by simp [enum]⟩
    · exact .throw

/-- A single byte. -/
def byte (e : ε) : Format ε β UInt8 where
  write b := .ok [b]
  read := readByte e
  valid _ := True
  limits _ := True
  cost _ := 0
  size _ := 1
  tail _ := 0

theorem byte_lawful {e : ε} : (byte e : Format ε β UInt8).Lawful where
  decodes := by
    intro x bs _ hw
    cases hw
    exact .readByte e x
  length := by
    intro x bs _ hw
    cases hw
    rfl
  accepts := (Accepts.readByte e).mono fun _ _ _ h =>
    ⟨⟨trivial, trivial, _, rfl⟩, ⟨0, by simp [byte, h.1]⟩, h.2.ge⟩

/-- A value written as a fixed number of bytes. -/
def word (e : ε) (w : Nat) (ofBytes : List UInt8 → α) (toBytes : α → List UInt8) :
    Format ε β α where
  write a := .ok (toBytes a)
  read := readBytes e w >>= fun bs => Pure.pure (ofBytes bs)
  valid _ := True
  limits _ := True
  cost _ := 0
  size _ := w
  tail _ := 0

theorem word_lawful {w : Nat} {ofBytes : List UInt8 → α} {toBytes : α → List UInt8}
    (hlen : ∀ a, (toBytes a).length = w) (h : ∀ a, ofBytes (toBytes a) = a) :
    (word e w ofBytes toBytes : Format ε β α).Lawful where
  decodes := by
    intro x bs _ hw
    cases hw
    have bytes := Decodes.map (f := ofBytes) (.readBytes (β := β) e (toBytes x))
    rw [hlen x, h x] at bytes
    exact bytes
  length := by
    intro x bs _ hw
    cases hw
    exact hlen x
  accepts := by
    refine .bind (Accepts.readBytes e w) ?_
    rintro bs k n ⟨_, rfl, rfl⟩
    exact .pure ⟨⟨trivial, trivial, _, rfl⟩, ⟨0, by simp [word]⟩, by simp [word]⟩

/-- Lift a fallible computation into a reader. -/
def liftResult (x : Except ε α) : Reader ε β α :=
  match x with
  | .ok a => Pure.pure a
  | .error e => throw e

/-- A value that is written as a rendering of it and parsed back. -/
def parsed (F : Format ε β γ) (render : α → γ) (parse : γ → Except ε α) : Format ε β α where
  write a := F.write (render a)
  read := F.read >>= fun t => liftResult (parse t)
  valid a := F.valid (render a)
  limits a := F.limits (render a)
  cost a := F.cost (render a)
  size a := F.size (render a)
  tail a := F.tail (render a)

theorem parsed_lawful {F : Format ε β γ} {render : α → γ} {parse : γ → Except ε α}
    (hF : F.Lawful) (hparse : ∀ a, parse (render a) = .ok a)
    (hrender : ∀ t a, parse t = .ok a → render a = t) : (parsed F render parse).Lawful where
  decodes := by
    intro a bs hv hw
    have rest : Decodes (liftResult (parse (render a)) : Reader ε β α) [] a True 0
        (F.tail (render a)) := by
      rw [hparse a]
      exact (Decodes.pure a).weaken (Nat.zero_le _)
    exact (Decodes.bind_free (hF.decodes hv hw) rest (Nat.le_refl _)).congr (by simp [parsed])
  length := fun hv hw => hF.length hv hw
  accepts := by
    refine .bind hF.accepts ?_
    rintro t k n ⟨⟨hv, hl, hw⟩, hk, hsize⟩
    cases h : parse t with
    | error e => exact .throw
    | ok a =>
      cases hrender t a h
      exact .pure ⟨⟨hv, hl, hw⟩, by simpa [parsed] using hk, hsize⟩

/-- A value that the writer validates before and the reader after it. -/
def validated (F : Format ε β α) (v : α → Except ε Unit) : Format ε β α :=
  { F with
    write := fun x => v x >>= fun _ => F.write x
    read := F.read >>= fun x => liftResult (v x) >>= fun _ => Pure.pure x }

theorem validated_lawful {v : α → Except ε Unit} (hF : F.Lawful) : (validated F v).Lawful where
  decodes := by
    intro x bs hv hw
    obtain ⟨_, hok, hw⟩ := Fallible.bind_eq_ok.mp hw
    have rest : Decodes (liftResult (v x) >>= fun _ => Pure.pure x : Reader ε β α) [] x True 0
        (F.tail x) := by
      rw [hok]
      exact (Decodes.pure x).weaken (Nat.zero_le _)
    exact (Decodes.bind_free (hF.decodes hv hw) rest (Nat.le_refl _)).congr (by simp [validated])
  length := by
    intro x bs hv hw
    obtain ⟨_, _, hw⟩ := Fallible.bind_eq_ok.mp hw
    exact hF.length hv hw
  accepts := by
    refine .bind hF.accepts ?_
    rintro x k n ⟨⟨hv, hl, bs, hw⟩, hk, hsize⟩
    cases h : v x with
    | error e => exact .throw
    | ok u =>
      have written : (validated F v).write x = .ok bs := Fallible.bind_eq_ok.mpr ⟨u, h, hw⟩
      exact .pure ⟨⟨hv, hl, bs, written⟩, by simpa [validated] using hk, hsize⟩

/-- Nothing at all. -/
def unit : Format ε β Unit where
  write _ := .ok []
  read := Pure.pure ()
  valid _ := True
  limits _ := True
  cost _ := 0
  size _ := 0
  tail _ := 0

theorem unit_lawful : (unit : Format ε β Unit).Lawful where
  decodes := by
    intro x bs _ hw
    cases hw
    exact .pure ()
  length := by
    intro x bs _ hw
    cases hw
    rfl
  accepts := Accepts.pure ⟨⟨trivial, trivial, [], rfl⟩, ⟨0, by simp [unit]⟩, by simp [unit]⟩

/-! ## Tagged alternatives

A value of a sum type is a tag byte and the payload of its alternative. -/

/-- The alternative `f` of the format `N` has the tag `t` and a payload of format `G`;
`branch` is what `N` reads after a tag. -/
structure Alternative (N : Format ε β α) (branch : UInt8 → Reader ε β α) (t : UInt8)
    (G : Format ε β γ) (f : γ → α) : Prop where
  law : G.Lawful
  read : branch t = G.read >>= fun x => Pure.pure (f x)
  write : ∀ x, N.write (f x) = appendBytes (.ok [t]) (G.write x)
  valid : ∀ x, N.valid (f x) ↔ G.valid x
  limits : ∀ x, N.limits (f x) ↔ G.limits x
  cost : ∀ x, N.cost (f x) = G.cost x
  size : ∀ x, N.size (f x) = 1 + G.size x
  tail : ∀ x, G.tail x ≤ N.tail (f x)

/-- An alternative that adds nothing but its tag to the payload. -/
theorem Alternative.of_eq (law : G.Lawful) (read : branch t = G.read >>= fun x => Pure.pure (f x))
    (same : ∀ x, (N.write (f x), N.valid (f x), N.limits (f x), N.cost (f x), N.size (f x)) =
      (appendBytes (.ok [t]) (G.write x), G.valid x, G.limits x, G.cost x, 1 + G.size x) ∧
      G.tail x ≤ N.tail (f x)) : Alternative N branch t G f := by
  simp only [Prod.mk.injEq] at same
  exact ⟨law, read, fun x => (same x).1.1, fun x => iff_of_eq (same x).1.2.1,
    fun x => iff_of_eq (same x).1.2.2.1, fun x => (same x).1.2.2.2.1,
    fun x => (same x).1.2.2.2.2, fun x => (same x).2⟩

/-- The reader finds its way back through the tag of an alternative. -/
theorem decodes_tagged {branch : UInt8 → Reader ε β γ} {r : Reader ε β α} {f : α → γ} {x : α}
    {P : Prop} {c : β} {m : Nat} (hread : branch t = r >>= fun a => Pure.pure (f a))
    (h : Decodes r bs x P c m) :
    Decodes (ByteCodec.readByte e >>= branch) (t :: bs) (f x) P c m := by
  have rest : Decodes (branch t) bs (f x) P c m := by
    rw [hread]
    exact .map h
  exact (Decodes.free_bind (.readByte e t) rest).congr (by simp)

theorem Alternative.decodes (h : Alternative N branch t G f) (e : ε) {x : γ}
    (hv : N.valid (f x)) (hw : N.write (f x) = .ok bs) :
    Decodes (ByteCodec.readByte e >>= branch) bs (f x) (N.limits (f x)) (N.cost (f x))
      (N.tail (f x)) ∧ bs.length = N.size (f x) := by
  rw [h.write x] at hw
  obtain ⟨tag, body, htag, hbody, rfl⟩ := appendBytes_ok.mp hw
  cases htag
  have part := h.law.decodes ((h.valid x).mp hv) hbody
  constructor
  · rw [h.cost]
    exact ((decodes_tagged h.read part).congr (h.limits x).symm).weaken (h.tail x)
  · rw [length_append, h.law.length ((h.valid x).mp hv) hbody, h.size]
    rfl

/-- An alternative that was read is covered when it is made from a covered part. -/
theorem accepts_tagged {G : Format ε β α} {f : α → γ} {V : γ → Prop} {cost : γ → β}
    {size : γ → Nat} (hG : G.Lawful)
    (h : ∀ x, G.valid x → G.limits x → (∃ bs, G.write x = .ok bs) →
      V (f x) ∧ (∃ slack, G.cost x = cost (f x) + slack) ∧ size (f x) ≤ 1 + G.size x) :
    Accepts (G.read >>= fun a => Pure.pure (f a))
      (fun b k n => Covers V cost size b (0 + k) (1 + n)) := by
  refine .bind hG.accepts ?_
  rintro x k n ⟨⟨hv, hl, hw⟩, ⟨slack, rfl⟩, hsize⟩
  obtain ⟨hV, ⟨slack', hcost⟩, hsize'⟩ := h x hv hl hw
  refine .pure ⟨hV, ⟨slack' + slack, ?_⟩, ?_⟩
  · rw [hcost, zero_add, add_zero, add_assoc]
  · omega

theorem Alternative.accepts (h : Alternative N branch t G f) :
    Accepts (branch t) (fun b k n =>
      Covers (fun x => N.valid x ∧ N.limits x ∧ ∃ bs, N.write x = .ok bs) N.cost N.size b
        (0 + k) (1 + n)) := by
  rw [h.read]
  refine accepts_tagged h.law fun x hv hl hw => ?_
  refine ⟨⟨(h.valid x).mpr hv, (h.limits x).mpr hl, ?_⟩, ⟨0, by simp [h.cost]⟩, (h.size x).le⟩
  obtain ⟨bs, hw⟩ := hw
  exact ⟨_, by rw [h.write]; exact appendBytes_ok.mpr ⟨_, bs, rfl, hw, rfl⟩⟩

end Format

/-! ## Reading back

A writer and a reader of one value, part by part, where no budget is kept. -/

section ReadsBack

variable {ε α γ : Type}

/-- On what `w` writes, whatever follows, `r` returns `a` and stops at its end. -/
def ReadsBack (r : Reader ε Unit α) (w : Except ε (List UInt8)) (a : α) : Prop :=
  ∀ bs, w = .ok bs → ∀ tail, r ⟨bs ++ tail, ()⟩ = .ok (a, ⟨tail, ()⟩)

namespace ReadsBack

variable {r : Reader ε Unit α} {s : α → Reader ε Unit γ} {a : α} {b : γ}
  {w v : Except ε (List UInt8)}

theorem pure (a : α) : ReadsBack (Pure.pure a : Reader ε Unit α) (.ok []) a := by
  rintro _ ⟨⟩ tail
  rfl

theorem error (e : ε) : ReadsBack r (.error e) a := by
  rintro _ ⟨⟩

theorem readBytes (e : ε) (bs : List UInt8) :
    ReadsBack (ByteCodec.readBytes e bs.length) (.ok bs) bs := by
  rintro _ ⟨⟩ tail
  simp [ByteCodec.readBytes]

theorem ensure {p : Prop} [Decidable p] {e : ε} (hp : p) (h : ReadsBack r w a) :
    ReadsBack (ByteCodec.ensure p e >>= fun _ => r) w a := by
  intro bs hw tail
  exact Reader.bind_ok.mpr ⟨⟨⟩, _, ensure_ok.mpr ⟨hp, rfl⟩, h bs hw tail⟩

theorem bind (hr : ReadsBack r w a) (hs : ReadsBack (s a) v b) :
    ReadsBack (r >>= s) (appendBytes w v) b := by
  intro bs h tail
  obtain ⟨x, y, hx, hy, rfl⟩ := appendBytes_ok.mp h
  rw [append_assoc]
  exact Reader.bind_ok.mpr ⟨a, _, hr x hx _, hs y hy tail⟩

/-- The last part, when only checks follow it. -/
theorem last (hr : ReadsBack r w a) (hs : ReadsBack (s a) (.ok []) b) :
    ReadsBack (r >>= s) w b := by
  intro bs h tail
  exact Reader.bind_ok.mpr ⟨a, _, hr bs h tail, hs [] rfl tail⟩

theorem all {w : α → Except ε (List UInt8)} (h : ∀ a, ReadsBack r (w a) a) (as : List α) :
    ReadsBack (replicateM as.length r) (writeAll w as) as := by
  induction as with
  | nil => exact .pure []
  | cons a as ih => exact (h a).bind (ih.last (.pure (a :: as)))

end ReadsBack

end ReadsBack

end ByteCodec
