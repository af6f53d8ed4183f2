import RustScript.Vmbc.Constant

/-!
# Constants up to the order of map entries

A decoded map lists its entries in an order of its own.  Two constants that
differ only in such orders are interchangeable for the codec: one is well formed,
writable and within the limits when the other is, and they cost and take the same
(`same_interchangeable`).
-/

namespace RustScript.Vmbc

open ByteCodec AssocMap Fallible List Value VmMap

/-- The codec can take `w` where it takes `v`. -/
structure Interchangeable (v w : Value) : Prop where
  wellFormed : v.WellFormed → w.WellFormed
  limits : ConstantLimits v → ConstantLimits w
  cost : constantCost w = constantCost v
  size : constantSize w = constantSize v
  writable : ∀ levels, (∃ bs, writeConstant levels v = .ok bs) →
    ∃ bs, writeConstant levels w = .ok bs

theorem Interchangeable.refl (v : Value) : Interchangeable v v :=
  ⟨id, id, rfl, rfl, fun _ => id⟩

/-! ## Lists of constants -/

variable {α : Type} {xs ys : List α} {es fs : List (Value × Value)}

theorem forall_mem_of_forall₂ {P Q : α → Prop}
    (h : Forall₂ (fun x y => P x → Q y) xs ys) (hx : ∀ x ∈ xs, P x) : ∀ y ∈ ys, Q y := by
  induction h with
  | nil => exact fun _ hy => absurd hy not_mem_nil
  | cons head _ ih =>
    rw [forall_mem_cons] at hx ⊢
    exact ⟨head hx.1, ih hx.2⟩

/-- A counted list of parts can be written when each part can. -/
theorem writeVec_isOk {field : String} {w : α → Output}
    (hlen : ys.length = xs.length)
    (h : (∀ x ∈ xs, ∃ bs, w x = .ok bs) → ∀ y ∈ ys, ∃ bs, w y = .ok bs)
    (hx : ∃ bs, appendBytes (writeU32Count field xs.length) (writeAll w xs) = .ok bs) :
    ∃ bs, appendBytes (writeU32Count field ys.length) (writeAll w ys) = .ok bs := by
  obtain ⟨bs, hbs⟩ := hx
  obtain ⟨count, items, hcount, hitems, -⟩ := appendBytes_ok.mp hbs
  obtain ⟨items', hitems'⟩ := writeAll_isOk.mpr (h (writeAll_isOk.mp ⟨items, hitems⟩))
  rw [hlen]
  exact ⟨_, appendBytes_ok.mpr ⟨count, items', hcount, hitems', rfl⟩⟩

theorem appendBytes_isOk {x y : Output} :
    (∃ bs, appendBytes x y = .ok bs) ↔ (∃ a, x = .ok a) ∧ ∃ b, y = .ok b := by
  constructor
  · rintro ⟨bs, h⟩
    obtain ⟨a, b, ha, hb, -⟩ := appendBytes_ok.mp h
    exact ⟨⟨a, ha⟩, b, hb⟩
  · rintro ⟨⟨a, ha⟩, b, hb⟩
    exact ⟨_, appendBytes_ok.mpr ⟨a, b, ha, hb, rfl⟩⟩

theorem Interchangeable.array {vs ws : List Value} (h : Forall₂ Interchangeable vs ws) :
    Interchangeable (.array vs) (.array ws) where
  wellFormed hv := by
    change AllWellFormed ws
    have hv : AllWellFormed vs := hv
    rw [allWellFormed_iff] at hv ⊢
    exact forall_mem_of_forall₂ (h.imp fun _ _ hs => hs.wellFormed) hv
  limits hl := by
    have hl : vs.length ≤ maxWireCount ∧ ConstantsLimits vs := hl
    refine ⟨h.length_eq ▸ hl.1, ?_⟩
    rw [constantsLimits_iff] at hl ⊢
    exact forall_mem_of_forall₂ (h.imp fun _ _ hs => hs.limits) hl.2
  cost := by
    rw [constantCost, constantCost, constantsCost_eq, constantsCost_eq, h.length_eq,
      map_eq_of_forall₂ (h.imp fun _ _ hs => hs.cost)]
  size := by
    rw [constantSize, constantSize, constantsSize_eq, constantsSize_eq,
      map_eq_of_forall₂ (h.imp fun _ _ hs => hs.size)]
  writable levels hw := by
    cases levels with
    | zero =>
      obtain ⟨_, hw⟩ := hw
      cases hw
    | succ levels =>
      simp only [writeConstant] at hw ⊢
      rw [appendBytes_isOk] at hw ⊢
      exact ⟨hw.1, writeVec_isOk h.length_eq.symm
        (forall_mem_of_forall₂ (h.imp fun _ _ hs => hs.writable levels)) hw.2⟩

/-- Entries that are interchangeable part by part. -/
def EntryInterchangeable (e f : Value × Value) : Prop :=
  Interchangeable e.1 f.1 ∧ Interchangeable e.2 f.2

theorem Interchangeable.map {gs : List (Value × Value)} (h : Forall₂ EntryInterchangeable es fs)
    (hkeys : KeysDistinct es → KeysDistinct fs) (hperm : fs.Perm gs) :
    Interchangeable (.map es) (.map gs) where
  wellFormed hv := by
    have hv : KeysDistinct es ∧ EntriesWellFormed es := hv
    change KeysDistinct gs ∧ EntriesWellFormed gs
    rw [entriesWellFormed_iff] at hv ⊢
    refine ⟨(hperm.pairwise_iff ?_).mp (hkeys hv.1), fun g hg => ?_⟩
    · intro a b hab
      rw [mapKeyEq_symm]
      exact hab
    · exact forall_mem_of_forall₂ (Q := fun f => f.1.WellFormed ∧ f.2.WellFormed)
        (h.imp fun _ _ hs hw => ⟨hs.1.wellFormed hw.1, hs.2.wellFormed hw.2⟩) hv.2 g
        (hperm.mem_iff.mpr hg)
  limits hl := by
    have hl : es.length ≤ maxWireCount ∧ EntriesLimits es := hl
    refine ⟨(h.length_eq.trans hperm.length_eq) ▸ hl.1, ?_⟩
    rw [entriesLimits_iff] at hl ⊢
    exact fun g hg =>
      forall_mem_of_forall₂ (Q := fun f => ConstantLimits f.1 ∧ ConstantLimits f.2)
        (h.imp fun _ _ hs hw => ⟨hs.1.limits hw.1, hs.2.limits hw.2⟩) hl.2 g
        (hperm.mem_iff.mpr hg)
  cost := by
    have entries : fs.map (entryWeight constantCost constantCost) =
        es.map (entryWeight constantCost constantCost) :=
      map_eq_of_forall₂ (h.imp fun e f hs => by
        rw [entryWeight, entryWeight, hs.1.cost, hs.2.cost])
    rw [constantCost, constantCost, entriesCost_eq, entriesCost_eq, ← entries,
      ← hperm.length_eq, ← h.length_eq, (hperm.map _).sum_eq]
  size := by
    have entries : fs.map (entryWeight constantSize constantSize) =
        es.map (entryWeight constantSize constantSize) :=
      map_eq_of_forall₂ (h.imp fun e f hs => by
        rw [entryWeight, entryWeight, hs.1.size, hs.2.size])
    rw [constantSize, constantSize, entriesSize_eq, entriesSize_eq, ← entries, (hperm.map _).sum_eq]
  writable levels hw := by
    cases levels with
    | zero =>
      obtain ⟨_, hw⟩ := hw
      cases hw
    | succ levels =>
      simp only [writeConstant] at hw ⊢
      rw [appendBytes_isOk] at hw ⊢
      refine ⟨hw.1, writeVec_isOk (h.length_eq.trans hperm.length_eq).symm (fun hes g hg => ?_)
        hw.2⟩
      have parts : ∀ f ∈ fs, ∃ bs, appendBytes (writeConstant levels f.1)
          (writeConstant levels f.2) = .ok bs :=
        forall_mem_of_forall₂ (h.imp fun e f hs he => by
          rw [appendBytes_isOk] at he ⊢
          exact ⟨hs.1.writable levels he.1, hs.2.writable levels he.2⟩) hes
      exact parts g (hperm.mem_iff.mpr hg)

/-! ## Values up to entry order -/

theorem mapKeyEq_congr {a a' b b' : Value} (ha : Same a a') (hb : Same b b') :
    mapKeyEq a b = mapKeyEq a' b' := by
  cases ha <;> cases hb <;> rfl

theorem keysDistinct_of_entriesSame
    (h : EntriesSame es fs) (hd : KeysDistinct es) : KeysDistinct fs := by
  have keys : Forall₂ (fun e f => Same e.1 f.1) es fs := by
    induction es generalizing fs with
    | nil =>
      cases h
      exact Forall₂.nil
    | cons e es ih =>
      cases h with
      | cons hk _ rest => exact Forall₂.cons hk (ih rest (pairwise_cons.mp hd).2)
  clear h
  induction keys with
  | nil => exact List.Pairwise.nil
  | @cons e f es fs head rest ih =>
    obtain ⟨fresh, hd⟩ := pairwise_cons.mp hd
    exact pairwise_cons.mpr ⟨forall_mem_of_forall₂ (rest.imp fun e' f' hs he =>
      mapKeyEq_congr head hs ▸ he) fresh, ih hd⟩

mutual
/-- **Constants that differ only in the order of map entries are interchangeable.** -/
theorem same_interchangeable : ∀ {v w : Value}, Same v w → Interchangeable v w
  | _, _, .null | _, _, .int _ | _, _, .float _ | _, _, .bool _ | _, _, .string _
  | _, _, .bytes _ | _, _, .callable _ => .refl _
  | _, _, .array h => .array (allSame_interchangeable h)
  | _, _, .map h hperm =>
    .map (entriesSame_interchangeable h) (keysDistinct_of_entriesSame h) hperm

theorem allSame_interchangeable : ∀ {vs ws : List Value}, AllSame vs ws →
    Forall₂ Interchangeable vs ws
  | _, _, .nil => .nil
  | _, _, .cons h hs => .cons (same_interchangeable h) (allSame_interchangeable hs)

theorem entriesSame_interchangeable : ∀ {es fs : List (Value × Value)},
    EntriesSame es fs → Forall₂ EntryInterchangeable es fs
  | _, _, .nil => .nil
  | _, _, .cons hk hv hs =>
    .cons ⟨same_interchangeable hk, same_interchangeable hv⟩ (entriesSame_interchangeable hs)
end

end RustScript.Vmbc
