import Mathlib

/-!
# Packed fields

Three numbers side by side in one: the lower two have a fixed number of bits.  While they
fit, the fields do not overlap (`pack_eq`).  A field that is cut out with a mask is a
quotient and a remainder (`masked_eq`, `shifted_eq`).  A code of fields is one to one when the
decoder accepts a number exactly for the value it stands for (`Bijective.of`).
-/

namespace Packed

/-- `high`, `middle` and `low`, where `middle` has `m` bits and `low` has `l`. -/
def pack (m l high middle low : Nat) : Nat := (high <<< (m + l)) ||| (middle <<< l) ||| low

variable {m l high middle low : Nat}

theorem pack_eq (hm : middle < 2 ^ m) (hl : low < 2 ^ l) :
    pack m l high middle low = high * 2 ^ (m + l) + middle * 2 ^ l + low := by
  have small : middle <<< l < 2 ^ (m + l) := by
    rw [Nat.shiftLeft_eq, Nat.pow_add]
    exact Nat.mul_lt_mul_of_pos_right hm (Nat.two_pow_pos l)
  have shifted : high <<< (m + l) + middle <<< l = (high * 2 ^ m + middle) <<< l := by
    simp only [Nat.shiftLeft_eq]
    ring
  calc pack m l high middle low = (high <<< (m + l) ||| middle <<< l) ||| low := rfl
    _ = (high <<< (m + l) + middle <<< l) ||| low := by rw [Nat.shiftLeft_add_eq_or_of_lt small]
    _ = (high * 2 ^ m + middle) <<< l + low := by rw [shifted, Nat.shiftLeft_add_eq_or_of_lt hl]
    _ = high * 2 ^ (m + l) + middle * 2 ^ l + low := by
        rw [Nat.shiftLeft_eq, Nat.pow_add]
        ring

/-- A field that is cut out in place and then shifted down. -/
theorem masked_eq (raw shift bits : Nat) :
    (raw &&& ((2 ^ bits - 1) <<< shift)) >>> shift = raw / 2 ^ shift % 2 ^ bits := by
  rw [Nat.shiftRight_and_distrib, Nat.shiftLeft_shiftRight, Nat.shiftRight_eq_div_pow]
  exact Nat.and_two_pow_sub_one_eq_mod _ bits

/-- A field that is shifted down and then cut out. -/
theorem shifted_eq (raw shift bits : Nat) :
    (raw >>> shift) &&& (2 ^ bits - 1) = raw / 2 ^ shift % 2 ^ bits := by
  rw [Nat.shiftRight_eq_div_pow]
  exact Nat.and_two_pow_sub_one_eq_mod _ bits

/-! ## Codes of fields -/

section

variable {F H R E : Type}

/-- Fields that fit are packed into positive signed 64-bit numbers one to one, and the numbers
that are decoded are those. -/
structure Bijective (Fits : F → Prop) (encode : F → Option H) (decode : R → Except E H)
    (fields : H → F) (raw : H → Nat) (toNat : R → Nat) : Prop where
  round_trip (f : F) : Fits f → ∃ h r, encode f = some h ∧ toNat r = raw h ∧ decode r = .ok h ∧
    fields h = f ∧ 0 < raw h ∧ raw h < 2 ^ 63
  injective (f f' : F) (h h' : H) : encode f = some h → encode f' = some h' → raw h = raw h' →
    f = f'
  accepts (r : R) : (∃ h, decode r = .ok h) ↔ ∃ f h, encode f = some h ∧ raw h = toNat r

variable {Fits : F → Prop} {encode : F → Option H} {decode : R → Except E H} {fields : H → F}
  {raw : H → Nat} {toNat : R → Nat}

theorem Bijective.of (encodes : ∀ f, Fits f → ∃ h, encode f = some h)
    (exact : ∀ f h, encode f = some h ↔ Fits f ∧ fields h = f) (fits : ∀ h, Fits (fields h))
    (decodes : ∀ r h, decode r = .ok h ↔ raw h = toNat r)
    (signed : ∀ h, (∃ r, toNat r = raw h) ∧ 0 < raw h ∧ raw h < 2 ^ 63) :
    Bijective Fits encode decode fields raw toNat where
  round_trip f hf := by
    obtain ⟨h, encoded⟩ := encodes f hf
    obtain ⟨⟨r, same⟩, bounds⟩ := signed h
    exact ⟨h, r, encoded, same, (decodes r h).mpr same.symm, ((exact f h).mp encoded).2, bounds⟩
  injective f f' h h' encoded encoded' same := by
    obtain ⟨⟨r, here⟩, -⟩ := signed h
    have decoded := (decodes r h).mpr here.symm
    rw [(decodes r h').mpr (same.symm.trans here.symm)] at decoded
    cases decoded
    exact ((exact f _).mp encoded).2.symm.trans ((exact f' _).mp encoded').2
  accepts r := by
    constructor
    · rintro ⟨h, decoded⟩
      exact ⟨fields h, h, (exact _ h).mpr ⟨fits h, rfl⟩, (decodes r h).mp decoded⟩
    · rintro ⟨-, h, -, same⟩
      exact ⟨h, (decodes r h).mpr same⟩

end

end Packed
