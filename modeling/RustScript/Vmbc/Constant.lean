import RustScript.Vmbc.Wire

/-!
# Constants on the wire

A constant is a tag byte and its payload; arrays and maps nest up to
`maxConstantDepth` levels, which both the writer and the reader enforce.  The
reader rebuilds a map by inserting its entries one by one, so an artifact may
spell a key twice; the map that results has each key once and costs no more than
what was spelled.

`constantFormat_lawful` is the codec law for constants at every level.
-/

namespace RustScript.Vmbc

open ByteCodec AssocMap Value VmMap

/-- `write_constant`; `levels` counts the nesting levels that are left, so that the
source's `depth` is `maxConstantDepth - levels`. -/
def writeConstant : Nat → Value → Output
  | 0, _ => .error (.lengthTooLarge "constant nesting depth" maxConstantDepth)
  | levels + 1, value =>
    match value with
    | .int value => .ok (0 :: leBytes 8 value.toUInt64.toNat)
    | .bool value => .ok [1, boolToByte value]
    | .string value => appendBytes (.ok [2]) (writeBlob "constant string" (utf8 value))
    | .float bits => .ok (3 :: leBytes 8 bits.toNat)
    | .null => .ok [4]
    | .bytes value => appendBytes (.ok [5]) (writeBlob "constant bytes" value)
    | .array values =>
      appendBytes (.ok [6]) (appendBytes (writeU32Count "constant array" values.length)
        (writeAll (writeConstant levels) values))
    | .map entries =>
      appendBytes (.ok [7]) (appendBytes (writeU32Count "constant map" entries.length)
        (writeAll (fun entry => appendBytes (writeConstant levels entry.1)
          (writeConstant levels entry.2)) entries))
    | .callable _ => .error (.unsupportedConstantType "callable")

/-- What `read_constant` reads after a tag; `nested` reads one level deeper. -/
def readConstantPayload (nested : WireReader Value) (tag : UInt8) : WireReader Value :=
  match tag with
  | 0 => do
      let value ← readI64
      pure (.int value)
  | 1 => do
      let value ← readBool
      pure (.bool value)
  | 2 => do
      let text ← readStringWithField "constant string"
      pure (.string text)
  | 3 => do
      let bits ← readF64
      pure (.float bits)
  | 4 => pure .null
  | 5 => do
      let bytes ← readBlob "constant bytes"
      pure (.bytes bytes)
  | 6 => do
      let count ← readCount "constant array" 1
      let values ← replicateM count nested
      pure (.array values)
  | 7 => do
      let count ← readCount "constant map" 2
      let entries ← replicateM count do
        let key ← nested
        let value ← nested
        pure (key, value)
      pure (.map (VmMap.fromEntries entries))
  | tag => throw (.invalidConstantTag tag)

/-- `read_constant`, with the nesting levels that are left. -/
def readConstant : Nat → WireReader Value
  | 0 => throw (.lengthTooLarge "constant nesting depth" maxConstantDepth)
  | levels + 1 => do
      let tag ← readU8
      readConstantPayload (readConstant levels) tag

/-! ## What a constant demands of the decoder -/

mutual
/-- The blob and count ceilings hold everywhere in the constant. -/
def ConstantLimits : Value → Prop
  | .string value => (utf8 value).length ≤ maxWireBlobBytes
  | .bytes value => value.length ≤ maxWireBlobBytes
  | .array values => values.length ≤ maxWireCount ∧ ConstantsLimits values
  | .map entries => entries.length ≤ maxWireCount ∧ EntriesLimits entries
  | _ => True

def ConstantsLimits : List Value → Prop
  | [] => True
  | v :: vs => ConstantLimits v ∧ ConstantsLimits vs

def EntriesLimits : List (Value × Value) → Prop
  | [] => True
  | (k, v) :: es => ConstantLimits k ∧ ConstantLimits v ∧ EntriesLimits es
end

mutual
/-- One aggregate item for every array element and every map entry. -/
def constantCost : Value → Budget
  | .array values => .ofItems values.length + constantsCost values
  | .map entries => .ofItems entries.length + entriesCost entries
  | _ => 0

def constantsCost : List Value → Budget
  | [] => 0
  | v :: vs => constantCost v + constantsCost vs

def entriesCost : List (Value × Value) → Budget
  | [] => 0
  | (k, v) :: es => constantCost k + constantCost v + entriesCost es
end

mutual
/-- The number of bytes a constant takes. -/
def constantSize : Value → Nat
  | .int _ | .float _ => 9
  | .bool _ => 2
  | .string value => 1 + (4 + (utf8 value).length)
  | .bytes value => 1 + (4 + value.length)
  | .array values => 1 + (4 + constantsSize values)
  | .map entries => 1 + (4 + entriesSize entries)
  | .null | .callable _ => 1

def constantsSize : List Value → Nat
  | [] => 0
  | v :: vs => constantSize v + constantsSize vs

def entriesSize : List (Value × Value) → Nat
  | [] => 0
  | (k, v) :: es => constantSize k + constantSize v + entriesSize es
end

variable {vs : List Value} {es : List (Value × Value)} {bs : List UInt8}

theorem constantsLimits_iff : ConstantsLimits vs ↔ ∀ v ∈ vs, ConstantLimits v :=
  List.iff_forall_of_cons trivial (fun _ _ => Iff.rfl) _

theorem entriesLimits_iff :
    EntriesLimits es ↔ ∀ e ∈ es, ConstantLimits e.1 ∧ ConstantLimits e.2 :=
  List.iff_forall_of_cons trivial (fun _ _ => and_assoc.symm) _

theorem constantsCost_eq : constantsCost vs = (vs.map constantCost).sum :=
  List.eq_sum_of_cons rfl (fun _ _ => rfl) _

theorem entriesCost_eq (es : List (Value × Value)) :
    entriesCost es = (es.map (entryWeight constantCost constantCost)).sum :=
  List.eq_sum_of_cons rfl (fun _ _ => rfl) _

theorem constantsSize_eq : constantsSize vs = (vs.map constantSize).sum :=
  List.eq_sum_of_cons rfl (fun _ _ => rfl) _

theorem entriesSize_eq (es : List (Value × Value)) :
    entriesSize es = (es.map (entryWeight constantSize constantSize)).sum :=
  List.eq_sum_of_cons rfl (fun _ _ => rfl) _

theorem constantSize_pos (v : Value) : 1 ≤ constantSize v := by
  cases v <;> simp only [constantSize] <;> omega

/-! ## The codec law -/

def constantFormat (levels : Nat) : WireFormat Value where
  write := writeConstant levels
  read := readConstant levels
  valid := Value.WellFormed
  limits := ConstantLimits
  cost := constantCost
  size := constantSize
  tail _ := 0

/-- The elements of an array constant. -/
def constantsFormat (levels : Nat) : WireFormat (List Value) :=
  .counted (countFormat "constant array" "constant array" 1 0) (constantFormat levels) 0

def entryFormat (levels : Nat) : WireFormat (Value × Value) :=
  .field (constantFormat levels) Prod.fst fun key =>
    .last (constantFormat levels) Prod.snd fun value => (key, value)

/-- The entries of a map constant, as they are spelled. -/
def entriesFormat (levels : Nat) : WireFormat (List (Value × Value)) :=
  .counted (countFormat "constant map" "constant map" 2 0) (entryFormat levels) 0

variable {levels : Nat}

theorem constantsFormat_lawful (h : (constantFormat levels).Lawful) :
    (constantsFormat levels).Lawful :=
  counted_lawful _ _ h constantSize_pos (Nat.le_refl _) fun _ => Nat.le_refl _

theorem entryFormat_lawful (h : (constantFormat levels).Lawful) : (entryFormat levels).Lawful :=
  Format.field_lawful h (fun _ => Format.last_lawful h fun _ => rfl)
    fun _ _ hx => ⟨hx.2 ▸ rfl, Nat.zero_le _⟩

theorem entriesFormat_lawful (h : (constantFormat levels).Lawful) : (entriesFormat levels).Lawful :=
  counted_lawful _ _ (entryFormat_lawful h)
    (fun e => Nat.add_le_add (constantSize_pos e.1) (constantSize_pos e.2)) (Nat.le_refl _)
    fun _ => Nat.le_refl _

section Alternatives

theorem null_alternative : Format.Alternative (constantFormat (levels + 1))
    (readConstantPayload (readConstant levels)) 4 .unit fun _ => .null :=
  .of_eq Format.unit_lawful rfl fun _ => ⟨rfl, Nat.le_refl _⟩

theorem int_alternative : Format.Alternative (constantFormat (levels + 1))
    (readConstantPayload (readConstant levels)) 0 i64Format .int :=
  .of_eq i64Format_lawful rfl fun _ => ⟨rfl, Nat.le_refl _⟩

theorem float_alternative : Format.Alternative (constantFormat (levels + 1))
    (readConstantPayload (readConstant levels)) 3 u64Format .float :=
  .of_eq u64Format_lawful rfl fun _ => ⟨rfl, Nat.le_refl _⟩

theorem bool_alternative : Format.Alternative (constantFormat (levels + 1))
    (readConstantPayload (readConstant levels)) 1 boolFormat .bool :=
  .of_eq boolFormat_lawful rfl fun _ => ⟨rfl, Nat.le_refl _⟩

theorem string_alternative : Format.Alternative (constantFormat (levels + 1))
    (readConstantPayload (readConstant levels)) 2
    (stringFormat "constant string" "constant string") .string :=
  .of_eq stringFormat_lawful rfl fun _ => ⟨rfl, Nat.le_refl _⟩

theorem bytes_alternative : Format.Alternative (constantFormat (levels + 1))
    (readConstantPayload (readConstant levels)) 5
    (blobFormat "constant bytes" "constant bytes") .bytes :=
  .of_eq (blobFormat_lawful _ _) rfl fun _ => ⟨rfl, Nat.le_refl _⟩

theorem array_alternative (ih : (constantFormat levels).Lawful) :
    Format.Alternative (constantFormat (levels + 1))
      (readConstantPayload (readConstant levels)) 6 (constantsFormat levels) .array where
  law := constantsFormat_lawful ih
  write _ := rfl
  tail _ := Nat.le_refl _
  read := (bind_assoc _ _ _).symm
  valid vs := by
    change AllWellFormed vs ↔ True ∧ ∀ v ∈ vs, v.WellFormed
    rw [allWellFormed_iff, true_and]
  limits vs := by
    change _ ∧ ConstantsLimits vs ↔ _ ∧ ∀ v ∈ vs, ConstantLimits v
    rw [constantsLimits_iff]
    rfl
  cost vs := congrArg (.ofItems vs.length + ·) constantsCost_eq
  size vs := congrArg (fun n => 1 + (4 + n)) constantsSize_eq

end Alternatives

theorem map_decodes (ih : (constantFormat levels).Lawful) {entries : List (Value × Value)}
    (hv : (map entries).WellFormed) (hw : writeConstant (levels + 1) (.map entries) = .ok bs) :
    Decodes (readConstant (levels + 1)) bs (.map entries) (ConstantLimits (.map entries))
      (constantCost (.map entries)) 0 ∧ bs.length = constantSize (.map entries) := by
  obtain ⟨tag, body, htag, hbody, rfl⟩ := appendBytes_ok.mp hw
  cases htag
  have law := entriesFormat_lawful ih
  have valid : (entriesFormat levels).valid entries :=
    ⟨trivial, fun e he => ⟨(entriesWellFormed_iff.mp hv.2 e he).1,
      (entriesWellFormed_iff.mp hv.2 e he).2, rfl⟩⟩
  have same : fromEntries entries = entries :=
    fromEntries_of_keysDistinct hv.1
  have read : Decodes (readConstant (levels + 1)) (7 :: body)
      (.map (fromEntries entries)) _ _ 0 :=
    Format.decodes_tagged (f := fun es => map (fromEntries es))
      (bind_assoc _ _ _).symm (law.decodes valid hbody)
  rw [same] at read
  rw [constantCost, entriesCost_eq]
  refine ⟨read.congr ?_, ?_⟩
  · simp only [ConstantLimits, entriesLimits_iff]
    rfl
  · rw [List.length_append, law.length valid hbody, constantSize, entriesSize_eq]
    rfl

/-- The map built from spelled entries is well formed, writable, and covered by what
spelling them took. -/
theorem fromEntries_covers {m : VmMap} (isMap : VmMap.fromEntries es = m)
    (hv : (entriesFormat levels).valid es) (hl : (entriesFormat levels).limits es)
    (hw : ∃ bs, (entriesFormat levels).write es = .ok bs) :
    ((Value.map m).WellFormed ∧ ConstantLimits (.map m) ∧
        ∃ bs, writeConstant (levels + 1) (.map m) = .ok bs) ∧
      (∃ slack, (entriesFormat levels).cost es = constantCost (.map m) + slack) ∧
      constantSize (.map m) ≤ 1 + (entriesFormat levels).size es := by
  have shorter : m.length ≤ es.length := by
    simpa [← isMap, VmMap.fromEntries, AssocMap.fromEntries] using
      AssocMap.length_insertAll_le _ [] es
  have kept : ∀ {P Q : Value → Prop}, (∀ e ∈ es, P e.1 ∧ Q e.2) → ∀ e ∈ m, P e.1 ∧ Q e.2 :=
    isMap ▸ AssocMap.mem_insertAll (by simp)
  obtain ⟨bs, hw⟩ := hw
  obtain ⟨len, body, hlen, hbody, -⟩ := appendBytes_ok.mp hw
  refine ⟨⟨⟨isMap ▸ AssocMap.fromEntries_keysDistinct _ es, ?_⟩, ⟨?_, ?_⟩, ?_⟩, ?_, ?_⟩
  · exact Value.entriesWellFormed_iff.mpr (kept fun e he => ⟨(hv.2 e he).1, (hv.2 e he).2.1⟩)
  · exact Nat.le_trans shorter hl.1
  · exact entriesLimits_iff.mpr (kept fun e he => hl.2 e he)
  · have entries : ∀ e ∈ es, (∃ b, writeConstant levels e.1 = .ok b) ∧
        ∃ b, writeConstant levels e.2 = .ok b := by
      intro e he
      obtain ⟨b, hb⟩ := writeAll_isOk.mp ⟨body, hbody⟩ e he
      obtain ⟨bk, bv, hk, hv, -⟩ := appendBytes_ok.mp hb
      exact ⟨⟨bk, hk⟩, ⟨bv, hv⟩⟩
    have whole : ∃ b, writeAll (fun e => appendBytes (writeConstant levels e.1)
        (writeConstant levels e.2)) m = .ok b := by
      refine writeAll_isOk.mpr fun e he => ?_
      obtain ⟨⟨bk, hk⟩, ⟨bv, hv⟩⟩ := kept (P := fun v => ∃ b, writeConstant levels v = .ok b)
        (Q := fun v => ∃ b, writeConstant levels v = .ok b) entries e he
      exact ⟨_, appendBytes_ok.mpr ⟨bk, bv, hk, hv, rfl⟩⟩
    obtain ⟨b, hb⟩ := whole
    have fits := (writeU32Len_ok.mp hlen).1
    have count : writeU32Count "constant map" m.length = .ok (leBytes 4 m.length) :=
      writeU32Len_ok.mpr ⟨Nat.lt_of_le_of_lt shorter fits, rfl⟩
    exact ⟨_, appendBytes_ok.mpr ⟨_, _, rfl, appendBytes_ok.mpr ⟨_, b, count, hb, rfl⟩, rfl⟩⟩
  · obtain ⟨slack, hs⟩ := AssocMap.sum_fromEntries _ _ constantCost es
    refine ⟨Budget.ofItems (es.length - m.length) + slack, ?_⟩
    have split : es.length = m.length + (es.length - m.length) := by omega
    have cost : (entriesFormat levels).cost es = Budget.ofItems es.length +
        (es.map (AssocMap.entryWeight constantCost constantCost)).sum := rfl
    subst isMap
    rw [cost, hs, constantCost, entriesCost_eq]
    nth_rewrite 1 [split]
    rw [Budget.ofItems_add]
    exact add_add_add_comm _ _ _ _
  · obtain ⟨slack, hs⟩ := AssocMap.sum_fromEntries mapKeyEq _ constantSize es
    have size : (entriesFormat levels).size es =
        4 + (es.map (AssocMap.entryWeight constantSize constantSize)).sum := rfl
    rw [size, hs, constantSize, entriesSize_eq, ← isMap, VmMap.fromEntries]
    omega

theorem constantFormat_decodes (ih : (constantFormat levels).Lawful) {v : Value}
    (hv : v.WellFormed) (hw : writeConstant (levels + 1) v = .ok bs) :
    Decodes (readConstant (levels + 1)) bs v (ConstantLimits v) (constantCost v) 0 ∧
      bs.length = constantSize v := by
  cases v with
  | null => exact null_alternative.decodes (x := ()) _ hv hw
  | int value => exact int_alternative.decodes _ hv hw
  | float bits => exact float_alternative.decodes _ hv hw
  | bool value => exact bool_alternative.decodes _ hv hw
  | string value => exact string_alternative.decodes _ hv hw
  | bytes value => exact bytes_alternative.decodes _ hv hw
  | array values => exact (array_alternative ih).decodes _ hv hw
  | map entries => exact map_decodes ih hv hw
  | callable value => cases hw

theorem constantFormat_accepts (ih : (constantFormat levels).Lawful) :
    Accepts (readConstant (levels + 1)) (Covers (fun v => v.WellFormed ∧ ConstantLimits v ∧
      ∃ bs, writeConstant (levels + 1) v = .ok bs) constantCost constantSize) := by
  refine .bind (.readByte _) ?_
  rintro tag k n ⟨rfl, rfl⟩
  unfold readConstantPayload
  split
  · exact int_alternative.accepts
  · exact bool_alternative.accepts
  · exact string_alternative.accepts
  · exact float_alternative.accepts
  · exact null_alternative.accepts
  · exact bytes_alternative.accepts
  · exact (array_alternative ih).accepts
  · rw [← bind_assoc]
    exact Format.accepts_tagged (entriesFormat_lawful ih) fun es hv hl hw =>
      fromEntries_covers rfl hv hl hw
  · exact .throw

/-- **Constants round-trip, and what is accepted can be written again.** -/
theorem constantFormat_lawful {levels : Nat} : (constantFormat levels).Lawful := by
  induction levels with
  | zero =>
    refine ⟨fun _ hw => ?_, fun _ hw => ?_, Accepts.throw⟩
    · cases hw
    · cases hw
  | succ levels ih =>
    exact ⟨fun hv hw => (constantFormat_decodes ih hv hw).1,
      fun hv hw => (constantFormat_decodes ih hv hw).2, constantFormat_accepts ih⟩

end RustScript.Vmbc
