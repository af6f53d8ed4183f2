import RustScript.Bytecode.Program
import RustScript.Lib.Format

/-!
# The wire cursor

Errors, limits and primitive readers and writers of the bytecode wire format.
The cursor of the source is a byte slice with an offset and four counters; here
it is the slice that is left and the `Budget` of the four counters.

Each primitive is a lawful format, so that the sections of an artifact can be
assembled from them.
-/

namespace RustScript.Vmbc

open ByteCodec

def maxWirePayloadBytes : Nat := 64 * 1024 * 1024
def maxWireBlobBytes : Nat := 16 * 1024 * 1024
def maxWireCount : Nat := 1000000
def maxWireAggregateItems : Nat := 1000000
def maxSchemaDepth : Nat := 64
def maxConstantDepth : Nat := 64

inductive WireError where
  | unexpectedEof
  | invalidMagic (found : List UInt8)
  | unsupportedVersion (version : UInt16)
  | unsupportedFlags (flags : UInt16)
  | invalidConstantTag (tag : UInt8)
  | invalidBool (value : UInt8)
  | invalidTypeMapFlag (value : UInt8)
  | invalidDebugFlag (value : UInt8)
  | invalidValueType (value : UInt8)
  | invalidCaptureBindingMode (value : UInt8)
  | invalidHostSchemaTag (value : UInt8)
  | invalidHostParamPassing (value : UInt8)
  | invalidHostResourceKey
  | invalidResourceKey (reason : ResourceTypeKeyError)
  | hostSchemaImportMismatch
  | invalidHostSchemaComplexity (reason : HostSchemaValidationError)
  | invalidUtf8
  | unsupportedConstantType (kind : String)
  | lengthTooLarge (field : String) (len : Nat)
  | trailingBytes
  deriving DecidableEq, Repr

/-! ## The budget -/

/-- What the decoder may still build: aggregate items, host schema nodes, host
schema properties and host parameters. -/
structure Budget where
  items : Nat := 0
  hostSchemaNodes : Nat := 0
  hostSchemaProperties : Nat := 0
  hostParameters : Nat := 0
  deriving DecidableEq, Repr

namespace Budget

instance : Add Budget where
  add a b := ⟨a.items + b.items, a.hostSchemaNodes + b.hostSchemaNodes,
    a.hostSchemaProperties + b.hostSchemaProperties, a.hostParameters + b.hostParameters⟩

instance : Zero Budget := ⟨{}⟩

theorem add_def (a b : Budget) : a + b = ⟨a.items + b.items,
    a.hostSchemaNodes + b.hostSchemaNodes, a.hostSchemaProperties + b.hostSchemaProperties,
    a.hostParameters + b.hostParameters⟩ := rfl

theorem zero_def : (0 : Budget) = ⟨0, 0, 0, 0⟩ := rfl

instance : AddCommMonoid Budget where
  add_assoc a b c := by simp [add_def, Nat.add_assoc]
  zero_add a := by simp [add_def, zero_def]
  add_zero a := by simp [add_def, zero_def]
  add_comm a b := by simp [add_def, Nat.add_comm]
  nsmul := nsmulRec

/-- A debit of aggregate items only. -/
def ofItems (n : Nat) : Budget := { items := n }

theorem ofItems_add (a b : Nat) : ofItems (a + b) = ofItems a + ofItems b := rfl

/-- A debit of one host schema node. -/
def oneNode : Budget := { hostSchemaNodes := 1 }

def ofProperties (n : Nat) : Budget := { hostSchemaProperties := n }

def ofParameters (n : Nat) : Budget := { hostParameters := n }

def subItems (n : Nat) (b : Budget) : Option Budget :=
  if n ≤ b.items then some { b with items := b.items - n } else none

def subNodes (n : Nat) (b : Budget) : Option Budget :=
  if n ≤ b.hostSchemaNodes then some { b with hostSchemaNodes := b.hostSchemaNodes - n } else none

def subProperties (n : Nat) (b : Budget) : Option Budget :=
  if n ≤ b.hostSchemaProperties then
    some { b with hostSchemaProperties := b.hostSchemaProperties - n }
  else none

def subParameters (n : Nat) (b : Budget) : Option Budget :=
  if n ≤ b.hostParameters then some { b with hostParameters := b.hostParameters - n } else none

theorem subItems_eq (n : Nat) (B b : Budget) : subItems n B = some b ↔ B = ofItems n + b := by
  cases B
  cases b
  simp only [subItems, ofItems, add_def]
  split <;> simp <;> omega

theorem subNodes_eq (B b : Budget) : subNodes 1 B = some b ↔ B = oneNode + b := by
  cases B
  cases b
  simp only [subNodes, oneNode, add_def]
  split <;> simp <;> omega

theorem subProperties_eq (n : Nat) (B b : Budget) :
    subProperties n B = some b ↔ B = ofProperties n + b := by
  cases B
  cases b
  simp only [subProperties, ofProperties, add_def]
  split <;> simp <;> omega

theorem subParameters_eq (n : Nat) (B b : Budget) :
    subParameters n B = some b ↔ B = ofParameters n + b := by
  cases B
  cases b
  simp only [subParameters, ofParameters, add_def]
  split <;> simp <;> omega

/-- What a fresh cursor may spend. -/
def initial : Budget where
  items := maxWireAggregateItems
  hostSchemaNodes := maxHostSchemaNodes
  hostSchemaProperties := maxHostSchemaProperties
  hostParameters := maxHostCatalogParameters

/-- There is room for `k` in `B`. -/
def Fits (k B : Budget) : Prop :=
  k.items ≤ B.items ∧ k.hostSchemaNodes ≤ B.hostSchemaNodes ∧
    k.hostSchemaProperties ≤ B.hostSchemaProperties ∧ k.hostParameters ≤ B.hostParameters

theorem fits_iff {k B : Budget} : k.Fits B ↔ ∃ b, B = k + b := by
  constructor
  · rintro ⟨h₁, h₂, h₃, h₄⟩
    refine ⟨⟨B.items - k.items, B.hostSchemaNodes - k.hostSchemaNodes,
      B.hostSchemaProperties - k.hostSchemaProperties,
      B.hostParameters - k.hostParameters⟩, ?_⟩
    cases B
    simp only [add_def, Budget.mk.injEq] at *
    omega
  · rintro ⟨b, rfl⟩
    exact ⟨Nat.le_add_right _ _, Nat.le_add_right _ _, Nat.le_add_right _ _, Nat.le_add_right _ _⟩

end Budget

abbrev WireReader := Reader WireError Budget

/-- The bytes a writer appends to its output. -/
abbrev Output := Except WireError (List UInt8)

abbrev WireFormat := Format WireError Budget

/-! ## Fixed-width words -/

def readU8 : WireReader UInt8 := readByte .unexpectedEof

def readExact (len : Nat) : WireReader (List UInt8) := readBytes .unexpectedEof len

def readU16 : WireReader UInt16 := do
  let bytes ← readExact 2
  pure (UInt16.ofNat (ofLeBytes bytes))

def readU32 : WireReader UInt32 := do
  let bytes ← readExact 4
  pure (UInt32.ofNat (ofLeBytes bytes))

def readU64 : WireReader UInt64 := do
  let bytes ← readExact 8
  pure (UInt64.ofNat (ofLeBytes bytes))

def readI64 : WireReader Int64 := do
  let bytes ← readExact 8
  pure (UInt64.ofNat (ofLeBytes bytes)).toInt64

/-- A float is read as its bit pattern. -/
def readF64 : WireReader UInt64 := readU64

def u8Format : WireFormat UInt8 := .byte .unexpectedEof

def u16Format : WireFormat UInt16 :=
  .word .unexpectedEof 2 (fun bs => UInt16.ofNat (ofLeBytes bs)) fun v => leBytes 2 v.toNat

def u32Format : WireFormat UInt32 :=
  .word .unexpectedEof 4 (fun bs => UInt32.ofNat (ofLeBytes bs)) fun v => leBytes 4 v.toNat

def u64Format : WireFormat UInt64 :=
  .word .unexpectedEof 8 (fun bs => UInt64.ofNat (ofLeBytes bs)) fun v => leBytes 8 v.toNat

def i64Format : WireFormat Int64 :=
  .word .unexpectedEof 8 (fun bs => (UInt64.ofNat (ofLeBytes bs)).toInt64)
    fun v => leBytes 8 v.toUInt64.toNat

theorem u8Format_lawful : u8Format.Lawful := Format.byte_lawful

theorem u16Format_lawful : u16Format.Lawful := by
  refine Format.word_lawful (fun v => leBytes_length) fun v => ?_
  rw [ofLeBytes_leBytes_of_lt (by have := v.toNat_lt; omega), UInt16.ofNat_toNat]

theorem u32Format_lawful : u32Format.Lawful := by
  refine Format.word_lawful (fun v => leBytes_length) fun v => ?_
  rw [ofLeBytes_leBytes_of_lt (by have := v.toNat_lt; omega), UInt32.ofNat_toNat]

theorem u64Format_lawful : u64Format.Lawful := by
  refine Format.word_lawful (fun v => leBytes_length) fun v => ?_
  rw [ofLeBytes_leBytes_of_lt (by have := v.toNat_lt; omega), UInt64.ofNat_toNat]

theorem i64Format_lawful : i64Format.Lawful := by
  refine Format.word_lawful (fun v => leBytes_length) fun v => ?_
  rw [ofLeBytes_leBytes_of_lt (by have := v.toUInt64.toNat_lt; omega), UInt64.ofNat_toNat]
  exact Int64.toInt64_toUInt64 v

/-! ## Counts -/

/-- A length prefix; the writer only checks that it fits in 32 bits. -/
def writeU32Len (field : String) (len : Nat) : Output :=
  if len < 2 ^ 32 then .ok (leBytes 4 len) else .error (.lengthTooLarge field len)

def writeU32Count (field : String) (count : Nat) : Output := writeU32Len field count

def debitCount (field : String) (count : Nat) : WireReader Unit := do
  ensure (count ≤ maxWireCount) (.lengthTooLarge field count)
  spend (.lengthTooLarge field count) (Budget.subItems count)

def validateCountWithOverhead (field : String) (count minItemBytes fixedBytes : Nat) :
    WireReader Unit := do
  ensure (count ≤ maxWireCount) (.lengthTooLarge field count)
  demand (.lengthTooLarge field count) (count * minItemBytes + fixedBytes)

def readCountWithOverhead (field : String) (minItemBytes fixedBytes : Nat) : WireReader Nat := do
  let count ← readU32
  validateCountWithOverhead field count.toNat minItemBytes fixedBytes
  debitCount field count.toNat
  pure count.toNat

def readCount (field : String) (minItemBytes : Nat) : WireReader Nat :=
  readCountWithOverhead field minItemBytes 0

def readLimitedCount (field : String) : WireReader Nat := do
  let count ← readU32
  ensure (count.toNat ≤ maxFrameLocalCount) (.lengthTooLarge field count.toNat)
  debitCount field count.toNat
  pure count.toNat

variable {field readField : String} {minItemBytes fixedBytes len count : Nat} {α : Type}

theorem writeU32Len_ok {bs : List UInt8} :
    writeU32Len field len = .ok bs ↔ len < 2 ^ 32 ∧ bs = leBytes 4 len := by
  unfold writeU32Len
  by_cases h : len < 2 ^ 32
  · rw [if_pos h]
    constructor
    · intro e
      cases e
      exact ⟨h, rfl⟩
    · rintro ⟨_, rfl⟩
      rfl
  · rw [if_neg h]
    constructor
    · intro e
      cases e
    · rintro ⟨h', _⟩
      exact absurd h' h

theorem writeU32Count_hasLength (field : String) (count : Nat) :
    HasLength (writeU32Count field count) 4 := by
  intro bs h
  obtain ⟨_, rfl⟩ := writeU32Len_ok.mp h
  simp

/-- A written length prefix is read back as a 32-bit word. -/
theorem readU32_decodes_len (h : len < 2 ^ 32) :
    Decodes readU32 (leBytes 4 len) (UInt32.ofNat len) True 0 0 := by
  refine u32Format_lawful.decodes (x := UInt32.ofNat len) trivial ?_
  simp [u32Format, Format.word, UInt32.toNat_ofNat_of_lt' h]

theorem debitCount_decodes (field : String) (count : Nat) :
    Decodes (debitCount field count) [] () (count ≤ maxWireCount) (.ofItems count) 0 :=
  (Decodes.ensure_bind (Decodes.spend (Budget.subItems_eq count))).congr (by simp)

theorem debitCount_accepts (field : String) (count : Nat) : Accepts (debitCount field count)
      (fun _ k n => count ≤ maxWireCount ∧ k = Budget.ofItems count ∧ n = 0) :=
  Accepts.ensure_bind fun h => (Accepts.spend (Budget.subItems_eq count)).mono
    fun _ _ _ hs => ⟨h, hs⟩

/-- The count in front of a sequence whose elements take at least `minItemBytes`
bytes each and are followed by at least `fixedBytes` bytes. -/
def countFormat (field readField : String) (minItemBytes fixedBytes : Nat) : WireFormat Nat where
  write := writeU32Count field
  read := readCountWithOverhead readField minItemBytes fixedBytes
  valid _ := True
  limits count := count ≤ maxWireCount
  cost := Budget.ofItems
  size _ := 4
  tail count := count * minItemBytes + fixedBytes

/-- The law of a count: `body` is what the reader does once it knows the count. -/
theorem count_lawful {read : WireReader Nat} {limits : Nat → Prop} {cost : Nat → Budget}
    {tail : Nat → Nat} (body : Nat → WireReader Unit)
    (hread : read = readU32 >>= fun count => body count.toNat >>= fun _ => pure count.toNat)
    (hdecodes : ∀ n, Decodes (body n) [] () (limits n) (cost n) (tail n))
    (haccepts : ∀ n, Accepts (body n) fun _ k m => limits n ∧ k = cost n ∧ m = 0) :
    Format.Lawful ⟨writeU32Count field, read, fun _ => True, limits, cost, fun _ => 4, tail⟩ where
  decodes := by
    intro count bs _ hw
    obtain ⟨hlt, rfl⟩ := writeU32Len_ok.mp hw
    have rest : Decodes (body (UInt32.ofNat count).toNat >>= fun _ =>
        pure (UInt32.ofNat count).toNat) [] count (limits count) (cost count) (tail count) := by
      rw [UInt32.toNat_ofNat_of_lt' hlt]
      exact .map (f := fun _ => count) (hdecodes count)
    rw [hread, ← List.append_nil (leBytes 4 count)]
    exact (Decodes.free_bind (readU32_decodes_len hlt) rest).congr (by simp)
  length := fun _ hw => writeU32Count_hasLength _ _ _ hw
  accepts := by
    rw [hread]
    refine .bind u32Format_lawful.accepts ?_
    rintro count k n ⟨_, ⟨slack, rfl⟩, hn⟩
    refine .bind (haccepts count.toNat) ?_
    rintro _ k n ⟨hl, rfl, rfl⟩
    refine .pure ⟨⟨trivial, hl, leBytes 4 count.toNat, ?_⟩, ⟨slack, ?_⟩, ?_⟩
    · exact writeU32Len_ok.mpr ⟨count.toNat_lt, rfl⟩
    · simp [u32Format, Format.word, add_comm]
    · simpa [u32Format, Format.word] using hn

theorem checkCount_decodes :
    Decodes (validateCountWithOverhead field count minItemBytes fixedBytes >>= fun _ =>
        debitCount field count) [] () (count ≤ maxWireCount) (.ofItems count)
      (count * minItemBytes + fixedBytes) := by
  rw [← zero_add (Budget.ofItems count)]
  exact (Decodes.bind (Decodes.ensure_bind (Decodes.demand _ _))
    ((debitCount_decodes field count).weaken (Nat.zero_le _)) (Nat.le_add_left _ _)).congr
    (by simp)

theorem checkCount_accepts (field : String) :
    Accepts (validateCountWithOverhead field count minItemBytes fixedBytes >>= fun _ =>
        debitCount field count)
      (fun _ k n => count ≤ maxWireCount ∧ k = Budget.ofItems count ∧ n = 0) := by
  refine .bind (Accepts.ensure_bind fun _ => .demand _ _) ?_
  rintro _ k n ⟨rfl, rfl⟩
  refine (debitCount_accepts field count).mono ?_
  rintro _ k n ⟨hle, rfl, rfl⟩
  exact ⟨hle, by simp, by simp⟩

theorem countFormat_lawful : (countFormat field readField minItemBytes fixedBytes).Lawful := by
  refine count_lawful _ ?_ (fun n => checkCount_decodes) fun n => checkCount_accepts readField
  simp [readCountWithOverhead]

theorem countFormat_antitone : (countFormat field readField minItemBytes fixedBytes).Antitone := by
  rintro n m hle _ hlimit ⟨bs, hw⟩
  have fits := (writeU32Len_ok.mp hw).1
  refine ⟨⟨trivial, Nat.le_trans hle hlimit, leBytes 4 n, writeU32Len_ok.mpr
    ⟨Nat.lt_of_le_of_lt hle fits, rfl⟩⟩, ⟨Budget.ofItems (m - n), ?_⟩, Nat.le_refl _⟩
  change Budget.ofItems m = Budget.ofItems n + Budget.ofItems (m - n)
  rw [← Budget.ofItems_add, Nat.add_sub_cancel' hle]

theorem length_mul_le_sum {size : α → Nat} {least : Nat} (h : ∀ x, least ≤ size x)
    (xs : List α) : xs.length * least ≤ (xs.map size).sum := by
  simpa using List.card_nsmul_le_sum (xs.map size) least (by simpa using fun x _ => h x)

/-- A counted sequence is lawful when its elements really take `minItemBytes` each and
`fixedBytes` bytes really follow. -/
theorem counted_lawful {F : WireFormat α} (field readField : String)
    {t : Nat} (hF : F.Lawful) (hmin : ∀ x, minItemBytes ≤ F.size x)
    (hfixed : fixedBytes ≤ t) (ht : ∀ x, F.tail x ≤ t) :
    (Format.counted (countFormat field readField minItemBytes fixedBytes) F t).Lawful :=
  Format.counted_lawful countFormat_lawful hF ht fun xs =>
    Nat.add_le_add (length_mul_le_sum hmin xs) hfixed

/-- The frame size of a callable, debited like a count but limited on its own. -/
def limitedCountFormat (field : String) : WireFormat Nat where
  write := writeU32Count field
  read := readLimitedCount field
  valid _ := True
  limits count := count ≤ maxFrameLocalCount
  cost := Budget.ofItems
  size _ := 4
  tail _ := 0

theorem limitedCountFormat_lawful : (limitedCountFormat field).Lawful := by
  refine count_lawful (fun count => do
    ensure (count ≤ maxFrameLocalCount) (.lengthTooLarge field count)
    debitCount field count) ?_ (fun n => ?_) fun n => ?_
  · simp [readLimitedCount]
  · refine (Decodes.ensure_bind (debitCount_decodes field n)).congr ?_
    simp only [maxFrameLocalCount, maxWireCount]
    omega
  · refine .ensure_bind fun hle => (debitCount_accepts field n).mono ?_
    rintro _ k m ⟨_, rfl, rfl⟩
    exact ⟨hle, rfl, rfl⟩

/-! ## Byte strings and text -/

def readBlob (field : String) : WireReader (List UInt8) := do
  let len ← readU32
  ensure (len.toNat ≤ maxWireBlobBytes) (.lengthTooLarge field len.toNat)
  readExact len.toNat

def decodeUtf8 (bytes : List UInt8) : WireReader String :=
  match ofUtf8 bytes with
  | some text => pure text
  | none => throw .invalidUtf8

def readStringWithField (field : String) : WireReader String := do
  let bytes ← readBlob field
  decodeUtf8 bytes

def readString : WireReader String := readStringWithField "string"

def readBoundedString (field : String) (limit : Nat) : WireReader String := do
  let bytes ← readBlob field
  ensure (bytes.length ≤ limit) (.lengthTooLarge field bytes.length)
  decodeUtf8 bytes

def writeBlob (field : String) (bytes : List UInt8) : Output :=
  appendBytes (writeU32Len field bytes.length) (.ok bytes)

def writeString (field : String) (value : String) : Output := writeBlob field (utf8 value)

def blobFormat (field readField : String) : WireFormat (List UInt8) where
  write := writeBlob field
  read := readBlob readField
  valid _ := True
  limits bytes := bytes.length ≤ maxWireBlobBytes
  cost _ := 0
  size bytes := 4 + bytes.length
  tail _ := 0

theorem blobFormat_lawful (field readField : String) : (blobFormat field readField).Lawful where
  decodes := by
    intro bytes bs _ hw
    obtain ⟨len, body, hlen, hbody, rfl⟩ := appendBytes_ok.mp hw
    obtain ⟨hlt, rfl⟩ := writeU32Len_ok.mp hlen
    cases hbody
    have rest : Decodes (do
        ensure ((UInt32.ofNat bytes.length).toNat ≤ maxWireBlobBytes)
          (.lengthTooLarge readField (UInt32.ofNat bytes.length).toNat)
        readExact (UInt32.ofNat bytes.length).toNat : WireReader (List UInt8)) bytes bytes
        (bytes.length ≤ maxWireBlobBytes ∧ True) 0 0 := by
      rw [UInt32.toNat_ofNat_of_lt' hlt]
      exact .ensure_bind (.readBytes _ bytes)
    exact (Decodes.free_bind (readU32_decodes_len hlt) rest).congr (by simp [blobFormat])
  length := by
    intro bytes bs _ hw
    obtain ⟨len, body, hlen, hbody, rfl⟩ := appendBytes_ok.mp hw
    obtain ⟨_, rfl⟩ := writeU32Len_ok.mp hlen
    cases hbody
    simp [blobFormat]
  accepts := by
    refine .bind u32Format_lawful.accepts ?_
    rintro len k n ⟨_, ⟨slack, rfl⟩, hsize⟩
    refine .ensure_bind fun hle => ?_
    refine (Accepts.readBytes _ _).mono ?_
    rintro bytes k' n' ⟨hlen, rfl, rfl⟩
    refine ⟨⟨trivial, by simpa [blobFormat, hlen] using hle, leBytes 4 bytes.length ++ bytes, ?_⟩,
      ⟨slack, ?_⟩, ?_⟩
    · refine appendBytes_ok.mpr ⟨_, _, writeU32Len_ok.mpr ⟨?_, rfl⟩, rfl, rfl⟩
      rw [hlen]
      exact len.toNat_lt
    · simp [blobFormat, u32Format, Format.word]
    · simp only [blobFormat, u32Format, Format.word] at hsize ⊢
      omega

theorem writeString_hasLength (field value : String) :
    HasLength (writeString field value) (4 + (utf8 value).length) :=
  (writeU32Count_hasLength field _).append (.ok (utf8 value))

theorem decodeUtf8_decodes {text : String} : Decodes (decodeUtf8 (utf8 text)) [] text True 0 0 := by
  unfold decodeUtf8
  rw [ofUtf8_utf8]
  exact .pure text

theorem decodeUtf8_accepts {bytes : List UInt8} :
    Accepts (decodeUtf8 bytes) (fun text k n => utf8 text = bytes ∧ k = 0 ∧ n = 0) := by
  unfold decodeUtf8
  split
  · rename_i text h
    exact .pure ⟨utf8_ofUtf8 h, rfl, rfl⟩
  · exact .throw

/-- Text without a limit of its own. -/
def stringFormat (field readField : String) : WireFormat String where
  write := writeString field
  read := readStringWithField readField
  valid _ := True
  limits text := (utf8 text).length ≤ maxWireBlobBytes
  cost _ := 0
  size text := 4 + (utf8 text).length
  tail _ := 0

theorem stringFormat_lawful : (stringFormat field readField).Lawful where
  decodes := by
    intro text bs _ hw
    have bytes := (blobFormat_lawful field readField).decodes trivial hw
    exact (Decodes.bind_free bytes decodeUtf8_decodes (Nat.le_refl _)).congr
      (by simp [blobFormat, stringFormat])
  length := fun _ hw => (blobFormat_lawful field readField).length trivial hw
  accepts := by
    refine .bind (blobFormat_lawful field _).accepts ?_
    rintro bytes k n ⟨⟨_, hle, bs, hw⟩, _, hsize⟩
    refine decodeUtf8_accepts.mono ?_
    rintro text k' n' ⟨rfl, rfl, rfl⟩
    exact ⟨⟨trivial, hle, bs, hw⟩, by simp [stringFormat], hsize⟩

/-- Text of at most `limit` bytes; the writer does not check the limit. -/
def boundedStringFormat (field readField : String) (limit : Nat) : WireFormat String where
  write := writeString field
  read := readBoundedString readField limit
  valid _ := True
  limits text := (utf8 text).length ≤ maxWireBlobBytes ∧ (utf8 text).length ≤ limit
  cost _ := 0
  size text := 4 + (utf8 text).length
  tail _ := 0

theorem boundedStringFormat_lawful {limit : Nat} :
    (boundedStringFormat field readField limit).Lawful where
  decodes := by
    intro text bs _ hw
    have bytes := (blobFormat_lawful field readField).decodes trivial hw
    refine (Decodes.bind_free bytes (.ensure_bind decodeUtf8_decodes) (Nat.le_refl _)).congr ?_
    simp [blobFormat, boundedStringFormat]
  length := fun _ hw => (blobFormat_lawful field readField).length trivial hw
  accepts := by
    refine .bind (blobFormat_lawful field _).accepts ?_
    rintro bytes k n ⟨⟨_, hle, bs, hw⟩, _, hsize⟩
    refine .ensure_bind fun hlimit => decodeUtf8_accepts.mono ?_
    rintro text k' n' ⟨rfl, rfl, rfl⟩
    exact ⟨⟨trivial, ⟨hle, hlimit⟩, bs, hw⟩, by simp [boundedStringFormat], hsize⟩

/-! ## Booleans and enumerations -/

def boolOfByte : UInt8 → Option Bool
  | 0 => some false
  | 1 => some true
  | _ => none

def boolToByte (value : Bool) : UInt8 := if value then 1 else 0

def readBool : WireReader Bool := Format.readEnum .unexpectedEof .invalidBool boolOfByte

def boolFormat : WireFormat Bool := .enum .unexpectedEof .invalidBool boolOfByte boolToByte

theorem boolFormat_lawful : boolFormat.Lawful := Format.enum_lawful (by decide)

/-- `read_value_type`. -/
def valueTypeOfByte : UInt8 → Option ValueType
  | 0 => some .unknown
  | 1 => some .null
  | 2 => some .int
  | 3 => some .float
  | 4 => some .bool
  | 5 => some .string
  | 6 => some .bytes
  | 7 => some .array
  | 8 => some .map
  | 9 => some .callable
  | _ => none

def valueTypeToByte : ValueType → UInt8
  | .unknown => 0
  | .null => 1
  | .int => 2
  | .float => 3
  | .bool => 4
  | .string => 5
  | .bytes => 6
  | .array => 7
  | .map => 8
  | .callable => 9

def readValueType : WireReader ValueType :=
  Format.readEnum .unexpectedEof .invalidValueType valueTypeOfByte

def valueTypeFormat : WireFormat ValueType :=
  .enum .unexpectedEof .invalidValueType valueTypeOfByte valueTypeToByte

theorem valueTypeFormat_lawful : valueTypeFormat.Lawful :=
  Format.enum_lawful fun t => by cases t <;> rfl

end RustScript.Vmbc
