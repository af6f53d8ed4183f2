import RustScript.Stdlib.Iter
import RustScript.Stdlib.Strings

/-!
# `parse.rss`: integers

`try_parse_int_base` trims its text, checks that it is a literal, and adds up the digits.  The sum
wraps around at 64 bits, so it is the residue of the number that the literal denotes
(`tryParseIntBase_eq`).  The result is the number itself, or null where there is none, unless
the number does not fit (`parse_int_exact_iff`).
-/

namespace RustScript.Stdlib

open List

/-! ## The functions -/

def isWhitespace (ch : Text) : Bool := ch ∈ [[' '], ['\n'], ['\r'], ['\t']]

def isBlank (c : Char) : Bool := isWhitespace [c]

def trimStart (value : Text) (start : Nat) : Nat :=
  if start < value.length then
    if isWhitespace (slice value start (start + 1)) then trimStart value (start + 1) else start
  else start
termination_by value.length - start

def trimEnd (value : Text) (start : Nat) : Nat → Nat
  | 0 => 0
  | stop + 1 =>
    if stop + 1 > start then
      if isWhitespace (slice value stop (stop + 1)) then trimEnd value start stop else stop + 1
    else stop + 1

def trim (value : Text) : Text :=
  slice value (trimStart value 0) (trimEnd value (trimStart value 0) value.length)

def digits : List Char := "0123456789abcdefghijklmnopqrstuvwxyz".toList

/-- The table of `digit_value`; letters stand for digits in either case. -/
def digitOf (c : Char) : Int :=
  if c.toLower ∈ digits then digits.idxOf c.toLower else -1

def digitValue : Text → Int64
  | [c] => .ofInt (digitOf c)
  | _ => -1

def isValidBase (base : Int64) : Bool := decide (base ≥ 2) && decide (base ≤ 36)

/-- The loop of `is_int_literal_base`. -/
def digitsValid (text : Text) (base : Int64) (index : Nat) : Bool :=
  if index < text.length then
    let digit := digitValue (slice text index (index + 1))
    if digit < 0 ∨ digit ≥ base then false else digitsValid text base (index + 1)
  else true
termination_by text.length - index

def isIntLiteralBase (value : Text) (base : Int64) : Bool :=
  let text := trim value
  if isValidBase base = false ∨ text.length = 0 then false
  else
    let first := slice text 0 1
    let index := if first = ['+'] ∨ first = ['-'] then 1 else 0
    if index = text.length then false else digitsValid text base index

/-- The loop of `try_parse_int_base`. -/
def parseDigits (text : Text) (base : Int64) (index : Nat) (parsed : Int64) : Int64 :=
  if index < text.length then
    parseDigits text base (index + 1) (parsed * base + digitValue (slice text index (index + 1)))
  else parsed
termination_by text.length - index

def tryParseIntBase (value : Text) (base : Int64) : Option Int64 :=
  let text := trim value
  if isIntLiteralBase text base then
    let first := slice text 0 1
    let sign : Int64 := if first = ['-'] then -1 else 1
    let index := if first = ['-'] then 1 else if first = ['+'] then 1 else 0
    some (parseDigits text base index 0 * sign)
  else none

/-! ## Literals -/

/-- The text without whitespace at its ends. -/
def stripped (value : Text) : Text :=
  (value.dropWhile isBlank).rdropWhile isBlank

/-- The number that a string of digits of the base denotes. -/
def magnitude (base : Int) (digits : Text) : Option Int :=
  if digits ≠ [] ∧ digits.all (fun c => 0 ≤ digitOf c ∧ digitOf c < base) then
    some (digits.foldl (fun number c => number * base + digitOf c) 0)
  else none

/-- The number that a literal with an optional sign denotes. -/
def denotes (base : Int) : Text → Option Int
  | '-' :: digits => (magnitude base digits).map fun number => -number
  | '+' :: digits => magnitude base digits
  | digits => magnitude base digits

/-- What parsing should give: the number if there is one and it fits. -/
def parsed (value : Text) (base : Int64) : Option Int64 :=
  if 2 ≤ base.toInt ∧ base.toInt ≤ 36 then
    (denotes base.toInt (stripped value)).bind fun number =>
      if -2 ^ 63 ≤ number ∧ number < 2 ^ 63 then some (.ofInt number) else none
  else none

/-! ## Trimming -/

variable (value text : Text) (base : Int64)

theorem trimStart_eq (start : Nat) :
    value.drop (trimStart value start) = (value.drop start).dropWhile isBlank := by
  fun_induction trimStart value start with
  | case1 start inside white ih =>
    rw [slice_single _ inside, ← isBlank] at white
    rw [ih, drop_eq_getElem_cons inside, dropWhile_cons_of_pos white]
  | case2 start inside dark =>
    rw [slice_single _ inside, ← isBlank] at dark
    rw [drop_eq_getElem_cons inside, dropWhile_cons_of_neg dark]
  | case3 start outside => rw [drop_eq_nil_of_le (Nat.not_lt.mp outside), dropWhile_nil]

theorem trimStart_le {start : Nat} (inside : start ≤ value.length) :
    trimStart value start ≤ value.length := by
  fun_induction trimStart value start with
  | case1 start more _ ih => exact ih more
  | case2 | case3 => exact inside

theorem trimEnd_eq {start stop : Nat} (ordered : start ≤ stop) (inside : stop ≤ value.length) :
    slice value start (trimEnd value start stop) = (slice value start stop).rdropWhile isBlank := by
  induction stop with
  | zero => rw [Nat.le_zero.mp ordered, trimEnd, slice_self, rdropWhile_nil]
  | succ stop ih =>
    rcases Nat.lt_or_eq_of_le ordered with more | rfl
    · have ordered := Nat.lt_succ_iff.mp more
      rw [trimEnd, if_pos more, slice_single value inside, ← isBlank,
        slice_succ _ ordered inside, rdropWhile_concat]
      by_cases blank : isBlank value[stop] = true
      · rw [if_pos blank, if_pos blank]
        exact ih ordered (Nat.le_of_succ_le inside)
      · rw [if_neg blank, if_neg blank]
        exact slice_succ _ ordered inside
    · rw [trimEnd, if_neg (Nat.lt_irrefl _), slice_self, rdropWhile_nil]

theorem trim_eq : trim value = stripped value := by
  have start := trimStart_le value (Nat.zero_le _)
  rw [trim, trimEnd_eq value start le_rfl, slice_eq _ start, take_of_length_le (by simp),
    trimStart_eq]
  rfl

theorem stripped_stripped : stripped (stripped value) = stripped value := by
  have front : (stripped value).dropWhile isBlank = stripped value := by
    rw [dropWhile_eq_self_iff]
    intro some
    have first := rdropWhile_prefix isBlank (value.dropWhile isBlank)
    rw [← stripped] at first
    rw [first.getElem some]
    exact dropWhile_get_zero_not _ value _
  rw [stripped, front, stripped, rdropWhile_idempotent]

/-! ## Digits -/

theorem toInt_digit (c : Char) : (Int64.ofInt (digitOf c)).toInt = digitOf c := by
  have few : digits.length = 36 := by decide
  apply toInt_ofInt
  unfold InRange digitOf
  split
  · next mem =>
      have := idxOf_lt_length_of_mem mem
      omega
  · omega

theorem digitsValid_iff (index : Nat) : digitsValid text base index = true ↔
      ∀ c ∈ text.drop index, 0 ≤ digitOf c ∧ digitOf c < base.toInt := by
  have zero : (0 : Int64).toInt = 0 := rfl
  fun_induction digitsValid text base index with
  | case1 index inside digit wrong =>
    simp only [digit, slice_single _ inside, digitValue, Int64.lt_iff_toInt_lt,
      Int64.le_iff_toInt_le, toInt_digit] at wrong
    rw [drop_eq_getElem_cons inside, forall_mem_cons]
    exact ⟨nofun, fun valid => by omega⟩
  | case2 index inside digit right ih =>
    simp only [digit, slice_single _ inside, digitValue, Int64.lt_iff_toInt_lt,
      Int64.le_iff_toInt_le, toInt_digit] at right
    rw [drop_eq_getElem_cons inside, forall_mem_cons]
    exact ⟨fun valid => ⟨by omega, ih.mp valid⟩, fun valid => ih.mpr valid.2⟩
  | case3 index outside => simp [drop_eq_nil_of_le (Nat.not_lt.mp outside)]

theorem parseDigits_eq (index : Nat) (number : Int) :
    parseDigits text base index (.ofInt number) =
      .ofInt
        ((text.drop index).foldl (fun number c => number * base.toInt + digitOf c) number) := by
  induction left : text.length - index generalizing index number with
  | zero => rw [parseDigits, if_neg (by omega), drop_eq_nil_of_le (by omega), foldl_nil]
  | succ left ih =>
    have inside : index < text.length := by omega
    rw [parseDigits, if_pos inside, slice_single _ inside, digitValue,
      drop_eq_getElem_cons inside, foldl_cons, ← ih (index + 1) _ (by omega),
      Int64.ofInt_add, Int64.ofInt_mul, Int64.ofInt_toInt]

/-- The number of characters in front of the digits. -/
def signLength (c : Char) : Nat := if c = '+' ∨ c = '-' then 1 else 0

theorem denotes_cons (base : Int) (c : Char) (rest : Text) :
    denotes base (c :: rest) = (magnitude base ((c :: rest).drop (signLength c))).map
      fun number => number * if c = '-' then -1 else 1 := by
  by_cases minus : c = '-'
  · subst minus
    simp [denotes, signLength]
  · by_cases plus : c = '+'
    · subst plus
      simp [denotes, signLength]
    · simp [denotes, signLength, minus, plus]

theorem isValidBase_iff : isValidBase base = true ↔ 2 ≤ base.toInt ∧ base.toInt ≤ 36 := by
  rw [isValidBase, Bool.and_eq_true, decide_eq_true_eq, decide_eq_true_eq, ge_iff_le,
    Int64.le_iff_toInt_le, Int64.le_iff_toInt_le]
  rfl

theorem isIntLiteralBase_cons {c : Char} {rest : Text} (trimmed : trim (c :: rest) = c :: rest) :
    isIntLiteralBase (c :: rest) base = true ↔ (2 ≤ base.toInt ∧ base.toInt ≤ 36) ∧
        (c :: rest).drop (signLength c) ≠ [] ∧
        ∀ d ∈ (c :: rest).drop (signLength c), 0 ≤ digitOf d ∧ digitOf d < base.toInt := by
  have first : slice (c :: rest) 0 1 = [c] := slice_single _ (Nat.zero_lt_succ _)
  have short : signLength c ≤ (c :: rest).length := by
    unfold signLength
    split <;> simp
  have index : (if [c] = ['+'] ∨ [c] = ['-'] then 1 else 0) = signLength c := by simp [signLength]
  have ended : (c :: rest).length ≤ signLength c ↔ signLength c = (c :: rest).length := by omega
  rw [← isValidBase_iff, ← digitsValid_iff, isIntLiteralBase, trimmed, Ne, drop_eq_nil_iff,
    ended]
  simp only [first, index]
  cases isValidBase base with
  | false | true => simp

/-- The digits are added up modulo 2^64. -/
theorem tryParseIntBase_eq : tryParseIntBase value base =
      if 2 ≤ base.toInt ∧ base.toInt ≤ 36 then
        (denotes base.toInt (stripped value)).map Int64.ofInt
      else none := by
  have trimmed : trim (stripped value) = stripped value := by rw [trim_eq, stripped_stripped]
  rw [tryParseIntBase, trim_eq]
  generalize stripped value = text at trimmed ⊢
  cases text with
  | nil =>
    have literal : isIntLiteralBase [] base = false := by simp [isIntLiteralBase, trimmed]
    simp [literal, denotes, magnitude]
  | cons c rest =>
    have first : slice (c :: rest) 0 1 = [c] := slice_single _ (Nat.zero_lt_succ _)
    have literal := isIntLiteralBase_cons base trimmed
    have index : (if [c] = ['-'] then 1 else if [c] = ['+'] then 1 else 0) = signLength c := by
      by_cases minus : c = '-' <;> simp [signLength, minus]
    have zero : (0 : Int64) = .ofInt 0 := rfl
    have sign : (if [c] = ['-'] then -1 else 1 : Int64) = .ofInt (if c = '-' then -1 else 1) := by
      by_cases minus : c = '-' <;> simp [minus]
    simp only [first, index, zero, sign]
    rw [denotes_cons, parseDigits_eq, ← Int64.ofInt_mul, magnitude]
    simp only [all_eq_true, decide_eq_true_eq]
    by_cases valid : 2 ≤ base.toInt ∧ base.toInt ≤ 36
    · split
      · next isLiteral =>
          rw [if_pos (literal.mp isLiteral).2]
          rfl
      · next noLiteral =>
          rw [if_neg fun digits => noLiteral (literal.mpr ⟨valid, digits⟩)]
          rfl
    · rw [if_neg valid, if_neg fun isLiteral => valid (literal.mp isLiteral).1]

/-- **Parsing is exact up to wrapping.**  The result is the number that the literal denotes, or
null where there is none, if and only if no literal of a valid base denotes a number that does
not fit. -/
theorem parse_int_exact_iff (value : Text) (base : Int64) :
    tryParseIntBase value base = parsed value base ↔
      (2 ≤ base.toInt ∧ base.toInt ≤ 36 → ∀ number, denotes base.toInt (stripped value) =
        some number → -2 ^ 63 ≤ number ∧ number < 2 ^ 63) := by
  rw [tryParseIntBase_eq, parsed]
  by_cases valid : 2 ≤ base.toInt ∧ base.toInt ≤ 36
  · cases denotes base.toInt (stripped value) with
    | none => simp
    | some number =>
      split <;> simp_all
  · simp [valid]

/-- One more than `i64::MAX` is not null but `i64::MIN`. -/
theorem parse_int_wraps :
    tryParseIntBase "9223372036854775808".toList 10 ≠ parsed "9223372036854775808".toList 10 := by
  decide +kernel

end RustScript.Stdlib
