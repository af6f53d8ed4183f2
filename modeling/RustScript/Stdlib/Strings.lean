import Mathlib

/-!
# `strings.rss`: splitting and replacing

A string is the list of its characters.  Lengths and positions are unbounded integers: they are
at most the sum of the lengths of two strings in memory.

`split` and `replace` scan for the separator in two different loops.  Both follow one description
of the cuts, `cut`: what is left of the string falls into the text up to the next separator and
the pieces after it.  So the parts of `split` joined with the separator are the string, none of
them contains the separator, and `replace` joins them with the replacement
(`split_replace_agree`).
-/

/-! ## Cutting a list at a separator -/

namespace Cutting

variable {α : Type} [DecidableEq α] {separator : List α}

/-- The list up to the first occurrence of the separator, and the pieces after it. -/
def cut (separator : List α) (positive : 0 < separator.length) (list : List α) :
    List α × List (List α) :=
  if separator <+: list then
    let rest := cut separator positive (list.drop separator.length)
    ([], rest.1 :: rest.2)
  else
    match list with
    | [] => ([], [])
    | item :: rest =>
      let after := cut separator positive rest
      (item :: after.1, after.2)
termination_by list.length
decreasing_by
  · have := List.IsPrefix.length_le ‹_›
    rw [List.length_drop]
    omega
  · simp

omit [DecidableEq α] in
theorem intercalate_cons (glue piece : List α) (pieces : List (List α)) :
    glue.intercalate (piece :: pieces) = piece ++ pieces.flatMap (glue ++ ·) := by
  induction pieces generalizing piece with
  | nil => simp [List.intercalate]
  | cons next pieces ih =>
    have step : glue.intercalate (piece :: next :: pieces) =
        piece ++ glue ++ glue.intercalate (next :: pieces) := by
      simp [List.intercalate]
    rw [step, ih, List.flatMap_cons, List.append_assoc, List.append_assoc]

variable (positive : 0 < separator.length) (list : List α)

theorem cut_here {list : List α} (here : separator <+: list) :
    cut separator positive list = ([], (cut separator positive (list.drop separator.length)).1 ::
      (cut separator positive (list.drop separator.length)).2) := by
  rw [cut.eq_def, if_pos here]

/-- The separator between the pieces gives the list back. -/
theorem cut_joined :
    (cut separator positive list).1 ++ (cut separator positive list).2.flatMap (separator ++ ·) =
      list := by
  fun_induction cut separator positive list with
  | case1 list here rest ih =>
    rw [List.nil_append, List.flatMap_cons, List.append_assoc, ih]
    exact (List.prefix_iff_eq_append.mp here)
  | case2 => rfl
  | case3 item rest _ after ih => rw [List.cons_append, ih]

/-- No piece contains the separator. -/
theorem cut_free : ∀ piece ∈ (cut separator positive list).1 :: (cut separator positive list).2,
      ¬ separator <:+: piece := by
  fun_induction cut separator positive list with
  | case1 list here rest ih =>
    refine List.forall_mem_cons.mpr ⟨fun inside => ?_, ih⟩
    rw [List.infix_nil] at inside
    simp [inside] at positive
  | case2 away =>
    exact List.forall_mem_cons.mpr ⟨fun inside => away (List.infix_nil.mp inside ▸ List.nil_prefix),
      nofun⟩
  | case3 item rest after away ih =>
    obtain ⟨first, others⟩ := List.forall_mem_cons.mp ih
    refine List.forall_mem_cons.mpr ⟨fun inside => ?_, others⟩
    rcases List.infix_cons_iff.mp inside with front | later
    · refine away (front.trans ?_)
      conv_rhs => rw [← cut_joined positive rest]
      exact List.prefix_append _ _
    · exact first later

/-- A list that is shorter than the separator is one piece. -/
theorem cut_short (short : list.length < separator.length) :
    cut separator positive list = (list, []) := by
  fun_induction cut separator positive list with
  | case1 list here rest ih => exact absurd here.length_le (Nat.not_le.mpr short)
  | case2 => rfl
  | case3 item rest after away ih =>
    have whole : after = (rest, []) := ih (Nat.lt_of_succ_lt short)
    rw [whole]

end Cutting

namespace RustScript.Stdlib

open Cutting List

abbrev Text := List Char

/-! ## The functions -/

/-- `builtin_slice_string_impl`. -/
def sliceString (text : Text) (start length : Int) : Text :=
  if start < 0 ∨ length ≤ 0 then [] else (text.drop start.toNat).take length.toNat

/-- `text[start:stop]`: a negative stop counts from the end. -/
def slice (text : Text) (start stop : Int) : Text :=
  sliceString text start ((if stop < 0 then text.length + stop else stop) - start)

/-- The loop of `split` for a separator that is not empty. -/
def splitLoop (value separator : Text) (positive : 0 < separator.length) (cursor partStart : Nat)
    (out : List Text) : List Text :=
  if (cursor : Int) < value.length - separator.length + 1 then
    if slice value cursor (cursor + separator.length) = separator then
      splitLoop value separator positive (cursor + separator.length) (cursor + separator.length)
        (out ++ [slice value partStart cursor])
    else splitLoop value separator positive (cursor + 1) partStart out
  else out ++ [slice value partStart value.length]
termination_by value.length - cursor

def split (value separator : Text) : List Text :=
  if empty : separator.length = 0 then
    (List.range value.length).map fun index => slice value index (index + 1)
  else splitLoop value separator (Nat.pos_of_ne_zero empty) 0 0 []

/-- The loop of `replace` for a needle that is not empty. -/
def replaceLoop (value needle replacement : Text) (positive : 0 < needle.length) (index : Nat)
    (output : Text) : Text :=
  if index < value.length then
    if index + needle.length > value.length then
      replaceLoop value needle replacement positive (index + 1)
        (output ++ slice value index (index + 1))
    else if slice value index (index + needle.length) = needle then
      replaceLoop value needle replacement positive (index + needle.length) (output ++ replacement)
    else
      replaceLoop value needle replacement positive (index + 1)
        (output ++ slice value index (index + 1))
  else output
termination_by value.length - index

def replace (value needle replacement : Text) : Text :=
  if empty : needle.length = 0 then value
  else replaceLoop value needle replacement (Nat.pos_of_ne_zero empty) 0 []

/-! ## The cuts they make -/

variable (value separator : Text) (positive : 0 < separator.length) {start stop cursor : Nat}

theorem slice_eq (ordered : start ≤ stop) :
    slice value start stop = (value.drop start).take (stop - start) := by
  rw [slice, if_neg (by omega), sliceString]
  by_cases same : start = stop
  · subst same
    simp
  · rw [if_neg (by omega), Int.toNat_natCast]
    congr
    omega

@[simp] theorem slice_self (start : Nat) : slice value start start = [] := by
  rw [slice_eq _ le_rfl, Nat.sub_self, take_zero]

theorem slice_single {index : Nat} (inside : index < value.length) :
    slice value index (index + 1) = [value[index]] := by
  change slice value index (index + 1 : Nat) = _
  rw [slice_eq _ (Nat.le_add_right index 1), Nat.add_sub_cancel_left, drop_eq_getElem_cons inside]
  rfl

theorem slice_succ (ordered : start ≤ stop) (inside : stop < value.length) :
    slice value start (stop + 1 : Nat) = slice value start stop ++ [value[stop]] := by
  rw [slice_eq _ (show start ≤ stop + 1 by omega), slice_eq _ ordered, Nat.sub_add_comm ordered,
    take_succ_eq_append_getElem (by rw [length_drop]; omega)]
  simp [Nat.add_sub_cancel' ordered]

theorem slice_eq_iff (cursor : Nat) : slice value cursor (cursor + separator.length) = separator ↔
      separator <+: value.drop cursor := by
  rw [← Int.natCast_add, slice_eq _ (Nat.le_add_right _ _), Nat.add_sub_cancel_left,
    prefix_iff_eq_take, eq_comm]

theorem cut_drop (inside : cursor < value.length) (away : ¬ separator <+: value.drop cursor) :
    cut separator positive (value.drop cursor) =
      (value[cursor] :: (cut separator positive (value.drop (cursor + 1))).1,
        (cut separator positive (value.drop (cursor + 1))).2) := by
  rw [drop_eq_getElem_cons inside] at away ⊢
  rw [cut, if_neg away]

theorem splitLoop_eq {partStart : Nat} {out : List Text} (ordered : partStart ≤ cursor)
    (inside : cursor ≤ value.length) :
    splitLoop value separator positive cursor partStart out =
      out ++ ((slice value partStart cursor ++ (cut separator positive (value.drop cursor)).1) ::
        (cut separator positive (value.drop cursor)).2) := by
  fun_induction splitLoop value separator positive cursor partStart out with
  | case1 cursor partStart out before here ih =>
    rw [ih le_rfl (by omega), slice_self, cut_here _ ((slice_eq_iff ..).mp here)]
    simp
  | case2 cursor partStart out before away ih =>
    have more : cursor < value.length := by omega
    rw [ih (by omega) (by omega), slice_succ _ ordered more,
      cut_drop _ _ _ more fun here => away ((slice_eq_iff ..).mpr here)]
    simp
  | case3 cursor partStart out after =>
    have rest : value.drop cursor = (value.drop partStart).drop (cursor - partStart) := by
      rw [drop_drop, Nat.add_sub_cancel' ordered]
    rw [cut_short _ _ (by rw [length_drop]; omega), slice_eq _ (by omega),
      slice_eq _ ordered, rest, take_append_drop, take_of_length_le (by simp)]

theorem replaceLoop_eq (replacement : Text) (index : Nat) (output : Text) :
    replaceLoop value separator replacement positive index output =
      output ++ ((cut separator positive (value.drop index)).1 ++
        (cut separator positive (value.drop index)).2.flatMap (replacement ++ ·)) := by
  fun_induction replaceLoop value separator replacement positive index output with
  | case1 index output inside beyond ih =>
    have away : ¬ separator <+: value.drop index := fun here => by
      have := here.length_le
      rw [length_drop] at this
      omega
    rw [ih, slice_single _ inside, cut_drop _ _ _ inside away]
    simp
  | case2 index output inside fits here ih =>
    rw [ih, cut_here _ ((slice_eq_iff ..).mp here)]
    simp
  | case3 index output inside fits away ih =>
    rw [ih, slice_single _ inside,
      cut_drop _ _ _ inside fun here => away ((slice_eq_iff ..).mpr here)]
    simp
  | case4 index output outside =>
    rw [drop_eq_nil_of_le (by omega), cut_short _ [] positive]
    simp

theorem split_eq : split value separator =
      (cut separator positive value).1 :: (cut separator positive value).2 := by
  rw [split, dif_neg positive.ne', splitLoop_eq _ _ _ le_rfl (Nat.zero_le _), slice_self]
  rfl

/-- **Splitting and replacing agree.** -/
theorem split_replace_agree (value separator : Text) (nonempty : separator ≠ []) :
    separator.intercalate (split value separator) = value ∧
    (∀ part ∈ split value separator, ¬ separator <:+: part) ∧
    ∀ replacement, replace value separator replacement =
      replacement.intercalate (split value separator) := by
  have positive := length_pos_iff.mpr nonempty
  rw [split_eq value _ positive]
  refine ⟨?_, cut_free positive value, fun replacement => ?_⟩
  · rw [intercalate_cons, cut_joined]
  · rw [intercalate_cons, replace, dif_neg positive.ne', replaceLoop_eq]
    simp

theorem split_replace_agree_overlapping :
    "aa".toList.intercalate (split "aaaba".toList "aa".toList) = "aaaba".toList :=
  (split_replace_agree _ _ (by decide)).1

end RustScript.Stdlib
