import Mathlib

/-!
# Spans of lowered sources

A frontend lowers a source by copying parts of it, in order, and by inserting text of its
own.  The builder keeps a list of segments by which offsets of the lowered text are mapped
back, with a binary search.

What a sequence of steps means is a list: the place in the original that each lowered byte
comes from (`origins`).  The segments describe this list (`Describes.run`), so an offset is
mapped to the place of its byte (`mapOffset_origin`).  The end of a span is looked up like the
start of what follows it, so a span is exact only where the text goes on in the original
where the span ends (`lowered_spans`).
-/

namespace RustScript.Compiler.SourceMap

open List

/-! ## The mapping -/

abbrev SourceId := UInt32

structure Span where
  sourceId : SourceId
  lo : Nat
  hi : Nat
  deriving DecidableEq, Repr

def Span.new (sourceId : SourceId) (lo hi : Nat) : Span :=
  if lo ≤ hi then ⟨sourceId, lo, hi⟩ else ⟨sourceId, hi, lo⟩

inductive ByteSegment where
  | copy (loweredLo loweredHi originalLo originalHi : Nat)
  | inserted (loweredLo loweredHi originalAt : Nat)
  deriving DecidableEq, Repr

namespace ByteSegment

def loweredLo : ByteSegment → Nat
  | copy lo _ _ _ | inserted lo _ _ => lo

def loweredHi : ByteSegment → Nat
  | copy _ hi _ _ | inserted _ hi _ => hi

/-- The original offset of an offset inside the segment. -/
def inside (offset : Nat) : ByteSegment → Nat
  | copy lo _ originalLo _ => originalLo + (offset - lo)
  | inserted _ _ originalAt => originalAt

/-- The original offset of an offset behind the last segment. -/
def past (offset : Nat) : ByteSegment → Nat
  | copy _ hi _ originalHi => originalHi + (offset - hi)
  | inserted _ _ originalAt => originalAt

end ByteSegment

/-- `ByteSpanMapping`: the segments, in the order of the lowered text. -/
abbrev ByteSpanMapping := List ByteSegment

/-- A copy that goes on where the last one ended, in both texts, makes that one longer. -/
def pushCopy (segments : ByteSpanMapping) (loweredLo loweredHi originalLo originalHi : Nat) :
    ByteSpanMapping :=
  match segments.getLast? with
  | some (.copy lo prevHi original prevOriginalHi) =>
    if prevHi = loweredLo ∧ prevOriginalHi = originalLo then
      segments.dropLast ++ [.copy lo loweredHi original originalHi]
    else segments ++ [.copy loweredLo loweredHi originalLo originalHi]
  | _ => segments ++ [.copy loweredLo loweredHi originalLo originalHi]

def pushInserted (segments : ByteSpanMapping) (loweredLo loweredHi originalAt : Nat) :
    ByteSpanMapping :=
  segments ++ [.inserted loweredLo loweredHi originalAt]

/-- The binary search of `map_offset` among the segments from `lo` up to `hi`. -/
def search (segments : ByteSpanMapping) (offset lo hi : Nat) : Option ByteSegment :=
  if lo < hi then
    -- There is a segment in the middle: `hi` is at most their number.
    match segments[(lo + hi) / 2]? with
    | none => none
    | some segment =>
      if offset < segment.loweredLo then search segments offset lo ((lo + hi) / 2)
      else if segment.loweredHi ≤ offset then search segments offset ((lo + hi) / 2 + 1) hi
      else some segment
  else none
termination_by hi - lo

def mapOffset (segments : ByteSpanMapping) (offset : Nat) : Option Nat :=
  match search segments offset 0 segments.length with
  | some segment => some (segment.inside offset)
  | none => segments.getLast?.map (·.past offset)

def mapSpan (segments : ByteSpanMapping) (originalSourceId : SourceId) (span : Span)
    (loweredSourceId : SourceId) : Option Span :=
  if span.sourceId ≠ loweredSourceId then none
  else do
    let lo ← mapOffset segments span.lo
    let hi ← mapOffset segments span.hi
    return .new originalSourceId lo hi

/-! ## The builder -/

structure LoweringBuilder where
  original : List UInt8
  lowered : List UInt8
  originalCursor : Nat
  mapping : ByteSpanMapping

def LoweringBuilder.new (original : List UInt8) : LoweringBuilder := ⟨original, [], 0, []⟩

/-- What a frontend does with the builder. -/
inductive LoweringStep where
  | copyRange (start stop : Nat)
  | insert (text : List UInt8)

namespace LoweringBuilder

def copyRange (builder : LoweringBuilder) (start stop : Nat) : LoweringBuilder :=
  let lowered := builder.lowered ++ (builder.original.drop start).take (stop - start)
  { builder with
    lowered
    mapping := pushCopy builder.mapping builder.lowered.length lowered.length start stop
    originalCursor := stop }

def copyRest (builder : LoweringBuilder) : LoweringBuilder :=
  if builder.originalCursor < builder.original.length then
    builder.copyRange builder.originalCursor builder.original.length
  else builder

def insert (builder : LoweringBuilder) (text : List UInt8) : LoweringBuilder :=
  let lowered := builder.lowered ++ text
  { builder with
    lowered
    mapping := pushInserted builder.mapping builder.lowered.length lowered.length
      builder.originalCursor }

def apply (builder : LoweringBuilder) : LoweringStep → LoweringBuilder
  | .copyRange start stop => builder.copyRange start stop
  | .insert text => builder.insert text

end LoweringBuilder

/-- `finish` after some steps; the mapping of lines is left out. -/
def lower (original : List UInt8) (steps : List LoweringStep) : LoweringBuilder :=
  (steps.foldl LoweringBuilder.apply (.new original)).copyRest

/-! ## What the steps mean -/

namespace LoweringStep

def length : LoweringStep → Nat
  | copyRange start stop => stop - start
  | insert text => text.length

/-- The place in the original after a step. -/
def moves (cursor : Nat) : LoweringStep → Nat
  | copyRange _ stop => stop
  | insert _ => cursor

/-- The places in the original of the bytes that a step makes. -/
def places (cursor : Nat) : LoweringStep → List Nat
  | copyRange start stop => range' start (stop - start)
  | insert text => replicate text.length cursor

def text (original : List UInt8) : LoweringStep → List UInt8
  | copyRange start stop => (original.drop start).take (stop - start)
  | insert text => text

/-- A copy is taken from the original, behind the cursor. -/
def Follows (length cursor : Nat) : LoweringStep → Prop
  | copyRange start stop => cursor ≤ start ∧ start ≤ stop ∧ stop ≤ length
  | insert _ => True

variable {step : LoweringStep} {length cursor : Nat} {original : List UInt8}

@[simp]
theorem length_places (step : LoweringStep) : (step.places cursor).length = step.length := by
  cases step <;> simp [places, LoweringStep.length]

theorem Follows.length_text (follows : step.Follows original.length cursor) :
    (step.text original).length = step.length := by
  cases step with
  | copyRange start stop =>
    obtain ⟨first, second, third⟩ := follows
    simp only [text, LoweringStep.length, length_take, length_drop]
    omega
  | insert inserted => rfl

theorem Follows.places (follows : step.Follows length cursor) :
    (step.places cursor).Pairwise (· ≤ ·) ∧ cursor ≤ step.moves cursor ∧
      ∀ place ∈ step.places cursor, cursor ≤ place ∧ place ≤ step.moves cursor := by
  cases step with
  | copyRange start stop =>
    obtain ⟨first, second, third⟩ := follows
    refine ⟨(sortedLT_range' _ _ (by decide)).pairwise.imp Nat.le_of_lt,
      first.trans second, fun place mem => ?_⟩
    rw [LoweringStep.places, mem_range'_1] at mem
    simp only [moves]
    omega
  | insert text =>
    refine ⟨pairwise_replicate.mpr (.inr (Nat.le_refl _)), Nat.le_refl _, fun place mem => ?_⟩
    rw [(mem_replicate.mp mem).2]
    exact ⟨Nat.le_refl _, Nat.le_refl _⟩

end LoweringStep

/-- The length of the text that some steps make. -/
def loweredLength (steps : List LoweringStep) : Nat := (steps.map LoweringStep.length).sum

def cursorAfter (cursor : Nat) (steps : List LoweringStep) : Nat :=
  steps.foldl LoweringStep.moves cursor

/-- Copies are taken from the original, in its order. -/
def InOrder (length : Nat) (cursor : Nat) : List LoweringStep → Prop
  | [] => True
  | step :: steps => step.Follows length cursor ∧ InOrder length (step.moves cursor) steps

/-- The steps, with the copy of the rest that `finish` makes. -/
def completed (length : Nat) (steps : List LoweringStep) : List LoweringStep :=
  if cursorAfter 0 steps < length then steps ++ [.copyRange (cursorAfter 0 steps) length]
  else steps

/-- The place in the original of every lowered byte: its own, or where it was inserted. -/
def origins (cursor : Nat) : List LoweringStep → List Nat
  | [] => []
  | step :: steps => step.places cursor ++ origins (step.moves cursor) steps

/-- Where the text that follows begins in the original: at the next byte that is copied, or
where the next one is inserted; steps that make no text only move the cursor. -/
def resumesAt (cursor : Nat) : List LoweringStep → Nat
  | [] => cursor
  | .copyRange start stop :: steps => if start < stop then start else resumesAt stop steps
  | .insert text :: steps => if text = [] then resumesAt cursor steps else cursor

variable {length cursor : Nat} {steps before after : List LoweringStep}

theorem length_origins (cursor : Nat) (steps : List LoweringStep) :
    (origins cursor steps).length = loweredLength steps := by
  induction steps generalizing cursor with
  | nil => rfl
  | cons step steps ih => simp [origins, ih, loweredLength]

theorem origins_append : origins cursor (before ++ after) =
      origins cursor before ++ origins (cursorAfter cursor before) after := by
  induction before generalizing cursor with
  | nil => rfl
  | cons step before ih => simp [origins, ih, cursorAfter]

theorem inOrder_append : InOrder length cursor (before ++ after) ↔
      InOrder length cursor before ∧ InOrder length (cursorAfter cursor before) after := by
  induction before generalizing cursor with
  | nil => simp [InOrder, cursorAfter]
  | cons step before ih => simp [InOrder, ih, cursorAfter, and_assoc]

theorem InOrder.cursor_le (ordered : InOrder length cursor steps) (start : cursor ≤ length) :
    cursorAfter cursor steps ≤ length := by
  induction steps generalizing cursor with
  | nil => exact start
  | cons step steps ih =>
    refine ih ordered.2 ?_
    cases step with
    | copyRange first stop => exact ordered.1.2.2
    | insert text => exact start

/-- The places of the lowered bytes stand in order, between the cursor before and after. -/
theorem InOrder.origins (ordered : InOrder length cursor steps) :
    (origins cursor steps).Pairwise (· ≤ ·) ∧ cursor ≤ cursorAfter cursor steps ∧
      ∀ place ∈ origins cursor steps, cursor ≤ place ∧ place ≤ cursorAfter cursor steps := by
  induction steps generalizing cursor with
  | nil => simp [SourceMap.origins, cursorAfter]
  | cons step steps ih =>
    obtain ⟨sorted, moved, bounds⟩ := ordered.1.places
    obtain ⟨sorted', moved', bounds'⟩ := ih ordered.2
    simp only [SourceMap.origins, pairwise_append, mem_append]
    refine ⟨⟨sorted, sorted', fun a memA b memB => (bounds a memA).2.trans (bounds' b memB).1⟩,
      moved.trans moved', ?_⟩
    rintro place (mem | mem)
    · exact ⟨(bounds place mem).1, (bounds place mem).2.trans moved'⟩
    · exact ⟨moved.trans (bounds' place mem).1, (bounds' place mem).2⟩

/-- The first byte that follows, or the cursor at the end. -/
theorem head_origins : (origins cursor steps).head?.getD (cursorAfter cursor steps) =
      resumesAt cursor steps := by
  induction steps generalizing cursor with
  | nil => rfl
  | cons step steps ih =>
    cases step with
    | copyRange start stop =>
      rw [resumesAt, origins, LoweringStep.places]
      split
      · next some =>
          obtain ⟨count, eq⟩ : ∃ count, stop - start = count + 1 := ⟨stop - start - 1, by omega⟩
          simp [eq, range'_succ]
      · next none =>
          rw [show stop - start = 0 by omega]
          exact ih
    | insert text =>
      cases text with
      | nil => exact ih
      | cons byte text => simp [origins, LoweringStep.places, resumesAt, replicate_succ]

theorem InOrder.length_text {original : List UInt8}
    (ordered : InOrder original.length cursor steps) :
    (steps.flatMap (·.text original)).length = loweredLength steps := by
  induction steps generalizing cursor with
  | nil => rfl
  | cons step steps ih =>
    simp [ih ordered.2, ordered.1.length_text, loweredLength]

/-! ## The segments describe the places -/

namespace ByteSegment

/-- The places of the bytes of a segment. -/
def places : ByteSegment → List Nat
  | copy lo hi originalLo _ => range' originalLo (hi - lo)
  | inserted lo hi originalAt => replicate (hi - lo) originalAt

/-- Where the segment ends in the original. -/
def originalEnd : ByteSegment → Nat
  | copy _ _ _ originalHi => originalHi
  | inserted _ _ originalAt => originalAt

/-- A copy is as long in the original as in the lowered text. -/
def Fits : ByteSegment → Prop
  | copy lo hi originalLo originalHi => lo ≤ hi ∧ originalLo + (hi - lo) = originalHi
  | inserted lo hi _ => lo ≤ hi

theorem Fits.le {segment : ByteSegment} (fits : segment.Fits) :
    segment.loweredLo ≤ segment.loweredHi := by
  cases segment with
  | copy lo hi originalLo originalHi => exact fits.1
  | inserted lo hi originalAt => exact fits

theorem length_places (segment : ByteSegment) :
    segment.places.length = segment.loweredHi - segment.loweredLo := by
  cases segment <;> simp [places, loweredHi, loweredLo]

theorem getElem?_places {segment : ByteSegment} {offset : Nat}
    (lo : segment.loweredLo ≤ offset) (hi : offset < segment.loweredHi) :
    segment.places[offset - segment.loweredLo]? = some (segment.inside offset) := by
  cases segment with
  | copy start stop originalLo originalHi =>
    simp only [loweredLo, loweredHi] at lo hi
    simp only [places, inside, loweredLo]
    rw [getElem?_range' (by omega), Nat.one_mul]
  | inserted start stop originalAt =>
    simp only [loweredLo, loweredHi] at lo hi
    simp only [places, inside, loweredLo]
    rw [getElem?_replicate_of_lt (by omega)]

theorem originalEnd_le_past (segment : ByteSegment) (offset : Nat) :
    segment.originalEnd ≤ segment.past offset := by
  cases segment <;> simp [originalEnd, past]

theorem past_mono (segment : ByteSegment) {offset offset' : Nat} (le : offset ≤ offset') :
    segment.past offset ≤ segment.past offset' := by
  cases segment <;> simp only [past] <;> omega

theorem past_loweredHi (segment : ByteSegment) :
    segment.past segment.loweredHi = segment.originalEnd := by
  cases segment <;> simp [originalEnd, past, loweredHi]

end ByteSegment

/-- The segments tile the lowered text and give each of its bytes its place. -/
inductive Covers : ByteSpanMapping → List Nat → Prop
  | nil : Covers [] []
  | snoc {segments : ByteSpanMapping} {places : List Nat} {segment : ByteSegment} :
      Covers segments places → segment.loweredLo = places.length → segment.Fits →
        Covers (segments ++ [segment]) (places ++ segment.places)

variable {segments : ByteSpanMapping} {places : List Nat} {offset : Nat}

theorem Covers.of_snoc {segment : ByteSegment} (covers : Covers (segments ++ [segment]) places) :
    ∃ first, Covers segments first ∧ segment.loweredLo = first.length ∧ segment.Fits ∧
      places = first ++ segment.places := by
  generalize eq : segments ++ [segment] = all at covers
  cases covers with
  | nil => simp at eq
  | snoc first lo fits =>
    obtain ⟨rfl, last⟩ := append_inj' eq rfl
    obtain rfl := singleton_inj.mp last
    exact ⟨_, first, lo, fits, rfl⟩

theorem Covers.hi_le (covers : Covers segments places) :
    ∀ segment ∈ segments, segment.Fits ∧ segment.loweredHi ≤ places.length := by
  induction covers with
  | nil => simp
  | @snoc segments places last first lo fits ih =>
    intro segment mem
    rw [length_append, last.length_places]
    rcases mem_append.mp mem with mem | mem
    · have := ih segment mem
      exact ⟨this.1, by omega⟩
    · obtain rfl := mem_singleton.mp mem
      have := fits.le
      exact ⟨fits, by omega⟩

theorem Covers.last_hi (covers : Covers segments places) :
    ∀ segment ∈ segments.getLast?, segment.loweredHi = places.length := by
  cases covers with
  | nil => simp
  | @snoc segments places last first lo fits =>
    have := fits.le
    simp only [getLast?_concat, Option.mem_some_iff, forall_eq', length_append, last.length_places]
    omega

theorem Covers.ordered (covers : Covers segments places) :
    segments.Pairwise (·.loweredHi ≤ ·.loweredLo) := by
  induction covers with
  | nil => exact .nil
  | @snoc segments places last first lo fits ih =>
    refine pairwise_append.mpr ⟨ih, pairwise_singleton _ _, ?_⟩
    intro segment mem other memOther
    rw [mem_singleton.mp memOther, lo]
    exact (first.hi_le segment mem).2

theorem Covers.exists_segment (covers : Covers segments places) (inside : offset < places.length) :
    ∃ segment ∈ segments, segment.loweredLo ≤ offset ∧ offset < segment.loweredHi := by
  induction covers with
  | nil => simp at inside
  | @snoc segments places last first lo fits ih =>
    rw [length_append, last.length_places] at inside
    by_cases earlier : offset < places.length
    · obtain ⟨segment, mem, bounds⟩ := ih earlier
      exact ⟨segment, mem_append_left _ mem, bounds⟩
    · exact ⟨last, by simp, by omega, by omega⟩

theorem Covers.place (covers : Covers segments places) :
    ∀ segment ∈ segments, segment.loweredLo ≤ offset → offset < segment.loweredHi →
      places[offset]? = some (segment.inside offset) := by
  induction covers with
  | nil => simp
  | @snoc segments places last first start fits ih =>
    intro segment mem lo hi
    rcases mem_append.mp mem with mem | mem
    · have := (first.hi_le segment mem).2
      rw [getElem?_append_left (by omega), ih segment mem lo hi]
    · obtain rfl := mem_singleton.mp mem
      rw [getElem?_append_right (by omega), ← start, ByteSegment.getElem?_places lo hi]

/-! ## The binary search -/

theorem search_sound {lo hi : Nat} {segment : ByteSegment}
    (found : search segments offset lo hi = some segment) :
    segment ∈ segments ∧ segment.loweredLo ≤ offset ∧ offset < segment.loweredHi := by
  fun_induction search segments offset lo hi with
  | case1 => simp at found
  | case2 lo hi more middle eq below ih => exact ih found
  | case3 lo hi more middle eq below above ih => exact ih found
  | case4 lo hi more middle eq below above =>
    obtain rfl := Option.some.inj found
    exact ⟨mem_of_getElem? eq, by omega, by omega⟩
  | case5 => simp at found

theorem apart (ordered : segments.Pairwise (·.loweredHi ≤ ·.loweredLo)) {i j : Nat}
    {first second : ByteSegment} (atFirst : segments[i]? = some first)
    (atSecond : segments[j]? = some second) (lt : i < j) :
    first.loweredHi ≤ second.loweredLo := by
  obtain ⟨_, rfl⟩ := List.getElem?_eq_some_iff.mp atFirst
  obtain ⟨_, rfl⟩ := List.getElem?_eq_some_iff.mp atSecond
  exact pairwise_iff_getElem.mp ordered i j _ _ lt

/-- Segments stand in order, so the half that is given up does not hold the offset. -/
theorem search_complete (ordered : segments.Pairwise (·.loweredHi ≤ ·.loweredLo))
    (fit : ∀ segment ∈ segments, segment.Fits) {lo hi index : Nat} {segment : ByteSegment}
    (found : segments[index]? = some segment) (least : lo ≤ index) (below : index < hi)
    (most : hi ≤ segments.length)
    (start : segment.loweredLo ≤ offset) (stop : offset < segment.loweredHi) :
    (search segments offset lo hi).isSome := by
  fun_induction search segments offset lo hi with
  | case1 lo hi more none =>
    rw [getElem?_eq_none_iff] at none
    omega
  | case2 lo hi more middle eq left ih =>
    refine ih least ?_ (by omega)
    by_contra beyond
    rcases Nat.lt_or_eq_of_le (Nat.le_of_not_lt beyond) with lt | same
    · have := apart ordered eq found lt
      have := (fit middle (mem_of_getElem? eq)).le
      omega
    · rw [same, found] at eq
      obtain rfl := Option.some.inj eq
      omega
  | case3 lo hi more middle eq left right ih =>
    refine ih ?_ below most
    by_contra before
    rcases Nat.lt_or_eq_of_le (Nat.le_of_not_lt before) with lt | same
    · have := apart ordered found eq (by omega)
      omega
    · obtain rfl : index = (lo + hi) / 2 := by omega
      rw [found] at eq
      obtain rfl := Option.some.inj eq
      omega
  | case4 => rfl
  | case5 => omega

/-- An offset of the lowered text is mapped to the place of its byte. -/
theorem mapOffset_origin (covers : Covers segments places) (inside : offset < places.length) :
    mapOffset segments offset = places[offset]? := by
  obtain ⟨segment, mem, lo, hi⟩ := covers.exists_segment inside
  obtain ⟨index, found⟩ := mem_iff_getElem?.mp mem
  have within : index < segments.length := (List.getElem?_eq_some_iff.mp found).1
  have isSome := search_complete covers.ordered (fun segment mem => (covers.hi_le segment mem).1)
    found (Nat.zero_le _) within (Nat.le_refl _) lo hi
  obtain ⟨result, eq⟩ := Option.isSome_iff_exists.mp isSome
  obtain ⟨memResult, loResult, hiResult⟩ := search_sound eq
  rw [mapOffset, eq, covers.place result memResult loResult hiResult]

theorem mapOffset_past (covers : Covers segments places) (beyond : places.length ≤ offset) :
    mapOffset segments offset = segments.getLast?.map (·.past offset) := by
  have none : search segments offset 0 segments.length = none := by
    rw [Option.eq_none_iff_forall_ne_some]
    intro segment found
    obtain ⟨mem, lo, hi⟩ := search_sound found
    have := (covers.hi_le segment mem).2
    omega
  rw [mapOffset, none]

theorem mapSpan_of_mapOffset {lo hi place place' : Nat} (originalId loweredId : SourceId)
    (mapped : mapOffset segments lo = some place) (mapped' : mapOffset segments hi = some place')
    (le : place ≤ place') :
    mapSpan segments originalId ⟨loweredId, lo, hi⟩ loweredId =
      some ⟨originalId, place, place'⟩ := by
  simp [mapSpan, mapped, mapped', Span.new, le]

/-! ## What the builder keeps -/

/-- The mapping of a builder gives its text the given places and ends at its cursor. -/
structure Describes (builder : LoweringBuilder) (places : List Nat) : Prop where
  covers : Covers builder.mapping places
  length : builder.lowered.length = places.length
  last : ∀ segment ∈ builder.mapping.getLast?, segment.originalEnd = builder.originalCursor

theorem Covers.pushCopy {start stop : Nat} (covers : Covers segments places)
    (ordered : start ≤ stop) :
    Covers (pushCopy segments places.length (places.length + (stop - start)) start stop)
      (places ++ range' start (stop - start)) := by
  have snoc : Covers
      (segments ++ [.copy places.length (places.length + (stop - start)) start stop])
      (places ++ ByteSegment.places
        (.copy places.length (places.length + (stop - start)) start stop)) :=
    covers.snoc rfl ⟨by omega, by omega⟩
  rw [ByteSegment.places, Nat.add_sub_cancel_left] at snoc
  unfold SourceMap.pushCopy
  split
  · next lo prevHi original prevOriginalHi last =>
      split
      · next joined =>
          obtain ⟨rfl, rfl⟩ := joined
          obtain ⟨init, rfl⟩ := getLast?_eq_some_iff.mp last
          obtain ⟨first, before, starts, ⟨le, fits⟩, eq⟩ := covers.of_snoc
          have longer : Covers
              (init ++ [.copy lo (places.length + (stop - prevOriginalHi)) original stop])
              (first ++ ByteSegment.places
                (.copy lo (places.length + (stop - prevOriginalHi)) original stop)) :=
            before.snoc starts ⟨by omega, by omega⟩
          have split : places.length + (stop - prevOriginalHi) - lo =
              (places.length - lo) + (stop - prevOriginalHi) := by omega
          rw [ByteSegment.places, split, ← range'_append_1, fits, ← append_assoc] at longer
          rw [dropLast_concat]
          nth_rewrite 2 [eq]
          exact longer
      · exact snoc
  · exact snoc

/-- Both ways of `push_copy` end with the segment that ends where the copy does. -/
theorem originalEnd_pushCopy {loweredLo loweredHi start stop : Nat} :
    ∀ segment ∈ (pushCopy segments loweredLo loweredHi start stop).getLast?,
      segment.originalEnd = stop := by
  unfold pushCopy
  split
  · split <;> simp [ByteSegment.originalEnd]
  · simp [ByteSegment.originalEnd]

theorem Covers.pushInserted (covers : Covers segments places) (count originalAt : Nat) :
    Covers (pushInserted segments places.length (places.length + count) originalAt)
      (places ++ replicate count originalAt) := by
  have snoc : Covers (segments ++ [.inserted places.length (places.length + count) originalAt])
      (places ++ ByteSegment.places
        (.inserted places.length (places.length + count) originalAt)) :=
    covers.snoc rfl (Nat.le_add_right _ _)
  rwa [ByteSegment.places, Nat.add_sub_cancel_left] at snoc

variable {builder : LoweringBuilder} {step : LoweringStep}

/-- What a run makes of the other fields of a builder. -/
theorem run_fields (builder : LoweringBuilder) (steps : List LoweringStep) :
    (steps.foldl LoweringBuilder.apply builder).original = builder.original ∧
      (steps.foldl LoweringBuilder.apply builder).originalCursor =
        cursorAfter builder.originalCursor steps ∧
      (steps.foldl LoweringBuilder.apply builder).lowered =
        builder.lowered ++ steps.flatMap (·.text builder.original) := by
  induction steps generalizing builder with
  | nil => simp [cursorAfter]
  | cons step steps ih =>
    obtain ⟨original, cursor, lowered⟩ := ih (builder.apply step)
    rw [foldl_cons, original, cursor, lowered, flatMap_cons, ← append_assoc]
    cases step <;> exact ⟨rfl, rfl, rfl⟩

/-- One step adds the places of its own text. -/
theorem Describes.apply (describes : Describes builder places)
    (follows : step.Follows builder.original.length builder.originalCursor) :
    Describes (builder.apply step) (places ++ step.places builder.originalCursor) := by
  have made := follows.length_text
  cases step with
  | copyRange start stop =>
    simp only [LoweringStep.text, LoweringStep.length] at made
    simp only [LoweringBuilder.apply, LoweringBuilder.copyRange, LoweringStep.places]
    constructor
    · simp only [length_append, made, describes.length]
      exact describes.covers.pushCopy follows.2.1
    · simp only [length_append, made, describes.length, length_range']
    · exact originalEnd_pushCopy
  | insert text =>
    simp only [LoweringBuilder.apply, LoweringBuilder.insert, LoweringStep.places]
    constructor
    · simp only [length_append, describes.length]
      exact describes.covers.pushInserted _ _
    · simp only [length_append, describes.length, length_replicate]
    · simp [SourceMap.pushInserted, ByteSegment.originalEnd]

/-- **The mapping of a builder describes the places of all steps taken so far.** -/
theorem Describes.run (describes : Describes builder places)
    (ordered : InOrder builder.original.length builder.originalCursor steps) :
    Describes (steps.foldl LoweringBuilder.apply builder)
      (places ++ origins builder.originalCursor steps) := by
  induction steps generalizing builder places with
  | nil => simpa [origins] using describes
  | cons step steps ih =>
    obtain ⟨original, cursor, -⟩ := run_fields builder [step]
    rw [foldl_cons, foldl_nil] at original cursor
    have next := ih (describes.apply ordered.1) (by rw [original, cursor]; exact ordered.2)
    rwa [cursor, append_assoc] at next

/-- The end of the text is mapped to the cursor. -/
theorem Describes.mapOffset_end (describes : Describes builder places) (ne : places ≠ []) :
    mapOffset builder.mapping places.length = some builder.originalCursor := by
  rw [mapOffset_past describes.covers (Nat.le_refl _)]
  cases eq : builder.mapping.getLast? with
  | none =>
    have within := describes.covers.exists_segment (length_pos_iff.mpr ne)
    simp [getLast?_eq_none_iff.mp eq] at within
  | some segment =>
    rw [Option.map_some, ← describes.covers.last_hi segment eq, segment.past_loweredHi,
      describes.last segment eq]

theorem Describes.cursor_le (describes : Describes builder places)
    (beyond : places.length ≤ offset) {place : Nat}
    (mapped : mapOffset builder.mapping offset = some place) : builder.originalCursor ≤ place := by
  rw [mapOffset_past describes.covers beyond] at mapped
  obtain ⟨segment, eq, rfl⟩ := Option.map_eq_some_iff.mp mapped
  rw [← describes.last segment eq]
  exact segment.originalEnd_le_past offset

/-- `finish` is one more copy. -/
theorem lower_eq (original : List UInt8) (steps : List LoweringStep) :
    lower original steps =
      (completed original.length steps).foldl LoweringBuilder.apply (.new original) := by
  obtain ⟨same, cursor, -⟩ := run_fields (.new original) steps
  rw [lower, LoweringBuilder.copyRest, same, cursor, completed]
  change (if cursorAfter 0 steps < original.length then _ else _) = _
  split
  · rw [foldl_append]
    rfl
  · rfl

theorem InOrder.completed (ordered : InOrder length 0 steps) :
    InOrder length 0 (completed length steps) ∧
      cursorAfter 0 (SourceMap.completed length steps) = length := by
  have last := ordered.cursor_le (Nat.zero_le _)
  unfold SourceMap.completed
  split
  · next more =>
      refine ⟨inOrder_append.mpr ⟨ordered, ⟨?_, trivial⟩⟩, foldl_append⟩
      exact ⟨Nat.le_refl _, last, Nat.le_refl _⟩
  · exact ⟨ordered, by omega⟩

theorem lower_describes {original : List UInt8} (ordered : InOrder original.length 0 steps) :
    Describes (lower original steps) (origins 0 (completed original.length steps)) ∧
      (lower original steps).originalCursor = original.length := by
  have start : Describes (.new original) [] := ⟨.nil, rfl, by simp [LoweringBuilder.new]⟩
  rw [lower_eq]
  exact ⟨start.run ordered.completed.1, (run_fields _ _).2.1.trans ordered.completed.2⟩

theorem mapOffset_monotone {original : List UInt8}
    (ordered : InOrder original.length 0 steps) {first second place place' : Nat}
    (le : first ≤ second)
    (mapped : mapOffset (lower original steps).mapping first = some place)
    (mapped' : mapOffset (lower original steps).mapping second = some place') :
    place ≤ place' := by
  obtain ⟨describes, cursor⟩ := lower_describes ordered
  obtain ⟨sorted, -, bounds⟩ := ordered.completed.1.origins
  by_cases before : first < (origins 0 (completed original.length steps)).length
  · rw [mapOffset_origin describes.covers before] at mapped
    by_cases within : second < (origins 0 (completed original.length steps)).length
    · rw [mapOffset_origin describes.covers within] at mapped'
      obtain ⟨_, rfl⟩ := List.getElem?_eq_some_iff.mp mapped
      obtain ⟨_, rfl⟩ := List.getElem?_eq_some_iff.mp mapped'
      rcases Nat.lt_or_eq_of_le le with lt | rfl
      · exact pairwise_iff_getElem.mp sorted first second _ _ lt
      · exact Nat.le_refl _
    · have last := describes.cursor_le (Nat.le_of_not_lt within) mapped'
      rw [cursor, ← ordered.completed.2] at last
      exact (bounds place (mem_of_getElem? mapped)).2.trans last
  · rw [mapOffset_past describes.covers (by omega)] at mapped mapped'
    obtain ⟨segment, eq, rfl⟩ := Option.map_eq_some_iff.mp mapped
    rw [eq, Option.map_some] at mapped'
    obtain rfl := Option.some.inj mapped'
    exact segment.past_mono le

section Copies

variable {original : List UInt8} {start stop : Nat}
  (ordered : InOrder original.length 0 steps)
  (copied : completed original.length steps = before ++ .copyRange start stop :: after)

include ordered copied

/-- A copied byte is mapped to its own place. -/
theorem mapOffset_copied {i : Nat} (within : i < stop - start) :
    mapOffset (lower original steps).mapping (loweredLength before + i) = some (start + i) := by
  have describes := (lower_describes ordered).1
  rw [copied, origins_append, origins, LoweringStep.places, LoweringStep.moves] at describes
  rw [mapOffset_origin describes.covers]
  · rw [← length_origins 0 before, getElem?_append_right (by omega), Nat.add_sub_cancel_left,
      getElem?_append_left (by simpa using within), getElem?_range' within, Nat.one_mul]
  · simp only [length_append, length_origins, length_range']
    omega

/-- The end of a copy is mapped to where the text goes on. -/
theorem mapOffset_copied_end (lt : start < stop) :
    mapOffset (lower original steps).mapping (loweredLength before + (stop - start)) =
      some (resumesAt stop after) := by
  obtain ⟨describes, cursor⟩ := lower_describes ordered
  have final := ordered.completed.2
  rw [copied, origins_append, origins, LoweringStep.places, LoweringStep.moves] at describes
  rw [copied, cursorAfter, foldl_append, foldl_cons] at final
  rw [← head_origins, show cursorAfter stop after = original.length from final]
  cases rest : origins stop after with
  | nil =>
    have ends := describes.mapOffset_end (by simp [rest]; omega)
    rw [cursor] at ends
    simpa [rest, length_origins] using ends
  | cons place places =>
    rw [rest] at describes
    rw [mapOffset_origin describes.covers, getElem?_append_right, getElem?_append_right] <;>
      simp [length_origins]

theorem lowered_copied {i : Nat} (within : i < stop - start) :
    (lower original steps).lowered[loweredLength before + i]? = original[start + i]? := by
  have inOrder := ordered.completed.1
  rw [copied, inOrder_append] at inOrder
  obtain ⟨first, follows, -⟩ := inOrder
  have made := follows.length_text
  rw [lower_eq, (run_fields _ _).2.2, copied]
  change ([] ++ (before ++ _).flatMap (·.text original))[_]? = _
  rw [nil_append, flatMap_append, flatMap_cons, ← first.length_text,
    getElem?_append_right (by omega), Nat.add_sub_cancel_left,
    getElem?_append_left (by rw [made]; exact within), LoweringStep.text,
    getElem?_take_of_lt within, getElem?_drop]

end Copies

/-- **What a lowered text maps back to.**  Offsets are mapped in order and each copied byte to
its own place.  A span inside one copy is mapped to the same span of the original exactly when
it ends before the copy does, or the text goes on where the copy ends. -/
theorem lowered_spans (original : List UInt8) (steps : List LoweringStep)
    (ordered : InOrder original.length 0 steps) :
    (∀ first second place place', first ≤ second →
      mapOffset (lower original steps).mapping first = some place →
        mapOffset (lower original steps).mapping second = some place' → place ≤ place') ∧
    ∀ before start stop after,
      completed original.length steps = before ++ .copyRange start stop :: after →
        (∀ i < stop - start,
          (lower original steps).lowered[loweredLength before + i]? = original[start + i]? ∧
          mapOffset (lower original steps).mapping (loweredLength before + i) =
            some (start + i)) ∧
        ∀ i j originalId loweredId, i < j → j ≤ stop - start →
          (mapSpan (lower original steps).mapping originalId
              ⟨loweredId, loweredLength before + i, loweredLength before + j⟩ loweredId =
                some ⟨originalId, start + i, start + j⟩ ↔
            j < stop - start ∨ resumesAt stop after = stop) := by
  refine ⟨fun _ _ _ _ le mapped mapped' => mapOffset_monotone ordered le mapped mapped', ?_⟩
  intro before start stop after copied
  refine ⟨fun i within => ⟨lowered_copied ordered copied within,
    mapOffset_copied ordered copied within⟩, ?_⟩
  intro i j originalId loweredId lt le
  have lo := mapOffset_copied ordered copied (Nat.lt_of_lt_of_le lt le)
  rcases Nat.lt_or_eq_of_le le with within | rfl
  · have hi := mapOffset_copied ordered copied within
    rw [mapSpan_of_mapOffset _ _ lo hi (by omega)]
    simp [within]
  · have hi := mapOffset_copied_end ordered copied (by omega)
    have inOrder := mapOffset_monotone ordered (Nat.add_le_add_left (Nat.le_of_lt lt) _) lo hi
    rw [mapSpan_of_mapOffset _ _ lo hi inOrder, show start + (stop - start) = stop by omega]
    simp

/-- Two bytes are cut out between two copies. -/
def cutSteps : List LoweringStep := [.copyRange 0 3, .copyRange 5 8]

/-- The text `let  x=1`. -/
def cutText : List UInt8 := [108, 101, 116, 32, 32, 120, 61, 49]

theorem cutSteps_inOrder : InOrder cutText.length 0 cutSteps := by
  simp [cutText, cutSteps, InOrder, LoweringStep.Follows, LoweringStep.moves]

theorem lowered_spans_cut :
    completed cutText.length cutSteps = [.copyRange 0 3] ++ .copyRange 5 8 :: [] ∧
      mapSpan (lower cutText cutSteps).mapping 0 ⟨1, 3, 6⟩ 1 = some ⟨0, 5, 8⟩ :=
  ⟨rfl, (((lowered_spans cutText cutSteps cutSteps_inOrder).2 [.copyRange 0 3] 5 8 [] rfl).2
    0 3 0 1 (by decide) (by decide)).mpr (.inr rfl)⟩

/-- The span of the first copy comes back with the bytes that were cut out behind it. -/
theorem cut_span_grows : completed cutText.length cutSteps =
      [] ++ .copyRange 0 3 :: [.copyRange 5 8] ∧
    mapSpan (lower cutText cutSteps).mapping 0 ⟨1, 0, 3⟩ 1 = some ⟨0, 0, 5⟩ := by
  have copied : completed cutText.length cutSteps = [] ++ .copyRange 0 3 :: [.copyRange 5 8] := rfl
  have lo := mapOffset_copied cutSteps_inOrder copied (show 0 < 3 - 0 by decide)
  have hi := mapOffset_copied_end cutSteps_inOrder copied (by decide)
  exact ⟨copied, mapSpan_of_mapOffset 0 1 lo hi (by decide)⟩

end RustScript.Compiler.SourceMap
