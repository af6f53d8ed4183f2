import Mathlib

/-!
# The cache of regular expressions

The cache keeps compiled patterns in a map, and their names in a queue with the
least recently requested one in front.  A hit moves its pattern to the end of the
queue; a miss makes room for one more entry, and a smaller capacity for as many as
it takes, by dropping patterns from the front.

Along every sequence of calls map and queue hold the same patterns, the map stays
within the capacity, and patterns are dropped in the order of their last requests
(`cache_is_lru`).  What compiles a pattern is a parameter.
-/

namespace RustScript.Builtins

variable {R ε : Type}

/-- The entries are a map, with one entry for a pattern. -/
structure RegexCache (R : Type) where
  capacity : Nat
  entries : List (String × R)
  recency : List String
  compileCount : Nat
  hitCount : Nat

namespace RegexCache

def withCapacity (capacity : Nat) : RegexCache R := ⟨capacity, [], [], 0, 0⟩

def saturatingSucc (count : Nat) : Nat := min (count + 1) (2 ^ 64 - 1)

/-- Drop the oldest pattern as long as there are too many entries. -/
def evict (tooMany : Nat → Bool) : List String → List (String × R) → List String × List (String × R)
  | [], entries => ([], entries)
  | oldest :: recency, entries =>
    if tooMany entries.length then evict tooMany recency (entries.filter (·.1 ≠ oldest))
    else (oldest :: recency, entries)

def touch (cache : RegexCache R) (pattern : String) : RegexCache R :=
  { cache with recency := cache.recency.erase pattern ++ [pattern] }

def getOrCompile (compile : String → Except ε R) (pattern : String) (cache : RegexCache R) :
    Except ε R × RegexCache R :=
  match cache.entries.lookup pattern with
  | some regex =>
    (.ok regex, { cache with hitCount := saturatingSucc cache.hitCount }.touch pattern)
  | none =>
    match compile pattern with
    | .error error => (.error error, cache)
    | .ok regex =>
      let cache := { cache with compileCount := saturatingSucc cache.compileCount }
      if cache.capacity = 0 then (.ok regex, cache)
      else
        let (recency, entries) := evict (cache.capacity ≤ ·) cache.recency cache.entries
        (.ok regex, { cache with
          entries := (pattern, regex) :: entries, recency := recency ++ [pattern] })

def setCapacity (capacity : Nat) (cache : RegexCache R) : RegexCache R :=
  let (recency, entries) := evict (capacity < ·) cache.recency cache.entries
  { cache with
    capacity
    -- The loop ends with too many entries only if the queue is empty.
    entries := if capacity < entries.length then [] else entries
    recency := if capacity = 0 then [] else recency }

end RegexCache

/-! ## Sequences of calls -/

inductive CacheCall where
  | getOrCompile (pattern : String)
  | setCapacity (capacity : Nat)

variable (compile : String → Except ε R)

def CacheCall.apply : CacheCall → RegexCache R → RegexCache R
  | .getOrCompile pattern, cache => (cache.getOrCompile compile pattern).2
  | .setCapacity capacity, cache => cache.setCapacity capacity

/-- The cache after some calls, the last one first. -/
def afterCalls (capacity : Nat) (calls : List CacheCall) : RegexCache R :=
  calls.foldr (CacheCall.apply compile) (.withCapacity capacity)

/-- The number of the last call that requested a pattern. -/
def lastRequest : List CacheCall → String → Nat
  | [], _ => 0
  | .getOrCompile requested :: calls, pattern =>
    if pattern = requested then calls.length + 1 else lastRequest calls pattern
  | .setCapacity _ :: calls, pattern => lastRequest calls pattern

/-- Patterns from the least to the most recently requested one. -/
def InOrder (calls : List CacheCall) (patterns : List String) : Prop :=
  patterns.Pairwise fun p q => lastRequest calls p < lastRequest calls q

/-- Map and queue agree, within the capacity and in the order of the last requests. -/
structure Lru (calls : List CacheCall) (cache : RegexCache R) : Prop where
  same : cache.recency.Perm (cache.entries.map (·.1))
  bounded : cache.entries.length ≤ cache.capacity
  inOrder : InOrder calls cache.recency
  compiled : ∀ entry ∈ cache.entries, compile entry.1 = .ok entry.2

open RegexCache List

variable {compile} {calls : List CacheCall} {cache : RegexCache R} {pattern : String}

theorem lastRequest_le : lastRequest calls pattern ≤ calls.length := by
  induction calls with
  | nil => exact Nat.le_refl _
  | cons call calls ih =>
    cases call with
    | getOrCompile requested =>
      rw [lastRequest]
      split
      · exact Nat.le_refl _
      · exact Nat.le_succ_of_le ih
    | setCapacity => exact Nat.le_succ_of_le ih

/-- The queue keeps its end, and the map the same patterns. -/
theorem evict_keeps (tooMany : Nat → Bool) {recency : List String} {entries : List (String × R)}
    (same : recency.Perm (entries.map (·.1))) (nodup : recency.Nodup) :
    ∃ evicted kept left, evict tooMany recency entries = (kept, left) ∧
      recency = evicted ++ kept ∧ kept.Perm (left.map (·.1)) ∧
      (∀ entry ∈ left, entry ∈ entries) ∧ (left = [] ∨ tooMany left.length = false) ∧
      (evicted = [] ∨ tooMany (left.length + 1) = true) := by
  induction recency generalizing entries with
  | nil =>
    have none := map_eq_nil_iff.mp (nil_perm.mp same)
    exact ⟨[], [], entries, rfl, rfl, same, fun _ => id, .inl none, .inl rfl⟩
  | cons oldest recency ih =>
    rw [evict]
    by_cases full : tooMany entries.length
    · have rest := same.filter (· ≠ oldest)
      rw [filter_cons_of_neg (by simp), filter_map, filter_eq_self.mpr] at rest
      · obtain ⟨evicted, kept, left, evict, split, same', old, room, last⟩ := ih rest nodup.of_cons
        rw [if_pos full]
        refine ⟨oldest :: evicted, kept, left, evict, congrArg _ split, same',
          fun entry mem => mem_of_mem_filter (old entry mem), room, .inr ?_⟩
        rcases last with rfl | last
        · have whole := same.length_eq
          have part := same'.length_eq
          rw [length_map, length_cons] at whole
          rw [length_map] at part
          rw [← part, ← nil_append kept, ← split, whole]
          exact full
        · exact last
      · rintro p mem
        simpa using ne_of_mem_of_not_mem mem (nodup_cons.mp nodup).1
    · rw [if_neg full]
      exact ⟨[], _, _, rfl, rfl, same, fun _ => id, .inr (by simpa using full), .inl rfl⟩

theorem InOrder.nodup {patterns : List String} (h : InOrder calls patterns) : patterns.Nodup :=
  h.imp fun less same => by simp [same] at less

section

variable (lru : Lru compile calls cache)

include lru

theorem Lru.mem_iff : pattern ∈ cache.recency ↔ (cache.entries.lookup pattern).isSome := by
  rw [lru.same.mem_iff, lookup_isSome_iff, mem_map]
  exact exists_congr fun entry => and_congr_right fun _ => beq_iff_eq.symm.trans (by rw [BEq.comm])

/-- A requested pattern goes behind the others. -/
theorem Lru.request {part : List String} (sub : part.Sublist cache.recency)
    (other : pattern ∉ part) : InOrder (.getOrCompile pattern :: calls) (part ++ [pattern]) := by
  refine pairwise_append.mpr ⟨(lru.inOrder.sublist sub).imp_of_mem ?_, pairwise_singleton .., ?_⟩
  · intro p q left right less
    simpa [lastRequest, ne_of_mem_of_not_mem left other, ne_of_mem_of_not_mem right other]
  · intro p left q right
    rw [mem_singleton.mp right]
    simpa [lastRequest, ne_of_mem_of_not_mem left other] using Nat.lt_succ_of_le lastRequest_le

/-- A call keeps the invariant; what leaves the queue was requested before what stays, and it
leaves a full map. -/
theorem Lru.step (call : CacheCall) :
    ∃ evicted, Lru compile (call :: calls) (call.apply compile cache) ∧
      InOrder (call :: calls) (evicted ++ (call.apply compile cache).recency) ∧
      (∀ p ∈ cache.recency, p ∈ evicted ∨ p ∈ (call.apply compile cache).recency) ∧
      (evicted = [] ∨
        (call.apply compile cache).entries.length = (call.apply compile cache).capacity) := by
  cases call with
  | getOrCompile pattern =>
    simp only [CacheCall.apply, getOrCompile]
    cases found : cache.entries.lookup pattern with
    | some regex =>
      have cached : pattern ∈ cache.recency := by simp [lru.mem_iff, found]
      have ordered := lru.request (erase_sublist (a := pattern)) lru.inOrder.nodup.not_mem_erase
      have moved : (cache.recency.erase pattern ++ [pattern]).Perm cache.recency :=
        perm_append_singleton .. |>.trans (perm_cons_erase cached).symm
      exact ⟨[], ⟨moved.trans lru.same, lru.bounded, ordered, lru.compiled⟩, ordered,
        fun p mem => .inr (moved.mem_iff.mpr mem), .inl rfl⟩
    | none =>
      have missing : pattern ∉ cache.recency := by simp [lru.mem_iff, found]
      have ordered := lru.request (.refl _) missing
      have old := (pairwise_append.mp ordered).1
      cases compiles : compile pattern with
      | error error =>
        exact ⟨[], ⟨lru.same, lru.bounded, old, lru.compiled⟩, old, fun _ => .inr, .inl rfl⟩
      | ok regex =>
        by_cases off : cache.capacity = 0
        · simp only [if_pos off]
          exact ⟨[], ⟨lru.same, lru.bounded, old, lru.compiled⟩, old, fun _ => .inr, .inl rfl⟩
        · obtain ⟨evicted, kept, entries, evict, recency, same, old, room, last⟩ :=
            evict_keeps (decide <| cache.capacity ≤ ·) lru.same lru.inOrder.nodup
          rw [recency, append_assoc] at ordered
          have small : entries.length + 1 ≤ cache.capacity := by
            rcases room with rfl | room
            · exact Nat.pos_of_ne_zero off
            · exact of_decide_eq_false room |> Nat.lt_of_not_le
          simp only [if_neg off, evict]
          refine ⟨evicted, ⟨?_, small, (pairwise_append.mp ordered).2.1, ?_⟩, ordered, ?_,
            last.imp_right fun full => small.antisymm (of_decide_eq_true full)⟩
          · exact (perm_append_singleton ..).trans (same.cons pattern)
          · rintro entry (_ | ⟨_, mem⟩)
            · exact compiles
            · exact lru.compiled entry (old entry mem)
          · rw [recency]
            simp only [mem_append]
            tauto
  | setCapacity capacity =>
    obtain ⟨evicted, kept, entries, evict, recency, same, old, room, last⟩ :=
      evict_keeps (decide <| capacity < ·) lru.same lru.inOrder.nodup
    have ordered : InOrder (.setCapacity capacity :: calls) (evicted ++ kept) :=
      recency ▸ lru.inOrder
    have small : entries.length ≤ capacity := by
      rcases room with rfl | room
      · exact Nat.zero_le _
      · simpa using room
    simp only [CacheCall.apply, setCapacity, evict, if_neg (Nat.not_lt.mpr small)]
    by_cases off : capacity = 0
    · have none : entries = [] := length_eq_zero_iff.mp (Nat.le_zero.mp (off ▸ small))
      simp only [none, if_pos off]
      rw [← recency] at ordered
      exact ⟨cache.recency, ⟨.refl _, Nat.zero_le _, .nil, nofun⟩, by simpa using ordered,
        fun _ => .inl, .inr off.symm⟩
    · simp only [if_neg off]
      refine ⟨evicted, ⟨same, small, (pairwise_append.mp ordered).2.1, ?_⟩, ordered, ?_,
        last.imp_right fun full => small.antisymm (Nat.lt_succ_iff.mp (of_decide_eq_true full))⟩
      · exact fun entry mem => lru.compiled entry (old entry mem)
      · simp [recency]

end

theorem afterCalls_lru (capacity : Nat) :
    Lru compile calls (afterCalls compile capacity calls) := by
  induction calls with
  | nil => exact ⟨.refl _, Nat.zero_le _, .nil, nofun⟩
  | cons call calls ih =>
    obtain ⟨_, lru, _⟩ := ih.step call
    exact lru

/-- What is promised of a cache after some calls, the last one first. -/
structure Promises (compile : String → Except ε R) (calls : List CacheCall)
    (cache : RegexCache R) : Prop where
  nodup : cache.recency.Nodup
  same : cache.recency.Perm (cache.entries.map (·.1))
  bounded : cache.entries.length ≤ cache.capacity
  /-- The next call drops only patterns that were requested before all that it keeps. -/
  oldest : ∀ call : CacheCall, ∀ p ∈ cache.recency, ∀ q ∈ (call.apply compile cache).recency,
    p ∉ (call.apply compile cache).recency →
      lastRequest (call :: calls) p < lastRequest (call :: calls) q
  /-- And it drops one only for want of room. -/
  room : ∀ call : CacheCall, ∀ p ∈ cache.recency, p ∉ (call.apply compile cache).recency →
    (call.apply compile cache).entries.length = (call.apply compile cache).capacity
  failed : ∀ pattern error, (cache.getOrCompile compile pattern).1 = .error error →
    (cache.getOrCompile compile pattern).2 = cache
  compiled : ∀ pattern regex, (cache.getOrCompile compile pattern).1 = .ok regex →
    compile pattern = .ok regex
  cached : ∀ pattern regex, cache.capacity ≠ 0 →
    (cache.getOrCompile compile pattern).1 = .ok regex →
      (cache.getOrCompile compile pattern).2.entries.lookup pattern = some regex

/-- **The cache is an LRU cache.**  After any calls, queue and map hold the same patterns, each
once and within the capacity; the next call drops only patterns that were requested before all
that it keeps, and none while there is room; a failed compilation changes nothing, and a successful
call returns what its pattern compiles to and keeps it, unless the capacity is zero. -/
theorem cache_is_lru (compile : String → Except ε R) (capacity : Nat) (calls : List CacheCall) :
    Promises compile calls (afterCalls compile capacity calls) := by
  have lru : Lru compile calls (afterCalls compile capacity calls) := afterCalls_lru capacity
  generalize afterCalls compile capacity calls = cache at lru
  refine ⟨lru.inOrder.nodup, lru.same, lru.bounded, ?_, ?_, ?_, ?_, ?_⟩
  · intro call p mem q kept gone
    obtain ⟨evicted, -, ordered, left, -⟩ := lru.step call
    exact (pairwise_append.mp ordered).2.2 p ((left p mem).resolve_right gone) q kept
  · intro call p mem gone
    obtain ⟨evicted, -, -, left, full⟩ := lru.step call
    exact full.resolve_left (ne_nil_of_mem ((left p mem).resolve_right gone))
  · intro pattern error fails
    revert fails
    grind [getOrCompile]
  · intro pattern regex returns
    cases found : cache.entries.lookup pattern with
    | some cached =>
      obtain ⟨before, after, same, -⟩ := lookup_eq_some_iff.mp found
      have compiled := lru.compiled (pattern, cached) (by simp [same])
      simp only [getOrCompile, found] at returns
      exact compiled.trans returns
    | none =>
      revert returns
      grind [getOrCompile]
  · intro pattern regex some returns
    revert returns
    grind [getOrCompile, touch, lookup]

end RustScript.Builtins
