import RustScript.Lib.Transducer
import RustScript.Lib.Utf8
import RustScript.Vm.Value

/-!
# Server-sent events

The parser of an event stream takes a response body byte by byte and keeps a byte-order mark that
is not decided yet, the current line and the fields of the current event.  The worker gives it the
frames of the body as they come, and hands on an event as soon as the parser has one.

How the body is cut into frames does not matter, and the buffers stay within their limits
(`sse_chunking`).
-/

namespace RustScript.Http

open Wp Transducer
open Vm (VmError)

/-! ## The parser -/

structure SseEvent where
  event : Option String
  data : String
  id : Option String
  retryMs : Option Int
  deriving DecidableEq, Repr

/-- What the parser keeps between two bytes. -/
structure SseBuffer where
  maxLineBytes : UInt64
  maxItemBytes : UInt64
  prefixBytes : List UInt8
  bomDecided : Bool
  line : List UInt8
  afterCr : Bool
  data : String
  hasData : Bool
  event : Option String
  id : Option String
  retryMs : Option Int
  finished : Bool

/-- The parser counts the bytes of the whole stream besides. -/
structure SseParser extends SseBuffer where
  maxTotalBytes : UInt64
  totalBytes : Nat

def SseParser.new (maxLineBytes maxItemBytes maxTotalBytes : UInt64) : SseParser where
  maxLineBytes := maxLineBytes
  maxItemBytes := maxItemBytes
  maxTotalBytes := maxTotalBytes
  totalBytes := 0
  prefixBytes := []
  bomDecided := false
  line := []
  afterCr := false
  data := ""
  hasData := false
  event := none
  id := none
  retryMs := none
  finished := false

abbrev SseM := EStateM VmError SseBuffer

def checkedAdd (a b : Nat) : Option Nat := if a + b < 2 ^ 64 then some (a + b) else none

def itemLimitError : VmError := .hostError "SSE item exceeds byte limit"

def textBytes (text : Option String) : Nat := (text.map String.utf8ByteSize).getD 0

def ensureItemSize (dataBytes : Nat) (event id : Option String) : SseM Unit := do
  let size ← expect (do checkedAdd (← checkedAdd dataBytes (textBytes event)) (textBytes id))
    itemLimitError
  require (size ≤ (← get).maxItemBytes.toNat) itemLimitError

def ensureItemGrowth (added : Nat) (event id : Option String) : SseM Unit := do
  let dataBytes ← expect (checkedAdd (← get).data.utf8ByteSize added) itemLimitError
  ensureItemSize dataBytes event id

def dispatchEvent : SseM SseEvent := do
  let s ← get
  set { s with data := "", hasData := false, event := none }
  return ⟨s.event, s.data, s.id, s.retryMs⟩

/-- The field and the value of a line. -/
def splitField (line : List Char) : List Char × List Char :=
  let value := (line.dropWhile (· != ':')).drop 1
  (line.takeWhile (· != ':'), if value.head? = some ' ' then value.drop 1 else value)

/-- `parse::<i64>` of decimal digits. -/
def parseRetry (digits : List Char) : Option Int :=
  let value := digits.foldl (fun value digit => 10 * value + (digit.toNat - '0'.toNat)) 0
  if value < 2 ^ 63 then some value else none

def processField (field value : List Char) : SseM Unit := do
  let s ← get
  let text := String.ofList value
  if field = "data".toList then do
    ensureItemGrowth (text.utf8ByteSize + s.hasData.toNat) s.event s.id
    set { s with
      data := (if s.hasData then s.data ++ "\n" else s.data) ++ text
      hasData := true }
  else if field = "event".toList then do
    ensureItemSize s.data.utf8ByteSize (some text) s.id
    set { s with event := some text }
  else if field = "id".toList ∧ '\x00' ∉ value then do
    ensureItemSize s.data.utf8ByteSize s.event (some text)
    set { s with id := some text }
  else if field = "retry".toList ∧ value ≠ [] ∧ value.all Char.isDigit then
    match parseRetry value with
    | some retry => set { s with retryMs := some retry }
    | none => return ()
  else return ()

def processLine : SseM (Option SseEvent) := do
  let s ← get
  set { s with line := [] }
  let line ← expect (ByteCodec.ofUtf8 s.line) (.hostError "SSE stream contains malformed UTF-8")
  if line.toList = [] then
    if s.hasData then return some (← dispatchEvent)
    else do
      modify fun s => { s with event := none }
      return none
  else if line.toList.head? = some ':' then return none
  else do
    processField (splitField line.toList).1 (splitField line.toList).2
    return none

def carriageReturn : UInt8 := 13
def lineFeed : UInt8 := 10

def processByte (byte : UInt8) : SseM (Option SseEvent) := do
  let s ← get
  set { s with afterCr := false }
  if s.afterCr ∧ byte = lineFeed then return none
  else if byte = carriageReturn then do
    let event ← processLine
    modify fun s => { s with afterCr := true }
    return event
  else if byte = lineFeed then processLine
  else do
    require (s.line.length ≠ s.maxLineBytes.toNat) (.hostError "SSE line exceeds byte limit")
    modify fun s => { s with line := s.line ++ [byte] }
    return none

/-- The byte-order mark. -/
def bom : List UInt8 := [0xef, 0xbb, 0xbf]

/-- Bytes that were held back; the first event ends the loop. -/
def processHeld : List UInt8 → SseM (Option SseEvent)
  | [] => return none
  | byte :: bytes => do
      match ← processByte byte with
      | some event => return some event
      | none => processHeld bytes

/-- One byte of `push_until_event`. -/
def pushByte (byte : UInt8) : SseM (Option SseEvent) := do
  let s ← get
  if s.bomDecided then processByte byte
  else
    let held := s.prefixBytes ++ [byte]
    if held = bom then do
      set { s with prefixBytes := [], bomDecided := true }
      return none
    else if held.isPrefixOf bom then do
      set { s with prefixBytes := held }
      return none
    else do
      set { s with prefixBytes := [], bomDecided := true }
      processHeld held

def pushUntilEvent (bytes : List UInt8) : SseM (Nat × Option SseEvent) := do
  if (← get).finished then throw (.hostError "SSE parser received bytes after EOF")
  else untilOutput pushByte bytes 0

/-- Held bytes at the end; every event is collected. -/
def finishHeld : List UInt8 → SseM (List SseEvent)
  | [] => return []
  | byte :: bytes => do
      let event ← processByte byte
      return event.toList ++ (← finishHeld bytes)

/-- A last line without its end. -/
def finishLine : SseM (Option SseEvent) := do
  if (← get).line = [] then return none else processLine

def finish : SseM (List SseEvent) := do
  let s ← get
  if s.finished then return []
  else do
    set { s with finished := true, prefixBytes := [] }
    let events ← finishHeld s.prefixBytes
    let last ← finishLine
    modify fun s => { s with data := "", hasData := false, event := none }
    return events ++ last.toList

/-! ## The worker -/

/-- The parser of a stream, and the events that were published. -/
structure SseWorker where
  parser : SseParser
  published : List SseEvent

abbrev WorkerM := EStateM VmError SseWorker

def SseWorker.new (maxLineBytes maxItemBytes maxTotalBytes : UInt64) : SseWorker :=
  ⟨.new maxLineBytes maxItemBytes maxTotalBytes, []⟩

def SseWorker.buffer (worker : SseWorker) : SseBuffer := worker.parser.toSseBuffer

def admitChunk (bytes : Nat) : WorkerM Unit := do
  let worker ← get
  let total ← expect ((checkedAdd worker.parser.totalBytes bytes).filter
    (· ≤ worker.parser.maxTotalBytes.toNat)) (.hostError "SSE stream exceeds total byte limit")
  set { worker with parser := { worker.parser with totalBytes := total } }

/-- The buffer of the parser and the published events. -/
def onBuffer {α : Type} (x : EStateM VmError (SseBuffer × List SseEvent) α) : WorkerM α :=
  zoom (fun worker => (worker.buffer, worker.published))
    (fun worker s => ⟨{ worker.parser with toSseBuffer := s.1 }, s.2⟩) x

/-- A frame of the body: its events are published one by one.  A round takes at least a byte. -/
def feedChunk (data : List UInt8) : WorkerM Unit := do
  admitChunk data.length
  onBuffer (drain pushUntilEvent data data.length 0)

/-- The body of `stream_lifecycle`: the frames, and the end.  The events of `finish` are returned;
the worker drops them. -/
def streamBody (chunks : List (List UInt8)) : WorkerM (List SseEvent) := do
  chunks.forM feedChunk
  zoom SseWorker.buffer (fun worker s => { worker with
    parser := { worker.parser with toSseBuffer := s } }) finish

/-! ## The limits -/

/-- The bytes of the data, the event name and the id. -/
def SseBuffer.itemBytes (b : SseBuffer) : Nat :=
  b.data.utf8ByteSize + textBytes b.event + textBytes b.id

/-- The limits are the given ones, and the buffers are within them. -/
structure Bounded (maxLineBytes maxItemBytes : UInt64) (finished : Bool) (b : SseBuffer) :
    Prop where
  maxLine : b.maxLineBytes = maxLineBytes
  maxItem : b.maxItemBytes = maxItemBytes
  line : b.line.length ≤ maxLineBytes.toNat
  item : b.itemBytes ≤ maxItemBytes.toNat
  finished : b.finished = finished

section Limits

variable {maxLineBytes maxItemBytes : UInt64} {finished : Bool} {b : SseBuffer}

/-- A computation keeps the limits, also by failing. -/
abbrev KeepsBounds {α : Type} (maxLineBytes maxItemBytes : UInt64) (finished : Bool) (x : SseM α)
    (b : SseBuffer) : Prop :=
  wp x (fun _ => Bounded maxLineBytes maxItemBytes finished)
    (fun _ => Bounded maxLineBytes maxItemBytes finished) b

theorem checkedAdd_eq_some {a c sum : Nat} (added : checkedAdd a c = some sum) : sum = a + c := by
  unfold checkedAdd at added
  split at added
  · exact (Option.some.inj added).symm
  · cases added

variable {event id : Option String}

/-- The check of the item limit. -/
theorem ensureItemSize_wp {dataBytes : Nat} : wp (ensureItemSize dataBytes event id)
      (fun _ b' => b' = b ∧ dataBytes + textBytes event + textBytes id ≤ b.maxItemBytes.toNat)
      (fun _ b' => b' = b) b := by
  unfold ensureItemSize
  rw [wp_bind, wp_expect]
  refine ⟨fun size summed => ?_, fun _ => rfl⟩
  obtain ⟨partial_, first, second⟩ := Option.bind_eq_some_iff.mp summed
  rw [wp_bind, wp_get, wp_require]
  refine ⟨fun fits => ⟨rfl, ?_⟩, fun _ => rfl⟩
  rw [← checkedAdd_eq_some first, ← checkedAdd_eq_some second]
  exact fits

theorem ensureItemGrowth_wp {added : Nat} : wp (ensureItemGrowth added event id)
      (fun _ b' => b' = b ∧ b.data.utf8ByteSize + added + textBytes event + textBytes id ≤
        b.maxItemBytes.toNat)
      (fun _ b' => b' = b) b := by
  unfold ensureItemGrowth
  rw [wp_bind, wp_get, wp_bind, wp_expect]
  refine ⟨fun dataBytes summed => ?_, fun _ => rfl⟩
  rw [← checkedAdd_eq_some summed]
  exact ensureItemSize_wp

section

variable (bounded : Bounded maxLineBytes maxItemBytes finished b)
include bounded

theorem processField_keeps {field value : List Char} :
    KeepsBounds maxLineBytes maxItemBytes finished (processField field value) b := by
  unfold processField
  rw [KeepsBounds, wp_bind, wp_get]
  simp only [wp_ite]
  refine ⟨fun _ => ?_, fun _ => ⟨fun _ => ?_, fun _ => ⟨fun _ => ?_, fun _ => ⟨fun _ => ?_, ?_⟩⟩⟩⟩
  · rw [wp_bind]
    apply wp_mono ensureItemGrowth_wp
    · rintro _ b ⟨rfl, fits⟩
      rw [bounded.maxItem] at fits
      refine { bounded with item := le_trans (le_of_eq ?_) fits }
      unfold SseBuffer.itemBytes
      cases b.hasData with
      | false => simp
      | true =>
        have newline : "\n".utf8ByteSize = 1 := by decide
        simp only [if_true, String.utf8ByteSize_append, Bool.toNat_true]
        omega
    · rintro _ _ rfl
      exact bounded
  iterate 2
    rw [wp_bind]
    apply wp_mono ensureItemSize_wp
    · rintro _ _ ⟨rfl, fits⟩
      rw [bounded.maxItem] at fits
      exact { bounded with item := fits }
    · rintro _ _ rfl
      exact bounded
  · cases parseRetry value with
    | none => exact bounded
    | some retry => exact { bounded with }
  · intro _
    exact bounded

theorem dispatchEvent_keeps : KeepsBounds maxLineBytes maxItemBytes finished dispatchEvent b := by
  refine { bounded with item := le_trans ?_ bounded.item }
  have empty : "".utf8ByteSize = 0 := by decide
  unfold SseBuffer.itemBytes
  simp only [textBytes, Option.map_none, Option.getD_none]
  omega

/-- The fields that a blank line clears. -/
theorem Bounded.clearEvent :
    Bounded maxLineBytes maxItemBytes finished { b with event := none } := by
  refine { bounded with item := le_trans ?_ bounded.item }
  unfold SseBuffer.itemBytes
  simp only [textBytes, Option.map_none, Option.getD_none]
  omega

theorem processLine_keeps : KeepsBounds maxLineBytes maxItemBytes finished processLine b := by
  have cleared : Bounded maxLineBytes maxItemBytes finished { b with line := [] } :=
    { bounded with line := Nat.zero_le _ }
  unfold processLine
  rw [KeepsBounds, wp_bind, wp_get, wp_bind, wp_set, wp_bind, wp_expect]
  refine ⟨fun line _ => ?_, fun _ => cleared⟩
  simp only [wp_ite]
  refine ⟨fun _ => ⟨fun _ => ?_, fun _ => ?_⟩, fun _ => ⟨fun _ => cleared, fun _ => ?_⟩⟩
  · exact dispatchEvent_keeps cleared
  · exact cleared.clearEvent
  · rw [wp_bind]
    exact processField_keeps cleared

variable {byte : UInt8} {bytes : List UInt8}

theorem processByte_keeps :
    KeepsBounds maxLineBytes maxItemBytes finished (processByte byte) b := by
  have cleared : Bounded maxLineBytes maxItemBytes finished { b with afterCr := false } :=
    { bounded with }
  unfold processByte
  rw [KeepsBounds, wp_bind, wp_get, wp_bind, wp_set]
  simp only [wp_ite]
  refine ⟨fun _ => cleared, fun _ => ⟨fun _ => ?_, fun _ => ⟨fun _ => ?_, fun _ => ?_⟩⟩⟩
  · rw [wp_bind]
    apply wp_mono (processLine_keeps cleared) _ fun _ _ bounded => bounded
    exact fun _ _ bounded => { bounded with }
  · exact processLine_keeps cleared
  · rw [wp_bind, wp_require]
    refine ⟨fun room => ?_, fun _ => cleared⟩
    have below : b.line.length < maxLineBytes.toNat := by
      rw [bounded.maxLine] at room
      exact lt_of_le_of_ne bounded.line room
    refine { bounded with line := ?_ }
    rw [List.length_append]
    exact below

theorem processHeld_keeps :
    KeepsBounds maxLineBytes maxItemBytes finished (processHeld bytes) b := by
  induction bytes generalizing b with
  | nil => exact bounded
  | cons byte bytes ih =>
    unfold processHeld
    rw [KeepsBounds, wp_bind]
    apply wp_mono (processByte_keeps bounded) _ fun _ _ bounded => bounded
    rintro (_ | event) b bounded
    · exact ih bounded
    · exact bounded

theorem pushByte_keeps : KeepsBounds maxLineBytes maxItemBytes finished (pushByte byte) b := by
  have kept : ∀ held decided, Bounded maxLineBytes maxItemBytes finished
        { b with prefixBytes := held, bomDecided := decided } :=
    fun _ _ => { bounded with }
  unfold pushByte
  rw [KeepsBounds, wp_bind, wp_get]
  simp only [wp_ite]
  refine ⟨fun _ => processByte_keeps bounded, fun _ =>
    ⟨fun _ => kept _ _, fun _ => ⟨fun _ => kept _ _, fun _ => ?_⟩⟩⟩
  exact processHeld_keeps (kept _ _)

theorem finishHeld_keeps : KeepsBounds maxLineBytes maxItemBytes finished (finishHeld bytes) b := by
  induction bytes generalizing b with
  | nil => exact bounded
  | cons byte bytes ih =>
    unfold finishHeld
    rw [KeepsBounds, wp_bind]
    apply wp_mono (processByte_keeps bounded) _ fun _ _ bounded => bounded
    intro event b bounded
    rw [wp_bind]
    exact ih bounded

end

theorem finish_keeps (bounded : Bounded maxLineBytes maxItemBytes false b) :
    KeepsBounds maxLineBytes maxItemBytes true finish b := by
  have begun : Bounded maxLineBytes maxItemBytes true
      { b with finished := true, prefixBytes := [] } :=
    { bounded with finished := rfl }
  unfold finish
  rw [KeepsBounds, wp_bind, wp_get, bounded.finished]
  simp only [Bool.false_eq_true, if_false]
  rw [wp_bind, wp_set, wp_bind]
  apply wp_mono (finishHeld_keeps begun) _ fun _ _ bounded => bounded
  intro events b bounded
  have last : KeepsBounds maxLineBytes maxItemBytes true finishLine b := by
    unfold finishLine
    rw [KeepsBounds, wp_bind, wp_get, wp_ite]
    exact ⟨fun _ => bounded, fun _ => processLine_keeps bounded⟩
  rw [wp_bind]
  apply wp_mono last _ fun _ _ bounded => bounded
  intro event b bounded
  exact dispatchEvent_keeps bounded

end Limits

/-! ## Frames -/

variable {worker : SseWorker}

section Frames

variable {maxLineBytes maxItemBytes : UInt64}

theorem pushUntilEvent_eq {bytes : List UInt8} {b : SseBuffer} (open_ : b.finished = false) :
    pushUntilEvent bytes b = untilOutput pushByte bytes 0 b := by
  unfold pushUntilEvent
  rw [get_bind, open_]
  rfl

variable {s : SseBuffer × List SseEvent}

theorem drain_pushUntilEvent {data : List UInt8}
    (bounded : Bounded maxLineBytes maxItemBytes false s.1) :
    drain pushUntilEvent data data.length 0 s = feed pushByte data s :=
  drain_eq_feed (fun _ _ bounded => pushUntilEvent_eq bounded.finished)
    (fun _ _ bounded => pushByte_keeps bounded) (Nat.le_add_left _ _) bounded

/-- A worker with another buffer, other events and another count of bytes. -/
def SseWorker.moved (worker : SseWorker) (s : SseBuffer × List SseEvent) (total : Nat) :
    SseWorker :=
  ⟨{ toSseBuffer := s.1, maxTotalBytes := worker.parser.maxTotalBytes, totalBytes := total }, s.2⟩

/-- The end of a computation on the bytes, as an end of the worker. -/
def Moved (worker : SseWorker) (total : Nat) :
    EStateM.Result VmError (SseBuffer × List SseEvent) Unit →
      EStateM.Result VmError SseWorker Unit → Prop
  | .ok _ s, result => result = .ok () (worker.moved s total)
  | .error e s, result => ∃ total, result = .error e (worker.moved s total)

theorem moved_moved {total total' : Nat}
    {result : EStateM.Result VmError (SseBuffer × List SseEvent) Unit}
    {end_ : EStateM.Result VmError SseWorker Unit} :
    Moved (worker.moved s total) total' result end_ ↔ Moved worker total' result end_ := by
  cases result with
  | ok _ s' | error e s' => exact Iff.rfl

theorem onBuffer_moved (x : EStateM VmError (SseBuffer × List SseEvent) Unit) (worker : SseWorker) :
    Moved worker worker.parser.totalBytes (x (worker.buffer, worker.published))
      (onBuffer x worker) := by
  unfold onBuffer zoom
  cases x (worker.buffer, worker.published) with
  | ok _ s => exact rfl
  | error e s => exact ⟨_, rfl⟩

theorem admitChunk_ok {bytes : Nat}
    (within : worker.parser.totalBytes + bytes ≤ worker.parser.maxTotalBytes.toNat) :
    admitChunk bytes worker = .ok () (worker.moved (worker.buffer, worker.published)
      (worker.parser.totalBytes + bytes)) := by
  have fits : checkedAdd worker.parser.totalBytes bytes =
      some (worker.parser.totalBytes + bytes) := by
    have bound := worker.parser.maxTotalBytes.toNat_lt
    unfold checkedAdd
    rw [if_pos (by omega)]
  unfold admitChunk
  rw [get_bind, fits, Option.filter_some, if_pos (by simpa using within)]
  rfl

/-- Feeding a frame is feeding its bytes. -/
theorem feedChunk_moved (data : List UInt8)
    (bounded : Bounded maxLineBytes maxItemBytes false worker.buffer)
    (within : worker.parser.totalBytes + data.length ≤ worker.parser.maxTotalBytes.toNat) :
    Moved worker (worker.parser.totalBytes + data.length)
      (feed pushByte data (worker.buffer, worker.published)) (feedChunk data worker) := by
  have drained : drain pushUntilEvent data data.length 0 (worker.buffer, worker.published) = _ :=
    drain_pushUntilEvent bounded
  have fed : feedChunk data worker = onBuffer (drain pushUntilEvent data data.length 0)
      (worker.moved (worker.buffer, worker.published) (worker.parser.totalBytes + data.length)) :=
    bind_ok (admitChunk_ok within)
  have moved := onBuffer_moved (drain pushUntilEvent data data.length 0)
    (worker.moved (worker.buffer, worker.published) (worker.parser.totalBytes + data.length))
  rw [fed, ← drained]
  exact moved_moved.mp moved

section

variable (bounded : Bounded maxLineBytes maxItemBytes false worker.buffer)

include bounded

variable {chunks : List (List UInt8)}

/-- Feeding frames is feeding their bytes. -/
theorem feedChunks_moved
    (within : worker.parser.totalBytes + chunks.flatten.length ≤
      worker.parser.maxTotalBytes.toNat) :
    Moved worker (worker.parser.totalBytes + chunks.flatten.length)
      (feed pushByte chunks.flatten (worker.buffer, worker.published))
      (chunks.forM feedChunk worker) := by
  induction chunks generalizing worker with
  | nil => exact rfl
  | cons data chunks ih =>
    rw [List.flatten_cons, List.length_append] at within
    have first := feedChunk_moved data bounded (by omega)
    have kept : wp (feed pushByte data) (fun _ s => Bounded maxLineBytes maxItemBytes false s.1) _
        (worker.buffer, worker.published) :=
      feed_wp (fun _ _ bounded => pushByte_keeps bounded) bounded
    change Moved _ _ _ ((feedChunk data >>= fun _ => chunks.forM feedChunk) worker)
    rw [List.flatten_cons, feed_append]
    cases fed : feed pushByte data (worker.buffer, worker.published) with
    | error e s =>
      rw [fed] at first
      obtain ⟨total, failed⟩ := first
      rw [bind_error fed, bind_error failed]
      exact ⟨total, rfl⟩
    | ok _ s =>
      rw [fed] at first
      have bounded := wp_ok kept fed
      have within : worker.parser.totalBytes + data.length + chunks.flatten.length ≤
          worker.parser.maxTotalBytes.toNat := by omega
      have rest : Moved (worker.moved s (worker.parser.totalBytes + data.length)) _ _ _ :=
        ih bounded within
      rw [bind_ok fed, bind_ok first, List.length_append, ← Nat.add_assoc]
      exact moved_moved.mp rest

/-- The answer of a run of the worker, and what it has published. -/
def streamOutcome {α : Type} : EStateM.Result VmError SseWorker α → Except VmError α × List SseEvent
  | .ok a worker => (.ok a, worker.published)
  | .error e worker => (.error e, worker.published)

/-- The end of the stream, after its bytes. -/
theorem streamBody_outcome
    (within : worker.parser.totalBytes + chunks.flatten.length ≤
      worker.parser.maxTotalBytes.toNat) :
    streamOutcome (streamBody chunks worker) =
      match feed pushByte chunks.flatten (worker.buffer, worker.published) with
      | .error e s => (.error e, s.2)
      | .ok _ s =>
        match finish s.1 with
        | .ok events _ => (.ok events, s.2)
        | .error e _ => (.error e, s.2) := by
  have moved := feedChunks_moved bounded within
  unfold streamBody
  cases fed : feed pushByte chunks.flatten (worker.buffer, worker.published) with
  | error e s =>
    rw [fed] at moved
    obtain ⟨total, failed⟩ := moved
    rw [bind_error failed]
    rfl
  | ok _ s =>
    rw [fed] at moved
    have same : (worker.moved s (worker.parser.totalBytes + chunks.flatten.length)).buffer = s.1 :=
      rfl
    rw [bind_ok moved]
    unfold zoom
    rw [same]
    dsimp only
    cases finish s.1 with
    | ok events t | error e t => rfl

/-- A frame keeps the buffers within their limits, whether or not it is admitted. -/
theorem feedChunk_bounded {data : List UInt8} :
    wp (feedChunk data) (fun _ worker' => Bounded maxLineBytes maxItemBytes false worker'.buffer)
      (fun _ worker' => Bounded maxLineBytes maxItemBytes false worker'.buffer) worker := by
  have kept : wp (feed pushByte data) (fun _ s => Bounded maxLineBytes maxItemBytes false s.1)
      (fun _ s => Bounded maxLineBytes maxItemBytes false s.1) (worker.buffer, worker.published) :=
    feed_wp (fun _ _ bounded => pushByte_keeps bounded) bounded
  unfold feedChunk admitChunk
  rw [wp_bind, wp_bind, wp_get, wp_bind, wp_expect]
  refine ⟨fun total _ => ?_, fun _ => bounded⟩
  apply wp_zoom.mpr
  unfold wp at kept ⊢
  rw [← drain_pushUntilEvent bounded] at kept
  exact kept

theorem feedChunks_bounded : wp (chunks.forM feedChunk)
      (fun _ worker' => Bounded maxLineBytes maxItemBytes false worker'.buffer)
      (fun _ worker' => Bounded maxLineBytes maxItemBytes false worker'.buffer) worker :=
  wp_forM (I := fun worker : SseWorker => Bounded maxLineBytes maxItemBytes false worker.buffer)
    (fun _ _ _ bounded => feedChunk_bounded bounded) bounded

end

end Frames

/-! ## Streams -/

/-- The buffered line is within the line limit, and the buffered data, event name and id together
are within the item limit. -/
def WithinLimits (maxLineBytes maxItemBytes : UInt64) (b : SseBuffer) : Prop :=
  b.line.length ≤ maxLineBytes.toNat ∧ b.itemBytes ≤ maxItemBytes.toNat

variable {maxLineBytes maxItemBytes : UInt64}

theorem Bounded.withinLimits {finished : Bool} {b : SseBuffer}
    (bounded : Bounded maxLineBytes maxItemBytes finished b) :
    WithinLimits maxLineBytes maxItemBytes b := ⟨bounded.line, bounded.item⟩

theorem streamBody_bounded {chunks : List (List UInt8)}
    (bounded : Bounded maxLineBytes maxItemBytes false worker.buffer) :
    wp (streamBody chunks) (fun _ worker' => WithinLimits maxLineBytes maxItemBytes worker'.buffer)
      (fun _ worker' => WithinLimits maxLineBytes maxItemBytes worker'.buffer) worker := by
  unfold streamBody
  rw [wp_bind]
  apply wp_mono (feedChunks_bounded bounded) _ fun _ _ bounded => bounded.withinLimits
  intro _ worker bounded
  apply wp_zoom.mpr
  exact wp_mono (finish_keeps bounded) (fun _ _ bounded => bounded.withinLimits)
    fun _ _ bounded => bounded.withinLimits

/-- **How a stream is cut does not matter.**  Feeding its frames and finishing gives the events and
the error that feeding it as one frame gives; and after any frames, and after the end, the buffers
are within their limits. -/
theorem sse_chunking (maxLineBytes maxItemBytes maxTotalBytes : UInt64)
    (chunks : List (List UInt8)) :
    (chunks.flatten.length ≤ maxTotalBytes.toNat →
      streamOutcome (streamBody chunks (.new maxLineBytes maxItemBytes maxTotalBytes)) =
        streamOutcome
          (streamBody [chunks.flatten] (.new maxLineBytes maxItemBytes maxTotalBytes))) ∧
    WithinLimits maxLineBytes maxItemBytes
      (resultState (chunks.forM feedChunk (.new maxLineBytes maxItemBytes maxTotalBytes))).buffer ∧
    WithinLimits maxLineBytes maxItemBytes
      (resultState (streamBody chunks (.new maxLineBytes maxItemBytes maxTotalBytes))).buffer := by
  have bounded : Bounded maxLineBytes maxItemBytes false
      (SseWorker.new maxLineBytes maxItemBytes maxTotalBytes).buffer :=
    ⟨rfl, rfl, Nat.zero_le _, Nat.zero_le _, rfl⟩
  refine ⟨fun within => ?_, ?_, ?_⟩
  · have whole : [chunks.flatten].flatten = chunks.flatten := List.append_nil _
    have start : (SseWorker.new maxLineBytes maxItemBytes maxTotalBytes).parser.totalBytes +
        chunks.flatten.length ≤ maxTotalBytes.toNat := by
      change 0 + _ ≤ _
      omega
    rw [streamBody_outcome bounded start,
      streamBody_outcome bounded (by rw [whole]; exact start), whole]
  · exact (wp_resultState (feedChunks_bounded bounded)).withinLimits
  · exact wp_resultState (streamBody_bounded bounded)

/-- A mark, a comment and a data line, cut inside the mark and inside a line end. -/
def cutStream : List (List UInt8) :=
  [[0xef, 0xbb], [0xbf, 58, 10, 100, 97, 116, 97, 58, 32, 49, 13], [10, 13], [10, 105, 100]]

/-- The cut stream has the outcome of the whole one. -/
theorem cutStream_chunking : streamOutcome (streamBody cutStream (.new 8 8 64)) =
      streamOutcome (streamBody [cutStream.flatten] (.new 8 8 64)) :=
  (sse_chunking 8 8 64 _).1 (by decide)

example :
    streamOutcome (streamBody cutStream (.new 8 8 64)) = (.ok [], [⟨none, "1", none, none⟩]) := by
  decide +kernel

end RustScript.Http
