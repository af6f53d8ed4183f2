import RustScript.Vm.HostCalls
import RustScript.Vm.Invocation

/-!
# The grammar of an invocation stream

Every call of the host keeps the phase of an invocation, or makes it wait with one event more, and
then the call yields (`StreamVm.hostKeeps`).  A run therefore ends with at most one event that
waits (`run_goes`), and a poll that drives the run hands this event out before it drives on
(`pollOnce_goes`).  What the polls of any schedule hand out is thus the accepted events in their
order, one item that ends the stream, and nothing any more (`invocation_stream`).

A cancellation supersedes what is pending, so the event that waits when it is requested is
accepted and never handed out (`pending_event_superseded`).

Once an invocation is set up, every failure is an item of its stream.
-/

namespace RustScript.Vm

open Operation (OperationCancelReason)
open Resource (Poll)
open Engine (VmStatus RunEnded)
open Wp StreamVm Engine InvocationState List Option StreamHooks

variable {W α β : Type}

/-! ## The state of the stream -/

/-- The phase of the invocation, the reason of its cancellation, and the accepted events. -/
def Stream.At (stream : Stream W) (phase : InvocationPhase) (reason : Option OperationCancelReason)
    (accepted : List Value) : Prop :=
  ∃ state, stream.invocation = some state ∧ state.phase = phase ∧ state.cancelReason = reason ∧
    stream.accepted = accepted

abbrev Streaming (st : State (Stream W)) (phase : InvocationPhase)
    (reason : Option OperationCancelReason) (accepted : List Value) : Prop :=
  st.inst.world.At phase reason accepted

variable {stream : Stream W} {phase : InvocationPhase} {reason : Option OperationCancelReason}
  {x : InvM W α}

theorem Stream.At.map_phase {accepted : List Value} (here : stream.At phase reason accepted) :
    stream.invocation.map InvocationState.phase = some phase := by
  obtain ⟨state, active, isPhase, -⟩ := here
  rw [active]
  exact congrArg some isPhase

theorem Stream.At.bind_cancelReason {accepted : List Value}
    (here : stream.At phase reason accepted) :
    stream.invocation.bind cancelReason = reason := by
  obtain ⟨state, active, -, isReason, -⟩ := here
  rw [active]
  exact isReason

/-- An event has been emitted and waits. -/
def Stream.Emitted (stream : Stream W) (reason : Option OperationCancelReason)
    (accepted : List Value) : Prop :=
  ∃ value, stream.At (.eventPending value) reason (accepted ++ [value])

/-- **A call of the host emits at most one event, and then it yields.** -/
theorem StreamVm.hostKeeps (V : StreamVm W) (reason : Option OperationCancelReason)
    (accepted : List Value) :
    V.engine.HostKeeps (·.At .running reason accepted) (·.Emitted reason accepted) := by
  rintro index args s ⟨state, active, running, same, events⟩
  rw [V.host, toHost]
  dsimp only
  split
  · simp only [Stream.emitStreamItem, active, running]
    cases state.emitYieldPending with
    | true => exact .inl ⟨_, rfl, rfl, same, events⟩
    | false =>
      cases EventPayload.tryNew (args.headD .null) (V.hooks.eventLimits s.world.outer) with
      | ok value =>
        refine .inr ⟨⟨value, _, rfl, rfl, same, ?_⟩, trivial⟩
        exact congrArg (· ++ [value]) events
      | error error => exact .inl ⟨_, rfl, rfl, same, events⟩
  · exact .inl ⟨state, active, running, same, events⟩

/-! ## Computations that do not panic -/

/-- A computation does not panic, and ends in `Q` if its rounds suffice. -/
abbrev Goes (x : InvM W α) (st : State (Stream W)) (Q : α → State (Stream W) → Prop) : Prop :=
  wp x Q (fun stuck _ => stuck = .rounds) st

variable {Q : α → State (Stream W) → Prop} {st : State (Stream W)}

theorem Goes.mono {Q' : α → State (Stream W) → Prop} (h : Goes x st Q)
    (ok : ∀ a st', Q a st' → Q' a st') : Goes x st Q' :=
  wp_mono h ok fun _ _ stuck => stuck

theorem Goes.and {Q' : α → State (Stream W) → Prop} (h : Goes x st Q) (h' : Goes x st Q') :
    Goes x st fun a st' => Q a st' ∧ Q' a st' :=
  wp_mono (wp_and h h') (fun _ _ both => both) fun _ _ stuck => stuck.1

theorem Goes.bind {f : α → InvM W β} {P : α → State (Stream W) → Prop}
    {Q : β → State (Stream W) → Prop} (first : Goes x st P)
    (second : ∀ a st', P a st' → Goes (f a) st' Q) : Goes (x >>= f) st Q :=
  wp_bind.mpr (first.mono second)

theorem getStream_bind {f : Stream W → InvM W α} {R : Stuck → State (Stream W) → Prop} :
    wp (getStream >>= f) Q R st ↔ wp (f st.inst.world) Q R st := by
  simp [getStream]

variable {cause : OperationCancelReason} {V : StreamVm W} {rounds : Nat}

section Steps

variable {accepted : List Value} {f : Outside W α}

theorem wp_outside {R : Stuck → State (Stream W) → Prop} :
    wp (outside f) Q R st ↔ Q (f st).1 { (f st).2 with inst := { (f st).2.inst with
      world := { st.inst.world with outer := (f st).2.inst.world.outer } } } := Iff.rfl

theorem outside_goes (here : Streaming st phase reason accepted) :
    Goes (outside f) st fun _ st' => Streaming st' phase reason accepted := by
  obtain ⟨state, active, h⟩ := here
  exact ⟨state, active, h⟩

theorem modifyStream_goes {f : Stream W → Stream W}
    (here : (f st.inst.world).At phase reason accepted) :
    Goes (modifyStream f) st fun _ st' => Streaming st' phase reason accepted := here

variable {phase' : InvocationPhase}

section

variable (here : Streaming st phase reason accepted)

include here

theorem modifyInvocation_goes {f : InvocationState → InvocationState}
    {reason' : Option OperationCancelReason}
    (moves : ∀ state : InvocationState, state.phase = phase → state.cancelReason = reason →
      (f state).phase = phase' ∧ (f state).cancelReason = reason') :
    Goes (modifyInvocation f) st fun _ st' => Streaming st' phase' reason' accepted := by
  obtain ⟨state, active, isPhase, isReason, events⟩ := here
  simp only [modifyInvocation, getStream, wp_bind, wp_get, wp_pure, wp_expect_some, active]
  obtain ⟨isPhase', isReason'⟩ := moves state isPhase isReason
  exact ⟨f state, rfl, isPhase', isReason', events⟩

theorem setPhase_goes :
    Goes (setPhase phase') st fun _ st' => Streaming st' phase' reason accepted :=
  modifyInvocation_goes here fun _ _ isReason => ⟨rfl, isReason⟩

theorem replaceInvocationPhase_goes : Goes (replaceInvocationPhase phase') st fun old st' =>
      old = phase ∧ Streaming st' phase' reason accepted := by
  have replaced : Goes (setPhase phase') st _ := setPhase_goes here
  obtain ⟨state, active, isPhase, -⟩ := here
  simp only [replaceInvocationPhase, getStream, wp_bind, wp_get, wp_pure, wp_expect_some, active]
  exact replaced.mono fun _ _ here' => ⟨isPhase, here'⟩

theorem mapInvocationError_goes {error : VmError} :
    Goes (mapInvocationError error) st fun _ st' => Streaming st' phase reason accepted := by
  have still := here
  obtain ⟨state, active, isPhase, isReason, events⟩ := here
  simp only [mapInvocationError, getStream, wp_bind, wp_get, wp_pure, active, bind_some]
  cases state.pendingError with
  | none =>
    dsimp only
    split <;> exact still
  | some error =>
    exact ⟨{ state with pendingError := none }, congrArg (Option.map _) active, isPhase, isReason,
      events⟩

theorem takeInvocationResult_goes :
    Goes takeInvocationResult st fun _ st' => Streaming st' phase reason accepted := here

end

theorem attempt_goes {x : VmM (Stream W) α} {R : VmError → State (Stream W) → Prop}
    (h : wp x Q R st) : Goes (attempt x) st fun result st' =>
      match result with
      | .ok a => Q a st'
      | .error error => R error st' := by
  unfold Goes wp attempt
  unfold wp at h
  cases ran : x st with
  | ok a st' | error e st' =>
    rw [ran] at h
    exact h

theorem releaseInvocation_goes (here : Streaming st phase reason accepted) :
    Goes V.releaseInvocation st fun _ st' => Streaming st' .fused none accepted := by
  unfold releaseInvocation
  rw [Goes, getStream_bind]
  apply (outside_goes here).bind
  intro _ st here
  have aborted : ∀ stackBase frameCount : Nat,
      wp (core (abortHostInvocation stackBase frameCount)) (fun _ st' =>
        Streaming st' phase reason accepted) (fun _ _ => False) st := by
    intro stackBase frameCount
    apply wp_zoom.mpr
    apply wp_mono abortHostInvocation_world _ fun _ _ h => h
    intro _ s' same
    change s'.world.At phase reason accepted
    rw [same]
    exact here
  unfold waitsOnBridge
  simp only [wp_bind, wp_get, wp_pure]
  apply wp_bind.mp
  apply (attempt_goes (aborted _ _)).bind
  rintro (_ | _) st h
  · exact h.elim
  · obtain ⟨state, active, -, -, events⟩ := h
    exact ⟨state.dropped, congrArg (Option.map _) active, rfl, rfl, events⟩

/-! ## Running -/

/-- How a part of a run leaves the stream: as it was, or with one event more. -/
def Left (reason : Option OperationCancelReason) (accepted : List Value) (st : State (Stream W)) :
    Prop :=
  Streaming st .running reason accepted ∨ st.inst.world.Emitted reason accepted

/-- The result of a run that was started: it failed without an event, it emitted an event and
yielded, or it emitted none. -/
def Ran (reason : Option OperationCancelReason) (accepted : List Value)
    (result : Except VmError VmStatus) (st : State (Stream W)) : Prop :=
  Streaming st .running reason accepted ∨
    st.inst.world.Emitted reason accepted ∧ result = .ok .yielded ∧ st.Calm

theorem Ran.running {result : Except VmError VmStatus} (ran : Ran reason accepted result st)
    (other : result ≠ .ok .yielded) : Streaming st .running reason accepted :=
  ran.resolve_right fun left => other left.2.1

theorem begin_goes {x : VmM (Stream W) (Option VmStatus)} {K : State (Stream W) → Prop}
    (here : Streaming st .running reason accepted)
    (h : ∀ {st' : State (Stream W)}, st'.Calm → Streaming st' .running reason accepted →
      wp x (RunEnded (·.At .running reason accepted) (·.Emitted reason accepted))
        (fun _ => K) st') :
    Goes (begin x) st fun result st' =>
      match result with
      | .ok status => Ran reason accepted (.ok status) st'
      | .error _ => K st' := by
  unfold begin
  apply (attempt_goes (h (by rfl) (by exact here))).bind
  rintro (error | (_ | status)) st' ended
  · exact ended
  · exact rfl
  · refine ended.imp_right fun left => ⟨left.1, ?_, left.2.2⟩
    exact congrArg _ (some.inj left.2.1)

theorem run_goes (here : Streaming st .running reason accepted) :
    Goes (V.run rounds) st (Ran reason accepted) := by
  apply (outside_goes here).bind
  rintro (error | _) st here
  · exact .inl here
  · apply (begin_goes here (runInternal_keeps (V.hostKeeps reason accepted))).bind
    rintro (error | status) st ran
    · rw [Goes, wp_bind]
      exact (outside_goes ran).mono fun _ _ here => .inl here
    · cases status with
      | halted => exact (outside_goes (ran.running nofun)).mono fun _ _ here => .inl here
      | yielded => exact ran
      | waiting opId => exact .inl (ran.running nofun)

theorem startCallback_keeps {callback : Nat × CallableValue} {item : List Value}
    (calm : st.Calm) (here : Streaming st .running reason accepted) :
    wp (V.startCallback rounds callback item)
      (RunEnded (·.At .running reason accepted) (·.Emitted reason accepted))
      (fun _ st' => Streaming st' .running reason accepted) st := by
  have host := V.hostKeeps reason accepted
  unfold startCallback
  rw [wp_bind, wp_get, wp_bind]
  apply wp_mono ((enterScriptFrame_keeps host here).core calm) _ fun _ _ kept => kept.2
  rintro entered st ⟨calm, kept⟩
  have finished : RunKeeps (·.At .running reason accepted) (·.Emitted reason accepted)
      (· = .yielded) (V.engine.finishStep entered.stepped) st :=
    finishStep_keepsWorld calm
      (kept.imp_right fun left => ⟨left.1, Entered.stepped_of_yields left.2⟩)
  rw [wp_bind]
  apply wp_mono finished _ fun _ _ kept => kept.2
  rintro outcome st ⟨calm, kept⟩
  cases outcome with
  | «continue» => exact runInternal_keeps host calm (kept.resolve_right fun left => nomatch left.2)
  | halted | waiting opId => exact .inl (kept.resolve_right fun left => nomatch left.2)
  | yielded => exact kept.imp_right fun left => ⟨left.1, rfl, calm⟩

/-- Polling the operation that the machine waits for: an event comes only with an answer that
says to go on. -/
theorem pollWaitingHostOp_goes (here : Streaming st .running reason accepted) :
    Goes (V.pollWaitingHostOp rounds) st fun answer st' =>
      Streaming st' .running reason accepted ∨
        st'.inst.world.Emitted reason accepted ∧ answer = .ready (.ok ()) := by
  apply (outside_goes here).bind
  rintro (_ | result | ⟨callback, item⟩) st here
  · exact .inl here
  · exact .inl here
  · apply (begin_goes here startCallback_keeps).bind
    rintro (error | status) st ran
    · exact (outside_goes ran).mono fun _ _ here => .inl here
    · cases status with
      | halted => exact (outside_goes (ran.running nofun)).mono fun _ _ here => .inl here
      | yielded => exact ran.imp_right fun left => ⟨left.1, rfl⟩
      | waiting opId => exact .inl (ran.running nofun)

/-! ## Driving -/

theorem driveWaiting_goes {done : DriveOutcome} (here : Streaming st .running reason accepted) :
    Goes (V.driveWaiting rounds done) st fun outcome st' =>
      (outcome = .continue → done = .continue) ∧
        (Streaming st' .running reason accepted ∨
          st'.inst.world.Emitted reason accepted ∧ outcome = done) := by
  apply (pollWaitingHostOp_goes here).bind
  rintro ((error | _) | _) st ended
  · have here := ended.resolve_right fun left => nomatch left.2
    rw [Goes, wp_bind]
    exact (mapInvocationError_goes here).mono fun _ _ here => ⟨nofun, .inl here⟩
  · exact ⟨fun goesOn => goesOn, ended.imp_right fun left => ⟨left.1, rfl⟩⟩
  · exact ⟨nofun, .inl (ended.resolve_right fun left => nomatch left.2)⟩

/-- What driving a run that has not been cancelled leaves. -/
def Driven (accepted : List Value) (outcome : DriveOutcome) (st : State (Stream W)) : Prop :=
  Streaming st .running none accepted ∨
    outcome = .continue ∧ (st.inst.world.Emitted none accepted ∨
      ∃ value, Streaming st (.completePending value) none accepted)

theorem driveYielded_goes (ran : Ran none accepted (.ok .yielded) st) :
    Goes driveYielded st (Driven accepted) := by
  unfold driveYielded
  rw [Goes, wp_bind, wp_get]
  dsimp only
  rcases ran with here | ⟨⟨value, here⟩, -, calm⟩
  · rcases st.runCtx.lastYieldReason with _ | (_ | _ | _)
    · rw [getStream_bind, here.map_phase]
      exact .inl here
    · rw [getStream_bind, here.map_phase]
      exact .inl here
    · exact .inl here
    · exact .inl here
  · rw [show st.runCtx.lastYieldReason = none from calm, getStream_bind, here.map_phase]
    exact .inr ⟨rfl, .inl ⟨value, here⟩⟩

theorem driveInvocation_goes (here : Streaming st .running none accepted) :
    Goes (V.driveInvocation rounds) st (Driven accepted) := by
  unfold driveInvocation
  rw [Goes, getStream_bind, here.bind_cancelReason]
  apply (run_goes here).bind
  rintro (error | status) st ran
  · rw [Goes, wp_bind]
    exact (mapInvocationError_goes (ran.running nofun)).mono fun _ _ here => .inl here
  · cases status with
    | halted =>
      apply (takeInvocationResult_goes (ran.running nofun)).bind
      rintro (_ | result) st here
      · exact .inl here
      · rw [Goes, wp_bind]
        exact (setPhase_goes here).mono fun _ _ here => .inr ⟨rfl, .inr ⟨result, here⟩⟩
    | yielded => exact driveYielded_goes ran
    | waiting opId =>
      exact (driveWaiting_goes (ran.running nofun)).mono fun _ _ ended =>
        ended.2.imp_right fun left => ⟨left.2, .inl left.1⟩

/-- Driving a run that has been cancelled ends it, unless the bridge has to acknowledge. -/
theorem driveInvocation_cancelled (here : Streaming st .running (some cause) accepted) :
    Goes (V.driveInvocation rounds) st fun outcome st' =>
      match outcome with
      | .continue => False
      | .pending => Streaming st' .running (some cause) accepted
      | .error _ => Left (some cause) accepted st' := by
  unfold driveInvocation waitsOnBridge
  rw [Goes, getStream_bind, here.bind_cancelReason]
  simp only [wp_bind, wp_get, wp_pure, wp_ite]
  refine ⟨fun _ => ?_, fun _ => .inl here⟩
  apply (driveWaiting_goes here).mono
  rintro outcome st ⟨ends, here | ⟨emitted, rfl⟩⟩
  · cases outcome with
    | «continue» => cases ends rfl
    | pending => exact here
    | error e => exact .inl here
  · exact .inr emitted

end Steps

/-! ## Polling -/

/-- At most one accepted event is never handed out, and only if the invocation was cancelled or
failed when it was started. -/
def Dropped (first : Option OperationCancelReason) (failed : Prop) (dropped : List Value) : Prop :=
  dropped = [] ∨ dropped.length = 1 ∧ (first ≠ none ∨ failed)

variable {dropped delivered before : List Value} {first : Option OperationCancelReason}
  {failed : Prop} {passes : Nat}

section Polling

/-- The stream has not ended.  The accepted events are those that were accepted before the
invocation, those that have been handed out, and the one that waits or has been dropped; `first`
is the reason of the first request to cancel. -/
inductive Tracks (before delivered : List Value) (first : Option OperationCancelReason)
    (failed : Prop) (st : State (Stream W)) : Prop where
  | running : Streaming st .running first (before ++ delivered) →
      Tracks before delivered first failed st
  | event {value : Value} :
      Streaming st (.eventPending value) first (before ++ delivered ++ [value]) →
      Tracks before delivered first failed st
  | complete {value : Value} :
      Streaming st (.completePending value) first (before ++ delivered) →
      Tracks before delivered first failed st
  | error {error : InvocationError} {reason : Option OperationCancelReason} {dropped : List Value} :
      Streaming st (.errorPending error) reason (before ++ delivered ++ dropped) →
      Dropped first failed dropped → Tracks before delivered first failed st

/-- The stream has ended. -/
def Ended (before delivered dropped : List Value) (st : State (Stream W)) : Prop :=
  Streaming st .fused none (before ++ delivered ++ dropped)

/-- What the answer of a poll says about a stream that had not ended. -/
def Answers (before delivered : List Value) (first : Option OperationCancelReason) (failed : Prop)
    (st : State (Stream W)) : InvocationPoll → Prop
  | .pending => Tracks before delivered first failed st
  | .ready none => False
  | .ready (some (.ok (.event value))) => Tracks before (delivered ++ [value]) first failed st
  | .ready (some (.ok (.complete _))) => Ended before delivered [] st
  | .ready (some (.error _)) => ∃ dropped, Ended before delivered dropped st ∧
      Dropped first failed dropped

variable {error : InvocationError} {state : InvocationState} {callable : Value} {args : List Value}

/-- An invocation that failed, or was cancelled, is released. -/
theorem endInvocation_goes {dropped : List Value}
    (here : Streaming st phase reason (before ++ delivered ++ dropped))
    (allowed : Dropped first failed dropped) :
    Goes (do V.releaseInvocation
             setPhase (.errorPending error)
             return none : InvM W (Option InvocationPoll)) st fun answer st' =>
      answer = none ∧ Tracks before delivered first failed st' := by
  apply (releaseInvocation_goes here).bind
  intro _ st here
  apply (setPhase_goes here).bind
  intro _ st here
  exact ⟨rfl, .error here allowed⟩

/-- A pass of the loop that drives the run. -/
theorem pollDrive_goes (here : Streaming st .running first (before ++ delivered)) :
    Goes (do match ← V.driveInvocation rounds with
             | .continue => return none
             | .pending => return some .pending
             | .error error => do
                 V.releaseInvocation
                 setPhase (.errorPending error)
                 return none : InvM W (Option InvocationPoll)) st fun answer st' =>
      (answer = none ∨ answer = some .pending) ∧ Tracks before delivered first failed st' := by
  cases first with
  | none =>
    apply (driveInvocation_goes here).bind
    rintro (_ | _ | error) st (here | ⟨goesOn, emitted | ⟨value, complete⟩⟩)
    · exact ⟨.inl rfl, .running here⟩
    · obtain ⟨value, here⟩ := emitted
      exact ⟨.inl rfl, .event here⟩
    · exact ⟨.inl rfl, .complete complete⟩
    · exact ⟨.inr rfl, .running here⟩
    · cases goesOn
    · cases goesOn
    · rw [← append_nil (before ++ delivered)] at here
      exact (endInvocation_goes here (.inl rfl)).mono fun _ _ ended => ⟨.inl ended.1, ended.2⟩
    · cases goesOn
    · cases goesOn
  | some cause =>
    apply (driveInvocation_cancelled here).bind
    rintro (_ | _ | error) st left
    · exact left.elim
    · exact ⟨.inr rfl, .running left⟩
    · rcases left with here | ⟨value, here⟩
      · rw [← append_nil (before ++ delivered)] at here
        exact (endInvocation_goes here (.inl rfl)).mono fun _ _ ended => ⟨.inl ended.1, ended.2⟩
      · have allowed : Dropped (some cause) failed [value] := .inr ⟨rfl, .inl nofun⟩
        exact (endInvocation_goes here allowed).mono fun _ _ ended => ⟨.inl ended.1, ended.2⟩

/-- A pass of the loop that hands out what ends the stream. -/
theorem pollEnd_goes {x : InvocationPhase → InvM W (Option InvocationPoll)}
    {answer : InvocationPoll} (here : Streaming st phase reason (before ++ delivered ++ dropped))
    (hands : x phase = do V.releaseInvocation; return some answer) :
    Goes (replaceInvocationPhase .fused >>= x) st fun result st' =>
      result = some answer ∧ Ended before delivered dropped st' := by
  apply (replaceInvocationPhase_goes here).bind
  rintro old st ⟨isPhase, fused⟩
  rw [isPhase, hands]
  apply (releaseInvocation_goes fused).bind
  intro _ st here
  exact ⟨rfl, here⟩

/-- A pass of the loop that lets a cancellation supersede what is pending. -/
theorem pollCancelled_goes {accepted : List Value}
    (here : Streaming st phase (some cause) accepted) :
    Goes (do let reason ← expect (some cause)
               (panicking "a cancelled action requires a cancellation reason")
             setPhase (.errorPending (.cancelled reason))
             return none : InvM W (Option InvocationPoll)) st fun answer st' =>
      answer = none ∧ Streaming st' (.errorPending (.cancelled cause)) (some cause) accepted := by
  rw [Goes, wp_bind, wp_expect_some]
  apply (setPhase_goes here).bind
  intro _ st here
  exact ⟨rfl, here⟩

/-- One pass of the loop, in a stream that has not ended. -/
theorem pollOnce_goes (active : st.inst.world.invocation = some state)
    (tracks : Tracks before delivered first failed st) :
    Goes (V.pollOnce rounds state) st fun answer st' =>
      match answer with
      | some answer => Answers before delivered first failed st' answer
      | none => Tracks before delivered first failed st' := by
  unfold pollOnce waitsOnBridge
  simp only [wp_bind, wp_get, wp_pure]
  generalize (st.inst.waitingHostOp.map
    (V.hooks.isHostBridge st.inst.world.outer)).getD false = bridge
  unfold action
  cases tracks with
  | running here =>
    obtain ⟨_, active', running, -⟩ := id here
    obtain rfl := some.inj (active.symm.trans active')
    simp only [running]
    apply (pollDrive_goes here).mono
    rintro _ st ⟨rfl | rfl, tracks⟩
    · exact tracks
    · exact tracks
  | event here =>
    obtain ⟨_, active', pending, isFirst, -⟩ := id here
    obtain rfl := some.inj (active.symm.trans active')
    simp only [pending, isFirst]
    cases superseded : first.isSome && !bridge with
    | true =>
      obtain ⟨cause, rfl⟩ := isSome_iff_exists.mp (Bool.and_eq_true_iff.mp superseded).1
      apply (pollCancelled_goes here).mono
      rintro _ st ⟨rfl, here⟩
      exact .error here (.inr ⟨rfl, .inl (some_ne_none _)⟩)
    | false =>
      apply (replaceInvocationPhase_goes here).bind
      rintro _ st ⟨rfl, here⟩
      rw [append_assoc] at here
      exact .running here
  | complete here =>
    obtain ⟨_, active', pending, isFirst, -⟩ := id here
    obtain rfl := some.inj (active.symm.trans active')
    simp only [pending, isFirst]
    rw [← append_nil (before ++ delivered)] at here
    cases superseded : first.isSome && !bridge with
    | true =>
      obtain ⟨cause, rfl⟩ := isSome_iff_exists.mp (Bool.and_eq_true_iff.mp superseded).1
      apply (pollCancelled_goes here).mono
      rintro _ st ⟨rfl, here⟩
      exact .error here (.inl rfl)
    | false =>
      apply (pollEnd_goes here rfl).mono
      rintro _ st ⟨rfl, ended⟩
      exact ended
  | error here allowed =>
    obtain ⟨_, active', pending, -⟩ := id here
    obtain rfl := some.inj (active.symm.trans active')
    simp only [pending]
    apply (pollEnd_goes here rfl).mono
    rintro _ st ⟨rfl, ended⟩
    exact ⟨_, ended, allowed⟩

theorem pollInvocation_goes (tracks : Tracks before delivered first failed st) :
    Goes (V.pollInvocation rounds passes) st fun answer st' =>
      Answers before delivered first failed st' answer := by
  induction passes generalizing st with
  | zero => exact rfl
  | succ passes ih =>
    have invoked : ∃ state, st.inst.world.invocation = some state := by
      rcases tracks with ⟨state, active, -⟩ | ⟨state, active, -⟩ | ⟨state, active, -⟩ |
        ⟨⟨state, active, -⟩, -⟩
      all_goals exact ⟨state, active⟩
    obtain ⟨state, active⟩ := invoked
    unfold pollInvocation
    rw [Goes, getStream_bind, active]
    apply (pollOnce_goes active tracks).bind
    rintro (_ | answer) st ended
    · exact ih ended
    · exact ended

/-- After the end a poll says that the stream has ended. -/
theorem pollInvocation_ended {accepted : List Value} (here : Streaming st .fused reason accepted) :
    V.pollInvocation rounds (passes + 1) st = .ok (.ready none) st := by
  obtain ⟨state, active, fused, -⟩ := here
  have read : getStream st = .ok st.inst.world st := rfl
  unfold pollInvocation
  rw [bind_ok read, active]
  dsimp only
  have once : V.pollOnce rounds state st = .ok (some (.ready none)) st := by
    have bridge : ∃ waits, V.waitsOnBridge st = .ok waits st := ⟨_, rfl⟩
    obtain ⟨waits, bridge⟩ := bridge
    unfold pollOnce
    rw [bind_ok bridge, action, fused]
    rfl
  rw [bind_ok once]
  rfl

/-! ## Starting and cancelling -/

theorem Dropped.mono {first' : Option OperationCancelReason}
    (allowed : Dropped first failed dropped) (requested : first' ≠ none) :
    Dropped first' failed dropped :=
  allowed.imp_right fun one => ⟨one.1, .inl requested⟩

theorem cancel_streaming {accepted : List Value} {cause : OperationCancelReason}
    (here : Streaming st phase reason accepted) (unfused : phase ≠ .fused) :
    Goes (V.cancel cause) st fun _ st' =>
      Streaming st' phase (some (reason.getD cause)) accepted := by
  have marked : Goes (modifyInvocation fun state => { state with
      cancelReason := some (state.cancelReason.getD cause) }) st _ :=
    modifyInvocation_goes here fun state isPhase isReason =>
      ⟨isPhase, congrArg (fun reason => some (reason.getD cause)) isReason⟩
  obtain ⟨state, active, isPhase, -⟩ := here
  unfold cancel
  rw [Goes, getStream_bind, active]
  dsimp only
  rw [isPhase]
  cases phase with
  | fused => exact absurd rfl unfused
  | _ =>
    apply marked.bind
    intro _ st here
    exact outside_goes here

/-- A request to cancel is remembered if it is the first. -/
theorem cancel_goes {cause : OperationCancelReason}
    (tracks : Tracks before delivered first failed st) :
    Goes (V.cancel cause) st fun _ st' =>
      Tracks before delivered (some (first.getD cause)) failed st' := by
  cases tracks with
  | running here => exact (cancel_streaming here nofun).mono fun _ _ here => .running here
  | event here => exact (cancel_streaming here nofun).mono fun _ _ here => .event here
  | complete here => exact (cancel_streaming here nofun).mono fun _ _ here => .complete here
  | error here allowed =>
    exact (cancel_streaming here nofun).mono fun _ _ here =>
      .error here (allowed.mono nofun)

theorem cancel_ended {accepted : List Value} {cause : OperationCancelReason}
    (here : Streaming st .fused none accepted) :
    Goes (V.cancel cause) st fun _ st' => Streaming st' .fused none accepted := by
  obtain ⟨state, active, fused, rest⟩ := here
  unfold cancel
  rw [Goes, getStream_bind, active]
  dsimp only
  rw [fused]
  exact ⟨state, active, fused, rest⟩

/-- The invocation has failed, and the error has not been handed out. -/
def Failing (st : State (Stream W)) : Prop :=
  ∃ error reason accepted, Streaming st (.errorPending error) reason accepted

theorem failInvocation_goes {error : VmError} {accepted : List Value}
    (left : Left none (accepted ++ []) st) :
    Goes (V.failInvocation error) st fun _ st' => Tracks accepted [] none (Failing st') st' := by
  have failing : ∀ {phase : InvocationPhase} {dropped : List Value} {st : State (Stream W)},
      Streaming st phase none (accepted ++ [] ++ dropped) → dropped.length ≤ 1 →
      Goes (V.failInvocation error) st fun _ st' =>
        Tracks accepted [] none (Failing st') st' := by
    intro phase dropped st here few
    apply (mapInvocationError_goes here).bind
    intro error st here
    apply (releaseInvocation_goes here).bind
    intro _ st here
    apply (setPhase_goes here).mono
    intro _ st here
    refine .error here ?_
    rcases Nat.le_one_iff_eq_zero_or_eq_one.mp few with empty | one
    · exact .inl (length_eq_zero_iff.mp empty)
    · exact .inr ⟨one, .inr ⟨_, _, _, here⟩⟩
  rcases left with here | ⟨value, here⟩
  · rw [← append_nil (accepted ++ [])] at here
    exact failing here (Nat.zero_le 1)
  · exact failing here (Nat.le_refl 1)

/-- The state of a machine with another host. -/
def State.withOuter (st : State (Stream W)) (outer : W) : State (Stream W) :=
  { st with inst := { st.inst with world := { st.inst.world with outer } } }

/-- The machine is as before, up to what the host did while it checked its scope. -/
def Untouched (V : StreamVm W) (st st' : State (Stream W)) : Prop :=
  st' = st ∨ st' = st.withOuter (V.hooks.scopeReady st.inst.world.outer).2

theorem checkStart_untouched (V : StreamVm W) (callable : Value) (args : List Value)
    (st : State (Stream W)) :
    Untouched V st (V.hooks.checkStart callable args st).2 := by
  unfold checkStart
  cases validateInvocationCallableOwnership st.inst callable args with
  | error error => exact .inl rfl
  | ok _ =>
    dsimp only
    split
    · exact .inl rfl
    · exact .inr rfl

/-- Nothing but the host changes, and an invocation that is there stays as it is. -/
theorem outside_checkStart {V : StreamVm W}
    {st : State (Stream W)} :
    Goes (outside (V.hooks.checkStart callable args)) st fun _ st' => Untouched V st st' := by
  have unchanged := checkStart_untouched V callable args st
  rw [Goes, wp_outside]
  rcases unchanged with same | same
  · rw [same]
    exact .inl rfl
  · rw [same]
    exact .inr rfl

theorem Untouched.accepted {st' : State (Stream W)} (untouched : Untouched V st st') :
    st'.inst.world.accepted = st.inst.world.accepted := by
  rcases untouched with rfl | rfl
  · rfl
  · rfl

theorem startInvocation_goes : Goes (V.startInvocation rounds callable args) st fun result st' =>
      result = .ok () → Tracks st.inst.world.accepted [] none (Failing st') st' := by
  apply outside_checkStart.bind
  rintro (error | _) st₁ untouched
  · exact nofun
  rw [Goes, getStream_bind, wp_ite]
  refine ⟨fun _ => nofun, fun _ => ?_⟩
  -- From here on every failure is an item of the stream, and the call succeeds.
  rw [← untouched.accepted]
  clear untouched
  rw [wp_bind, wp_get]
  have here : Stream.At { st₁.inst.world with
      invocation := some ⟨.running, false, none, none, st₁.inst.stack.length,
        st₁.inst.executionFrames.length⟩ } .running none st₁.inst.world.accepted :=
    ⟨_, rfl, rfl, rfl, rfl⟩
  generalize st₁.inst.world.accepted = accepted at here ⊢
  rw [← append_nil accepted] at here
  apply (modifyStream_goes here).bind
  intro _ st here
  apply (begin_goes (K := Left none (accepted ++ [])) here
    (startCallable_keeps (V.hostKeeps none (accepted ++ [])))).bind
  rintro (error | status) st ran
  · apply (failInvocation_goes ran).bind
    intro _ st tracks
    exact fun _ => tracks
  cases status with
  | halted =>
    apply (takeInvocationResult_goes (ran.running nofun)).bind
    rintro (_ | result) st here
    · apply (failInvocation_goes (.inl here)).bind
      intro _ st tracks
      exact fun _ => tracks
    · apply (setPhase_goes here).bind
      intro _ st here
      exact fun _ => .complete here
  | yielded =>
    rcases ran with here | ⟨⟨value, here⟩, -⟩
    · exact fun _ => .running here
    · exact fun _ => .event here
  | waiting opId => exact fun _ => .running (ran.running nofun)

/-- A pass of the loop that answers the poll. -/
theorem pollInvocation_once {answer : InvocationPoll}
    (active : st.inst.world.invocation = some state)
    (once : Goes (V.pollOnce rounds state) st fun result _ => result = some answer) :
    Goes (V.pollInvocation rounds (passes + 1)) st fun result _ => result = answer := by
  unfold pollInvocation
  rw [Goes, getStream_bind, active]
  apply once.bind
  rintro _ _ rfl
  rfl

/-- A pending error is the next item. -/
theorem pollInvocation_failed {accepted : List Value}
    (here : Streaming st (.errorPending error) reason accepted) :
    Goes (V.pollInvocation rounds (passes + 1)) st fun answer _ =>
      answer = .ready (some (.error error)) := by
  rw [← append_nil accepted, ← append_nil accepted] at here
  obtain ⟨state, active, pending, -⟩ := id here
  apply pollInvocation_once active
  unfold pollOnce waitsOnBridge action
  simp only [wp_bind, pending]
  apply wp_bind.mp
  apply (pollEnd_goes here rfl).mono
  rintro _ _ ⟨rfl, -⟩
  rfl

/-- A pending result that no cancellation supersedes is the next item. -/
theorem pollInvocation_complete {accepted : List Value}
    (here : Streaming st (.completePending value) none accepted) :
    Goes (V.pollInvocation rounds (passes + 1)) st fun answer _ =>
      answer = .ready (some (.ok (.complete value))) := by
  rw [← append_nil accepted, ← append_nil accepted] at here
  obtain ⟨state, active, pending, unrequested, -⟩ := id here
  apply pollInvocation_once active
  unfold pollOnce waitsOnBridge action
  simp only [wp_bind, pending, unrequested, isSome_none, Bool.false_and]
  apply wp_bind.mp
  apply (pollEnd_goes here rfl).mono
  rintro _ _ ⟨rfl, -⟩
  rfl

/-- And so is a pending event. -/
theorem pollInvocation_event {accepted : List Value}
    (here : Streaming st (.eventPending value) none accepted) :
    Goes (V.pollInvocation rounds (passes + 1)) st fun answer _ =>
      answer = .ready (some (.ok (.event value))) := by
  obtain ⟨state, active, pending, unrequested, -⟩ := id here
  apply pollInvocation_once active
  unfold pollOnce waitsOnBridge action
  simp only [pending, unrequested, isSome_none, Bool.false_and]
  apply (replaceInvocationPhase_goes here).bind
  rintro _ st ⟨rfl, -⟩
  rfl

/-- The pass of the loop in which a cancellation takes effect. -/
theorem pollOnce_cancelled {accepted : List Value} (active : st.inst.world.invocation = some state)
    (here : Streaming st phase (some cause) accepted) (unfused : phase ≠ .fused)
    (unfailed : ∀ error, phase ≠ .errorPending error) (free : V.waitsOnBridge st = .ok false st) :
    Goes (V.pollOnce rounds state) st fun answer st' => answer = none ∧
      ∃ reason, Streaming st' (.errorPending (.cancelled cause)) reason accepted := by
  obtain ⟨_, active', isPhase, isReason, -⟩ := id here
  obtain rfl := some.inj (active.symm.trans active')
  apply wp_bind.mpr
  apply wp_of_ok free
  unfold action
  simp only [isPhase, isReason]
  cases phase with
  | fused => exact absurd rfl unfused
  | errorPending error => exact absurd rfl (unfailed error)
  | running =>
    have driven : V.driveInvocation rounds st = .ok (.error (.cancelled cause)) st := by
      have read : getStream st = .ok st.inst.world st := rfl
      unfold driveInvocation
      rw [bind_ok read, active]
      dsimp only [bind_some]
      rw [isReason]
      exact bind_ok free
    apply wp_bind.mpr
    apply wp_of_ok driven
    apply (releaseInvocation_goes here).bind
    intro _ st here
    apply (setPhase_goes here).bind
    intro _ st here
    exact ⟨rfl, none, here⟩
  | _ =>
    apply (pollCancelled_goes here).mono
    rintro answer st ⟨again, here⟩
    exact ⟨again, _, here⟩

/-- A poll after a request to cancel ends the stream with the first reason, unless an error was
already pending or the bridge has to acknowledge the request. -/
theorem pollInvocation_cancelled {accepted : List Value}
    (here : Streaming st phase (some cause) accepted) (unfused : phase ≠ .fused)
    (unfailed : ∀ error, phase ≠ .errorPending error) (free : V.waitsOnBridge st = .ok false st) :
    Goes (V.pollInvocation rounds (passes + 2)) st fun answer _ =>
      answer = .ready (some (.error (.cancelled cause))) := by
  obtain ⟨state, active, -⟩ := id here
  unfold pollInvocation
  rw [Goes, getStream_bind, active]
  apply (pollOnce_cancelled active here unfused unfailed free).bind
  rintro _ st ⟨rfl, reason, here⟩
  exact pollInvocation_failed here

end Polling

/-! ## Schedules -/

/-- What the polls of a schedule hand out. -/
def items (transcript : List (InvocationCall W × InvocationReply)) :
    List (Option (Except InvocationError InvocationItem)) :=
  transcript.filterMap fun entry =>
    match entry.2 with
    | .poll (.ready item) => some item
    | _ => none

/-- The reason of the first request to cancel. -/
def firstReason (transcript : List (InvocationCall W × InvocationReply)) :
    Option OperationCancelReason :=
  transcript.findSome? fun entry =>
    match entry.1 with
    | .cancel reason => some reason
    | _ => none

/-- The item of an event. -/
def eventItem (value : Value) : Option (Except InvocationError InvocationItem) :=
  some (.ok (.event value))

/-- An item that ends the stream; an event has been dropped only if it is an error. -/
inductive Terminal (dropped : List Value) : Except InvocationError InvocationItem → Prop where
  | complete {value : Value} : dropped = [] → Terminal dropped (.ok (.complete value))
  | error {error : InvocationError} : Terminal dropped (.error error)

/-- Every poll says that the stream has ended. -/
def Silent (transcript : List (InvocationCall W × InvocationReply)) : Prop :=
  ∀ entry ∈ transcript, ∀ answer, entry.2 = .poll answer → answer = .ready none

/-- What a schedule sees of a stream: the accepted events in their order, then an item that ends
the stream, then nothing any more. -/
inductive Grammar (before delivered : List Value) (first : Option OperationCancelReason)
    (failed : Prop) (transcript : List (InvocationCall W × InvocationReply))
    (st : State (Stream W)) : Prop where
  | unfinished {events : List Value} : items transcript = events.map eventItem →
      Tracks before (delivered ++ events) (first.or (firstReason transcript)) failed st →
      Grammar before delivered first failed transcript st
  | finished {events dropped : List Value} {call : InvocationCall W}
      {terminal : Except InvocationError InvocationItem}
      {pre post : List (InvocationCall W × InvocationReply)} :
      transcript = pre ++ (call, .poll (.ready (some terminal))) :: post →
      items pre = events.map eventItem → Terminal dropped terminal → Silent post →
      Dropped (first.or (firstReason pre)) failed dropped →
      Ended before (delivered ++ events) dropped st →
      Grammar before delivered first failed transcript st

section Schedules

variable {transcript : List (InvocationCall W × InvocationReply)} {call : InvocationCall W}
  {value : Value} {calls : List (InvocationCall W)}

/-- A call that hands out nothing and requests nothing. -/
theorem Grammar.cons {reply : InvocationReply}
    {first' : Option OperationCancelReason}
    (rest : Grammar before delivered first' failed transcript st)
    (nothing : ∀ transcript, items ((call, reply) :: transcript) = items transcript)
    (requests : ∀ transcript : List (InvocationCall W × InvocationReply),
      first.or (firstReason ((call, reply) :: transcript)) = first'.or (firstReason transcript)) :
    Grammar before delivered first failed ((call, reply) :: transcript) st := by
  cases rest with
  | unfinished handed tracks =>
    refine .unfinished ((nothing _).trans handed) ?_
    rw [requests]
    exact tracks
  | finished split handed terminal silent allowed ended =>
    refine .finished (congrArg _ split) ((nothing _).trans handed) terminal silent ?_ ended
    rw [requests]
    exact allowed

/-- A poll that hands out an event. -/
theorem Grammar.event (rest : Grammar before (delivered ++ [value]) first failed transcript st) :
    Grammar before delivered first failed
      ((.poll rounds passes, .poll (.ready (eventItem value))) :: transcript) st := by
  cases rest with
  | @unfinished events handed tracks =>
    have handedAll : items ((.poll rounds passes, .poll (.ready (eventItem value))) :: transcript) =
        (value :: events).map eventItem := congrArg _ handed
    rw [append_assoc] at tracks
    exact .unfinished handedAll tracks
  | @finished events dropped call terminal pre post split handed isTerminal silent allowed ended =>
    have handedAll : items ((.poll rounds passes, .poll (.ready (eventItem value))) :: pre) =
        (value :: events).map eventItem := congrArg _ handed
    rw [append_assoc] at ended
    exact .finished (congrArg _ split) handedAll isTerminal silent allowed ended

/-- A poll that hands out what ends the stream. -/
theorem Grammar.ends {terminal : Except InvocationError InvocationItem}
    (isTerminal : Terminal dropped terminal) (silent : Silent transcript)
    (allowed : Dropped first failed dropped) (ended : Ended before delivered dropped st) :
    Grammar before delivered first failed
      ((call, .poll (.ready (some terminal))) :: transcript) st := by
  have split : (call, .poll (.ready (some terminal))) :: transcript =
      [] ++ (call, .poll (.ready (some terminal))) :: transcript := rfl
  have none : items ([] : List (InvocationCall W × InvocationReply)) = [].map eventItem := rfl
  refine .finished split none isTerminal silent ?_ ?_
  · rw [firstReason, findSome?_nil, or_none]
    exact allowed
  · rw [append_nil]
    exact ended

theorem runCalls_ended {accepted : List Value} (here : Streaming st .fused none accepted) :
    Goes (V.runCalls calls) st fun transcript st' =>
      Silent transcript ∧ Streaming st' .fused none accepted := by
  induction calls generalizing st with
  | nil => exact ⟨fun _ mem => (not_mem_nil mem).elim, here⟩
  | cons call calls ih =>
    have once : Goes (V.runCall call) st fun reply st' =>
        (∀ answer, reply = .poll answer → answer = .ready none) ∧
          Streaming st' .fused none accepted := by
      cases call with
      | poll rounds passes =>
        cases passes with
        | zero => exact rfl
        | succ passes =>
          apply wp_bind.mpr
          apply wp_of_ok (pollInvocation_ended here)
          refine ⟨?_, here⟩
          rintro _ ⟨⟩
          rfl
      | cancel reason =>
        apply (cancel_ended here).bind
        intro _ st here
        exact ⟨nofun, here⟩
      | world change =>
        apply (modifyStream_goes (by exact here)).bind
        intro _ st here
        exact ⟨nofun, here⟩
    apply once.bind
    rintro reply st ⟨silent, here⟩
    apply (ih here).bind
    rintro rest st ⟨silentRest, here⟩
    refine ⟨?_, here⟩
    intro entry mem
    rcases mem_cons.mp mem with rfl | mem
    · exact silent
    · exact silentRest entry mem

theorem runCalls_goes (tracks : Tracks before delivered first failed st) :
    Goes (V.runCalls calls) st fun transcript st' =>
      Grammar before delivered first failed transcript st' := by
  induction calls generalizing st delivered first with
  | nil =>
    have none : items ([] : List (InvocationCall W × InvocationReply)) = [].map eventItem := rfl
    refine .unfinished none ?_
    rw [append_nil, firstReason, findSome?_nil, or_none]
    exact tracks
  | cons call calls ih =>
    cases call with
    | poll rounds passes =>
      apply Goes.bind (P := fun reply st' => ∃ answer, reply = .poll answer ∧
        Answers before delivered first failed st' answer)
      · apply (pollInvocation_goes tracks).bind
        intro answer st answers
        exact ⟨answer, rfl, answers⟩
      rintro _ st ⟨answer, rfl, answers⟩
      cases answer with
      | pending =>
        apply (ih answers).bind
        intro rest st grammar
        exact grammar.cons (fun _ => rfl) fun _ => rfl
      | ready item =>
        rcases item with _ | (error | (value | value))
        · exact answers.elim
        · obtain ⟨dropped, ended, allowed⟩ := answers
          apply (runCalls_ended ended).bind
          rintro rest st ⟨silent, ended⟩
          exact .ends .error silent allowed ended
        · apply (ih answers).bind
          intro rest st grammar
          exact grammar.event
        · apply (runCalls_ended answers).bind
          rintro rest st ⟨silent, ended⟩
          exact .ends (.complete rfl) silent (.inl rfl) ended
    | cancel reason =>
      apply Goes.bind (P := fun reply st' => (∃ result, reply = .cancel result) ∧
        Tracks before delivered (some (first.getD reason)) failed st')
      · apply (cancel_goes tracks).bind
        intro result st tracks
        exact ⟨⟨result, rfl⟩, tracks⟩
      rintro _ st ⟨⟨result, rfl⟩, tracks⟩
      apply (ih tracks).bind
      intro rest st grammar
      refine grammar.cons (fun _ => rfl) fun _ => ?_
      cases first with
      | none | some cause => rfl
    | world change =>
      apply Goes.bind (P := fun reply st' => reply = .unit ∧
        Tracks before delivered first failed st')
      · refine ⟨rfl, ?_⟩
        cases tracks with
        | running here => exact .running here
        | event here => exact .event here
        | complete here => exact .complete here
        | error here allowed => exact .error here allowed
      rintro _ st ⟨rfl, tracks⟩
      apply (ih tracks).bind
      intro rest st grammar
      exact grammar.cons (fun _ => rfl) fun _ => rfl

/-- The stream has ended. -/
def Fused (st : State (Stream W)) : Prop :=
  ∃ reason accepted, Streaming st .fused reason accepted

/-- What the next poll answers: a pending event or result that no cancellation supersedes; a
pending error; a cancellation, unless an error is pending already or the bridge has to acknowledge;
the end, once it has been reached. -/
structure NextPoll (V : StreamVm W) (first : Option OperationCancelReason)
    (st : State (Stream W)) : Prop where
  event : ∀ value accepted rounds passes, Streaming st (.eventPending value) none accepted →
    Goes (V.pollInvocation rounds (passes + 1)) st fun answer _ => answer = .ready (eventItem value)
  complete : ∀ value accepted rounds passes, Streaming st (.completePending value) none accepted →
    Goes (V.pollInvocation rounds (passes + 1)) st fun answer _ =>
      answer = .ready (some (.ok (.complete value)))
  failed : ∀ error reason accepted rounds passes,
    Streaming st (.errorPending error) reason accepted →
    Goes (V.pollInvocation rounds (passes + 1)) st fun answer _ =>
      answer = .ready (some (.error error))
  cancelled : ∀ cause rounds passes, first = some cause → ¬Fused st → ¬Failing st →
    V.waitsOnBridge st = .ok false st →
    Goes (V.pollInvocation rounds (passes + 2)) st fun answer _ =>
      answer = .ready (some (.error (.cancelled cause)))
  ended : ∀ rounds passes, Fused st → V.pollInvocation rounds (passes + 1) st = .ok (.ready none) st

theorem Tracks.nextPoll (tracks : Tracks before delivered first failed st) :
    NextPoll V first st where
  event _ _ _ _ := pollInvocation_event
  complete _ _ _ _ := pollInvocation_complete
  failed _ _ _ _ _ := pollInvocation_failed
  cancelled := by
    rintro cause rounds passes rfl - unfailed free
    cases tracks with
    | running here | event here | complete here =>
      exact pollInvocation_cancelled here nofun nofun free
    | error here => exact absurd ⟨_, _, _, here⟩ unfailed
  ended := by
    rintro rounds passes ⟨reason, accepted, here⟩
    exact pollInvocation_ended here

theorem Grammar.nextPoll (grammar : Grammar before delivered none failed transcript st) :
    NextPoll V (firstReason transcript) st := by
  cases grammar with
  | unfinished _ tracks => exact tracks.nextPoll
  | finished _ _ _ _ _ ended =>
    exact
      { event := fun _ _ _ _ => pollInvocation_event
        complete := fun _ _ _ _ => pollInvocation_complete
        failed := fun _ _ _ _ _ => pollInvocation_failed
        cancelled := fun _ _ _ _ unfused => absurd ⟨_, _, ended⟩ unfused
        ended := fun rounds passes _ => pollInvocation_ended ended }

/-- **The grammar of an invocation.**  Whatever the schedule, the polls hand out the accepted
events in their order, then one item that ends the stream, then nothing any more.  At most one
accepted event is never handed out: the one that was pending when a cancellation superseded it, or
that the call which started the invocation emitted before it failed.  A result or an error that is
pending is the item of the next poll; once cancellation has been requested, the next poll ends
the stream with the first reason, unless an error was pending already or the bridge has to
acknowledge the request. -/
theorem invocation_stream (V : StreamVm W) (rounds : Nat) (callable : Value) (args : List Value)
    (st : State (Stream W)) :
    Goes (V.startInvocation rounds callable args) st fun result started => result = .ok () →
      ∀ calls, Goes (V.runCalls calls) started fun transcript st' =>
        Grammar st.inst.world.accepted [] none (Failing started) transcript st' ∧
          NextPoll V (firstReason transcript) st' := by
  apply startInvocation_goes.mono
  intro result started tracks begun calls
  apply (runCalls_goes (tracks begun)).mono
  intro transcript st' grammar
  exact ⟨grammar, grammar.nextPoll⟩

end Schedules

/-! ## A cancellation supersedes a pending event -/

/-- A function that emits its constant. -/
def emitProgram : Program where
  constants := [.int 7]
  code := [OpCode.ret.toByte, OpCode.ldc.toByte, 0, 0, 0, 0, OpCode.call.toByte, 0, 0, 1,
    OpCode.ret.toByte]
  localCount := 1
  imports := [⟨"stream::emit", 1, .unknown⟩]
  functionRegions := [⟨0, 1, none⟩, ⟨1, 11, some 0⟩]
  scriptFunctions := [⟨1, 11⟩]
  callablePrototypes := [⟨.functionItem, .scriptFunction 0, 0, 1, [], [], [], [], none, none⟩]
  rootCallableBindings := [⟨0, 0⟩]

/-- Surroundings in which nothing happens. -/
def quietHooks : StreamHooks Unit where
  bindings := .ok ()
  authorize _ _ := .ok ()
  overrides _ := false
  call _ _ s := ⟨.returned [], (), s.nextObject⟩
  isEmit index := index == 0
  eventLimits _ := .default
  hasActiveBridgeOperations _ := false
  scopeReady w := (.ok (), w)
  isHostBridge _ _ := false
  cancelWaiting _ st := (.ok (), { st with inst := { st.inst with waitingHostOp := none } })
  pollWaitingHostOp st := (.pending, st)
  finishCallback st := (.ready (.ok ()), st)
  failCallback error st := (.ready (.error error), st)
  resumeCallableStream st := (.ok .halted, st)
  abortCallableStream error st := (error, st)

theorem emitProgram_constants : [Value.int 7].map Value.erase = emitProgram.constants := rfl

def emitVm : StreamVm Unit where
  engine :=
    { program := emitProgram
      constants := [.int 7]
      erase_constants := emitProgram_constants
      floatOps := noFloats
      host := quietHooks.toHost
      validate := fun _ _ _ => .ok () }
  hooks := quietHooks
  host := rfl

/-- The program is run and its function is invoked. -/
def emitSession (calls : List (InvocationCall Unit)) :
    InvM Unit (Except VmError (List (InvocationCall Unit × InvocationReply))) := do
  let _ ← emitVm.run 3
  emitVm.invocation 9 (.callable 0 ⟨0, .functionItem, none⟩) [] calls

def itemError : Except InvocationError InvocationItem → Option InvocationError
  | .ok _ => none
  | .error error => some error

/-- The errors among the items, and the number of accepted events. -/
def streamShape : EStateM.Result Stuck (State (Stream Unit))
      (Except VmError (List (InvocationCall Unit × InvocationReply))) →
    Option (List (Option (Option InvocationError)) × Nat)
  | .ok (.ok transcript) st =>
    some ((items transcript).map (·.map itemError), st.inst.world.accepted.length)
  | _ => none

/-- An event has been accepted when cancellation is requested, and it is never handed out. -/
theorem pending_event_superseded :
    streamShape (emitSession [.cancel .requested, .poll 9 3, .poll 9 3]
      (emitVm.engine.newState 8 0 ⟨none, [], ()⟩ fun _ => 0)) =
        some ([some (some (.cancelled .requested)), none], 1) := by
  decide +kernel

/-- Without the request it is handed out. -/
example :
    streamShape (emitSession [.poll 9 3, .poll 9 3, .poll 9 3]
      (emitVm.engine.newState 8 0 ⟨none, [], ()⟩ fun _ => 0)) =
        some ([some none, some none, none], 1) := by
  decide +kernel

end RustScript.Vm
