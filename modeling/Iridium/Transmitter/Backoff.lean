import Iridium.Transmitter.InFlight

/-!
# Back-off

The delay before the next attempt is doubled when the timer goes off, used when an exchange fails
the next time, and reset when one is confirmed: three places that are reached by different paths.
What holds of it is said with a history: how often the timer has gone off since the start or since
the last exchange that was confirmed, and the delays that it was started with (`Streak`).
-/

namespace Iridium

open ByteOrder SbdDirectIp

/-- What bears on the delays. -/
def Event.paces : Event → Bool
  | .confirmed _ | .delay _ => true
  | _ => false

/-- Since the start or the last confirmed exchange: how often the timer has gone off, and the delays
that it was started with. -/
structure Streak where
  expirations : Nat := 0
  delays : List Nat := []
  deriving DecidableEq, Repr

def Streak.note (s : Streak) : Event → Streak
  | .confirmed _ => {}
  | .delay ms => { s with delays := s.delays ++ [ms] }
  | _ => s

theorem Streak.foldl_note (s : Streak) (events : List Event) :
    events.foldl Streak.note s = (events.filter Event.paces).foldl Streak.note s := by
  rw [List.foldl_filter]
  congr 1
  funext s event
  cases event <;> rfl

/-- The timer alone is waited for in the error state. -/
theorem OpKind.eq_timer {kind : OpKind} (h : kind.awaitedIn = .error) : kind = .timer := by
  cases kind <;> first | rfl | cases h

namespace SbdTransmitter

variable {past : List UInt8 → Memory} {w v u : SbdTransmitter} {label : Label}

/-- The timer goes off. -/
def Expires (w : SbdTransmitter) : Label → Prop
  | .complete index result => w.handler (.complete index result) = some .timer ∧ result ≠ .aborted
  | _ => False

instance (w : SbdTransmitter) : DecidablePred w.Expires
  | .complete index result => inferInstanceAs
    (Decidable (w.handler (.complete index result) = some .timer ∧ result ≠ .aborted))
  | .start | .stop | .post _ | .dropMessages | .workerBegin | .workerCheck | .workerWake _ =>
    inferInstanceAs (Decidable False)

/-- A step, with what it puts on record. -/
def observe (w : SbdTransmitter) (label : Label) (v : SbdTransmitter) (s : Streak) : Streak :=
  let s := if w.Expires label then { s with expirations := s.expirations + 1 } else s
  (v.log.drop w.log.length).foldl Streak.note s

/-- The delay, and what is on record of it. -/
def pace (w : SbdTransmitter) : UInt16 × List Event := (w.errDelay, w.log.filter Event.paces)

/-- No operation has been cancelled. -/
def Uncancelled (w : SbdTransmitter) : Prop := ∀ op ∈ w.pending, op.cancelled = false

/-! ## Handlers -/

/-- Nothing that matters here has changed. -/
structure Alike (w v : SbdTransmitter) : Prop where
  pace : v.pace = w.pace
  pending : w.pending = [] → v.pending = []

/-- What a completion other than the timer's does to the delay: nothing, or it uses the delay, or it
resets it. -/
inductive Delays (w v : SbdTransmitter) : Prop where
  | level (hpace : v.pace = w.pace) (hstate : v.state ≠ .error)
  | failed (hpace : v.pace = (w.errDelay, w.pace.2 ++ [.delay (heartbeat * w.errDelay.toNat)]))
    (hstate : v.state = .error)
  | confirmed (message : MtMessage) (hpace : v.pace = (1, w.pace.2 ++ [.confirmed message]))
    (hstate : v.state ≠ .error)

/-- That, and it cancels nothing that it has initiated. -/
structure Paced (w v : SbdTransmitter) : Prop where
  delays : w.Delays v
  pending : w.pending = [] → v.Uncancelled

theorem Alike.refl : w.Alike w := ⟨rfl, id⟩

theorem Alike.trans (h : w.Alike u) (h' : u.Alike v) : w.Alike v :=
  ⟨h'.pace.trans h.pace, fun hnone => h'.pending (h.pending hnone)⟩

theorem Delays.after (h : u.pace = w.pace) (h' : u.Delays v) : w.Delays v := by
  have hdelay : u.errDelay = w.errDelay := congrArg Prod.fst h
  cases h' with
  | level hpace hstate => exact .level (hpace.trans h) hstate
  | failed hpace hstate =>
      rw [hdelay, h] at hpace
      exact .failed hpace hstate
  | confirmed message hpace hstate =>
      rw [h] at hpace
      exact .confirmed message hpace hstate

theorem Alike.paced (h : w.Alike u) (h' : u.Paced v) : w.Paced v :=
  ⟨h'.delays.after h.pace, fun hnone => h'.pending (h.pending hnone)⟩

theorem uncancelled_of_none (h : w.pending = []) : w.Uncancelled := by
  intro op hop
  rw [h] at hop
  cases hop

theorem uncancelled_initiate {kind : OpKind} (h : w.Uncancelled) :
    (w.initiate kind).Uncancelled := by
  intro op hop
  rcases List.mem_append.mp hop with hold | hnew
  · exact h op hold
  · cases List.mem_singleton.mp hnew
    rfl

/-- The end of every handler that goes on: an operation is initiated. -/
theorem Alike.initiate {kind : OpKind} (h : w.Alike u) (hstate : u.state ≠ .error) :
    w.Paced (u.initiate kind) :=
  ⟨.level h.pace hstate, fun hnone => uncancelled_initiate (uncancelled_of_none (h.pending hnone))⟩

theorem alike_signal {event : Event} (hevent : event.paces = false) : w.Alike (w.signal event) :=
  ⟨by simp [pace, signal, hevent], id⟩

theorem alike_cancel (which : OpKind → Bool) : w.Alike (w.cancel which) := by
  refine ⟨rfl, ?_⟩
  intro hnone
  rw [cancel, hnone]
  rfl

theorem alike_deref : w.Alike w.deref.2 := by
  unfold deref
  cases w.buf with
  | some data => exact Alike.refl
  | none => exact alike_signal rfl

theorem alike_takeConfirmation (data : List UInt8) : w.Alike (w.takeConfirmation data) := by
  unfold takeConfirmation
  split
  · exact alike_signal rfl
  · exact Alike.refl

theorem alike_takeHeader (data beyond : List UInt8) : w.Alike (w.takeHeader data beyond).2 := by
  have hset : ∀ (u : SbdTransmitter) (data : List UInt8), u.Alike (u.setBuf data) :=
    fun _ _ => ⟨rfl, id⟩
  unfold takeHeader
  dsimp only
  split
  · exact (alike_signal rfl).trans (hset _ _)
  · exact hset _ _

theorem alike_giveBack : w.Alike w.giveBack := by
  have hunget : w.Alike { w with messageQueue := w.messageQueue.unget w.sendingMessage } :=
    ⟨rfl, id⟩
  unfold giveBack
  split
  · exact hunget.trans (alike_signal rfl)
  · exact Alike.refl

theorem paced_startTimer (hstate : w.state = .error) : w.Paced w.startTimer := by
  have hcancel := @alike_cancel w (· == .timer)
  refine ⟨.failed ?_ hstate, ?_⟩
  · simp [pace, startTimer, initiate, signal, cancel, Event.paces]
  · intro hnone
    exact uncancelled_initiate (uncancelled_of_none (hcancel.pending hnone))

theorem paced_error : w.Paced (w.goto .error).enterError := by
  have hgoto : w.Alike (w.goto .error) := ⟨rfl, id⟩
  have hgiven := hgoto.trans alike_giveBack
  have hstate : (w.goto .error).giveBack.state = .error := by
    unfold giveBack
    split <;> rfl
  unfold enterError
  generalize (w.goto .error).giveBack = u at hgiven hstate
  apply hgiven.paced
  dsimp only
  split
  · have hclosed : u.Alike u.closeSocket := alike_cancel OpKind.onSocket
    exact hclosed.paced (paced_startTimer hstate)
  · exact paced_startTimer hstate

theorem paced_fail (what : String) : w.Paced (w.fail what) := by
  have hsignal : w.Alike (w.signal (.onError what)) := alike_signal rfl
  exact hsignal.paced paced_error

theorem alike_succeed :
    ∃ v, w.Alike v ∧ w.succeed = ({ v with errDelay := 1 }.goto .success).enterSuccess := by
  have hderef := @alike_deref w
  unfold succeed
  generalize w.deref = d at hderef
  obtain ⟨data, u⟩ := d
  dsimp only
  split
  · exact ⟨_, hderef.trans (alike_signal rfl), rfl⟩
  · exact ⟨_, hderef, rfl⟩

theorem paced_succeed (message : MtMessage) :
    w.Paced (w.signal (.confirmed message)).succeed := by
  have hlog : (w.signal (.confirmed message)).pace.2 = w.pace.2 ++ [.confirmed message] := by
    simp [pace, signal, Event.paces]
  have hnone : w.pending = [] → (w.signal (.confirmed message)).pending = [] := id
  obtain ⟨v, halike, heq⟩ := @alike_succeed (w.signal (.confirmed message))
  rw [heq]
  have hpace : v.pace.2 = w.pace.2 ++ [.confirmed message] := by rw [halike.pace, hlog]
  refine ⟨.confirmed message (Prod.ext rfl hpace) State.noConfusion, ?_⟩
  intro hpending
  have hclosed := @alike_cancel v OpKind.onSocket
  exact uncancelled_of_none (hclosed.pending (halike.pending (hnone hpending)))

theorem paced_answered (rest : List UInt8) (status : Int16) :
    w.Paced (w.answered rest status) := by
  have hset : w.Alike (w.setBuf rest) := ⟨rfl, id⟩
  have hanswer : w.Alike ((w.setBuf rest).signal (.onTransmitResult status)) :=
    hset.trans (alike_signal rfl)
  unfold answered
  apply hanswer.paced
  dsimp only
  split
  · exact paced_error
  · exact paced_succeed _

variable (past)

theorem paced_processing : w.Paced (w.enterProcessingConfirmation past) := by
  have halike := @alike_deref w
  unfold enterProcessingConfirmation
  generalize w.deref = d at halike
  obtain ⟨data, u⟩ := d
  apply (halike.trans (alike_takeConfirmation data)).paced
  dsimp only
  generalize u.takeConfirmation data = v
  split
  · exact paced_fail _
  · split
    · exact paced_fail _
    · exact paced_answered _ _

theorem paced_receiving :
    w.Paced ((w.goto .receivingConfirmation).enterReceivingConfirmation past) := by
  have hgoto : w.Alike (w.goto .receivingConfirmation) := ⟨rfl, id⟩
  have halike := hgoto.trans alike_deref
  have hstate : (w.goto .receivingConfirmation).deref.2.state = .receivingConfirmation :=
    same_deref.state
  unfold enterReceivingConfirmation
  generalize (w.goto .receivingConfirmation).deref = d at halike hstate
  obtain ⟨data, u⟩ := d
  dsimp only at halike hstate ⊢
  split
  · apply halike.initiate
    rw [hstate]
    exact State.noConfusion
  · have hnext : u.Alike (u.goto .processingConfirmation) := ⟨rfl, id⟩
    exact (halike.trans hnext).paced (paced_processing past)

theorem paced_checkHeader (header : MessageHeader) : w.Paced (w.checkHeader past header) := by
  unfold checkHeader
  split
  · exact paced_fail _
  · have hlength : w.Alike { w with confirmationLength := ntohs header.length } := ⟨rfl, id⟩
    exact hlength.paced (paced_receiving past)

variable {past}

/-- A handler is paced if what it is for is. -/
theorem paced_handle {expected : State} {errorText : String → String}
    {proceed : List UInt8 → List UInt8 → SbdTransmitter} (hstate : w.state ≠ .error)
    (result : Completion) (hproceed : ∀ bytes beyond, w.Paced (proceed bytes beyond)) :
    w.Paced (w.handle expected errorText proceed result) := by
  rcases @handle_cases w expected errorText proceed result with
    ⟨heq, -⟩ | ⟨-, -, -, ⟨message, heq⟩ | ⟨bytes, beyond, -, heq⟩⟩
  · rw [heq]
    exact ⟨.level rfl hstate, uncancelled_of_none⟩
  · rw [heq]
    exact paced_fail _
  · rw [heq]
    exact hproceed bytes beyond

theorem paced_onConnect (hstate : w.state ≠ .error) (result : Completion) :
    w.Paced (w.onConnect result) := by
  apply paced_handle hstate
  intro _ _
  refine ⟨.level ?_ State.noConfusion, ?_⟩
  · simp [pace, enterSending_eq, initiate, signal, setBuf, goto, Event.paces]
  · intro hnone
    exact uncancelled_initiate (uncancelled_of_none hnone)

theorem paced_onWrite (hstate : w.state ≠ .error) (result : Completion) :
    w.Paced (w.onWrite result) := by
  have hreset : w.Alike w.resetBuf := ⟨rfl, id⟩
  have hrests : w.resetBuf.state ≠ .error := hstate
  have hhandle : w.Paced (w.resetBuf.handle .sending ("transmit error: " ++ ·)
      (fun _ _ => (w.resetBuf.goto .receivingHeader).enterReceivingHeader) result) := by
    apply hreset.paced
    apply paced_handle hrests
    intro _ _
    have hempty : w.resetBuf.Alike ((w.resetBuf.goto .receivingHeader).setBuf []) := ⟨rfl, id⟩
    exact hempty.initiate State.noConfusion
  cases result with
  | aborted => exact ⟨.level rfl hstate, uncancelled_of_none⟩
  | failed message => exact hhandle
  | done bytes beyond => exact hhandle

theorem paced_onReadHeader (hstate : w.state ≠ .error) (result : Completion) :
    w.Paced (w.onReadHeader past result) := by
  apply paced_handle hstate
  intro bytes beyond
  have hderef := @alike_deref w
  dsimp only
  generalize w.deref = d at hderef ⊢
  obtain ⟨data, v⟩ := d
  have htake := @alike_takeHeader v (data ++ bytes) beyond
  dsimp only
  generalize v.takeHeader (data ++ bytes) beyond = d at htake ⊢
  obtain ⟨header, u⟩ := d
  exact (hderef.trans htake).paced (paced_checkHeader past header)

theorem paced_onReadConfirmation (hstate : w.state ≠ .error) (result : Completion) :
    w.Paced (w.onReadConfirmation past result) := by
  apply paced_handle hstate
  intro bytes beyond
  have hderef := @alike_deref w
  dsimp only
  generalize w.deref = d at hderef ⊢
  obtain ⟨data, v⟩ := d
  have hset : v.Alike (v.setBuf (data ++ bytes)) := ⟨rfl, id⟩
  exact (hderef.trans hset).paced (paced_receiving past)

/-- Every handler but the timer's. -/
theorem paced_onComplete {kind : OpKind} (hkind : kind ≠ .timer) (hstate : w.state ≠ .error)
    (result : Completion) : w.Paced (w.onComplete past kind result) := by
  cases kind with
  | resolve =>
      apply paced_handle hstate
      intro _ _
      have hgoto : w.Alike (w.goto .connecting) := ⟨rfl, id⟩
      exact hgoto.initiate State.noConfusion
  | connect => exact paced_onConnect hstate result
  | write => exact paced_onWrite hstate result
  | readHeader => exact paced_onReadHeader hstate result
  | readConfirmation => exact paced_onReadConfirmation hstate result
  | timer => exact absurd rfl hkind

/-- The timer's handler doubles the delay, up to the largest one. -/
theorem onTimer_paces {result : Completion} (hresult : result ≠ .aborted) :
    (w.onTimer result).pace
        = (if w.errDelay < maxDelay then w.errDelay * 2 else w.errDelay, w.pace.2)
      ∧ (w.onTimer result).pending = w.pending := by
  rw [onTimer_done hresult]
  split <;> exact ⟨rfl, rfl⟩

/-! ## Steps -/

/-- What a step of a transmitter that is not stopped does to the delay. -/
inductive Beat (w : SbdTransmitter) (label : Label) (v : SbdTransmitter) : Prop where
  | expired (hlabel : w.Expires label) (hbefore : w.state = .error) (hafter : v.state ≠ .error)
    (hthread : v.thread = .looping)
    (hpace : v.pace = (if w.errDelay < maxDelay then w.errDelay * 2 else w.errDelay, w.pace.2))
  | completed (hlabel : ¬ w.Expires label) (hbefore : w.state ≠ .error)
    (hthread : v.thread = .looping) (hdelays : w.Delays v)
  | began (hlabel : ¬ w.Expires label) (hbefore : w.thread = .starting)
    (hafter : v.state ≠ .error) (hpace : v.pace = (1, w.pace.2))
  | quiet (hlabel : ¬ w.Expires label) (hstate : v.state = .error ↔ w.state = .error)
    (hthread : v.thread = .starting ∨ v.thread = .absent →
      w.thread = .starting ∨ w.thread = .absent)
    (hpace : v.pace = w.pace)

theorem beat_complete (hw : w.Steady) {index : Nat} {result : Completion}
    (hresult : result ≠ .aborted) (h : step past w (.complete index result) = some v) :
    Beat w (.complete index result) v := by
  have hthread : v.thread = w.thread := congrArg (·.1) (idle_complete h).1.1
  obtain ⟨op, hop, -, rfl⟩ := step_complete h
  obtain ⟨hstate, -⟩ := hw.sole hop
  have hhandler := @handler_complete w index result op hop
  rw [hw.looping hstate] at hthread
  by_cases htimer : op.kind = .timer
  · rw [htimer] at hstate hhandler hthread ⊢
    rcases @onTimer_cases (w.finish index) result with ⟨haborted, -⟩ | ⟨-, hentered⟩
    · exact absurd haborted hresult
    · refine .expired ⟨hhandler, hresult⟩ hstate ?_ hthread (onTimer_paces hresult).1
      rw [onComplete, hentered.state]
      exact State.noConfusion
  · have hrests : w.state ≠ .error := by
      intro herror
      rw [hstate] at herror
      exact htimer (OpKind.eq_timer herror)
    have hnot : ¬ w.Expires (.complete index result) := by
      rintro ⟨hexpires, -⟩
      rw [hhandler] at hexpires
      exact htimer (Option.some.inj hexpires)
    have hrests' : (w.finish index).state ≠ .error := hrests
    have hpaced := @paced_onComplete past (w.finish index) op.kind htimer hrests' result
    have hfinish : (w.finish index).pace = w.pace := rfl
    exact .completed hnot hrests hthread (hpaced.delays.after hfinish)

theorem pace_attempt : w.attempt.pace = w.pace := by
  simp [pace, attempt, enterResolving, initiate, goto, signal, Event.paces]

theorem beat_attempt (hlabel : ¬ w.Expires label) (hstate : w.state = .notConnected)
    (hpace : u.pace = w.pace) (hthread : u.thread = .looping) : Beat w label u.attempt := by
  have hlooping : u.attempt.thread = .looping := hthread
  refine .quiet hlabel ?_ ?_ (pace_attempt.trans hpace)
  · rw [hstate]
    exact iff_of_false State.noConfusion State.noConfusion
  · rw [hlooping]
    rintro (h | h) <;> cases h

/-- **What a step does to the delay.** -/
theorem step_beat (hw : w.Steady) (hallow : Unstopped label) (h : step past w label = some v) :
    Beat w label v := by
  cases label with
  | start =>
      cases h
      unfold start
      split
      · exact .quiet id Iff.rfl id rfl
      · rename_i hnot
        rw [Bool.not_eq_true] at hnot
        exact .quiet id Iff.rfl (fun _ => .inr (hw.running hnot)) rfl
  | stop => exact hallow.elim
  | post message =>
      cases h
      refine .quiet id Iff.rfl id ?_
      exact (@alike_signal { w with messageQueue := w.messageQueue.put message }
        (.posted message) rfl).pace
  | dropMessages =>
      cases h
      refine .quiet id Iff.rfl id ?_
      exact (@alike_signal { w with messageQueue := w.messageQueue.clear } .dropped rfl).pace
  | workerBegin =>
      obtain ⟨hthread, rfl⟩ := step_workerBegin h
      exact .began id hthread State.noConfusion rfl
  | workerCheck =>
      obtain ⟨hlooping, rfl⟩ := step_workerCheck h
      rcases @workerCheck_cases w with ⟨hshut, -⟩ | ⟨-, hstate, -, heq⟩ | ⟨-, hstate, -, heq⟩
        | ⟨-, -, heq⟩
      · exact absurd (hw.shutdown.symm.trans hshut) (by decide)
      · rw [heq]
        exact beat_attempt id hstate rfl hlooping
      · rw [heq]
        refine .quiet id Iff.rfl ?_ rfl
        rintro (hthread | hthread) <;> cases hthread
      · rw [heq]
        exact .quiet id Iff.rfl id rfl
  | workerWake timedOut =>
      obtain ⟨hthread, rfl⟩ := step_workerWake h
      have hstate := hw.idle (by rw [hthread]; decide)
      have hpace : pace { w with thread := .looping } = w.pace := rfl
      cases timedOut with
      | true =>
          refine .quiet id Iff.rfl ?_ hpace
          rintro (h | h) <;> cases h
      | false => exact beat_attempt id hstate hpace rfl
  | complete index result => exact beat_complete hw hallow h

/-! ## What is cancelled -/

/-- Without a call of `stop` nothing is aborted. -/
theorem unstopped_of_uncancelled (hw : w.Uncancelled) (hlabel : label ≠ .stop)
    (h : step past w label = some v) : Unstopped label := by
  cases label with
  | stop => exact hlabel rfl
  | complete index result =>
      rintro rfl
      obtain ⟨op, hop, hcancelled, -⟩ := step_complete h
      have hnot := hw op (List.mem_of_getElem? hop)
      rw [hcancelled rfl] at hnot
      cases hnot
  | start => trivial
  | post message => trivial
  | dropMessages => trivial
  | workerBegin => trivial
  | workerCheck => trivial
  | workerWake timedOut => trivial

/-- When an operation completes there is nothing left to cancel. -/
theorem uncancelled_complete (hw : w.Steady) {index : Nat} {result : Completion}
    (hresult : result ≠ .aborted) (h : step past w (.complete index result) = some v) :
    v.Uncancelled := by
  obtain ⟨op, hop, -, rfl⟩ := step_complete h
  obtain ⟨hstate, hkinds⟩ := hw.sole hop
  have hnone : (w.finish index).pending = [] := List.map_eq_nil_iff.mp hkinds
  by_cases htimer : op.kind = .timer
  · rw [htimer]
    exact uncancelled_of_none ((onTimer_paces hresult).2.trans hnone)
  · have hrests : (w.finish index).state ≠ .error := fun herror =>
      htimer (OpKind.eq_timer (hstate.symm.trans herror))
    exact (paced_onComplete htimer hrests result).pending hnone

theorem uncancelled_step (hsteady : w.Steady) (hw : w.Uncancelled) (hallow : Unstopped label)
    (h : step past w label = some v) : v.Uncancelled := by
  cases label with
  | start =>
      cases h
      unfold start
      split <;> exact hw
  | stop => exact hallow.elim
  | post message =>
      cases h
      exact hw
  | dropMessages =>
      cases h
      exact hw
  | workerBegin =>
      obtain ⟨-, rfl⟩ := step_workerBegin h
      exact hw
  | workerCheck =>
      obtain ⟨-, rfl⟩ := step_workerCheck h
      rcases @workerCheck_cases w with ⟨-, heq⟩ | ⟨-, -, -, heq⟩ | ⟨-, -, -, heq⟩ | ⟨-, -, heq⟩ <;>
        rw [heq]
      · exact hw
      · exact uncancelled_initiate hw
      · exact hw
      · exact hw
  | workerWake timedOut =>
      obtain ⟨-, rfl⟩ := step_workerWake h
      cases timedOut with
      | true => exact hw
      | false => exact uncancelled_initiate hw
  | complete index result => exact uncancelled_complete hsteady hallow h

/-! ## The history -/

/-- What a step puts on record, as far as it bears on the delays. -/
theorem observe_eq {s : Streak} {events : List Event} (hlog : w.log <+: v.log)
    (hpace : v.pace.2 = w.pace.2 ++ events) :
    w.observe label v s
      = events.foldl Streak.note
        (if w.Expires label then { s with expirations := s.expirations + 1 } else s) := by
  obtain ⟨new, hnew⟩ := hlog
  have hfilter : new.filter Event.paces = events := by
    unfold pace at hpace
    rw [← hnew, List.filter_append] at hpace
    exact List.append_cancel_left hpace
  rw [observe, ← hnew, List.drop_left, Streak.foldl_note, hfilter]

/-- Up to the largest delay, each expiration doubles it. -/
theorem toNat_doubled {e : UInt16} {k : Nat} (h : e.toNat = 2 ^ min k 6) :
    (if e < maxDelay then e * 2 else e).toNat = 2 ^ min (k + 1) 6 := by
  have hmax : e < maxDelay ↔ e.toNat < 64 := UInt16.lt_iff_toNat_lt
  rcases Nat.lt_or_ge k 6 with hk | hk
  · have hpow : 2 ^ k < 2 ^ 6 := Nat.pow_lt_pow_right (by decide) hk
    rw [Nat.min_eq_left hk.le] at h
    have htwo : (2 : UInt16).toNat = 2 := rfl
    rw [if_pos (by rw [hmax, h]; exact hpow), UInt16.toNat_mul, h, htwo, Nat.min_eq_left hk,
      pow_succ]
    exact Nat.mod_eq_of_lt (by omega)
  · rw [Nat.min_eq_right hk] at h
    rw [if_neg (by rw [hmax, h]; decide), h, Nat.min_eq_right (by omega)]

/-- **The delay is `2 ^ min k 6` heartbeats after `k` expirations**, and that is what the timer was
started with each time. -/
structure Backoff (w : SbdTransmitter) (s : Streak) : Prop where
  steady : w.Steady
  uncancelled : w.Uncancelled
  errDelay : w.errDelay.toNat = 2 ^ min s.expirations 6
  delays : s.delays = (List.range s.delays.length).map fun k => heartbeat * 2 ^ min k 6
  armed : s.delays.length = s.expirations + if w.state = .error then 1 else 0
  fresh : w.thread = .starting ∨ w.thread = .absent → s = {}
  range : ∀ ms, .delay ms ∈ w.pace.2 → 0 < ms ∧ ms ≤ 6400

theorem backoff_init (host port : String) (heap : Heap) : (init host port heap).Backoff {} where
  steady := steady_init host port heap
  uncancelled := uncancelled_of_none rfl
  errDelay := rfl
  delays := rfl
  armed := rfl
  fresh _ := rfl
  range _ h := nomatch h

/-- A delay of at most `2 ^ 6` heartbeats. -/
theorem Backoff.delay_range {s : Streak} (h : w.Backoff s) :
    0 < heartbeat * w.errDelay.toNat ∧ heartbeat * w.errDelay.toNat ≤ 6400 := by
  have hpos : 0 < 2 ^ min s.expirations 6 := Nat.two_pow_pos _
  have hle : 2 ^ min s.expirations 6 ≤ 2 ^ 6 :=
    Nat.pow_le_pow_right (by decide) (Nat.min_le_right _ _)
  rw [h.errDelay, heartbeat]
  omega

/-- The timer is started with the delay that belongs to the number of expirations. -/
theorem Backoff.armed_next {s : Streak} (h : w.Backoff s) (hstate : w.state ≠ .error) :
    s.delays ++ [heartbeat * w.errDelay.toNat]
      = (List.range (s.delays.length + 1)).map fun k => heartbeat * 2 ^ min k 6 := by
  have hlength : s.delays.length = s.expirations := by rw [h.armed, if_neg hstate, Nat.add_zero]
  rw [List.range_succ, List.map_append, ← h.delays, h.errDelay, hlength]
  rfl

theorem not_fresh (hthread : v.thread = .looping) :
    ¬ (v.thread = .starting ∨ v.thread = .absent) := by
  rw [hthread]
  rintro (h | h) <;> cases h

section Kept

variable {s : Streak}

/-- Nothing has happened to the delay. -/
theorem Backoff.same (h : w.Backoff s) (hsteady : v.Steady) (hkept : v.Uncancelled)
    (hpace : v.pace = w.pace) (hstate : v.state = .error ↔ w.state = .error)
    (hthread : v.thread = .starting ∨ v.thread = .absent →
      w.thread = .starting ∨ w.thread = .absent) : v.Backoff s := by
  have hdelay : v.errDelay = w.errDelay := congrArg Prod.fst hpace
  refine ⟨hsteady, hkept, ?_, h.delays, ?_, fun hfresh => h.fresh (hthread hfresh), ?_⟩
  · rw [hdelay]
    exact h.errDelay
  · rw [h.armed]
    simp only [hstate]
  · rw [hpace]
    exact h.range

/-- The delay is back at its first value, and nothing is counted. -/
theorem Backoff.reset (h : w.Backoff s) (hsteady : v.Steady) (hkept : v.Uncancelled)
    {events : List Event} (hpace : v.pace = (1, w.pace.2 ++ events))
    (hevents : ∀ ms, .delay ms ∉ events) (hstate : v.state ≠ .error) : v.Backoff {} := by
  have hdelay : v.errDelay = 1 := congrArg Prod.fst hpace
  refine ⟨hsteady, hkept, ?_, rfl, ?_, fun _ => rfl, ?_⟩
  · rw [hdelay]
    rfl
  · rw [if_neg hstate]
    rfl
  · intro ms hms
    rw [hpace] at hms
    rcases List.mem_append.mp hms with hold | hnew
    · exact h.range ms hold
    · exact absurd hnew (hevents ms)

/-- The timer has gone off. -/
theorem Backoff.expired (h : w.Backoff s) (hsteady : v.Steady) (hkept : v.Uncancelled)
    (hpace : v.pace = (if w.errDelay < maxDelay then w.errDelay * 2 else w.errDelay, w.pace.2))
    (hbefore : w.state = .error) (hafter : v.state ≠ .error) (hthread : v.thread = .looping) :
    v.Backoff { s with expirations := s.expirations + 1 } := by
  have hdelay : v.errDelay = if w.errDelay < maxDelay then w.errDelay * 2 else w.errDelay :=
    congrArg Prod.fst hpace
  have harmed := h.armed
  rw [if_pos hbefore] at harmed
  refine ⟨hsteady, hkept, ?_, h.delays, ?_, fun hfresh => absurd hfresh (not_fresh hthread), ?_⟩
  · rw [hdelay]
    exact toNat_doubled h.errDelay
  · rw [if_neg hafter]
    exact harmed
  · rw [hpace]
    exact h.range

/-- The timer has been started. -/
theorem Backoff.failed (h : w.Backoff s) (hsteady : v.Steady) (hkept : v.Uncancelled)
    (hpace : v.pace = (w.errDelay, w.pace.2 ++ [.delay (heartbeat * w.errDelay.toNat)]))
    (hbefore : w.state ≠ .error) (hafter : v.state = .error) (hthread : v.thread = .looping) :
    v.Backoff { s with delays := s.delays ++ [heartbeat * w.errDelay.toNat] } := by
  have hdelay : v.errDelay = w.errDelay := congrArg Prod.fst hpace
  refine ⟨hsteady, hkept, ?_, ?_, ?_, fun hfresh => absurd hfresh (not_fresh hthread), ?_⟩
  · rw [hdelay]
    exact h.errDelay
  · have hnext := h.armed_next hbefore
    simpa using hnext
  · simp [h.armed, hbefore, hafter]
  · intro ms hms
    rw [hpace] at hms
    rcases List.mem_append.mp hms with hold | hnew
    · exact h.range ms hold
    · cases List.mem_singleton.mp hnew
      exact h.delay_range

end Kept

/-- **A step of a transmitter that is not stopped keeps the delays.** -/
theorem backoff_step {s : Streak} (h : w.Backoff s) (hlabel : label ≠ .stop)
    (hstep : step past w label = some v) : v.Backoff (w.observe label v s) := by
  have hallow := unstopped_of_uncancelled h.uncancelled hlabel hstep
  have hsteady := steady_step h.steady hallow hstep
  have hkept := uncancelled_step h.steady h.uncancelled hallow hstep
  have hobserve := fun events => @observe_eq w v label s events (log_step hstep)
  cases step_beat h.steady hallow hstep with
  | expired hexpires hbefore hafter hthread hpace =>
      rw [hobserve [] (by rw [hpace, List.append_nil]), if_pos hexpires]
      exact h.expired hsteady hkept hpace hbefore hafter hthread
  | began hnot hbefore hafter hpace =>
      rw [hobserve [] (by rw [hpace, List.append_nil]), if_neg hnot, h.fresh (.inl hbefore)]
      rw [← List.append_nil w.pace.2] at hpace
      exact h.reset hsteady hkept hpace (by simp) hafter
  | quiet hnot hstate hthread hpace =>
      rw [hobserve [] (by rw [hpace, List.append_nil]), if_neg hnot]
      exact h.same hsteady hkept hpace hstate hthread
  | completed hnot hbefore hthread hdelays =>
      cases hdelays with
      | level hpace hafter =>
          rw [hobserve [] (by rw [hpace, List.append_nil]), if_neg hnot]
          exact h.same hsteady hkept hpace (iff_of_false hafter hbefore)
            (fun hfresh => absurd hfresh (not_fresh hthread))
      | failed hpace hafter =>
          rw [hobserve _ (congrArg Prod.snd hpace), if_neg hnot]
          exact h.failed hsteady hkept hpace hbefore hafter hthread
      | confirmed message hpace hafter =>
          rw [hobserve _ (congrArg Prod.snd hpace)]
          exact h.reset hsteady hkept hpace (by simp) hafter

/-- **Retry back-off is a bounded exponential.** In every state that a transmitter reaches without
being stopped, the delay is `2 ^ min k 6` where `k` is how often the timer has gone off since the
start or the last confirmed exchange. Since then the timer has been started once for each
expiration, and once more where the machine waits for it, and the `(k + 1)`-th time for
`100 * 2 ^ min k 6` milliseconds. No delay has ever been zero or above 6400 milliseconds, and
neither product overflows. -/
theorem backoff_exponential {host port : String} {heap : Heap} {labels : List Label}
    (h : (system past).Run (fun _ label => label ≠ .stop) (init host port heap) labels w) :
    ∃ s, ((system past).withHistory observe).Run (fun _ label => label ≠ .stop)
        (init host port heap, {}) labels (w, s)
      ∧ w.errDelay.toNat = 2 ^ min s.expirations 6
      ∧ s.delays.length = s.expirations + (if w.state = .error then 1 else 0)
      ∧ (∀ k ms, s.delays[k]? = some ms → ms = 100 * 2 ^ min k 6)
      ∧ (∀ ms, .delay ms ∈ w.log → 0 < ms ∧ ms ≤ 6400)
      ∧ w.errDelay.toNat * 2 < 2 ^ 16 ∧ heartbeat * w.errDelay.toNat < 2 ^ 16 := by
  obtain ⟨s, hrun⟩ := @System.Run.withHistory _ _ _ (system past) observe _ _ _ _ h {}
  have hstep : ∀ t label u, t.1.Backoff t.2 → label ≠ .stop →
      ((system past).withHistory observe).step t label = some u → u.1.Backoff u.2 := by
    intro t label u ht hlabel hnext
    obtain ⟨hstep, hhistory⟩ := System.withHistory_step hnext
    rw [hhistory]
    exact backoff_step ht hlabel hstep
  have hkept := hrun.invariant hstep (backoff_init host port heap)
  have hbackoff : w.Backoff s := hkept
  obtain ⟨-, hmax⟩ := hbackoff.delay_range
  refine ⟨s, hrun, hbackoff.errDelay, hbackoff.armed, ?_, ?_, ?_, by omega⟩
  · intro k ms hms
    rw [hbackoff.delays, List.getElem?_map, Option.map_eq_some_iff] at hms
    obtain ⟨i, hi, rfl⟩ := hms
    obtain ⟨-, rfl⟩ := List.getElem?_eq_some_iff.mp hi
    rw [List.getElem_range]
    rfl
  · intro ms hms
    exact hbackoff.range ms (List.mem_filter.mpr ⟨hms, rfl⟩)
  · rw [heartbeat] at hmax
    omega

/-- A resolver that fails three times. -/
def backoffLabels : List Label :=
  [.start, .workerBegin, .post (MtMessage.init 1),
    .workerCheck, .complete 0 (.failed "no such host"), .complete 0 (.done [] []),
    .workerCheck, .complete 0 (.failed "no such host"), .complete 0 (.done [] []),
    .workerCheck, .complete 0 (.failed "no such host")]

theorem backoff_exponential_sample :
    ∃ w s, ((system fun _ _ => 0).withHistory observe).Run (fun _ label => label ≠ .stop)
        (init "h" "p" Heap.empty, {}) backoffLabels (w, s)
      ∧ w.state = .error ∧ w.errDelay = 4 ∧ s.expirations = 2 ∧ s.delays.length = 3 := by
  obtain ⟨w, hrun, hstate, hdelay⟩ := @System.exists_run_of_exec _ _ (system fun _ _ => 0)
    (fun _ label => label ≠ .stop) _ (init "h" "p" Heap.empty) backoffLabels
    (fun w => w.state = .error ∧ w.errDelay = 4) _ (by decide +kernel)
  obtain ⟨s, hhistory, hexponent, hlength, -⟩ := backoff_exponential hrun
  have htwo : 2 ^ 2 = 2 ^ min s.expirations 6 := by
    rw [← hexponent, hdelay]
    rfl
  have hmin := Nat.pow_right_injective (le_refl 2) htwo
  have hexpirations : s.expirations = 2 := by omega
  rw [if_pos hstate, hexpirations] at hlength
  exact ⟨w, s, hhistory, hstate, hdelay, hexpirations, hlength⟩

end SbdTransmitter

end Iridium
