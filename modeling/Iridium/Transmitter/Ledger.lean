import Iridium.SbdTransmitter

/-!
# The ledger of a transmitter

What a transmitter has of messages is its `ledger`: those posted, those confirmed, the one it holds
while it is sending or waiting for an answer, those in its queue, and what it has done with them.
Here is what every state, when it is entered (`Entered`), and every handler (`Handled`) does to the
ledger, to the state and to the operations under way; nothing after this unfolds a handler.
-/

namespace Iridium

open ByteOrder SbdDirectIp

/-- A message is out of the queue and not yet accounted for. -/
def State.holds : State → Bool
  | .sending | .receivingHeader | .receivingConfirmation | .processingConfirmation => true
  | _ => false

/-- An attempt is under way, and its message not out of the queue. -/
def State.attempting : State → Bool
  | .resolving | .connecting => true
  | _ => false

/-- The operation that a state waits for. -/
def State.operations : State → List OpKind
  | .resolving => [.resolve]
  | .connecting => [.connect]
  | .sending => [.write]
  | .receivingHeader => [.readHeader]
  | .receivingConfirmation => [.readConfirmation]
  | .error => [.timer]
  | .notConnected | .processingConfirmation | .success => []

/-- The state in which the handler of an operation does its work. -/
def OpKind.awaitedIn : OpKind → State
  | .resolve => .resolving
  | .connect => .connecting
  | .write => .sending
  | .readHeader => .receivingHeader
  | .readConfirmation => .receivingConfirmation
  | .timer => .error

theorem OpKind.operations_awaitedIn (kind : OpKind) : kind.awaitedIn.operations = [kind] := by
  cases kind <;> rfl

/-- No handler is for a machine that is not connected. -/
theorem OpKind.awaitedIn_ne (kind : OpKind) : kind.awaitedIn ≠ .notConnected := by
  intro h
  have hoperations := kind.operations_awaitedIn
  rw [h] at hoperations
  cases hoperations

/-- An operation is started in one state only, and its handler is for that state. -/
theorem OpKind.eq_awaitedIn {kind : OpKind} {s : State} (h : kind ∈ s.operations) :
    s = kind.awaitedIn := by
  cases s <;> simp only [State.operations, List.mem_singleton, List.not_mem_nil] at h <;>
    rw [h] <;> rfl

def Event.posted? : Event → Option MtMessage
  | .posted message => some message
  | _ => none

def Event.confirmed? : Event → Option MtMessage
  | .confirmed message => some message
  | _ => none

/-- What concerns the queue or leaves the transmitter. -/
def Event.traffic : Event → Bool
  | .posted _ | .dropped | .attempt _ | .got _ _ | .wrote _ _ | .ungot _ => true
  | _ => false

/-- The messages of a transmitter, its traffic, and the heap that the messages live in. -/
structure Ledger where
  posted : List MtMessage
  confirmed : List MtMessage
  held : Option MtMessage
  jobs : List MtMessage
  traffic : List Event
  heap : Heap

namespace Ledger

variable (l : Ledger)

def post (message : MtMessage) : Ledger :=
  { l with
    posted := l.posted ++ [message], jobs := l.jobs ++ [message]
    traffic := l.traffic ++ [.posted message] }

def cleared : Ledger := { l with jobs := [], traffic := l.traffic ++ [.dropped] }

/-- An attempt is started. -/
def attempted : Ledger := { l with traffic := l.traffic ++ [.attempt (l.jobs = [])] }

/-- The first message of the queue is held and sent, or a default-constructed one. -/
def taken : Ledger :=
  let message := l.jobs.headD default
  let (bytes, heap) := message.serialize l.heap
  { l with
    held := some message, jobs := l.jobs.tail, heap := heap
    traffic := l.traffic ++ [.got message (l.jobs = []), .wrote message bytes] }

/-- The message held goes back to the front of the queue, if there is one. -/
def returned : Ledger :=
  { l with
    held := none, jobs := l.held.toList ++ l.jobs
    traffic := l.traffic ++ l.held.toList.map .ungot }

/-- The message held is confirmed, if there is one. -/
def delivered : Ledger := { l with held := none, confirmed := l.confirmed ++ l.held.toList }

/-- The message held is lost, if there is one. -/
def lost : Ledger := { l with held := none }

end Ledger

namespace SbdTransmitter

/-- The messages posted so far. -/
def posted (w : SbdTransmitter) : List MtMessage := w.log.filterMap Event.posted?

/-- The messages for which a confirmation with a status that is not negative was processed. -/
def confirmed (w : SbdTransmitter) : List MtMessage := w.log.filterMap Event.confirmed?

/-- The message held: `m_sendingMessage`, in the states in which it counts. -/
def held (w : SbdTransmitter) : Option MtMessage :=
  if w.state.holds then some w.sendingMessage else none

def traffic (w : SbdTransmitter) : List Event := w.log.filter Event.traffic

def ledger (w : SbdTransmitter) : Ledger :=
  ⟨w.posted, w.confirmed, w.held, w.messageQueue.jobs, w.traffic, w.heap⟩

/-- The operations that are pending. -/
def kinds (w : SbdTransmitter) : List OpKind := w.pending.map (·.kind)

/-- What the state machine and the handlers leave alone. -/
def frame (w : SbdTransmitter) : Thread × Bool × Bool := (w.thread, w.running, w.shutdown)

/-! ## Entering a state -/

section Entered

variable (w v : SbdTransmitter)

/-- `v` has everything of `w` that matters here. -/
structure Same : Prop where
  ledger : v.ledger = w.ledger
  state : v.state = w.state
  kinds : v.kinds = w.kinds
  frame : v.frame = w.frame
  log : w.log <+: v.log

/-- `v` is `w` after the state `s` has been entered, with its operation under way, and with the
messages as in `l`. -/
structure Entered (s : State) (l : Ledger) : Prop where
  ledger : v.ledger = l
  state : v.state = s
  kinds : v.kinds = w.kinds ++ s.operations
  frame : v.frame = w.frame
  log : w.log <+: v.log

/-- What may become of the message held when an answer is complete. -/
def Settled : Prop :=
  w.Entered v .error w.ledger.returned ∨ w.Entered v .notConnected w.ledger.delivered

variable {w v} {u : SbdTransmitter} {s : State} {l : Ledger}

theorem Same.refl : w.Same w := ⟨rfl, rfl, rfl, rfl, List.prefix_rfl⟩

theorem Same.trans (h : w.Same v) (h' : v.Same u) : w.Same u :=
  ⟨h'.ledger.trans h.ledger, h'.state.trans h.state, h'.kinds.trans h.kinds,
    h'.frame.trans h.frame, h.log.trans h'.log⟩

theorem Same.entered (h : w.Same v) (h' : v.Entered u s l) : w.Entered u s l :=
  ⟨h'.ledger, h'.state, by rw [h'.kinds, h.kinds], h'.frame.trans h.frame, h.log.trans h'.log⟩

theorem Same.settled (h : w.Same v) (h' : v.Settled u) : w.Settled u := by
  rcases h' with h' | h' <;> rw [h.ledger] at h'
  · exact .inl (h.entered h')
  · exact .inr (h.entered h')

theorem same_signal {event : Event} (htraffic : event.traffic = false)
    (hconfirmed : event.confirmed? = none) : w.Same (w.signal event) := by
  have hposted : event.posted? = none := by
    cases event with
    | posted message => cases htraffic
    | _ => rfl
  have hp : (w.signal event).posted = w.posted := by simp [posted, signal, hposted]
  have hc : (w.signal event).confirmed = w.confirmed := by simp [confirmed, signal, hconfirmed]
  have ht : (w.signal event).traffic = w.traffic := by simp [traffic, signal, htraffic]
  refine ⟨?_, rfl, rfl, rfl, List.prefix_append _ _⟩
  rw [ledger, hp, hc, ht]
  rfl

theorem same_setBuf (data : List UInt8) : w.Same (w.setBuf data) :=
  ⟨rfl, rfl, rfl, rfl, List.prefix_rfl⟩

theorem deref_eq {data : List UInt8} (hbuf : w.buf = some data) : w.deref = (data, w) := by
  rw [deref, hbuf]

theorem same_deref : w.Same w.deref.2 := by
  unfold deref
  cases w.buf with
  | some data => exact Same.refl
  | none => exact same_signal rfl rfl

theorem takeConfirmation_eq {data : List UInt8} (hlen : w.confirmationLength.toNat ≤ data.length) :
    w.takeConfirmation data = w :=
  if_neg (Nat.not_lt.mpr hlen)

theorem same_takeConfirmation (data : List UInt8) : w.Same (w.takeConfirmation data) := by
  unfold takeConfirmation
  split
  · exact same_signal rfl rfl
  · exact Same.refl

theorem kinds_cancel (which : OpKind → Bool) : (w.cancel which).kinds = w.kinds := by
  unfold kinds cancel
  rw [List.map_map]
  apply List.map_congr_left
  intro op _
  show (if which op.kind then { op with cancelled := true } else op).kind = op.kind
  split <;> rfl

theorem same_cancel (which : OpKind → Bool) : w.Same (w.cancel which) :=
  ⟨rfl, rfl, kinds_cancel which, rfl, List.prefix_rfl⟩

theorem kinds_initiate (kind : OpKind) : (w.initiate kind).kinds = w.kinds ++ [kind] := by
  simp [kinds, initiate]

end Entered

/-! ## The cases of the state machine -/

section Cases

variable (past : List UInt8 → Memory) {w : SbdTransmitter}

/-- The error exit gives back the message held, whichever state it is taken from. -/
theorem ledger_giveBack (hmin : 1 ≤ w.state.value) (hmax : w.state.value ≤ 6) :
    (w.goto .error).giveBack.ledger = w.ledger.returned := by
  have hholds : State.sending.value ≤ w.state.value ↔ w.state.holds = true := by
    cases hstate : w.state <;> simp [hstate, State.value] at hmin hmax <;>
      simp [State.value, State.holds]
  have herror : State.error.holds = false := rfl
  by_cases h : w.state.holds = true
  · have hge := hholds.mpr h
    simp [giveBack, goto, signal, ledger, posted, confirmed, held, traffic, hge, h, herror,
      Ledger.returned, Event.posted?, Event.confirmed?, Event.traffic, JobUnitQueue.unget]
  · have hlt := mt hholds.mp h
    simp [giveBack, goto, ledger, posted, confirmed, held, traffic, hlt, h, herror, Ledger.returned]

theorem entered_startTimer (hstate : w.state = .error) :
    w.Entered w.startTimer .error w.ledger := by
  have hsame : w.Same ((w.cancel (· == .timer)).signal (.delay (heartbeat * w.errDelay.toNat))) :=
    (same_cancel _).trans (same_signal rfl rfl)
  refine ⟨hsame.ledger, hstate, ?_, rfl, hsame.log⟩
  rw [startTimer, kinds_initiate, hsame.kinds]
  rfl

theorem entered_error (hmin : 1 ≤ w.state.value) (hmax : w.state.value ≤ 6) :
    w.Entered (w.goto .error).enterError .error w.ledger.returned := by
  have hledger := ledger_giveBack hmin hmax
  have hkinds : (w.goto .error).giveBack.kinds = w.kinds := by
    unfold giveBack
    split <;> rfl
  have hstate : (w.goto .error).giveBack.state = .error := by
    unfold giveBack
    split <;> rfl
  have hframe : (w.goto .error).giveBack.frame = w.frame := by
    unfold giveBack
    split <;> rfl
  have hlog : w.log <+: (w.goto .error).giveBack.log := by
    unfold giveBack
    split
    · exact List.prefix_append _ _
    · exact List.prefix_rfl
  unfold enterError
  -- nothing more of `giveBack` is needed
  generalize (w.goto .error).giveBack = u at hledger hkinds hstate hframe hlog
  have hsame : u.Same (if State.connecting.value < u.prevState.value then u.closeSocket else u) := by
    split
    · exact same_cancel _
    · exact Same.refl
  dsimp only
  generalize (if State.connecting.value < u.prevState.value then u.closeSocket else u) = v
    at hsame
  have h := entered_startTimer (hsame.state.trans hstate)
  rw [hsame.ledger, hledger] at h
  exact ⟨h.ledger, h.state, by rw [h.kinds, hsame.kinds, hkinds],
    h.frame.trans (hsame.frame.trans hframe), hlog.trans (hsame.log.trans h.log)⟩

theorem entered_fail (what : String) (hmin : 1 ≤ w.state.value) (hmax : w.state.value ≤ 6) :
    w.Entered (w.fail what) .error w.ledger.returned := by
  have hsame : w.Same (w.signal (.onError what)) := same_signal rfl rfl
  have h := @entered_error (w.signal (.onError what)) hmin hmax
  rw [hsame.ledger] at h
  exact hsame.entered h

/-- Success closes the record of the message held. -/
theorem entered_success :
    w.Entered (w.goto .success).enterSuccess .notConnected w.ledger.lost := by
  refine ⟨rfl, rfl, ?_, rfl, List.prefix_rfl⟩
  have h : (w.goto .success).enterSuccess.kinds = w.kinds := kinds_cancel OpKind.onSocket
  rw [h]
  exact (List.append_nil _).symm

/-- It has been confirmed before. -/
theorem ledger_confirmed (hholds : w.state.holds = true) :
    (w.signal (.confirmed w.sendingMessage)).ledger.lost = w.ledger.delivered := by
  simp [signal, ledger, posted, confirmed, held, traffic, hholds, Ledger.lost, Ledger.delivered,
    Event.posted?, Event.confirmed?, Event.traffic]

theorem same_succeed : ∃ u, w.Same u ∧ w.succeed = (u.goto .success).enterSuccess := by
  have hderef := @same_deref w
  unfold succeed
  generalize w.deref = d at hderef
  obtain ⟨data, u⟩ := d
  refine ⟨_, hderef.trans ?_, rfl⟩
  dsimp only
  split
  · have hsame : u.Same (u.signal (.onError (toString data.length ++ " unexpected bytes received"))) :=
      same_signal rfl rfl
    exact ⟨hsame.ledger, rfl, rfl, rfl, hsame.log⟩
  · exact ⟨rfl, rfl, rfl, rfl, List.prefix_rfl⟩

theorem settled_answered (rest : List UInt8) (status : Int16)
    (hstate : w.state = .processingConfirmation) : w.Settled (w.answered rest status) := by
  have hsame : w.Same ((w.setBuf rest).signal (.onTransmitResult status)) :=
    (same_setBuf rest).trans (same_signal rfl rfl)
  unfold answered
  generalize (w.setBuf rest).signal (.onTransmitResult status) = u at hsame
  apply hsame.settled
  have hu : u.state = .processingConfirmation := hsame.state.trans hstate
  dsimp only
  split
  · exact .inl (entered_error (by rw [hu]; decide) (by rw [hu]; decide))
  · have hholds : u.state.holds = true := by rw [hu]; rfl
    obtain ⟨v, hv, heq⟩ := @same_succeed (u.signal (.confirmed u.sendingMessage))
    have h := @entered_success v
    rw [hv.ledger, ledger_confirmed hholds] at h
    rw [heq]
    have hkinds : (u.signal (.confirmed u.sendingMessage)).kinds = u.kinds := rfl
    have hlog : u.log <+: (u.signal (.confirmed u.sendingMessage)).log := List.prefix_append _ _
    exact .inr ⟨h.ledger, h.state, by rw [h.kinds, hv.kinds, hkinds], h.frame.trans hv.frame,
      hlog.trans (hv.log.trans h.log)⟩

/-- A complete answer returns the message or delivers it. -/
theorem settled_processing (hstate : w.state = .processingConfirmation) :
    w.Settled (w.enterProcessingConfirmation past) := by
  have hsame := @same_deref w
  unfold enterProcessingConfirmation
  generalize w.deref = d at hsame
  obtain ⟨data, u⟩ := d
  replace hsame := hsame.trans (same_takeConfirmation data)
  dsimp only
  generalize u.takeConfirmation data = v at hsame ⊢
  apply hsame.settled
  have hv : v.state = .processingConfirmation := hsame.state.trans hstate
  have hmin : 1 ≤ v.state.value := by rw [hv]; decide
  have hmax : v.state.value ≤ 6 := by rw [hv]; decide
  split
  · exact .inl (entered_fail _ hmin hmax)
  · split
    · exact .inl (entered_fail _ hmin hmax)
    · exact settled_answered _ _ hv

/-- A goto between states that both hold the message changes nothing of it. -/
theorem ledger_goto {s : State} (h : s.holds = w.state.holds) : (w.goto s).ledger = w.ledger := by
  simp [goto, ledger, posted, confirmed, held, traffic, h]

/-- An answer that is not complete yet keeps the message held. -/
theorem received_confirmation (hstate : w.state = .receivingConfirmation) :
    w.Entered (w.enterReceivingConfirmation past) .receivingConfirmation w.ledger
      ∨ w.Settled (w.enterReceivingConfirmation past) := by
  have hsame := @same_deref w
  unfold enterReceivingConfirmation
  generalize w.deref = d at hsame
  obtain ⟨data, v⟩ := d
  have hv : v.state = .receivingConfirmation := hsame.state.trans hstate
  dsimp only
  -- to be read on, or complete
  split
  · exact .inl ⟨hsame.ledger, hv, by rw [kinds_initiate, hsame.kinds]; rfl, hsame.frame, hsame.log⟩
  · have hgoto : (v.goto .processingConfirmation).ledger = v.ledger :=
      ledger_goto (by rw [hv]; rfl)
    have h := @settled_processing past (v.goto .processingConfirmation) rfl
    rw [Settled, hgoto] at h
    refine .inr (hsame.settled ?_)
    rcases h with h | h
    · exact .inl ⟨h.ledger, h.state, h.kinds, h.frame, h.log⟩
    · exact .inr ⟨h.ledger, h.state, h.kinds, h.frame, h.log⟩

end Cases

/-! ## The handlers -/

section Handlers

variable (past : List UInt8 → Memory) {w : SbdTransmitter}

/-- The step from one state to the next within an exchange. -/
def Advanced (w v : SbdTransmitter) : Prop :=
  w.Settled v ∨ ∃ s, (s = .connecting ∧ w.state = .resolving ∨ s = .receivingHeader
    ∨ s = .receivingConfirmation) ∧ w.Entered v s w.ledger

/-- What `handle` does, and when. -/
theorem handle_cases (expected : State) (errorText : String → String)
    (proceed : List UInt8 → List UInt8 → SbdTransmitter) (result : Completion) :
    (w.handle expected errorText proceed result = w
        ∧ (result = .aborted ∨ w.state ≠ expected ∨ w.shutdown = true))
      ∨ (result ≠ .aborted ∧ w.state = expected ∧ w.shutdown = false
        ∧ ((∃ message, w.handle expected errorText proceed result = w.fail (errorText message))
          ∨ ∃ bytes beyond, result = .done bytes beyond
            ∧ w.handle expected errorText proceed result = proceed bytes beyond)) := by
  by_cases hguard : w.state ≠ expected ∨ w.shutdown = true
  · refine .inl ⟨?_, .inr hguard⟩
    cases result with
    | aborted => rfl
    | failed message => rw [handle, if_pos hguard]
    | done bytes beyond => rw [handle, if_pos hguard]
  · have hopen := hguard
    rw [not_or, not_not, Bool.not_eq_true] at hopen
    cases result with
    | aborted => exact .inl ⟨rfl, .inl rfl⟩
    | failed message =>
        refine .inr ⟨by simp, hopen.1, hopen.2, .inl ⟨message, ?_⟩⟩
        rw [handle, if_neg hguard]
    | done bytes beyond =>
        refine .inr ⟨by simp, hopen.1, hopen.2, .inr ⟨bytes, beyond, rfl, ?_⟩⟩
        rw [handle, if_neg hguard]

/-- A handler that does not ignore its completion. -/
theorem handle_eq {expected : State} (hstate : w.state = expected) (hshutdown : w.shutdown = false)
    (errorText : String → String) (proceed : List UInt8 → List UInt8 → SbdTransmitter) :
    (∀ message, w.handle expected errorText proceed (.failed message) = w.fail (errorText message))
      ∧ ∀ bytes beyond, w.handle expected errorText proceed (.done bytes beyond)
        = proceed bytes beyond := by
  have hguard : ¬ (w.state ≠ expected ∨ w.shutdown = true) := by
    rw [hshutdown]
    simp [hstate]
  refine ⟨fun message => ?_, fun bytes beyond => ?_⟩
  · rw [handle, if_neg hguard]
  · rw [handle, if_neg hguard]

/-- The outcome of a handler other than the timer's: the completion is ignored, or the exchange
advances, or a message is taken out of the queue for a new connection. -/
structure Handled (kind : OpKind) (result : Completion) (w v : SbdTransmitter) : Prop where
  outcome : (w.Same v ∧ (result = .aborted ∨ w.state ≠ kind.awaitedIn ∨ w.shutdown = true))
    ∨ (result ≠ .aborted ∧ w.state = kind.awaitedIn ∧ w.shutdown = false
      ∧ (w.Advanced v ∨ (kind = .connect ∧ (∃ bytes beyond, result = .done bytes beyond)
        ∧ w.Entered v .sending w.ledger.taken)))

theorem Advanced.frame {v : SbdTransmitter} (h : w.Advanced v) :
    v.frame = w.frame ∧ w.log <+: v.log := by
  rcases h with (h | h) | ⟨s, -, h⟩ <;> exact ⟨h.frame, h.log⟩

theorem Handled.frame {v : SbdTransmitter} {kind : OpKind} {result : Completion}
    (h : Handled kind result w v) : v.frame = w.frame ∧ w.log <+: v.log := by
  rcases h.outcome with ⟨h, -⟩ | ⟨-, -, -, h | ⟨-, -, h⟩⟩
  · exact ⟨h.frame, h.log⟩
  · exact h.frame
  · exact ⟨h.frame, h.log⟩

/-- The outcome from what the handler does where it neither ignores the completion nor fails. -/
theorem handled_of_proceed {kind : OpKind} {errorText : String → String}
    {proceed : List UInt8 → List UInt8 → SbdTransmitter} {result : Completion}
    (hmin : 1 ≤ kind.awaitedIn.value) (hmax : kind.awaitedIn.value ≤ 6)
    (hproceed : w.state = kind.awaitedIn → ∀ bytes beyond, result = .done bytes beyond →
      w.Advanced (proceed bytes beyond)
        ∨ (kind = .connect ∧ w.Entered (proceed bytes beyond) .sending w.ledger.taken)) :
    Handled kind result w (w.handle kind.awaitedIn errorText proceed result) := by
  refine ⟨?_⟩
  rcases @handle_cases w kind.awaitedIn errorText proceed result with
    ⟨heq, hwhy⟩ | ⟨hresult, hstate, hopen, ⟨message, heq⟩ | ⟨bytes, beyond, hdone, heq⟩⟩
  · rw [heq]
    exact .inl ⟨Same.refl, hwhy⟩
  · rw [heq]
    refine .inr ⟨hresult, hstate, hopen, .inl (.inl (.inl ?_))⟩
    rw [← hstate] at hmin hmax
    exact entered_fail _ hmin hmax
  · rw [heq]
    refine .inr ⟨hresult, hstate, hopen, ?_⟩
    rcases hproceed hstate bytes beyond hdone with h | ⟨hkind, h⟩
    · exact .inl h
    · exact .inr ⟨hkind, ⟨bytes, beyond, hdone⟩, h⟩

theorem handled_resolve (result : Completion) : Handled .resolve result w (w.onResolve result) := by
  refine handled_of_proceed (by decide) (by decide) ?_
  intro hstate bytes beyond _
  refine .inl (.inr ⟨.connecting, .inl ⟨rfl, hstate⟩, ?_, rfl, kinds_initiate _, rfl, List.prefix_rfl⟩)
  have hgoto : (w.goto .connecting).ledger = w.ledger := ledger_goto (by rw [hstate]; rfl)
  exact hgoto

/-- The buffer that is dereferenced has just been made, so what is written is what was printed. -/
theorem enterSending_eq (w : SbdTransmitter) : w.enterSending =
    let (message, queue) := w.messageQueue.get
    let w := { w with sendingMessage := message, messageQueue := queue }.signal
      (.got message (w.messageQueue.jobs = []))
    let (bytes, heap) := message.serialize w.heap
    (({ w with heap := heap }.setBuf bytes).signal (.wrote message bytes)).initiate .write := rfl

theorem enterReceivingHeader_eq (w : SbdTransmitter) :
    w.enterReceivingHeader = (w.setBuf []).initiate .readHeader := rfl

/-- `get()` takes the first message out of the queue, or makes one up. -/
theorem taken_sending (hstate : w.state = .connecting) :
    w.Entered (w.goto .sending).enterSending .sending w.ledger.taken := by
  have hheld : w.held = none := by rw [held, hstate]; rfl
  rw [enterSending_eq]
  refine ⟨?_, rfl, kinds_initiate _, rfl,
    (List.prefix_append _ _).trans (List.prefix_append _ _)⟩
  cases hjobs : w.messageQueue.jobs <;>
    simp [goto, signal, setBuf, initiate, ledger, posted, confirmed, held, traffic,
      State.holds, JobUnitQueue.get, hjobs, Ledger.taken, Event.posted?, Event.confirmed?,
      Event.traffic]

theorem handled_connect (result : Completion) : Handled .connect result w (w.onConnect result) := by
  refine handled_of_proceed (by decide) (by decide) ?_
  intro hstate bytes beyond _
  exact .inr ⟨rfl, taken_sending hstate⟩

/-- What a handler does after a harmless change is what it does. -/
theorem Same.handled {u v : SbdTransmitter} {kind : OpKind} {result : Completion}
    (h : w.Same u) (h' : Handled kind result u v) : Handled kind result w v := by
  have hshutdown : u.shutdown = w.shutdown := congrArg (·.2.2) h.frame
  rcases h'.outcome with ⟨hv, hwhy⟩ | ⟨hresult, hstate, hopen, hdone⟩
  · rw [h.state, hshutdown] at hwhy
    exact ⟨.inl ⟨h.trans hv, hwhy⟩⟩
  · rw [h.state] at hstate
    rw [hshutdown] at hopen
    refine ⟨.inr ⟨hresult, hstate, hopen, ?_⟩⟩
    rcases hdone with (hsettled | ⟨s, hs, hv⟩) | ⟨hkind, hsucceeded, hv⟩
    · exact .inl (.inl (h.settled hsettled))
    · rw [h.ledger] at hv
      rw [h.state] at hs
      exact .inl (.inr ⟨s, hs, h.entered hv⟩)
    · rw [h.ledger] at hv
      exact .inr ⟨hkind, hsucceeded, h.entered hv⟩

theorem handled_write (result : Completion) : Handled .write result w (w.onWrite result) := by
  -- `m_buf` is no part of the ledger, so that it is freed first does not matter
  have hsame : w.Same w.resetBuf := ⟨rfl, rfl, rfl, rfl, List.prefix_rfl⟩
  have hhandled : Handled .write result w.resetBuf (w.resetBuf.handle .sending
      ("transmit error: " ++ ·) (fun _ _ =>
        (w.resetBuf.goto .receivingHeader).enterReceivingHeader) result) := by
    refine handled_of_proceed (by decide) (by decide) ?_
    intro hstate bytes beyond _
    have hgoto : (w.resetBuf.goto .receivingHeader).ledger = w.resetBuf.ledger :=
      ledger_goto (by rw [hstate]; rfl)
    exact .inl (.inr ⟨.receivingHeader, .inr (.inl rfl), hgoto, rfl, kinds_initiate _, rfl,
      List.prefix_rfl⟩)
  cases result with
  | aborted => exact ⟨.inl ⟨Same.refl, .inl rfl⟩⟩
  | failed message => exact hsame.handled hhandled
  | done bytes beyond => exact hsame.handled hhandled

/-- The tail of both read handlers: on to the state that waits for the confirmation. -/
theorem advanced_receiving (hholds : w.state.holds = true) :
    w.Advanced ((w.goto .receivingConfirmation).enterReceivingConfirmation past) := by
  have hgoto : (w.goto .receivingConfirmation).ledger = w.ledger := ledger_goto (by rw [hholds]; rfl)
  rcases @received_confirmation past (w.goto .receivingConfirmation) rfl with h | h | h
  · rw [hgoto] at h
    exact .inr ⟨.receivingConfirmation, .inr (.inr rfl), h.ledger, h.state, h.kinds, h.frame, h.log⟩
  · rw [hgoto] at h
    exact .inl (.inl ⟨h.ledger, h.state, h.kinds, h.frame, h.log⟩)
  · rw [hgoto] at h
    exact .inl (.inr ⟨h.ledger, h.state, h.kinds, h.frame, h.log⟩)

theorem Same.advanced {u v : SbdTransmitter} (h : w.Same u) (h' : u.Advanced v) :
    w.Advanced v := by
  rcases h' with hsettled | ⟨s, hs, hv⟩
  · exact .inl (h.settled hsettled)
  · rw [h.ledger] at hv
    rw [h.state] at hs
    exact .inr ⟨s, hs, h.entered hv⟩

theorem same_takeHeader (data beyond : List UInt8) : w.Same (w.takeHeader data beyond).2 := by
  unfold takeHeader
  dsimp only
  split
  · exact (same_signal rfl rfl).trans (same_setBuf _)
  · exact same_setBuf _

theorem advanced_checkHeader (header : MessageHeader) (hstate : w.state = .receivingHeader) :
    w.Advanced (w.checkHeader past header) := by
  unfold checkHeader
  split
  · exact .inl (.inl (entered_fail _ (by rw [hstate]; decide) (by rw [hstate]; decide)))
  · have hsame : w.Same { w with confirmationLength := ntohs header.length } :=
      ⟨rfl, rfl, rfl, rfl, List.prefix_rfl⟩
    exact hsame.advanced (advanced_receiving past (by rw [hsame.state, hstate]; rfl))

theorem handled_readHeader (result : Completion) :
    Handled .readHeader result w (w.onReadHeader past result) := by
  refine handled_of_proceed (by decide) (by decide) ?_
  intro hstate bytes beyond _
  have hderef := @same_deref w
  dsimp only
  generalize w.deref = d at hderef ⊢
  obtain ⟨data, v⟩ := d
  have htake := @same_takeHeader v (data ++ bytes) beyond
  dsimp only
  generalize v.takeHeader (data ++ bytes) beyond = d at htake ⊢
  obtain ⟨header, u⟩ := d
  have hsame : w.Same u := hderef.trans htake
  exact .inl (hsame.advanced (advanced_checkHeader past header (hsame.state.trans hstate)))

theorem handled_readConfirmation (result : Completion) :
    Handled .readConfirmation result w (w.onReadConfirmation past result) := by
  refine handled_of_proceed (by decide) (by decide) ?_
  intro hstate bytes beyond _
  have hderef := @same_deref w
  dsimp only
  generalize w.deref = d at hderef ⊢
  obtain ⟨data, v⟩ := d
  have hsame : w.Same (v.setBuf (data ++ bytes)) := hderef.trans (same_setBuf _)
  have hholds : (v.setBuf (data ++ bytes)).state.holds = true := by rw [hsame.state, hstate]; rfl
  exact .inl (hsame.advanced (advanced_receiving past hholds))

/-- The timer's handler, whatever its result. -/
theorem onTimer_done {result : Completion} (hresult : result ≠ .aborted) :
    w.onTimer result = ((if w.errDelay < maxDelay then
      { w with errDelay := w.errDelay * 2 } else w).goto .notConnected).enterNotConnected := by
  cases result with
  | aborted => exact absurd rfl hresult
  | failed message => rfl
  | done bytes beyond => rfl

/-- The timer goes off. -/
theorem onTimer_cases (result : Completion) :
    (result = .aborted ∧ w.onTimer result = w)
      ∨ (result ≠ .aborted ∧ w.Entered (w.onTimer result) .notConnected w.ledger.lost) := by
  by_cases hresult : result = .aborted
  · rw [hresult]
    exact .inl ⟨rfl, rfl⟩
  · refine .inr ⟨hresult, ?_⟩
    rw [onTimer_done hresult]
    have hdoubled : w.Same (if w.errDelay < maxDelay then { w with errDelay := w.errDelay * 2 }
        else w) := by
      split
      · exact ⟨rfl, rfl, rfl, rfl, List.prefix_rfl⟩
      · exact Same.refl
    generalize (if w.errDelay < maxDelay then { w with errDelay := w.errDelay * 2 } else w) = v
      at hdoubled
    have hledger : (v.goto .notConnected).enterNotConnected.ledger = v.ledger.lost := rfl
    have hkinds : (v.goto .notConnected).enterNotConnected.kinds = v.kinds := rfl
    refine ⟨by rw [hledger, hdoubled.ledger], rfl, ?_, hdoubled.frame, hdoubled.log⟩
    rw [hkinds, hdoubled.kinds]
    exact (List.append_nil _).symm

/-- Every handler but the timer's. -/
theorem handled_onComplete {kind : OpKind} (hkind : kind ≠ .timer) (result : Completion) :
    Handled kind result w (w.onComplete past kind result) := by
  cases kind with
  | resolve => exact handled_resolve result
  | connect => exact handled_connect result
  | write => exact handled_write result
  | readHeader => exact handled_readHeader past result
  | readConfirmation => exact handled_readConfirmation past result
  | timer => exact absurd rfl hkind

end Handlers

end SbdTransmitter

end Iridium
