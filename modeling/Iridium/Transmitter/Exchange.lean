import Iridium.Transmitter.Conservation
import Iridium.SbdDirectIp.Packet
import Iridium.Lib.Segmentation

/-!
# The answer of the server

The transmitter reads the answer to a message in two states, the header first. If the first read
brings the whole header, the outcome of the exchange is a function of the stream of the answer alone
(`judgement`), however the rest is cut into reads, and no byte is read that was not received. If it
does not, the handler reads past the bytes received (`faithful_iff`).

From the header on, the transmitter is a `Consumer` that tracks its stream: `Reading` relates its
state to the bytes received.
-/

namespace Iridium

open ByteOrder SbdDirectIp

/-- What the subscribers are told. -/
def Event.isSignal : Event → Bool
  | .onError _ | .onTransmitResult _ => true
  | _ => false

/-- A byte of `m_buf` is read that was not received. -/
def Event.isFault : Event → Bool
  | .overRead _ | .underrun _ | .nullBuf => true
  | _ => false

def OpKind.isRead : OpKind → Bool
  | .readHeader | .readConfirmation => true
  | _ => false

/-- How an exchange ends: the first signal, the queue, and the state of the machine. -/
structure Outcome where
  signal : Option Event
  queue : JobUnitQueue MtMessage
  state : State
  deriving DecidableEq, Repr

namespace SbdTransmitter

section Exchange

variable (past : List UInt8 → Memory)

/-- The pending read completes, if there is one. -/
def receive (w : SbdTransmitter) (result : Completion) : SbdTransmitter :=
  match w.pending.findIdx? (·.kind.isRead) with
  | some index => (step past w (.complete index result)).getD w
  | none => w

variable (beyond : List UInt8) (eof : String)

/-- The server's bytes arrive in these chunks, and then the stream ends. The transmitter reads for as
long as it waits for the confirmation; `beyond` lies behind the bytes received in the buffer. -/
def exchange (w : SbdTransmitter) : List (List UInt8) → SbdTransmitter
  | [] => w.receive past (.failed eof)
  | c :: cs =>
    let w := w.receive past (.done c beyond)
    if w.state = .receivingConfirmation then exchange w cs else w

/-- How an exchange has ended that began in this state. -/
def outcome (before w : SbdTransmitter) : Outcome where
  signal := (w.log.drop before.log.length).find? Event.isSignal
  queue := w.messageQueue
  state := w.state

def faults (before w : SbdTransmitter) : List Event :=
  (w.log.drop before.log.length).filter Event.isFault

/-- A stream that arrives at once. -/
def oneRead (stream : List UInt8) : List (List UInt8) := if stream = [] then [] else [stream]

/-- The chunks lead to the same outcome as their bytes all at once, and no byte is read that was not
received. -/
def Faithful (w : SbdTransmitter) (chunks : List (List UInt8)) : Prop :=
  w.outcome (w.exchange past beyond eof chunks)
      = w.outcome (w.exchange past beyond eof (oneRead chunks.flatten))
    ∧ w.faults (w.exchange past beyond eof chunks) = []

instance (w : SbdTransmitter) (chunks : List (List UInt8)) :
    Decidable (w.Faithful past beyond eof chunks) := by
  unfold Faithful
  infer_instance

end Exchange

/-- The machine has just entered `eReceivingHeader`. -/
structure Awaiting (w : SbdTransmitter) : Prop where
  state : w.state = .receivingHeader
  shutdown : w.shutdown = false
  kinds : w.kinds = [.readHeader]
  buf : w.buf = some []

/-! ## The reference -/

section Reference

variable (past : List UInt8 → Memory) (before : SbdTransmitter)

/-- The message goes back into the queue. -/
def returned (event : Event) : Outcome :=
  ⟨some event, before.messageQueue.unget before.sendingMessage, .error⟩

/-- What becomes of the bytes of a confirmation. -/
def judge (buf : List UInt8) : Outcome :=
  let mem := Memory.ofBuffer buf (past buf)
  let category := (Codec.messageCategory buf.length).result mem
  if category ≠ .mtConfirmMessage then before.returned (.onError (categoryError category))
  else match (Codec.parseMtConfirm buf.length MtConfirmMessage.init).result mem with
    | (.error what, _) => before.returned (.onError ("confirmation parse error: " ++ what))
    | (.ok (), confirmation) =>
      let status := confirmation.status.getD (-32767)
      if status < 0 then before.returned (.onTransmitResult status)
      else ⟨some (.onTransmitResult status), before.messageQueue, .notConnected⟩

/-- The outcome that the bytes received decide, with the header among them. -/
def judgement (r : List UInt8) : Option Outcome :=
  if r.headD 0 ≠ 1 then
    some (before.returned
      (.onError ("invalid protocol number " ++ toString (r.headD 0).toInt8.toInt)))
  else if r.length < 3 + lengthField r then none
  else some (before.judge past (slice r 3 (lengthField r)))

/-- Later bytes do not change it. -/
theorem judgement_append {r c : List UInt8} {o : Outcome} (hlen : 3 ≤ r.length)
    (h : before.judgement past r = some o) : before.judgement past (r ++ c) = some o := by
  unfold judgement at h ⊢
  rw [headD_append hlen, lengthField_append hlen]
  by_cases hproto : r.headD 0 ≠ 1
  · rw [if_pos hproto] at h ⊢
    exact h
  · rw [if_neg hproto] at h ⊢
    by_cases hbody : r.length < 3 + lengthField r
    · rw [if_pos hbody] at h
      cases h
    · rw [if_neg hbody] at h
      have hbody' : ¬ (r ++ c).length < 3 + lengthField r := by
        rw [List.length_append]
        omega
      rw [if_neg hbody', slice_append_left (by omega)]
      exact h

end Reference

/-! ## The ends of an exchange -/

section Ends

variable {before w : SbdTransmitter}

/-- What an exchange starts with is still as it was. -/
structure Fresh (before w : SbdTransmitter) : Prop where
  log : w.log = before.log
  queue : w.messageQueue = before.messageQueue
  message : w.sendingMessage = before.sendingMessage

/-- The exchange is over, with this outcome, and no byte was read that was not received. -/
structure Ended (before : SbdTransmitter) (o : Outcome) (w : SbdTransmitter) : Prop where
  outcome : before.outcome w = o
  faults : before.faults w = []

/-- The error exit, while a message is held. -/
theorem enterError_eq (h : State.sending.value ≤ w.prevState.value) :
    ∃ ms, w.enterError.log = w.log ++ [.ungot w.sendingMessage, .delay ms]
      ∧ w.enterError.messageQueue = w.messageQueue.unget w.sendingMessage
      ∧ w.enterError.state = w.state := by
  have hconnecting : State.connecting.value < w.prevState.value := Nat.lt_of_lt_of_le (by decide) h
  unfold enterError giveBack
  dsimp only
  rw [if_pos h]
  refine ⟨heartbeat * w.errDelay.toNat, ?_, ?_, ?_⟩ <;> split <;> first | rfl | skip
  · exact List.append_assoc _ _ _
  · exact List.append_assoc _ _ _

/-- The outcome from the record: a signal, and then no byte too many. -/
theorem ended_of_log {event : Event} {events : List Event} (hsignal : event.isSignal = true)
    (hlog : w.log = before.log ++ event :: events) (hfault : events.filter Event.isFault = []) :
    Ended before ⟨some event, w.messageQueue, w.state⟩ w := by
  have hdrop : w.log.drop before.log.length = event :: events := by rw [hlog, List.drop_left]
  have hnot : event.isFault = false := by
    cases event with
    | onError what => rfl
    | onTransmitResult status => rfl
    | _ => cases hsignal
  refine ⟨?_, ?_⟩
  · rw [outcome, hdrop, List.find?_cons_of_pos hsignal]
  · rw [faults, hdrop, List.filter_cons, hnot]
    exact hfault

/-- Every error exit of the exchange. -/
theorem ended_error {event : Event} (hsignal : event.isSignal = true) (hfresh : Fresh before w)
    (hstate : State.sending.value ≤ w.state.value) :
    Ended before (before.returned event) ((w.signal event).goto .error).enterError := by
  obtain ⟨ms, hlog, hqueue, hstate'⟩ := @enterError_eq ((w.signal event).goto .error) hstate
  have hlog' : ((w.signal event).goto .error).enterError.log
      = before.log ++ event :: [Event.ungot w.sendingMessage, Event.delay ms] := by
    rw [hlog, ← hfresh.log]
    exact List.append_assoc w.log [event] _
  have hended := ended_of_log hsignal hlog' rfl
  rw [hqueue, hstate'] at hended
  unfold returned
  rw [← hfresh.queue, ← hfresh.message]
  exact hended

theorem ended_fail {what : String} (hfresh : Fresh before w)
    (hstate : State.sending.value ≤ w.state.value) :
    Ended before (before.returned (.onError what)) (w.fail what) :=
  ended_error rfl hfresh hstate

theorem succeed_eq {data : List UInt8} (hbuf : w.buf = some data) :
    (∃ events, w.succeed.log = w.log ++ events ∧ events.filter Event.isFault = [])
      ∧ w.succeed.messageQueue = w.messageQueue ∧ w.succeed.state = .notConnected := by
  unfold succeed
  rw [deref_eq hbuf]
  dsimp only
  refine ⟨?_, ?_, rfl⟩
  · by_cases hleft : data.length > 0
    · rw [if_pos hleft]
      exact ⟨[_], rfl, rfl⟩
    · rw [if_neg hleft]
      exact ⟨[], (List.append_nil _).symm, rfl⟩
  · split <;> rfl

theorem ended_answered {rest : List UInt8} {status : Int16} (hfresh : Fresh before w)
    (hstate : State.sending.value ≤ w.state.value) :
    Ended before (if status < 0 then before.returned (.onTransmitResult status)
      else ⟨some (.onTransmitResult status), before.messageQueue, .notConnected⟩)
      (w.answered rest status) := by
  have hset : Fresh before (w.setBuf rest) := ⟨hfresh.log, hfresh.queue, hfresh.message⟩
  unfold answered
  dsimp only
  split
  · exact ended_error rfl hset hstate
  · have hlog' : ((w.setBuf rest).signal (.onTransmitResult status)).log
        = before.log ++ [.onTransmitResult status] := congrArg (· ++ _) hfresh.log
    have hqueue' : ((w.setBuf rest).signal (.onTransmitResult status)).messageQueue
        = before.messageQueue := hfresh.queue
    have hbuf : ((w.setBuf rest).signal (.onTransmitResult status)).buf = some rest := rfl
    generalize (w.setBuf rest).signal (.onTransmitResult status) = u at hlog' hqueue' hbuf
    obtain ⟨⟨events, hlog, hfault⟩, hqueue, hstate'⟩ :=
      @succeed_eq (u.signal (.confirmed u.sendingMessage)) rest hbuf
    have hall : (u.signal (.confirmed u.sendingMessage)).succeed.log
        = before.log ++ .onTransmitResult status :: .confirmed u.sendingMessage :: events := by
      rw [hlog]
      show (u.log ++ [Event.confirmed u.sendingMessage]) ++ events = _
      rw [hlog', List.append_assoc, List.append_assoc]
      rfl
    have hended := ended_of_log rfl hall hfault
    rw [hqueue, hstate'] at hended
    rw [← hqueue']
    exact hended

/-- The confirmation is complete: it decides the outcome. -/
theorem ended_processing (past : List UInt8 → Memory) {data : List UInt8} (hfresh : Fresh before w)
    (hstate : State.sending.value ≤ w.state.value) (hbuf : w.buf = some data)
    (hlen : w.confirmationLength.toNat ≤ data.length) :
    Ended before (before.judge past (data.take w.confirmationLength.toNat))
      (w.enterProcessingConfirmation past) := by
  have hderef : w.deref = (data, w) := deref_eq hbuf
  have htake : (data.take w.confirmationLength.toNat).length = w.confirmationLength.toNat := by
    rw [List.length_take]
    omega
  unfold enterProcessingConfirmation judge
  rw [hderef, htake]
  dsimp only
  rw [takeConfirmation_eq hlen]
  split
  · exact ended_fail hfresh hstate
  · generalize (Codec.parseMtConfirm w.confirmationLength.toNat MtConfirmMessage.init).result
      (Memory.ofBuffer (data.take w.confirmationLength.toNat)
        (past (data.take w.confirmationLength.toNat))) = parsed
    obtain ⟨thrown, confirmation⟩ := parsed
    cases thrown with
    | error what => exact ended_fail hfresh hstate
    | ok => exact ended_answered hfresh hstate

end Ends

/-! ## One read -/

section Reads

variable (past : List UInt8 → Memory) {before w : SbdTransmitter}

/-- The machine has received these bytes, with the header among them, and reads on. -/
structure Reading (before : SbdTransmitter) (r : List UInt8) (w : SbdTransmitter) : Prop where
  fresh : Fresh before w
  state : w.state = .receivingConfirmation
  shutdown : w.shutdown = false
  kinds : w.kinds = [.readConfirmation]
  buf : w.buf = some (r.drop 3)
  length : w.confirmationLength = be16 (slice r 1 2)

/-- The pending read, when it is the only operation. -/
theorem receive_eq {kind : OpKind} {result : Completion} (hkinds : w.kinds = [kind])
    (hread : kind.isRead = true) (hresult : result ≠ .aborted) :
    w.receive past result = (w.finish 0).onComplete past kind result
      ∧ (w.finish 0).kinds = [] := by
  obtain ⟨op, hpending, rfl⟩ := List.map_eq_singleton_iff.mp hkinds
  have hindex : w.pending.findIdx? (·.kind.isRead) = some 0 := by
    rw [hpending, List.findIdx?_cons, if_pos hread]
  have hstep : step past w (.complete 0 result)
      = some ((w.finish 0).onComplete past op.kind result) := by
    have hop : w.pending[0]? = some op := by rw [hpending]; rfl
    simp only [step, hop]
    rw [if_neg (fun h => hresult h.1)]
  refine ⟨?_, ?_⟩
  · rw [receive, hindex]
    show (step past w (.complete 0 result)).getD w = _
    rw [hstep, Option.getD_some]
  · show (w.pending.eraseIdx 0).map (·.kind) = []
    rw [hpending]
    rfl

/-- What the bytes received decide, or that the machine reads on. -/
def Follows (before : SbdTransmitter) (r : List UInt8) (w : SbdTransmitter) : Prop :=
  (before.judgement past r = none ∧ Reading before r w)
    ∨ ∃ o, before.judgement past r = some o ∧ Ended before o w

theorem follows_receiving {r : List UInt8} (hlen : 3 ≤ r.length) (hproto : r.headD 0 = 1)
    (hfresh : Fresh before w) (hshutdown : w.shutdown = false)
    (hkinds : w.kinds = []) (hbuf : w.buf = some (r.drop 3))
    (hlength : w.confirmationLength = be16 (slice r 1 2)) :
    Follows past before r ((w.goto .receivingConfirmation).enterReceivingConfirmation past) := by
  have hfield : w.confirmationLength.toNat = lengthField r := by
    rw [hlength, be16_lengthField hlen]
  have hderef : (w.goto .receivingConfirmation).deref
      = (r.drop 3, w.goto .receivingConfirmation) := deref_eq hbuf
  have hjudgement : before.judgement past r = if r.length < 3 + lengthField r then none
      else some (before.judge past (slice r 3 (lengthField r))) := by
    rw [judgement, if_neg (not_not_intro hproto)]
  unfold enterReceivingConfirmation
  rw [hderef]
  dsimp only
  by_cases hbody : r.length < 3 + lengthField r
  · have hshort : (r.drop 3).length < (w.goto .receivingConfirmation).confirmationLength.toNat := by
      show _ < w.confirmationLength.toNat
      rw [hfield, List.length_drop]
      omega
    rw [if_pos hshort]
    refine .inl ⟨by rw [hjudgement, if_pos hbody], ⟨hfresh.log, hfresh.queue, hfresh.message⟩, rfl,
      hshutdown, ?_, hbuf, hlength⟩
    rw [kinds_initiate]
    show w.kinds ++ _ = _
    rw [hkinds]
    rfl
  · have hlong : w.confirmationLength.toNat ≤ (r.drop 3).length := by
      rw [hfield, List.length_drop]
      omega
    have hnot : ¬ (r.drop 3).length
        < (w.goto .receivingConfirmation).confirmationLength.toNat := Nat.not_lt.mpr hlong
    rw [if_neg hnot]
    refine .inr ⟨_, by rw [hjudgement, if_neg hbody], ?_⟩
    have hended := @ended_processing before
      ((w.goto .receivingConfirmation).goto .processingConfirmation) past (r.drop 3)
      ⟨hfresh.log, hfresh.queue, hfresh.message⟩
      (show State.sending.value ≤ State.processingConfirmation.value by decide) hbuf hlong
    have htake : (r.drop 3).take w.confirmationLength.toNat = slice r 3 (lengthField r) := by
      rw [hfield]
      rfl
    rwa [← htake]

theorem follows_checkHeader {r : List UInt8} (hlen : 3 ≤ r.length) (hfresh : Fresh before w)
    (hstate : w.state = .receivingHeader) (hshutdown : w.shutdown = false) (hkinds : w.kinds = [])
    (hbuf : w.buf = some (r.drop 3)) :
    Follows past before r
      (w.checkHeader past (MessageHeader.ofBytes (r.take MessageHeader.size))) := by
  obtain ⟨hproto, htext, hfield⟩ := header_of_stream hlen
  unfold checkHeader
  by_cases hbad : r.headD 0 ≠ 1
  · rw [if_pos (hproto.mpr hbad), htext]
    refine .inr ⟨_, by rw [judgement, if_pos hbad], ?_⟩
    exact ended_fail hfresh (by rw [hstate]; decide)
  · rw [if_neg (fun h => hbad (hproto.mp h))]
    exact @follows_receiving past before
      { w with
        confirmationLength := ntohs (MessageHeader.ofBytes (r.take MessageHeader.size)).length }
      r hlen (not_not.mp hbad) ⟨hfresh.log, hfresh.queue, hfresh.message⟩ hshutdown hkinds hbuf
      hfield

/-- **The first read**, with the whole header in it. -/
theorem follows_first (hw : w.Awaiting) {c : List UInt8} (hlen : 3 ≤ c.length)
    (beyond : List UInt8) : Follows past w c (w.receive past (.done c beyond)) := by
  obtain ⟨hreceive, hkinds⟩ := @receive_eq past w _ (.done c beyond) hw.kinds rfl (by simp)
  rw [hreceive]
  rw [onComplete, onReadHeader]
  rw [(@handle_eq (w.finish 0) _ hw.state hw.shutdown _ _).2]
  have hderef : (w.finish 0).deref = ([], w.finish 0) := deref_eq hw.buf
  have htake : (w.finish 0).takeHeader ([] ++ c) beyond
      = (MessageHeader.ofBytes (c.take MessageHeader.size), (w.finish 0).setBuf (c.drop 3)) := by
    have hnot : ¬ ([] ++ c).length < MessageHeader.size := Nat.not_lt.mpr hlen
    have hheader : (c ++ beyond).take MessageHeader.size = c.take MessageHeader.size :=
      List.take_append_of_le_length hlen
    rw [takeHeader, if_neg hnot, List.nil_append, hheader]
    rfl
  rw [hderef]
  dsimp only
  rw [htake]
  exact follows_checkHeader past hlen ⟨rfl, rfl, rfl⟩ hw.state hw.shutdown hkinds rfl

/-- **Every later read.** -/
theorem follows_next {r : List UInt8} (hlen : 3 ≤ r.length) (hproto : r.headD 0 = 1)
    (hw : Reading before r w) (c beyond : List UInt8) :
    Follows past before (r ++ c) (w.receive past (.done c beyond)) := by
  obtain ⟨hreceive, hkinds⟩ := @receive_eq past w _ (.done c beyond) hw.kinds rfl (by simp)
  rw [hreceive]
  rw [onComplete, onReadConfirmation]
  rw [(@handle_eq (w.finish 0) _ hw.state hw.shutdown _ _).2]
  have hderef : (w.finish 0).deref = (r.drop 3, w.finish 0) := deref_eq hw.buf
  have hlen' : 3 ≤ (r ++ c).length := by
    rw [List.length_append]
    exact Nat.le_add_right_of_le hlen
  rw [hderef]
  dsimp only
  refine follows_receiving past hlen' (by rw [headD_append hlen, hproto])
    ⟨hw.fresh.log, hw.fresh.queue, hw.fresh.message⟩ hw.shutdown hkinds ?_ ?_
  · show some (r.drop 3 ++ c) = some ((r ++ c).drop 3)
    rw [List.drop_append_of_le_length hlen]
  · show w.confirmationLength = be16 (slice (r ++ c) 1 2)
    rw [slice_append_left hlen, hw.length]

/-- The end of the stream, in either state. -/
theorem ended_first (hw : w.Awaiting) (eof : String) :
    Ended w (w.returned (.onError ("receive confirmation error: " ++ eof)))
      (w.receive past (.failed eof)) := by
  rw [(@receive_eq past w _ (.failed eof) hw.kinds rfl (by simp)).1]
  rw [onComplete, onReadHeader]
  rw [(@handle_eq (w.finish 0) _ hw.state hw.shutdown _ _).1]
  exact ended_fail ⟨rfl, rfl, rfl⟩ (show _ ≤ w.state.value by rw [hw.state]; decide)

theorem ended_next {r : List UInt8} (hw : Reading before r w) (eof : String) :
    Ended before (before.returned (.onError ("receive confirmation error: " ++ eof)))
      (w.receive past (.failed eof)) := by
  rw [(@receive_eq past w _ (.failed eof) hw.kinds rfl (by simp)).1]
  rw [onComplete, onReadConfirmation]
  rw [(@handle_eq (w.finish 0) _ hw.state hw.shutdown _ _).1]
  exact ended_fail ⟨hw.fresh.log, hw.fresh.queue, hw.fresh.message⟩
    (show _ ≤ w.state.value by rw [hw.state]; decide)

/-- **A first read without the whole header** reads past the bytes received. -/
theorem overRead_first (hw : w.Awaiting) {c : List UInt8} (hlen : c.length < 3)
    (beyond : List UInt8) :
    w.log ++ [.overRead (3 - c.length)] <+: (w.receive past (.done c beyond)).log := by
  rw [(@receive_eq past w _ (.done c beyond) hw.kinds rfl (by simp)).1]
  rw [onComplete, onReadHeader]
  rw [(@handle_eq (w.finish 0) _ hw.state hw.shutdown _ _).2]
  have hderef : (w.finish 0).deref = ([], w.finish 0) := deref_eq hw.buf
  rw [hderef]
  dsimp only
  have hover : ([] ++ c).length < MessageHeader.size := hlen
  rw [takeHeader, if_pos hover]
  have hadvanced := @advanced_checkHeader past
    (((w.finish 0).signal (.overRead (3 - c.length))).setBuf (c.drop 3))
    (MessageHeader.ofBytes ((c ++ beyond).take MessageHeader.size)) hw.state
  exact hadvanced.frame.2

/-! ## Whole exchanges -/

/-- An exchange as a consumer of the answer. -/
def consumer (beyond : List UInt8) (eof : String) (before : SbdTransmitter) :
    Consumer UInt8 SbdTransmitter (Outcome × List Event) where
  read w c :=
    let w := w.receive past (.done c beyond)
    if w.state = .receivingConfirmation then .inl w else .inr (before.outcome w, before.faults w)
  eof w :=
    let w := w.receive past (.failed eof)
    (before.outcome w, before.faults w)

theorem run_consumer (beyond : List UInt8) (eof : String) (chunks : List (List UInt8)) :
    (consumer past beyond eof before).run w chunks
      = (before.outcome (w.exchange past beyond eof chunks),
        before.faults (w.exchange past beyond eof chunks)) := by
  induction chunks generalizing w with
  | nil => rfl
  | cons c cs ih =>
      rw [Consumer.run, exchange]
      dsimp only [consumer]
      by_cases hstate : (w.receive past (.done c beyond)).state = .receivingConfirmation
      · rw [if_pos hstate, if_pos hstate]
        exact ih
      · rw [if_neg hstate, if_neg hstate]

/-- An exchange that is decided is over. -/
theorem judgement_state {r : List UInt8} {o : Outcome} (h : before.judgement past r = some o) :
    o.state ≠ .receivingConfirmation := by
  have herror : ∀ event, (before.returned event).state ≠ .receivingConfirmation :=
    fun event hstate => nomatch hstate
  have hjudge : ∀ buf, (before.judge past buf).state ≠ .receivingConfirmation := by
    intro buf
    unfold judge
    dsimp only
    split
    · exact herror _
    · split
      · exact herror _
      · split
        · exact herror _
        · exact fun hstate => nomatch hstate
  unfold judgement at h
  split at h
  · cases h
    exact herror _
  · split at h
    · cases h
    · cases h
      exact hjudge _

theorem consumer_read (beyond : List UInt8) (eof : String) {r c : List UInt8}
    (h : Follows past before r (w.receive past (.done c beyond))) :
    (before.judgement past r = none ∧ ∃ v,
        (consumer past beyond eof before).read w c = .inl v ∧ Reading before r v)
      ∨ ∃ o, before.judgement past r = some o
        ∧ (consumer past beyond eof before).read w c = .inr (o, []) := by
  rcases h with ⟨hnone, hreading⟩ | ⟨o, hsome, hended⟩
  · refine .inl ⟨hnone, _, ?_, hreading⟩
    exact if_pos hreading.state
  · refine .inr ⟨o, hsome, ?_⟩
    have hstate : (w.receive past (.done c beyond)).state = o.state :=
      congrArg Outcome.state hended.outcome
    have hnot := judgement_state past hsome
    rw [← hstate] at hnot
    show (if _ then _ else _) = _
    rw [if_neg hnot, hended.outcome, hended.faults]

theorem exchange_tracks (beyond : List UInt8) (eof : String) {stream base : List UInt8}
    (hbase : 3 ≤ base.length) :
    Consumer.Tracks (consumer past beyond eof before) stream base (Reading before)
      (fun r => (before.judgement past r).map (·, []))
      (before.returned (.onError ("receive confirmation error: " ++ eof)), []) where
  read r c w hprefix _ hopen hw := by
    have hlen : 3 ≤ r.length := hbase.trans hprefix.length_le
    have hnone : before.judgement past r = none := Option.map_eq_none_iff.mp hopen
    have hproto : r.headD 0 = 1 := by
      by_contra hbad
      rw [judgement, if_pos hbad] at hnone
      cases hnone
    rcases consumer_read past beyond eof (follows_next past hlen hproto hw c beyond) with
      ⟨hnone', v, hread, hv⟩ | ⟨o, hsome, hread⟩
    · exact .inl ⟨by rw [hnone', Option.map_none], v, hread, hv⟩
    · exact .inr ⟨_, by rw [hsome, Option.map_some], hread⟩
  eof w _ hw := by
    have hended := ended_next past hw eof
    exact Prod.ext hended.outcome hended.faults
  stable r c b hprefix _ hverdict := by
    obtain ⟨o, hsome, rfl⟩ := Option.map_eq_some_iff.mp hverdict
    rw [judgement_append past before (hbase.trans hprefix.length_le) hsome, Option.map_some]

/-- With the whole header in the first read, the outcome is a function of the stream. -/
theorem exchange_of_stream (hw : w.Awaiting) (beyond : List UInt8) (eof : String)
    {c : List UInt8} (hlen : 3 ≤ c.length) (cs : List (List UInt8)) :
    w.outcome (w.exchange past beyond eof (c :: cs))
        = (w.judgement past (c ++ cs.flatten)).getD
          (w.returned (.onError ("receive confirmation error: " ++ eof)))
      ∧ w.faults (w.exchange past beyond eof (c :: cs)) = [] := by
  have hrun : (consumer past beyond eof w).run w (c :: cs)
      = ((w.judgement past (c ++ cs.flatten)).getD
          (w.returned (.onError ("receive confirmation error: " ++ eof))), []) := by
    rw [Consumer.run]
    -- the first read brings the header; from there on the stream is tracked
    rcases consumer_read past beyond eof (follows_first past hw hlen beyond) with
      ⟨hnone, v, hread, hv⟩ | ⟨o, hsome, hread⟩
    · rw [hread]
      have hrest := (@exchange_tracks past w beyond eof (c ++ cs.flatten) c hlen).run cs c v
        List.prefix_rfl rfl (by rw [hnone]; rfl) hv
      refine hrest.trans ?_
      cases w.judgement past (c ++ cs.flatten) <;> rfl
    · rw [hread, judgement_append past w hlen hsome, Option.getD_some]
  rw [run_consumer, Prod.mk.injEq] at hrun
  exact hrun

theorem log_receive (result : Completion) : w.log <+: (w.receive past result).log := by
  unfold receive
  split
  · rename_i index _
    cases hstep : step past w (.complete index result) with
    | none => exact List.prefix_rfl
    | some v => exact (idle_complete hstep).1.2
  · exact List.prefix_rfl

theorem log_exchange (beyond : List UInt8) (eof : String) (chunks : List (List UInt8)) :
    w.log <+: (w.exchange past beyond eof chunks).log := by
  induction chunks generalizing w with
  | nil => exact log_receive past _
  | cons c cs ih =>
      rw [exchange]
      split
      · exact (log_receive past _).trans ih
      · exact log_receive past _

/-- **Segmentation.** The outcome of an exchange does not depend on how the answer is cut into reads,
and no byte is read that was not received, if and only if the first read, where there is one, brings
the whole header. -/
theorem faithful_iff (hw : w.Awaiting) (beyond : List UInt8) (eof : String)
    (chunks : List (List UInt8)) :
    w.Faithful past beyond eof chunks ↔ ∀ c ∈ chunks.head?, 3 ≤ c.length := by
  cases chunks with
  | nil =>
      refine ⟨fun _ c hc => (nomatch hc), fun _ => ⟨rfl, ?_⟩⟩
      exact (ended_first past hw eof).faults
  | cons c cs =>
      constructor
      · rintro ⟨-, hfaults⟩ c' hc'
        cases hc'
        by_contra hshort
        -- the fault of the first read stays on record
        have hfirst := overRead_first past hw (Nat.lt_of_not_le hshort) beyond
        have hlog : (w.receive past (.done c beyond)).log
            <+: (w.exchange past beyond eof (c :: cs)).log := by
          rw [exchange]
          split
          · exact log_exchange past beyond eof cs
          · exact List.prefix_rfl
        obtain ⟨rest, hrest⟩ := hfirst.trans hlog
        rw [faults, ← hrest, List.append_assoc, List.drop_left] at hfaults
        cases hfaults
      · intro hhead
        have hlen : 3 ≤ c.length := hhead c rfl
        have hlen' : 3 ≤ (c ++ cs.flatten).length := by
          rw [List.length_append]
          exact Nat.le_add_right_of_le hlen
        have hne : c ++ cs.flatten ≠ [] := List.ne_nil_of_length_pos (by omega)
        obtain ⟨houtcome, hfaults⟩ := exchange_of_stream past hw beyond eof hlen cs
        have hone := (exchange_of_stream past hw beyond eof hlen' []).1
        rw [List.flatten_nil, List.append_nil] at hone
        refine ⟨?_, hfaults⟩
        rw [houtcome, List.flatten_cons, oneRead, if_neg hne, hone]

/-! ## The exchange in a run -/

/-- An exchange consists of steps of the system. -/
theorem run_receive (result : Completion) :
    ∃ labels, (system past).Run (fun _ _ => True) w labels (w.receive past result) := by
  unfold receive
  split
  · rename_i index _
    cases hstep : step past w (.complete index result) with
    | none => exact ⟨[], .nil⟩
    | some v =>
        show ∃ labels, (system past).Run _ w labels v
        exact ⟨[.complete index result], .single trivial hstep⟩
  · exact ⟨[], .nil⟩

theorem run_exchange (beyond : List UInt8) (eof : String) (chunks : List (List UInt8)) :
    ∃ labels, (system past).Run (fun _ _ => True) w labels (w.exchange past beyond eof chunks) := by
  induction chunks generalizing w with
  | nil => exact run_receive past _
  | cons c cs ih =>
      obtain ⟨labels, hrun⟩ := @run_receive past w (.done c beyond)
      rw [exchange]
      split
      · obtain ⟨labels', hrun'⟩ := @ih (w.receive past (.done c beyond))
        exact ⟨labels ++ labels', hrun.trans hrun'⟩
      · exact ⟨labels, hrun⟩

/-- It begins where an undisturbed transmitter has written its message. -/
theorem awaiting_write (hw : w.Orderly) (hstate : w.state = .sending) {index : Nat}
    {bytes beyond : List UInt8} {v : SbdTransmitter}
    (h : step past w (.complete index (.done bytes beyond)) = some v) : v.Awaiting := by
  obtain ⟨op, hop, -, rfl⟩ := step_complete h
  obtain ⟨hawaited, hkinds⟩ := hw.sole hop
  have hkind : op.kind = .write := by
    rw [hstate] at hawaited
    cases hkind : op.kind <;> rw [hkind] at hawaited <;> first | rfl | cases hawaited
  rw [hkind, onComplete, onWrite]
  · rw [(@handle_eq (w.finish index).resetBuf _ hstate hw.shutdown _ _).2, enterReceivingHeader_eq]
    refine ⟨rfl, hw.shutdown, ?_, rfl⟩
    rw [kinds_initiate]
    show (w.finish index).kinds ++ [.readHeader] = _
    rw [hkinds]
    rfl
  · simp

/-- A transmitter that has written a message. -/
def sampleAwaiting : SbdTransmitter :=
  { init "h" "p" Heap.empty with
    running := true, prevState := .sending, state := .receivingHeader, thread := .looping
    sendingMessage := MtMessage.init 1, buf := some [], runs := 1
    pending := [{ kind := .readHeader, run := 1 }] }

/-- A confirmation with status 1, to be cut in two. -/
def sampleAnswer : List UInt8 := [1, 0, 28, 0x44, 0, 25] ++ List.replicate 23 0x30 ++ [0, 1]

theorem sampleAwaiting_awaiting : sampleAwaiting.Awaiting := ⟨rfl, rfl, rfl, rfl⟩

/-- Cut inside its header, the answer is taken for an empty one, and the message goes back into the
queue, although the server has confirmed it. -/
theorem cut_header_sample :
    sampleAwaiting.Awaiting
      ∧ (sampleAwaiting.outcome (sampleAwaiting.exchange (fun _ _ => 0) [0] "eof"
          [sampleAnswer.take 2, sampleAnswer.drop 2])).queue.jobs = [MtMessage.init 1]
      ∧ sampleAwaiting.outcome (sampleAwaiting.exchange (fun _ _ => 0) [0] "eof" [sampleAnswer])
          = ⟨some (.onTransmitResult 1), ⟨[]⟩, .notConnected⟩
      ∧ ¬ sampleAwaiting.Faithful (fun _ _ => 0) [0] "eof"
          [sampleAnswer.take 2, sampleAnswer.drop 2] :=
  ⟨sampleAwaiting_awaiting, by decide +kernel, by decide +kernel, by decide +kernel⟩

theorem faithful_sample :
    sampleAwaiting.Faithful (fun _ _ => 0) [0] "eof"
      [sampleAnswer.take 4, (sampleAnswer.drop 4).take 20, sampleAnswer.drop 24] :=
  (faithful_iff (fun _ _ => 0) sampleAwaiting_awaiting [0] "eof" _).mpr (by decide)

end Reads

end SbdTransmitter

end Iridium
