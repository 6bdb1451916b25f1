import Iridium.JobUnitQueue
import Iridium.SbdDirectIp.Codec

/-!
# The transmitter

`SbdTransmitter` of `src/SbdTransmitter.cpp`, with the part of the world that it depends on: its
worker thread and the runs it has begun, the asynchronous operations that have been initiated and
not yet completed, the heap that the elements of messages live in, and a record of what it does.

A step (`step`) is a call of a public function, one turn of the worker, or the completion of a
pending operation. A completion is any result at all; only `operation_aborted` is reserved to
operations that have been cancelled, and those may still complete with a result obtained before.
The worker blocks in `wait_for` between the check of the queue and the wake-up, so other steps may
come in between.

The cases of `StateMachine` are the functions `enter…`, from the last state backwards, since the
source calls itself right after it has set the state. A null `m_buf` is dereferenced as an empty
one, and the fault goes on record.
-/

namespace Iridium

open ByteOrder SbdDirectIp

/-- `SbdTransmitter::State`. -/
inductive State where
  | notConnected | resolving | connecting | sending | receivingHeader | receivingConfirmation
  | processingConfirmation | error | success
  deriving DecidableEq, Repr

/-- The enumerators' values. -/
def State.value : State → Nat
  | .notConnected => 0
  | .resolving => 1
  | .connecting => 2
  | .sending => 3
  | .receivingHeader => 4
  | .receivingConfirmation => 5
  | .processingConfirmation => 6
  | .error => 7
  | .success => 8

/-- The handlers passed to asynchronous operations. -/
inductive OpKind where
  | resolve | connect | write | readHeader | readConfirmation | timer
  deriving DecidableEq, Repr

/-- Operations on the socket. -/
def OpKind.onSocket : OpKind → Bool
  | .connect | .write | .readHeader | .readConfirmation => true
  | .resolve | .timer => false

/-- An operation that has not completed, and the run it was initiated in. One that is cancelled may
complete with `operation_aborted`. -/
structure PendingOp where
  kind : OpKind
  run : Nat
  cancelled : Bool := false
  deriving DecidableEq, Repr

/-- The result a handler is called with: `operation_aborted`, the text of another error, or
success. A read has received `bytes`, and `beyond` lies behind them in the buffer. -/
inductive Completion where
  | aborted
  | failed (message : String)
  | done (bytes beyond : List UInt8)
  deriving DecidableEq, Repr

/-- Where the worker thread is: not there, before its first statement, at the head of its loop, or
blocked in `wait_for`. -/
inductive Thread where
  | absent | starting | looping | waiting
  deriving DecidableEq, Repr

/-- What goes on record. -/
inductive Event where
  | posted (message : MtMessage)
  | dropped
  /-- The worker starts an attempt; `idle` if the queue is empty. -/
  | attempt (idle : Bool)
  /-- `get()` has returned a message, of an empty queue if `idle`. -/
  | got (message : MtMessage) (idle : Bool)
  /-- Handed to `async_write`. -/
  | wrote (message : MtMessage) (bytes : List UInt8)
  | ungot (message : MtMessage)
  /-- A confirmation with a status that is not negative has been processed. -/
  | confirmed (message : MtMessage)
  | onError (what : String)
  | onTransmitResult (status : Int16)
  /-- The delay before the next attempt, in milliseconds. -/
  | delay (ms : Nat)
  /-- Bytes read from `m_buf` behind those received. -/
  | overRead (count : Nat)
  /-- Bytes by which `m_buf` falls short of the confirmation that is taken out of it. -/
  | underrun (count : Nat)
  | nullBuf
  deriving DecidableEq, Repr

structure SbdTransmitter where
  host : String
  port : String
  sentinel : Bool := false
  running : Bool := false
  shutdown : Bool := false
  errDelay : UInt16 := 1
  messageQueue : JobUnitQueue MtMessage := {}
  prevState : State := .notConnected
  state : State := .notConnected
  sendingMessage : MtMessage := default
  buf : Option (List UInt8) := none
  confirmationLength : UInt16 := 0
  -- the world around it
  thread : Thread := .absent
  runs : Nat := 0
  pending : List PendingOp := []
  heap : Heap
  log : List Event := []

namespace SbdTransmitter

/-- In milliseconds. -/
def heartbeat : Nat := 100

def maxDelay : UInt16 := 64

/-- The constructor. -/
def init (host port : String) (heap : Heap) : SbdTransmitter where
  host := host
  port := port
  heap := heap

/-! ## Effects -/

def signal (w : SbdTransmitter) (event : Event) : SbdTransmitter :=
  { w with log := w.log ++ [event] }

/-- `m_prevState = m_state; m_state = state;` -/
def goto (w : SbdTransmitter) (state : State) : SbdTransmitter :=
  { w with prevState := w.state, state := state }

def initiate (w : SbdTransmitter) (kind : OpKind) : SbdTransmitter :=
  { w with pending := w.pending ++ [{ kind := kind, run := w.runs }] }

def cancel (w : SbdTransmitter) (which : OpKind → Bool) : SbdTransmitter :=
  { w with pending := w.pending.map fun op =>
      if which op.kind then { op with cancelled := true } else op }

/-- `*m_buf`. -/
def deref (w : SbdTransmitter) : List UInt8 × SbdTransmitter :=
  match w.buf with
  | some data => (data, w)
  | none => ([], w.signal .nullBuf)

/-- What is left in `*m_buf`. -/
def setBuf (w : SbdTransmitter) (data : List UInt8) : SbdTransmitter := { w with buf := some data }

/-- `m_buf.reset()`. -/
def resetBuf (w : SbdTransmitter) : SbdTransmitter := { w with buf := none }

/-- Closing the socket cancels what is pending on it. -/
def closeSocket (w : SbdTransmitter) : SbdTransmitter := w.cancel OpKind.onSocket

/-! ## `StateMachine` -/

def enterNotConnected (w : SbdTransmitter) : SbdTransmitter :=
  { w.resetBuf with confirmationLength := 0, sentinel := false }

def enterResolving (w : SbdTransmitter) : SbdTransmitter :=
  { w with sentinel := true }.initiate .resolve

def enterConnecting (w : SbdTransmitter) : SbdTransmitter := w.initiate .connect

/-- The message is printed into `*m_buf`, and the write takes it from there. -/
def enterSending (w : SbdTransmitter) : SbdTransmitter :=
  let (message, queue) := w.messageQueue.get
  let w := { w with sendingMessage := message, messageQueue := queue }.signal
    (.got message (w.messageQueue.jobs = []))
  let w := w.setBuf []
  let (bytes, heap) := message.serialize w.heap
  let (data, w) := { w with heap := heap }.deref
  let w := w.setBuf (data ++ bytes)
  let (data, w) := w.deref
  (w.signal (.wrote message data)).initiate .write

/-- `prepare` is called on the new buffer. -/
def enterReceivingHeader (w : SbdTransmitter) : SbdTransmitter :=
  let w := w.resetBuf.setBuf []
  let (_, w) := w.deref
  w.initiate .readHeader

def enterSuccess (w : SbdTransmitter) : SbdTransmitter :=
  (w.closeSocket.goto .notConnected).enterNotConnected

/-- Back into the queue with a message that is being sent. -/
def giveBack (w : SbdTransmitter) : SbdTransmitter :=
  if State.sending.value ≤ w.prevState.value then
    { w with messageQueue := w.messageQueue.unget w.sendingMessage }.signal
      (.ungot w.sendingMessage)
  else w

/-- A new expiry cancels a wait for the old one. -/
def startTimer (w : SbdTransmitter) : SbdTransmitter :=
  ((w.cancel (· == .timer)).signal (.delay (heartbeat * w.errDelay.toNat))).initiate .timer

def enterError (w : SbdTransmitter) : SbdTransmitter :=
  let w := w.giveBack
  let w := if State.connecting.value < w.prevState.value then w.closeSocket else w
  w.startTimer

/-- What every error exit does. -/
def fail (w : SbdTransmitter) (what : String) : SbdTransmitter :=
  ((w.signal (.onError what)).goto .error).enterError

variable (past : List UInt8 → Memory)

/-- The end of a transmission that is confirmed. There may be bytes left in the buffer. -/
def succeed (w : SbdTransmitter) : SbdTransmitter :=
  let (data, w) := w.deref
  let w := if data.length > 0 then
      w.signal (.onError (toString data.length ++ " unexpected bytes received"))
    else w
  ({ w with errDelay := 1 }.goto .success).enterSuccess

/-- `eProcessingConfirmation` from where the confirmation has been parsed; `rest` is what the buffer
holds behind it. -/
def answered (w : SbdTransmitter) (rest : List UInt8) (status : Int16) : SbdTransmitter :=
  let w := (w.setBuf rest).signal (.onTransmitResult status)
  if status < 0 then (w.goto .error).enterError
  else (w.signal (.confirmed w.sendingMessage)).succeed

/-- The text for a category other than the one of a confirmation. -/
def categoryError (msgCategory : EMessageCategory) : String :=
  "receive confirmation error: " ++ (if msgCategory ≠ .unknownMessage then "unexpected " else "")
    ++ Codec.categoryStr msgCategory ++ "\n"

/-- The confirmation is copied out of the buffer however much there is in it. -/
def takeConfirmation (w : SbdTransmitter) (data : List UInt8) : SbdTransmitter :=
  if data.length < w.confirmationLength.toNat then
    w.signal (.underrun (w.confirmationLength.toNat - data.length))
  else w

/-- The string `buf` that is parsed is a copy; `past` is what lies behind it. -/
def enterProcessingConfirmation (w : SbdTransmitter) : SbdTransmitter :=
  let (data, w) := w.deref
  let w := w.takeConfirmation data
  let length := w.confirmationLength.toNat
  let buf := data.take length
  let mem := Memory.ofBuffer buf (past buf)
  let msgCategory := (Codec.messageCategory length).result mem
  if msgCategory ≠ .mtConfirmMessage then w.fail (categoryError msgCategory)
  else match (Codec.parseMtConfirm length MtConfirmMessage.init).result mem with
    | (.error what, _) => w.fail ("confirmation parse error: " ++ what)
    -- a confirmation that has been parsed has a status
    | (.ok (), confirmation) => w.answered (data.drop length) (confirmation.status.getD (-32767))

def enterReceivingConfirmation (w : SbdTransmitter) : SbdTransmitter :=
  let (data, w) := w.deref
  if data.length < w.confirmationLength.toNat then w.initiate .readConfirmation
  else (w.goto .processingConfirmation).enterProcessingConfirmation past

/-! ## The handlers

All but the timer's begin in the same way: nothing on `operation_aborted`, nothing in another state
or after `stop`, the error exit with a text of their own, and then what the handler is for. -/

def handle (w : SbdTransmitter) (expected : State) (errorText : String → String)
    (proceed : List UInt8 → List UInt8 → SbdTransmitter) : Completion → SbdTransmitter
  | .aborted => w
  | .failed message =>
    if w.state ≠ expected ∨ w.shutdown = true then w else w.fail (errorText message)
  | .done bytes beyond =>
    if w.state ≠ expected ∨ w.shutdown = true then w else proceed bytes beyond

def onResolve (w : SbdTransmitter) : Completion → SbdTransmitter :=
  w.handle .resolving (fun message =>
      "failed to resolve " ++ w.host ++ ":" ++ w.port ++ ": " ++ message)
    fun _ _ => (w.goto .connecting).enterConnecting

def onConnect (w : SbdTransmitter) : Completion → SbdTransmitter :=
  w.handle .connecting ("connection error: " ++ ·) fun _ _ => (w.goto .sending).enterSending

def onWrite (w : SbdTransmitter) (result : Completion) : SbdTransmitter :=
  match result with
  | .aborted => w
  | _ => w.resetBuf.handle .sending ("transmit error: " ++ ·)
      (fun _ _ => (w.resetBuf.goto .receivingHeader).enterReceivingHeader) result

/-- The header is copied out of the buffer however much there is in it. -/
def takeHeader (w : SbdTransmitter) (data beyond : List UInt8) : MessageHeader × SbdTransmitter :=
  let w := if data.length < MessageHeader.size then
      w.signal (.overRead (MessageHeader.size - data.length))
    else w
  (MessageHeader.ofBytes ((data ++ beyond).take MessageHeader.size),
    w.setBuf (data.drop MessageHeader.size))

def checkHeader (w : SbdTransmitter) (header : MessageHeader) : SbdTransmitter :=
  if header.proto ≠ sbdProtoNumber.toInt8 then
    w.fail ("invalid protocol number " ++ toString header.proto.toInt)
  else
    ({ w with confirmationLength := ntohs header.length }.goto
      .receivingConfirmation).enterReceivingConfirmation past

def onReadHeader (w : SbdTransmitter) : Completion → SbdTransmitter :=
  w.handle .receivingHeader ("receive confirmation error: " ++ ·) fun bytes beyond =>
    let (data, w) := w.deref
    let (header, w) := w.takeHeader (data ++ bytes) beyond
    w.checkHeader past header

def onReadConfirmation (w : SbdTransmitter) : Completion → SbdTransmitter :=
  w.handle .receivingConfirmation ("receive confirmation error: " ++ ·) fun bytes _ =>
    let (data, w) := w.deref
    ((w.setBuf (data ++ bytes)).goto .receivingConfirmation).enterReceivingConfirmation past

-- the only handler that looks at neither the state nor `m_shutdown`
def onTimer (w : SbdTransmitter) : Completion → SbdTransmitter
  | .aborted => w
  | _ =>
    let w := if w.errDelay < maxDelay then { w with errDelay := w.errDelay * 2 } else w
    (w.goto .notConnected).enterNotConnected

def onComplete (w : SbdTransmitter) : OpKind → Completion → SbdTransmitter
  | .resolve => w.onResolve
  | .connect => w.onConnect
  | .write => w.onWrite
  | .readHeader => w.onReadHeader past
  | .readConfirmation => w.onReadConfirmation past
  | .timer => w.onTimer

/-! ## The public functions and the worker -/

def start (w : SbdTransmitter) : SbdTransmitter :=
  if w.running = true then w
  else
    { w with running := true, shutdown := false, thread := .starting, runs := w.runs + 1 }

/-- `stop` up to the `join`, which waits for the worker to leave its loop. Operations on a socket
that is not open are not cancelled; marking them leaves them every result they can have. -/
def stop (w : SbdTransmitter) : SbdTransmitter :=
  if w.running = true then
    { w with shutdown := true }.cancel fun kind => kind == OpKind.timer || kind.onSocket
  else w

def post (w : SbdTransmitter) (message : MtMessage) : SbdTransmitter :=
  { w with messageQueue := w.messageQueue.put message }.signal (.posted message)

def dropMessages (w : SbdTransmitter) : SbdTransmitter :=
  { w with messageQueue := w.messageQueue.clear }.signal .dropped

/-- The worker before its loop. -/
def workerBegin (w : SbdTransmitter) : SbdTransmitter :=
  { w with errDelay := 1, prevState := .notConnected, state := .notConnected, thread := .looping }

/-- The worker when `wait_for` has returned `false`. -/
def attempt (w : SbdTransmitter) : SbdTransmitter :=
  ((w.signal (.attempt (w.messageQueue.jobs = []))).goto .resolving).enterResolving

/-- The worker from the head of its loop to the end of its body, or to the point where it
blocks. -/
def workerCheck (w : SbdTransmitter) : SbdTransmitter :=
  if w.shutdown = true then { w with sentinel := false, running := false, thread := .absent }
  else if w.state = .notConnected then
    match w.messageQueue.waitFor with
    | some _ => w.attempt
    | none => { w with thread := .waiting }
  else w

/-- The worker when it wakes up. -/
def workerWake (w : SbdTransmitter) (timedOut : Bool) : SbdTransmitter :=
  let w := { w with thread := .looping }
  if timedOut = true then w else w.attempt

/-! ## Steps -/

/-- An operation completes. -/
def finish (w : SbdTransmitter) (index : Nat) : SbdTransmitter :=
  { w with pending := w.pending.eraseIdx index }

inductive Label where
  | start
  | stop
  | post (message : MtMessage)
  | dropMessages
  | workerBegin
  | workerCheck
  | workerWake (timedOut : Bool)
  | complete (index : Nat) (result : Completion)
  deriving DecidableEq, Repr

/-- One step, where it can be taken. -/
def step (w : SbdTransmitter) : Label → Option SbdTransmitter
  | .start => some w.start
  | .stop => some w.stop
  | .post message => some (w.post message)
  | .dropMessages => some w.dropMessages
  | .workerBegin => if w.thread = .starting then some w.workerBegin else none
  | .workerCheck => if w.thread = .looping then some w.workerCheck else none
  | .workerWake timedOut => if w.thread = .waiting then some (w.workerWake timedOut) else none
  | .complete index result =>
    match w.pending[index]? with
    | none => none
    | some op =>
      if result = .aborted ∧ op.cancelled = false then none
      else some ((w.finish index).onComplete past op.kind result)

end SbdTransmitter

end Iridium
