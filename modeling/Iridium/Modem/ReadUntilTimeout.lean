import Iridium.Lib.Serial
import Iridium.Lib.Transition

/-!
# Reading with a timeout

`read_until_timeout` of `src/Modem.cpp` at the grain of its threads, and `Close` of the same object
called by another one. The caller waits, with the mutex released while it does; a thread of its own
calls the handlers of the timer and of the composed read; the device, the clock and the thread that
calls `Close` may come in at any point.

The composed read is a chain of reads of the device, each completed by a handler that appends what
came and starts the next one. Cancelling the device completes a read that is outstanding. It has no
effect on one that has completed and whose handler is still queued.

The timer's handler ignores its error, so it does the same after a timeout, a cancellation by the end
of the read and one by `Close`: it cancels the device. On a device that is not open that throws, in
a thread where nothing catches it.
-/

namespace Iridium

open Serial

/-- What a read of the device has come to. `found` stands for the delimiter in a buffer that is
passed in with bytes in it: nothing is read then. -/
inductive ReadResult where
  | found
  | received (bytes : List UInt8)
  | aborted
  | failed (message : String)
  deriving DecidableEq, Repr

/-- The read of the device at the head of the chain; `finished` after the last one. -/
inductive Reading where
  | outstanding
  | queued (result : ReadResult)
  | finished
  deriving DecidableEq, Repr

/-- Whether the timer is still running, its handler is queued, or has been called. -/
inductive Timer where
  | running | queued | finished
  deriving DecidableEq, Repr

/-- The error code. -/
inductive ErrorCode where
  | success | aborted
  | failed (message : String)
  deriving DecidableEq, Repr

/-- Where the caller is: about to look at `complete`, in `wait_for`, in `join`, or back. It holds the
mutex except in `wait_for`. -/
inductive Caller where
  | checking | waiting | joining | returned
  deriving DecidableEq, Repr

/-- A call of `read_until_timeout`. -/
structure TimedRead where
  delim : List UInt8
  buf : List UInt8
  ec : Option ErrorCode := none
  complete : Bool := false
  -- the world around it
  deviceOpen : Bool
  timer : Timer := .running
  reading : Reading
  caller : Caller := .checking
  /-- The thread is in `m_ioService.run()`. -/
  thread : Bool := true
  /-- An exception has left the thread: `std::terminate`. -/
  terminated : Bool := false
  /-- What has been taken from the device. -/
  taken : List (List UInt8) := []
  deriving DecidableEq, Repr

namespace TimedRead

/-! ## The handlers -/

/-- `async_read_some`. -/
def readSome (c : TimedRead) : TimedRead :=
  { c with reading :=
      if c.deviceOpen then .outstanding else .queued (.failed "Bad file descriptor") }

/-- `m_timer.cancel()`. A handler that is queued already stays so. -/
def cancelTimer (c : TimedRead) : TimedRead :=
  { c with timer := if c.timer = .running then .queued else c.timer }

/-- What cancelling or closing the device does to the read. -/
def cancelRead (c : TimedRead) : TimedRead :=
  { c with reading := if c.reading = .outstanding then .queued .aborted else c.reading }

/-- The handler of the composed read. -/
def conclude (c : TimedRead) (ec : ErrorCode) : TimedRead :=
  { c with reading := .finished, ec := some ec, complete := true }.cancelTimer

/-- The handler in the chain. -/
def onRead (c : TimedRead) : ReadResult → TimedRead
  | .found => c.conclude .success
  | .received bytes =>
    let c := { c with buf := c.buf ++ bytes, taken := c.taken ++ [bytes] }
    if c.delim <:+: c.buf then c.conclude .success else c.readSome
  | .aborted => c.conclude .aborted
  | .failed message => c.conclude (.failed message)

/-- The handler of the timer. -/
def onTimer (c : TimedRead) : TimedRead :=
  if c.deviceOpen then { c.cancelRead with timer := .finished } else { c with terminated := true }

/-! ## Steps -/

/-- The call up to the start of its thread. -/
def begin (delim buf : List UInt8) (deviceOpen : Bool) : TimedRead :=
  let c : TimedRead :=
    { delim := delim, buf := buf, deviceOpen := deviceOpen, reading := .queued .found }
  if delim <:+: buf then c else c.readSome

inductive Label where
  /-- The device delivers bytes to the read that is outstanding, or fails. -/
  | deliver (bytes : List UInt8)
  | fail (message : String)
  /-- The time is over. -/
  | expire
  | timerHandler
  | readHandler
  /-- `m_ioService.run()` returns: there are no handlers any more. -/
  | exit
  /-- The head of the caller's loop, the end of its wait, and the end of the join. -/
  | check
  | wake
  | join
  /-- The two statements of `Close`: it cancels the timer, and closes the device in possession of the
  mutex. -/
  | closeTimer
  | closeDevice
  deriving DecidableEq, Repr

/-- The mutex is free. -/
def Free (c : TimedRead) : Prop := c.caller = .waiting ∨ c.caller = .returned

instance (c : TimedRead) : Decidable c.Free := inferInstanceAs (Decidable (_ ∨ _))

/-- `m_io.close()`. -/
def closeDevice (c : TimedRead) : TimedRead := { c.cancelRead with deviceOpen := false }

/-- After `std::terminate` nothing happens any more. -/
def step (c : TimedRead) (label : Label) : Option TimedRead :=
  if c.terminated then none
  else match label with
    | .deliver bytes =>
      if c.reading = .outstanding then some { c with reading := .queued (.received bytes) } else none
    | .fail message =>
      if c.reading = .outstanding then some { c with reading := .queued (.failed message) } else none
    | .expire => if c.timer = .running then some { c with timer := .queued } else none
    | .timerHandler => if c.thread ∧ c.timer = .queued then some c.onTimer else none
    | .readHandler =>
      match c.reading with
      | .queued result => if c.thread then some (c.onRead result) else none
      | _ => none
    | .exit =>
      if c.thread ∧ c.timer = .finished ∧ c.reading = .finished then some { c with thread := false }
      else none
    | .check =>
      if c.caller = .checking then
        some { c with caller := if c.complete then .joining else .waiting }
      else none
    | .wake => if c.caller = .waiting then some { c with caller := .checking } else none
    | .join =>
      if c.caller = .joining ∧ c.thread = false then some { c with caller := .returned } else none
    | .closeTimer => some c.cancelTimer
    | .closeDevice => if c.Free then some c.closeDevice else none

def system : System TimedRead Label := ⟨step⟩

end TimedRead

end Iridium
