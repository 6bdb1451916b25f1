import Iridium.SbdDirectIp.Codec

/-!
# The receiving session

`IncomingSbdSession` of `src/IncomingSbdSession.cpp`: one connection, read until it holds a whole
message. `onRead` is called with the outcome of every read; what it returns is whether the session
reads on, and what it signalled to its receiver.

The session parses a copy of the message's bytes. What lies behind that copy in memory is a
parameter, `past`: any function of the bytes.
-/

namespace Iridium

open ByteOrder SbdDirectIp

/-- The signals of a receiver. -/
inductive ReceiverEvent where
  | onError (what : String)
  | onMessage (message : MoMessage)
  deriving DecidableEq, Repr

/-- The outcome of a read: the text of its error, or the bytes received. `expired` says that the
receiver is gone when it completes. -/
structure ReadOutcome where
  expired : Bool
  result : Except String (List UInt8)
  deriving DecidableEq

structure IncomingSbdSession where
  inBuf : List UInt8 := []
  messageLength : UInt16 := 0
  deriving DecidableEq, Repr

namespace IncomingSbdSession

/-- Every signal goes to a receiver that is still there. -/
def emit (expired : Bool) (event : ReceiverEvent) : List ReceiverEvent :=
  if expired then [] else [event]

/-- The text of a category that is not the one of the message expected. -/
def categoryError (category : EMessageCategory) : String :=
  (if category ≠ .unknownMessage then "unexpected " else "") ++ Codec.categoryStr category

/-- The second half of `onRead`: read on, or take the message out of the buffer. The local message
is the object `here`. -/
def takeMessage (past : List UInt8 → Memory) (here : Nat) (expired : Bool)
    (self : IncomingSbdSession) : Option IncomingSbdSession × List ReceiverEvent :=
  if self.messageLength = 0 ∨ self.inBuf.length < self.messageLength.toNat then
    -- continue read
    (some self, [])
  else
    let buf := self.inBuf.take self.messageLength.toNat
    let mem := Memory.ofBuffer buf (past buf)
    let msgCategory := (Codec.messageCategory self.messageLength.toNat).result mem
    if msgCategory ≠ .moMessage then
      (none, emit expired (.onError (categoryError msgCategory)))
    else
      let (thrown, message) :=
        (Codec.parseMo here self.messageLength.toNat (MoMessage.init here)).result mem
      match thrown with
      | .error what => (none, emit expired (.onError ("message parse error: " ++ what)))
      | .ok () =>
        let self := { self with inBuf := self.inBuf.drop self.messageLength.toNat }
        let unexpected := if self.inBuf.length > 0 then
            emit expired (.onError ("unexpected " ++ toString self.inBuf.length ++ " bytes received"))
          else []
        (none, emit expired (.onMessage message) ++ unexpected)

/-- `onRead`. The session that waits for another read, if it does, and the signals. -/
def onRead (past : List UInt8 → Memory) (here : Nat) (self : IncomingSbdSession)
    (read : ReadOutcome) : Option IncomingSbdSession × List ReceiverEvent :=
  match read.result with
  | .error message => (none, emit read.expired (.onError message))
  | .ok bytes =>
    let self := { self with inBuf := self.inBuf ++ bytes }
    if MessageHeader.size ≤ self.inBuf.length ∧ self.messageLength = 0 then
      let header := MessageHeader.ofBytes (self.inBuf.take MessageHeader.size)
      let self := { self with inBuf := self.inBuf.drop MessageHeader.size }
      if header.proto ≠ sbdProtoNumber.toInt8 then
        (none, emit read.expired
          (.onError ("invalid protocol number " ++ toString header.proto.toInt)))
      else
        takeMessage past here read.expired { self with messageLength := ntohs header.length }
    else
      takeMessage past here read.expired self

/-- The signals of a session over the outcomes of its reads. -/
def run (past : List UInt8 → Memory) (here : Nat) :
    IncomingSbdSession → List ReadOutcome → List ReceiverEvent
  | _, [] => []
  | self, read :: reads =>
    match onRead past here self read with
    | (some self, events) => events ++ run past here self reads
    | (none, events) => events

end IncomingSbdSession

end Iridium
