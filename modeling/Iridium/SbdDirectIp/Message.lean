import Iridium.SbdDirectIp.InformationElement

/-!
# Messages

`MoMessage`, `MtMessage` and `MtConfirmMessage` of `src/Message.cpp`.

A stored iterator is a `Position`: the vector it points into and an index. Which vector a message
object owns is a matter of where the object lives, so it is the argument `here` of the functions
that compare with `m_elements.end()`, and copying a message copies its value as it is. `vectors`
gives the contents of all the other vectors, for a position that points into one of them. An
accessor returns `none` where the source would dereference a position that designates no element
of the class it casts to.

The elements of a received message are written once, by `unpack`, before anything shares them, so
they are held by value. Those of an `MtMessage` are rewritten by every `serialize`, through
pointers that the copies of the message share: they live in a `Heap`.
-/

namespace Iridium.SbdDirectIp

open ByteOrder

/-- `SbdProtoNumber`. -/
def sbdProtoNumber : UInt8 := 1

/-- The header of a packet, with the length as it lies in memory. -/
structure MessageHeader where
  proto : Int8
  length : UInt16
  deriving DecidableEq, Repr

namespace MessageHeader

/-- `sizeof(MessageHeader)`. -/
def size : Nat := 3

/-- `memcpy` into a header. -/
def ofBytes (raw : List UInt8) : MessageHeader where
  proto := (raw.getD 0 0).toInt8
  length := load16 ((raw.drop 1).take 2)

end MessageHeader

/-- A `std::vector` iterator: the vector it points into and an index. -/
structure Position where
  vec : Nat
  idx : Nat
  deriving DecidableEq, Repr

/-- What a position designates, for the object whose own vector `here` holds `own`. -/
def Position.deref {α : Type} (p : Position) (here : Nat) (own : List α) (vectors : Nat → List α) :
    Option α :=
  if p.vec = here then own[p.idx]? else (vectors p.vec)[p.idx]?

/-! ## Mobile originated messages -/

structure MoMessage where
  elements : List InformationElement
  header : Position
  payloadPos : Position
  location : Position
  deriving DecidableEq, Repr

namespace MoMessage

/-- Largest message over Direct IP; the size of the buffer offered to a read. -/
def maxMessageSize : Nat :=
  headerSize * 3 + IEMoHeader.elementLength + IEMoPayload.maxPayloadLength
    + IEMoLocationInfo.elementLength

/-- `m_elements.end()`. -/
def endPos (here : Nat) (m : MoMessage) : Position := ⟨here, m.elements.length⟩

/-- The default constructor. -/
def init (here : Nat) : MoMessage := ⟨[], ⟨here, 0⟩, ⟨here, 0⟩, ⟨here, 0⟩⟩

def imei (here : Nat) (vectors : Nat → List InformationElement) (m : MoMessage) :
    Option (List UInt8) :=
  if m.header = m.endPos here then some []
  else match m.header.deref here m.elements vectors with
    | some (.moHeader h) => some h.content.imei.str
    | _ => none

def payload (here : Nat) (vectors : Nat → List InformationElement) (m : MoMessage) :
    Option (List UInt8) :=
  if m.payloadPos = m.endPos here then some []
  else match m.payloadPos.deref here m.elements vectors with
    | some (.moPayload p) => some p.content.payload
    | _ => none

end MoMessage

/-! ## Mobile terminated messages -/

/-- A `std::shared_ptr<InformationElement>`. -/
abbrev Pointer := Nat

/-- The element objects behind the pointers; `next` is the first address not yet used. -/
structure Heap where
  cells : Pointer → InformationElement
  next : Pointer

namespace Heap

/-- A heap with no object in it. -/
def empty : Heap := ⟨fun _ => InformationElement.create .moHeader, 0⟩

def alloc (heap : Heap) (e : InformationElement) : Pointer × Heap :=
  (heap.next, ⟨Function.update heap.cells heap.next e, heap.next + 1⟩)

def set (heap : Heap) (p : Pointer) (e : InformationElement) : Heap :=
  { heap with cells := Function.update heap.cells p e }

end Heap

structure MtMessage where
  elements : List Pointer
  header : Position
  payloadPos : Position
  priority : Position
  deriving DecidableEq, Repr

namespace MtMessage

/-- `m_elements.end()`. -/
def endPos (here : Nat) (m : MtMessage) : Position := ⟨here, m.elements.length⟩

/-- The default constructor. -/
def init (here : Nat) : MtMessage := ⟨[], ⟨here, 0⟩, ⟨here, 0⟩, ⟨here, 0⟩⟩

instance : Inhabited MtMessage := ⟨init 0⟩

def imei (here : Nat) (vectors : Nat → List Pointer) (heap : Heap) (m : MtMessage) :
    Option (List UInt8) :=
  if m.header = m.endPos here then some []
  else match (m.header.deref here m.elements vectors).map heap.cells with
    | some (.mtHeader h) => some h.content.imei.str
    | _ => none

def payload (here : Nat) (vectors : Nat → List Pointer) (heap : Heap) (m : MtMessage) :
    Option (List UInt8) :=
  if m.payloadPos = m.endPos here then some []
  else match (m.payloadPos.deref here m.elements vectors).map heap.cells with
    | some (.mtPayload p) => some p.content.payload
    | _ => none

/-- The loop of `serialize`: pack each element behind `out`, which rewrites it, and sum up the
lengths. -/
def serializeLoop : List Pointer → Heap → List UInt8 → UInt16 → List UInt8 × UInt16 × Heap
  | [], heap, out, length => (out, length, heap)
  | p :: ps, heap, out, length =>
    let (elem, out) := (heap.cells p).packInto out
    serializeLoop ps (heap.set p elem) out (length + (elem.getLength + UInt16.ofNat headerSize))

def serialize (m : MtMessage) (heap : Heap) : List UInt8 × Heap :=
  let (out, length, heap) := serializeLoop m.elements heap (List.replicate 3 0) 0
  -- assign the header in the buffer
  (sbdProtoNumber :: bytes16 (htons length) ++ out.drop 3, heap)

end MtMessage

/-! ## Confirmations -/

/-- Nothing copies a confirmation, so its position is an index. -/
structure MtConfirmMessage where
  elements : List InformationElement
  confirmation : Nat
  deriving DecidableEq, Repr

namespace MtConfirmMessage

/-- The default constructor. -/
def init : MtConfirmMessage := ⟨[], 0⟩

/-- What the four accessors share: a default when there is no confirmation element, a field of it
otherwise. -/
def access {α : Type} (default : α) (field : IEMtConfirmationMsgDto → α) (m : MtConfirmMessage) :
    Option α :=
  if m.confirmation = m.elements.length then some default
  else match m.elements[m.confirmation]? with
    | some (.mtConfirmationMsg c) => some (field c.content)
    | _ => none

def imei (m : MtConfirmMessage) : Option (List UInt8) := m.access [] (·.imei.str)

def messageId (m : MtConfirmMessage) : Option UInt32 := m.access 0 (·.uniqueClientMsgId)

def autoRef (m : MtConfirmMessage) : Option UInt32 := m.access 0 (·.autoIdRef)

def status (m : MtConfirmMessage) : Option Int16 := m.access (-32767) (·.msgStatus)

end MtConfirmMessage

end Iridium.SbdDirectIp
