import Iridium.SbdDirectIp.Message

/-!
# The codec

`Codec` of `src/Codec.cpp`. A `const char*` argument is a memory with the argument at offset `0`,
and `size` is what the caller says of it.

A function that may throw returns `.error what` for a thrown `std::runtime_error`, next to the
output argument as it stands at that moment.
-/

namespace Iridium.SbdDirectIp

open ByteOrder ReadM

/-- `Codec::EMessageCategory`. -/
inductive EMessageCategory where
  | moMessage | mtMessage | mtConfirmMessage | unknownMessage
  deriving DecidableEq, Repr

namespace Codec

def categoryStr : EMessageCategory → String
  | .moMessage => "mobile originated message"
  | .mtMessage => "mobile terminated message"
  | .mtConfirmMessage => "MT message confirmation message"
  | .unknownMessage => "unknown or bad format message"

def ieFactory (id : UInt8) : Option InformationElement :=
  if id = ElementId.moHeader.value then some (.create .moHeader)
  else if id = ElementId.moPayload.value then some (.create .moPayload)
  else if id = ElementId.moLocationInfo.value then some (.create .moLocationInfo)
  else if id = ElementId.moConfirmation.value then some (.create .moConfirmation)
  else if id = ElementId.mtHeader.value then some (.create .mtHeader)
  else if id = ElementId.mtPayload.value then some (.create .mtPayload)
  else if id = ElementId.mtConfirmationMsg.value then some (.create .mtConfirmationMsg)
  else if id = ElementId.mtMsgPriority.value then some (.create .mtMsgPriority)
  else none

/-- `std::find_if` for an element of a class; the index of `end()` when there is none. -/
def findId (id : ElementId) (elements : List InformationElement) : Nat :=
  elements.findIdx (·.getId == id)

/-! ## The factory -/

def isDigit (c : UInt8) : Bool := 0x30 ≤ c && c ≤ 0x39

/-- `payload` is `none` for a null pointer. -/
def factory (here : Nat) (heap : Heap) (out : MtMessage) (msgId : UInt32) (imei : List UInt8)
    (payload : Option Memory) (size : Nat) (flags : MtMessageFlags) (priority : UInt16) :
    Except String Unit × MtMessage × Heap :=
  if imei.length ≠ 15 then (.error "invalid IMEI size", out, heap)
  else if ¬ imei.all isDigit then (.error "bad IMEI", out, heap)
  else match payload with
    | none => (.error "no payload", out, heap)
    | some data =>
      if size < 1 then (.error "no payload", out, heap)
      else if IEMtPayload.maxPayloadLength < size then (.error "payload too large", out, heap)
      else
        let header : InformationElement := .mtHeader { content := {
          uniqueClientMsgId := msgId, imei := IMEI.ofChars imei, dispositionFlags := flags } }
        let (outHeader, heap) := heap.alloc header
        let (outPayload, heap) := heap.alloc (.mtPayload { content := ⟨data.block 0 size⟩ })
        let (outPrio, heap) := heap.alloc (.mtMsgPriority { content := ⟨priority⟩ })
        let elements := [outHeader, outPayload, outPrio]
        let find (id : ElementId) : Position := ⟨here, findId id (elements.map heap.cells)⟩
        (.ok (), {
          elements := elements
          header := find .mtHeader
          payloadPos := find .mtPayload
          priority := find .mtMsgPriority }, heap)

/-! ## The category of a message -/

/-- The branches of the scan on one identifier; `none` is `return eUnknownMessage`. -/
def nextCategory (category : EMessageCategory) (id : UInt8) : Option EMessageCategory :=
  if isMoElem id then
    if category = .unknownMessage then
      -- first element
      some .moMessage
    else if category ≠ .moMessage then none
    else some category
  else if isMtElem id then
    if category = .unknownMessage then
      -- first element
      if isMtConfirm id then some .mtConfirmMessage else some .mtMessage
    else if isMtConfirm id then
      if category ≠ .mtConfirmMessage then none else some category
    else
      if category ≠ .mtMessage then none else some category
  else none

def categoryLoop (size currPos : Nat) (category : EMessageCategory) : ReadM EMessageCategory :=
  if _h : currPos < size then do
    let id ← readHead currPos
    match nextCategory category id with
    | none => return .unknownMessage
    | some category =>
      -- move to next element
      let raw ← read (currPos + 1) 2
      let offset := ntohs (load16 raw)
      categoryLoop size (currPos + 1 + 2 + offset.toNat) category
  else return category
termination_by size - currPos

def messageCategory (size : Nat) : ReadM EMessageCategory :=
  categoryLoop size 0 .unknownMessage

/-! ## The parsers -/

/-- The loop of either `parse`: the elements read, or what is thrown. -/
def parseLoop (size currPos : Nat) (elements : List InformationElement) :
    ReadM (Except String (List InformationElement)) :=
  if _h : currPos < size then do
    let id ← readHead currPos
    match ieFactory id with
    | none => return .error "unknown information element"
    | some element =>
      let (element, offset) ←
        element.unpack (currPos + 1) (UInt16.ofNat (size - (currPos + 1)))
      if offset = 0 then return .error "information element parse error"
      else parseLoop size (currPos + 1 + offset.toNat) (elements ++ [element])
  else return .ok elements
termination_by size - currPos

/-- `parse` into an `MoMessage`. The last two throws clear the elements and leave the positions
where they are. -/
def parseMo (here size : Nat) (out : MoMessage) : ReadM (Except String Unit × MoMessage) := do
  let out := { out with elements := [] }
  let cleared : MoMessage := ⟨[], out.endPos here, out.endPos here, out.endPos here⟩
  match ← parseLoop size 0 [] with
  | .error what => return (.error what, cleared)
  | .ok elements =>
    let out : MoMessage := {
      elements := elements
      header := ⟨here, findId .moHeader elements⟩
      payloadPos := ⟨here, findId .moPayload elements⟩
      location := ⟨here, findId .moLocationInfo elements⟩ }
    if out.header = out.endPos here then
      return (.error "no header found", { out with elements := [] })
    else if out.payloadPos = out.endPos here then
      return (.error "no payload found", { out with elements := [] })
    else
      -- MO messages without location are valid
      return (.ok (), out)

/-- `parse` into an `MtConfirmMessage`. Nothing of its earlier content is read. -/
def parseMtConfirm (size : Nat) (_out : MtConfirmMessage) :
    ReadM (Except String Unit × MtConfirmMessage) := do
  match ← parseLoop size 0 [] with
  | .error what => return (.error what, ⟨[], 0⟩)
  | .ok elements =>
    let out : MtConfirmMessage := ⟨elements, findId .mtConfirmationMsg elements⟩
    if out.confirmation = out.elements.length then
      return (.error "no MT confirmation found", { out with elements := [] })
    else
      return (.ok (), out)

end Codec

end Iridium.SbdDirectIp
