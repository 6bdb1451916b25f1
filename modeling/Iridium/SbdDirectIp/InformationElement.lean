import Iridium.Lib.Memory

/-!
# Information elements

The eight element classes of `include/iridium/IE*.hpp`: their content, `unpack` and `packInto`.
Fields and functions keep the source's names without the `m_` prefix, and `char` buffers are byte
lists.

The host is little-endian, as every target of the build is: an integer in memory is its
`ByteOrder.bytes16` or `bytes32`, and `htons`/`ntohs`/`htonl`/`ntohl` swap.

Six of the classes have a fixed length and open `unpack` with the same lines; `unpackFixed` is
those lines, and each class applies it to its own length and its own field reader. The two
payload classes are `unpackPayload` and `packPayload` at their own limit.
-/

namespace Iridium.SbdDirectIp

open ByteOrder ReadM

/-! ## Identifiers -/

/-- `EInformationElementId`. -/
inductive ElementId where
  | moHeader | moPayload | moLocationInfo | moConfirmation
  | mtHeader | mtPayload | mtConfirmationMsg | mtMsgPriority
  deriving DecidableEq, Repr

/-- The enumerators' values. -/
def ElementId.value : ElementId → UInt8
  | .moHeader => 0x01
  | .moPayload => 0x02
  | .moLocationInfo => 0x03
  | .moConfirmation => 0x05
  | .mtHeader => 0x41
  | .mtPayload => 0x42
  | .mtConfirmationMsg => 0x44
  | .mtMsgPriority => 0x46

/-- Size of an element's header: its identifier and its length. -/
def headerSize : Nat := 3

def isMoElem (id : UInt8) : Bool :=
  ElementId.moHeader.value ≤ id && id ≤ ElementId.moConfirmation.value

-- the source excludes 0x45 twice and 0x43 never
def isMtElem (id : UInt8) : Bool :=
  ElementId.mtHeader.value ≤ id && id ≤ ElementId.mtMsgPriority.value && id != 0x45 && id != 0x45

def isMtConfirm (id : UInt8) : Bool := id == ElementId.mtConfirmationMsg.value

/-! ## Contents -/

/-- `char value[16]`. -/
structure IMEI where
  value : List UInt8
  size : value.length = 16
  deriving DecidableEq, Repr

/-- The array cleared with `memset` and then overwritten with (at most) 15 characters. -/
def IMEI.ofChars (chars : List UInt8) : IMEI where
  value := (chars.take 15).rightpad 16 0
  size := by simp [List.rightpad]

/-- The fifteen characters that go on the wire. -/
def IMEI.chars (imei : IMEI) : List UInt8 := imei.value.take 15

/-- `std::string(value)`: the characters before the first NUL. -/
def IMEI.str (imei : IMEI) : List UInt8 := imei.value.takeWhile (· ≠ 0)

theorem IMEI.chars_ofChars {chars : List UInt8} (h : chars.length = 15) :
    (IMEI.ofChars chars).chars = chars := by
  have htake : chars.take 15 = chars := List.take_of_length_le h.le
  unfold IMEI.chars IMEI.ofChars List.rightpad
  simp only [htake]
  exact List.take_left' h

structure IEMoHeaderDto where
  cdrRef : UInt32 := 0
  imei : IMEI := .ofChars []
  sessionStatus : UInt8 := 0
  momsn : UInt16 := 0
  mtmsn : UInt16 := 0
  sessionTime : UInt32 := 0
  deriving DecidableEq, Repr

/-- The content of either payload class. -/
structure PayloadDto where
  payload : List UInt8 := []
  deriving DecidableEq, Repr

abbrev IEMoPayloadDto := PayloadDto

abbrev IEMtPayloadDto := PayloadDto

/-- `flags` is the object representation of the bit-field struct: an `unsigned int`, of which the
low byte holds the four named fields and the other three bytes are padding. -/
structure IEMoLocationInfoDto where
  flags : UInt32 := 0
  latitude : UInt8 := 0
  latitudeMinutes : UInt16 := 0
  longitude : UInt8 := 0
  longitudeMinutes : UInt16 := 0
  cepRadius : UInt32 := 0
  deriving DecidableEq, Repr

structure IEMoConfirmationDto where
  status : UInt8 := 0
  deriving DecidableEq, Repr

/-- The bit-fields of the disposition flags. -/
structure MtMessageFlags where
  flushMtQueue : Bool := false
  sendRingAlert : Bool := false
  unused : Bool := false
  updateSsdLocation : Bool := false
  highPriority : Bool := false
  assignMtmsh : Bool := false
  reserved : Fin 1024 := 0
  deriving DecidableEq, Repr

def MtMessageFlags.get (flags : MtMessageFlags) : UInt16 :=
  UInt16.ofNat (flags.flushMtQueue.toNat + (flags.sendRingAlert.toNat <<< 1)
    + (flags.updateSsdLocation.toNat <<< 3) + (flags.highPriority.toNat <<< 4)
    + (flags.assignMtmsh.toNat <<< 5))

/-- The bit-fields overlaid on a 16-bit word, allocated from the least significant bit. -/
def MtMessageFlags.ofRaw (word : UInt16) : MtMessageFlags where
  flushMtQueue := word.toNat.testBit 0
  sendRingAlert := word.toNat.testBit 1
  unused := word.toNat.testBit 2
  updateSsdLocation := word.toNat.testBit 3
  highPriority := word.toNat.testBit 4
  assignMtmsh := word.toNat.testBit 5
  reserved := Fin.ofNat 1024 (word.toNat >>> 6)

structure IEMtHeaderDto where
  uniqueClientMsgId : UInt32 := 0
  imei : IMEI := .ofChars []
  dispositionFlags : MtMessageFlags := {}
  deriving DecidableEq, Repr

structure IEMtConfirmationMsgDto where
  uniqueClientMsgId : UInt32 := 0
  imei : IMEI := .ofChars []
  autoIdRef : UInt32 := 0
  msgStatus : Int16 := 0
  deriving DecidableEq, Repr

structure IEMtPriorityDto where
  priority : UInt16 := 5
  deriving DecidableEq, Repr

/-! ## What the classes share -/

/-- An element object: `m_length` of the base class and the content. `m_id` is fixed by the
class. -/
structure IEContent (Content : Type) where
  length : UInt16 := 0
  content : Content
  deriving DecidableEq, Repr

/-- `InformationElement::packInto`: the identifier and the length. -/
def basePackInto (id : ElementId) (length : UInt16) (raw : List UInt8) : List UInt8 :=
  raw ++ (id.value :: bytes16 (htons length))

/-- The `unpack` of a class of fixed length. `fields` reads the content after the length and
returns it with the offset it ends at; offset `0` stands for a parse error. -/
def unpackFixed {Content : Type} (elementLength : Nat)
    (fields : Nat → ReadM (Content × Nat)) (self : IEContent Content) (data : Nat)
    (size : UInt16) : ReadM (IEContent Content × UInt16) := do
  if size.toNat < elementLength + 2 then
    return (self, 0)
  else
    let raw ← read data 2
    let length := ntohs (load16 raw)
    -- this element has a fixed length
    if length.toNat ≠ elementLength then
      return ({ self with length := length }, 0)
    else
      let (content, offset) ← fields data
      return ({ length := length, content := content }, UInt16.ofNat offset)

/-- The `unpack` of a payload class. The last comparison leaves the two length bytes out. -/
def unpackPayload (maxPayloadLength : Nat) (self : IEContent PayloadDto) (data : Nat)
    (size : UInt16) : ReadM (IEContent PayloadDto × UInt16) := do
  if size.toNat < 2 then
    return (self, 0)
  else
    let raw ← read data 2
    let length := ntohs (load16 raw)
    if length.toNat < 1 ∨ maxPayloadLength < length.toNat then
      return ({ self with length := length }, 0)
    else if size < length then
      return ({ self with length := length }, 0)
    else
      let payload ← read (data + 2) length.toNat
      return ({ length := length, content := ⟨payload⟩ }, 2 + length)

/-- `std::vector::resize`. -/
def resize (bytes : List UInt8) (n : Nat) : List UInt8 :=
  bytes.take n ++ List.replicate (n - bytes.length) 0

/-- The `packInto` of a payload class. The size is narrowed to 16 bits before it is compared. -/
def packPayload (id : ElementId) (maxPayloadLength : UInt16) (self : IEContent PayloadDto)
    (raw : List UInt8) : IEContent PayloadDto × List UInt8 :=
  let length := UInt16.ofNat self.content.payload.length
  if maxPayloadLength < length then
    let payload := resize self.content.payload maxPayloadLength.toNat
    ({ length := maxPayloadLength, content := ⟨payload⟩ },
      basePackInto id maxPayloadLength raw ++ payload)
  else
    ({ self with length := length }, basePackInto id length raw ++ self.content.payload)

/-! ## The classes -/

abbrev IEMoHeader := IEContent IEMoHeaderDto

def IEMoHeader.elementLength : Nat := 28

def IEMoHeader.fields (data : Nat) : ReadM (IEMoHeaderDto × Nat) := do
  let offset := 2
  let cdrRef ← read (data + offset) 4
  let offset := offset + 4
  let imei ← read (data + offset) 15
  let offset := offset + 15
  let sessionStatus ← read (data + offset) 1
  let offset := offset + 1
  let momsn ← read (data + offset) 2
  let offset := offset + 2
  let mtmsn ← read (data + offset) 2
  let offset := offset + 2
  let sessionTime ← read (data + offset) 4
  let offset := offset + 4
  return ({
    cdrRef := ntohl (load32 cdrRef)
    imei := IMEI.ofChars imei
    sessionStatus := sessionStatus.headD 0
    momsn := ntohs (load16 momsn)
    mtmsn := ntohs (load16 mtmsn)
    sessionTime := ntohl (load32 sessionTime) }, offset)

def IEMoHeader.unpack (self : IEMoHeader) (data : Nat) (size : UInt16) :
    ReadM (IEMoHeader × UInt16) :=
  unpackFixed IEMoHeader.elementLength IEMoHeader.fields self data size

def IEMoHeader.packInto (self : IEMoHeader) (raw : List UInt8) : IEMoHeader × List UInt8 :=
  let length := UInt16.ofNat IEMoHeader.elementLength
  let c := self.content
  ({ self with length := length },
    basePackInto .moHeader length raw ++ bytes32 (htonl c.cdrRef) ++ c.imei.chars
      ++ [c.sessionStatus] ++ bytes16 (htons c.momsn) ++ bytes16 (htons c.mtmsn)
      ++ bytes32 (htonl c.sessionTime))

abbrev IEMoPayload := IEContent IEMoPayloadDto

def IEMoPayload.maxPayloadLength : Nat := 1960

def IEMoPayload.unpack (self : IEMoPayload) (data : Nat) (size : UInt16) :
    ReadM (IEMoPayload × UInt16) :=
  unpackPayload IEMoPayload.maxPayloadLength self data size

def IEMoPayload.packInto (self : IEMoPayload) (raw : List UInt8) : IEMoPayload × List UInt8 :=
  packPayload .moPayload (UInt16.ofNat IEMoPayload.maxPayloadLength) self raw

abbrev IEMoLocationInfo := IEContent IEMoLocationInfoDto

def IEMoLocationInfo.elementLength : Nat := 11

-- every width is the `sizeof` of the member, so the flags take four bytes
def IEMoLocationInfo.fields (data : Nat) : ReadM (IEMoLocationInfoDto × Nat) := do
  let offset := 2
  let flags ← read (data + offset) 4
  let offset := offset + 4
  let latitude ← read (data + offset) 1
  let offset := offset + 1
  let latitudeMinutes ← read (data + offset) 2
  let offset := offset + 2
  let longitude ← read (data + offset) 1
  let offset := offset + 1
  let longitudeMinutes ← read (data + offset) 2
  let offset := offset + 2
  let cepRadius ← read (data + offset) 4
  let offset := offset + 4
  return ({
    flags := load32 flags
    latitude := latitude.headD 0
    latitudeMinutes := ntohs (load16 latitudeMinutes)
    longitude := longitude.headD 0
    longitudeMinutes := ntohs (load16 longitudeMinutes)
    cepRadius := ntohl (load32 cepRadius) }, offset)

def IEMoLocationInfo.unpack (self : IEMoLocationInfo) (data : Nat) (size : UInt16) :
    ReadM (IEMoLocationInfo × UInt16) :=
  unpackFixed IEMoLocationInfo.elementLength IEMoLocationInfo.fields self data size

-- the radius goes through `htons`, which narrows it to 16 bits
def IEMoLocationInfo.packInto (self : IEMoLocationInfo) (raw : List UInt8) :
    IEMoLocationInfo × List UInt8 :=
  let length := UInt16.ofNat IEMoLocationInfo.elementLength
  let c := self.content
  ({ self with length := length },
    basePackInto .moLocationInfo length raw ++ bytes32 c.flags ++ [c.latitude]
      ++ bytes16 (htons c.latitudeMinutes) ++ [c.longitude]
      ++ bytes16 (htons c.longitudeMinutes) ++ bytes32 (htons c.cepRadius.toUInt16).toUInt32)

abbrev IEMoConfirmation := IEContent IEMoConfirmationDto

def IEMoConfirmation.elementLength : Nat := 1

def IEMoConfirmation.fields (data : Nat) : ReadM (IEMoConfirmationDto × Nat) := do
  let offset := 2
  let status ← read (data + offset) 1
  let offset := offset + 1
  return ({ status := status.headD 0 }, offset)

def IEMoConfirmation.unpack (self : IEMoConfirmation) (data : Nat) (size : UInt16) :
    ReadM (IEMoConfirmation × UInt16) :=
  unpackFixed IEMoConfirmation.elementLength IEMoConfirmation.fields self data size

def IEMoConfirmation.packInto (self : IEMoConfirmation) (raw : List UInt8) :
    IEMoConfirmation × List UInt8 :=
  let length := UInt16.ofNat IEMoConfirmation.elementLength
  ({ self with length := length },
    basePackInto .moConfirmation length raw ++ [self.content.status])

abbrev IEMtHeader := IEContent IEMtHeaderDto

def IEMtHeader.elementLength : Nat := 21

def IEMtHeader.fields (data : Nat) : ReadM (IEMtHeaderDto × Nat) := do
  let offset := 2
  let uniqueClientMsgId ← read (data + offset) 4
  let offset := offset + 4
  let imei ← read (data + offset) 15
  let offset := offset + 15
  let dispositionFlags ← read (data + offset) 2
  let offset := offset + 2
  return ({
    uniqueClientMsgId := ntohl (load32 uniqueClientMsgId)
    imei := IMEI.ofChars imei
    dispositionFlags := MtMessageFlags.ofRaw (load16 dispositionFlags) }, offset)

def IEMtHeader.unpack (self : IEMtHeader) (data : Nat) (size : UInt16) :
    ReadM (IEMtHeader × UInt16) :=
  unpackFixed IEMtHeader.elementLength IEMtHeader.fields self data size

def IEMtHeader.packInto (self : IEMtHeader) (raw : List UInt8) : IEMtHeader × List UInt8 :=
  let length := UInt16.ofNat IEMtHeader.elementLength
  let c := self.content
  ({ self with length := length },
    basePackInto .mtHeader length raw ++ bytes32 (htonl c.uniqueClientMsgId) ++ c.imei.chars
      ++ bytes16 (htons c.dispositionFlags.get))

abbrev IEMtPayload := IEContent IEMtPayloadDto

def IEMtPayload.maxPayloadLength : Nat := 1890

def IEMtPayload.unpack (self : IEMtPayload) (data : Nat) (size : UInt16) :
    ReadM (IEMtPayload × UInt16) :=
  unpackPayload IEMtPayload.maxPayloadLength self data size

def IEMtPayload.packInto (self : IEMtPayload) (raw : List UInt8) : IEMtPayload × List UInt8 :=
  packPayload .mtPayload (UInt16.ofNat IEMtPayload.maxPayloadLength) self raw

abbrev IEMtConfirmationMsg := IEContent IEMtConfirmationMsgDto

def IEMtConfirmationMsg.elementLength : Nat := 25

def IEMtConfirmationMsg.fields (data : Nat) : ReadM (IEMtConfirmationMsgDto × Nat) := do
  let offset := 2
  let uniqueClientMsgId ← read (data + offset) 4
  let offset := offset + 4
  let imei ← read (data + offset) 15
  let offset := offset + 15
  let autoIdRef ← read (data + offset) 4
  let offset := offset + 4
  let msgStatus ← read (data + offset) 2
  let offset := offset + 2
  return ({
    uniqueClientMsgId := ntohl (load32 uniqueClientMsgId)
    imei := IMEI.ofChars imei
    autoIdRef := ntohl (load32 autoIdRef)
    msgStatus := (ntohs (load16 msgStatus)).toInt16 }, offset)

def IEMtConfirmationMsg.unpack (self : IEMtConfirmationMsg) (data : Nat) (size : UInt16) :
    ReadM (IEMtConfirmationMsg × UInt16) :=
  unpackFixed IEMtConfirmationMsg.elementLength IEMtConfirmationMsg.fields self data size

def IEMtConfirmationMsg.packInto (self : IEMtConfirmationMsg) (raw : List UInt8) :
    IEMtConfirmationMsg × List UInt8 :=
  let length := UInt16.ofNat IEMtConfirmationMsg.elementLength
  let c := self.content
  ({ self with length := length },
    basePackInto .mtConfirmationMsg length raw ++ bytes32 (htonl c.uniqueClientMsgId)
      ++ c.imei.chars ++ bytes32 (htonl c.autoIdRef) ++ bytes16 (htons c.msgStatus.toUInt16))

abbrev IEMtPriority := IEContent IEMtPriorityDto

def IEMtPriority.elementLength : Nat := 2

def IEMtPriority.maxPriority : UInt16 := 1

def IEMtPriority.minPriority : UInt16 := 5

def IEMtPriority.fields (data : Nat) : ReadM (IEMtPriorityDto × Nat) := do
  let priority ← read (data + 2) 2
  return ({ priority := ntohs (load16 priority) }, 2 + IEMtPriority.elementLength)

def IEMtPriority.unpack (self : IEMtPriority) (data : Nat) (size : UInt16) :
    ReadM (IEMtPriority × UInt16) :=
  unpackFixed IEMtPriority.elementLength IEMtPriority.fields self data size

def IEMtPriority.packInto (self : IEMtPriority) (raw : List UInt8) :
    IEMtPriority × List UInt8 :=
  let priority :=
    if IEMtPriority.minPriority < self.content.priority
        ∨ self.content.priority < IEMtPriority.maxPriority then
      IEMtPriority.minPriority
    else self.content.priority
  let length := UInt16.ofNat IEMtPriority.elementLength
  ({ length := length, content := { priority := priority } },
    basePackInto .mtMsgPriority length raw ++ bytes16 (htons priority))

/-! ## The class hierarchy -/

/-- An object of any element class. -/
inductive InformationElement where
  | moHeader (e : IEMoHeader)
  | moPayload (e : IEMoPayload)
  | moLocationInfo (e : IEMoLocationInfo)
  | moConfirmation (e : IEMoConfirmation)
  | mtHeader (e : IEMtHeader)
  | mtPayload (e : IEMtPayload)
  | mtConfirmationMsg (e : IEMtConfirmationMsg)
  | mtMsgPriority (e : IEMtPriority)
  deriving DecidableEq, Repr

namespace InformationElement

def getId : InformationElement → ElementId
  | .moHeader _ => .moHeader
  | .moPayload _ => .moPayload
  | .moLocationInfo _ => .moLocationInfo
  | .moConfirmation _ => .moConfirmation
  | .mtHeader _ => .mtHeader
  | .mtPayload _ => .mtPayload
  | .mtConfirmationMsg _ => .mtConfirmationMsg
  | .mtMsgPriority _ => .mtMsgPriority

def getLength : InformationElement → UInt16
  | .moHeader e => e.length
  | .moPayload e => e.length
  | .moLocationInfo e => e.length
  | .moConfirmation e => e.length
  | .mtHeader e => e.length
  | .mtPayload e => e.length
  | .mtConfirmationMsg e => e.length
  | .mtMsgPriority e => e.length

/-- The constructor of the class of an identifier. -/
def create : ElementId → InformationElement
  | .moHeader => .moHeader { content := {} }
  | .moPayload => .moPayload { content := {} }
  | .moLocationInfo => .moLocationInfo { content := {} }
  | .moConfirmation => .moConfirmation { content := {} }
  | .mtHeader => .mtHeader { content := {} }
  | .mtPayload => .mtPayload { content := {} }
  | .mtConfirmationMsg => .mtConfirmationMsg { content := {} }
  | .mtMsgPriority => .mtMsgPriority { content := {} }

/-- The virtual `unpack`. -/
def unpack (self : InformationElement) (data : Nat) (size : UInt16) :
    ReadM (InformationElement × UInt16) :=
  match self with
  | .moHeader e => do let (e, n) ← IEMoHeader.unpack e data size; return (.moHeader e, n)
  | .moPayload e => do let (e, n) ← IEMoPayload.unpack e data size; return (.moPayload e, n)
  | .moLocationInfo e => do
      let (e, n) ← IEMoLocationInfo.unpack e data size; return (.moLocationInfo e, n)
  | .moConfirmation e => do
      let (e, n) ← IEMoConfirmation.unpack e data size; return (.moConfirmation e, n)
  | .mtHeader e => do let (e, n) ← IEMtHeader.unpack e data size; return (.mtHeader e, n)
  | .mtPayload e => do let (e, n) ← IEMtPayload.unpack e data size; return (.mtPayload e, n)
  | .mtConfirmationMsg e => do
      let (e, n) ← IEMtConfirmationMsg.unpack e data size; return (.mtConfirmationMsg e, n)
  | .mtMsgPriority e => do
      let (e, n) ← IEMtPriority.unpack e data size; return (.mtMsgPriority e, n)

/-- The virtual `packInto`. -/
def packInto (self : InformationElement) (raw : List UInt8) : InformationElement × List UInt8 :=
  match self with
  | .moHeader e => let (e, raw) := IEMoHeader.packInto e raw; (.moHeader e, raw)
  | .moPayload e => let (e, raw) := IEMoPayload.packInto e raw; (.moPayload e, raw)
  | .moLocationInfo e => let (e, raw) := IEMoLocationInfo.packInto e raw; (.moLocationInfo e, raw)
  | .moConfirmation e => let (e, raw) := IEMoConfirmation.packInto e raw; (.moConfirmation e, raw)
  | .mtHeader e => let (e, raw) := IEMtHeader.packInto e raw; (.mtHeader e, raw)
  | .mtPayload e => let (e, raw) := IEMtPayload.packInto e raw; (.mtPayload e, raw)
  | .mtConfirmationMsg e =>
      let (e, raw) := IEMtConfirmationMsg.packInto e raw; (.mtConfirmationMsg e, raw)
  | .mtMsgPriority e => let (e, raw) := IEMtPriority.packInto e raw; (.mtMsgPriority e, raw)

end InformationElement

end Iridium.SbdDirectIp
