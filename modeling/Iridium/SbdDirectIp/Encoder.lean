import Iridium.SbdDirectIp.Serialize
import Iridium.SbdDirectIp.Parse

/-!
# The encoder of mobile terminated messages

`factory` followed by `serialize`, against the format: `mtPacket` is the packet that the arguments
of `factory` stand for, written down big-endian, and `readMt` is a reference reader of its body.
`factory_encodes` says that the code produces this packet, however often, and that the reader gets
the arguments back.
-/

namespace Iridium.SbdDirectIp

open ByteOrder ReadM Tlv

/-! ## The format -/

/-- The disposition flags as a word, flag by flag. -/
def flagWord (flags : MtMessageFlags) : Nat :=
  flags.flushMtQueue.toNat + 2 * flags.sendRingAlert.toNat + 8 * flags.updateSsdLocation.toNat
    + 16 * flags.highPriority.toNat + 32 * flags.assignMtmsh.toNat

/-- A priority outside `1..5` counts as the lowest, `5`. -/
def normalPriority (priority : UInt16) : UInt16 :=
  if 1 ≤ priority ∧ priority ≤ 5 then priority else 5

/-- Everything behind the header of the packet: the three elements. -/
def mtBody (msgId : UInt32) (imei payload : List UInt8) (flags : MtMessageFlags)
    (priority : UInt16) : List UInt8 :=
  [0x41, 0x00, 0x15] ++ beBytes 4 msgId.toNat ++ imei ++ beBytes 2 (flagWord flags)
    ++ [0x42] ++ beBytes 2 payload.length ++ payload
    ++ [0x46, 0x00, 0x02] ++ beBytes 2 (normalPriority priority).toNat

def mtPacket (body : List UInt8) : List UInt8 := 0x01 :: beBytes 2 body.length ++ body

/-- What a reader of the body wants to know. -/
structure MtReading where
  msgId : UInt32
  imei : List UInt8
  flushMtQueue : Bool
  sendRingAlert : Bool
  updateSsdLocation : Bool
  highPriority : Bool
  assignMtmsn : Bool
  payload : List UInt8
  priority : UInt16
  deriving DecidableEq, Repr

/-- The reference reader: frames by their declared lengths, and the fields of each. -/
def readMt (body : List UInt8) : Option MtReading :=
  match Tlv.decode body with
  | some [header, payload, priority] =>
    if header.id = 0x41 ∧ header.content.length = 21 ∧ payload.id = 0x42
        ∧ priority.id = 0x46 ∧ priority.content.length = 2 then
      let flags := beNat (slice header.content 19 2)
      some {
        msgId := be32 (slice header.content 0 4)
        imei := slice header.content 4 15
        flushMtQueue := flags.testBit 0
        sendRingAlert := flags.testBit 1
        updateSsdLocation := flags.testBit 3
        highPriority := flags.testBit 4
        assignMtmsn := flags.testBit 5
        payload := payload.content
        priority := be16 priority.content }
    else none
  | _ => none

/-! ## The flag word -/

theorem flagWord_lt (flags : MtMessageFlags) : flagWord flags < 64 := by
  unfold flagWord
  have h0 := flags.flushMtQueue.toNat_le
  have h1 := flags.sendRingAlert.toNat_le
  have h3 := flags.updateSsdLocation.toNat_le
  have h4 := flags.highPriority.toNat_le
  have h5 := flags.assignMtmsh.toNat_le
  omega

theorem toNat_get (flags : MtMessageFlags) : flags.get.toNat = flagWord flags := by
  have hlt := flagWord_lt flags
  have hsum : flags.flushMtQueue.toNat + (flags.sendRingAlert.toNat <<< 1)
      + (flags.updateSsdLocation.toNat <<< 3) + (flags.highPriority.toNat <<< 4)
      + (flags.assignMtmsh.toNat <<< 5) = flagWord flags := by
    simp only [Nat.shiftLeft_eq, flagWord]
    omega
  rw [MtMessageFlags.get, hsum, UInt16.toNat_ofNat_of_lt' (by show _ < 65536; omega)]

/-- The word determines the flags. -/
theorem testBit_flagWord (flags : MtMessageFlags) :
    (flagWord flags).testBit 0 = flags.flushMtQueue
      ∧ (flagWord flags).testBit 1 = flags.sendRingAlert
      ∧ (flagWord flags).testBit 3 = flags.updateSsdLocation
      ∧ (flagWord flags).testBit 4 = flags.highPriority
      ∧ (flagWord flags).testBit 5 = flags.assignMtmsh := by
  unfold flagWord
  cases flags.flushMtQueue <;> cases flags.sendRingAlert <;> cases flags.updateSsdLocation
    <;> cases flags.highPriority <;> cases flags.assignMtmsh <;> decide

/-! ## The elements of a packet -/

section Elements

variable (msgId : UInt32) (imei payload : List UInt8) (flags : MtMessageFlags) (priority : UInt16)

/-- The header element of a packet. -/
def headerElement (h : imei.length = 15) : WireElement where
  kind := .mtHeader
  content := beBytes 4 msgId.toNat ++ imei ++ beBytes 2 (flagWord flags)
  range := by simp [h, ElementId.minLength, ElementId.maxLength]

def payloadElement (h : 1 ≤ payload.length ∧ payload.length ≤ 1890) : WireElement where
  kind := .mtPayload
  content := payload
  range := h

def priorityElement : WireElement where
  kind := .mtMsgPriority
  content := beBytes 2 (normalPriority priority).toNat
  range := by simp [ElementId.minLength, ElementId.maxLength]

end Elements

theorem mtBody_eq_wire {msgId : UInt32} {imei payload : List UInt8} {flags : MtMessageFlags}
    {priority : UInt16} (himei : imei.length = 15)
    (hpayload : 1 ≤ payload.length ∧ payload.length ≤ 1890) :
    mtBody msgId imei payload flags priority
      = wire [headerElement msgId imei flags himei, payloadElement payload hpayload,
          priorityElement priority] := by
  have hheader : beBytes 2 21 = [0x00, 0x15] := by decide
  have hprio : beBytes 2 2 = [0x00, 0x02] := by decide
  simp [mtBody, Frame.encode, WireElement.frame, headerElement, payloadElement, priorityElement,
    ElementId.value, himei, hheader, hprio]

theorem length_mtBody {msgId : UInt32} {imei payload : List UInt8} {flags : MtMessageFlags}
    {priority : UInt16} (himei : imei.length = 15) :
    (mtBody msgId imei payload flags priority).length = payload.length + 32 := by
  simp [mtBody, himei]
  omega

/-! ## Reading the packet back -/

/-- **The reference reader gets back what the packet was made of.** -/
theorem readMt_mtBody {msgId : UInt32} {imei payload : List UInt8} {flags : MtMessageFlags}
    {priority : UInt16} (himei : imei.length = 15)
    (hpayload : 1 ≤ payload.length ∧ payload.length ≤ 1890) :
    readMt (mtBody msgId imei payload flags priority) = some {
      msgId := msgId
      imei := imei
      flushMtQueue := flags.flushMtQueue
      sendRingAlert := flags.sendRingAlert
      updateSsdLocation := flags.updateSsdLocation
      highPriority := flags.highPriority
      assignMtmsn := flags.assignMtmsh
      payload := payload
      priority := normalPriority priority } := by
  have hid : slice (beBytes 4 msgId.toNat ++ imei ++ beBytes 2 (flagWord flags)) 0 4
      = beBytes 4 msgId.toNat := by
    rw [List.append_assoc]
    exact slice_append [] _ _ rfl (by simp)
  have hchars : slice (beBytes 4 msgId.toNat ++ imei ++ beBytes 2 (flagWord flags)) 4 15 = imei :=
    slice_append _ _ _ (by simp) himei
  have hflags : beNat (slice (beBytes 4 msgId.toNat ++ imei ++ beBytes 2 (flagWord flags)) 19 2)
      = flagWord flags := by
    have hlt := flagWord_lt flags
    rw [slice_append_end _ _ (by simp [himei]) (by simp), beNat_beBytes]
    exact Nat.mod_eq_of_lt (by omega)
  obtain ⟨h0, h1, h3, h4, h5⟩ := testBit_flagWord flags
  rw [mtBody_eq_wire himei hpayload, readMt, wire, decode_encodeAll]
  have hlength : (beBytes 4 msgId.toNat ++ imei ++ beBytes 2 (flagWord flags)).length = 21 := by
    simp [himei]
  simp only [List.map_cons, List.map_nil, WireElement.frame, headerElement, payloadElement,
    priorityElement]
  rw [if_pos ⟨rfl, hlength, rfl, rfl, length_beBytes _ _⟩]
  simp only [hid, hchars, hflags, h0, h1, h3, h4, h5, be32_beBytes, be16_beBytes]

/-! ## What the code packs -/

theorem packed_header (msgId : UInt32) {imei : List UInt8} (flags : MtMessageFlags)
    (h : imei.length = 15) :
    let e : InformationElement := .mtHeader { content := {
      uniqueClientMsgId := msgId, imei := IMEI.ofChars imei, dispositionFlags := flags } }
    e.packedBytes = (headerElement msgId imei flags h).frame.encode
      ∧ e.packed.getLength = 21 := by
  intro e
  refine ⟨?_, rfl⟩
  simp [e, InformationElement.packedBytes, InformationElement.packInto, IEMtHeader.packInto,
    basePackInto, bytes16_htons, bytes32_htonl, IMEI.chars_ofChars h, toNat_get, Frame.encode,
    WireElement.frame, headerElement, h, IEMtHeader.elementLength]

theorem packed_payload {payload : List UInt8}
    (h : 1 ≤ payload.length ∧ payload.length ≤ 1890) :
    let e : InformationElement := .mtPayload { content := ⟨payload⟩ }
    e.packedBytes = (payloadElement payload h).frame.encode
      ∧ e.packed.getLength = UInt16.ofNat payload.length := by
  intro e
  have hlen : (UInt16.ofNat payload.length).toNat = payload.length :=
    UInt16.toNat_ofNat_of_lt' (by show _ < 65536; omega)
  have hfits : ¬ UInt16.ofNat IEMtPayload.maxPayloadLength < UInt16.ofNat payload.length := by
    rw [UInt16.lt_iff_toNat_lt, hlen]
    have hmax : (UInt16.ofNat IEMtPayload.maxPayloadLength).toNat = 1890 := rfl
    omega
  refine ⟨?_, ?_⟩
  · simp [e, InformationElement.packedBytes, InformationElement.packInto, IEMtPayload.packInto,
      packPayload, hfits, basePackInto, bytes16_htons, hlen, Frame.encode, WireElement.frame,
      payloadElement]
  · simp [e, InformationElement.packed, InformationElement.packInto, IEMtPayload.packInto,
      packPayload, hfits, InformationElement.getLength]

/-- The clamp of the code is the normalization of the format. -/
theorem packed_priority (priority : UInt16) :
    let e : InformationElement := .mtMsgPriority { content := ⟨priority⟩ }
    e.packedBytes = (priorityElement priority).frame.encode ∧ e.packed.getLength = 2 := by
  intro e
  refine ⟨?_, rfl⟩
  have hclamp : (if IEMtPriority.minPriority < priority ∨ priority < IEMtPriority.maxPriority then
      IEMtPriority.minPriority else priority) = normalPriority priority := by
    unfold normalPriority IEMtPriority.minPriority IEMtPriority.maxPriority
    by_cases hin : 1 ≤ priority ∧ priority ≤ 5
    · rw [if_pos hin, if_neg]
      rintro (h | h)
      · exact absurd hin.2 (UInt16.not_le.mpr h)
      · exact absurd hin.1 (UInt16.not_le.mpr h)
    · rw [if_neg hin, if_pos]
      by_contra hnot
      rw [not_or, UInt16.not_lt, UInt16.not_lt] at hnot
      exact hin ⟨hnot.2, hnot.1⟩
  simp only [e, InformationElement.packedBytes, InformationElement.packInto,
    IEMtPriority.packInto, hclamp]
  simp [basePackInto, bytes16_htons, Frame.encode, WireElement.frame, priorityElement,
    IEMtPriority.elementLength]

/-! ## The factory -/

/-- What `factory` asks of its arguments. -/
def Encodable (imei : List UInt8) (size : Nat) : Prop :=
  imei.length = 15 ∧ imei.all Codec.isDigit = true ∧ 1 ≤ size ∧ size ≤ 1890

instance (imei : List UInt8) (size : Nat) : Decidable (Encodable imei size) :=
  inferInstanceAs (Decidable (_ ∧ _))

section Factory

variable {here : Nat} {heap : Heap} {out : MtMessage} {msgId : UInt32} {imei : List UInt8}
  {data : Memory} {size : Nat} {flags : MtMessageFlags} {priority : UInt16}

/-- Arguments that are not in order leave the message, and the heap, as they were. -/
theorem factory_throws (h : ¬ Encodable imei size) :
    ∃ what, Codec.factory here heap out msgId imei (some data) size flags priority
      = (.error what, out, heap) := by
  unfold Codec.factory
  by_cases hlen : imei.length = 15
  · by_cases hdigits : imei.all Codec.isDigit = true
    · by_cases hzero : size < 1
      · exact ⟨"no payload", by simp [hlen, hdigits, hzero]⟩
      · have hlarge : IEMtPayload.maxPayloadLength < size := by
          by_contra hnot
          exact h ⟨hlen, hdigits, by omega, by simpa [IEMtPayload.maxPayloadLength] using hnot⟩
        exact ⟨"payload too large", by simp only [hlen, hdigits, hzero, hlarge]; rfl⟩
    · exact ⟨"bad IMEI", by simp [hlen, hdigits]⟩
  · exact ⟨"invalid IMEI size", by simp [hlen]⟩

/-- Otherwise the message has three fresh elements, one for each class, and finds them. -/
structure Made (here : Nat) (heap : Heap) (m : MtMessage) (heap' : Heap) (msgId : UInt32)
    (imei payload : List UInt8) (flags : MtMessageFlags) (priority : UInt16) : Prop where
  elements : m.elements = [heap.next, heap.next + 1, heap.next + 2]
  header : m.header = ⟨here, 0⟩
  payloadPos : m.payloadPos = ⟨here, 1⟩
  headerCell : heap'.cells heap.next = .mtHeader { content := {
    uniqueClientMsgId := msgId, imei := IMEI.ofChars imei, dispositionFlags := flags } }
  payloadCell : heap'.cells (heap.next + 1) = .mtPayload { content := ⟨payload⟩ }
  priorityCell : heap'.cells (heap.next + 2) = .mtMsgPriority { content := ⟨priority⟩ }
  older : ∀ p < heap.next, heap'.cells p = heap.cells p
  next : heap'.next = heap.next + 3

theorem factory_makes (h : Encodable imei size) :
    ∃ m heap', Codec.factory here heap out msgId imei (some data) size flags priority
        = (.ok (), m, heap')
      ∧ Made here heap m heap' msgId imei (data.block 0 size) flags priority := by
  obtain ⟨hlen, hdigits, hmin, hmax⟩ := h
  have hzero : ¬ size < 1 := by omega
  have hlarge : ¬ IEMtPayload.maxPayloadLength < size := by
    rw [IEMtPayload.maxPayloadLength]
    omega
  unfold Codec.factory
  rw [if_neg (not_not_intro hlen), if_neg (not_not_intro hdigits)]
  dsimp only
  rw [if_neg hzero, if_neg hlarge]
  have hne : heap.next ≠ heap.next + 1 + 1 := Nat.ne_of_lt (Nat.lt_add_of_pos_right Nat.two_pos)
  refine ⟨_, _, rfl, rfl, ?_, ?_, ?_, ?_, ?_, ?_, rfl⟩
  · simp [Heap.alloc, Codec.findId, List.findIdx_cons, Function.update_of_ne hne,
      InformationElement.getId]
  · simp [Heap.alloc, Codec.findId, List.findIdx_cons, Function.update_of_ne hne,
      InformationElement.getId]
    rfl
  · simp [Heap.alloc, Function.update_of_ne hne]
  · simp [Heap.alloc]
  · simp [Heap.alloc]
  · intro p hp
    have hp0 : p ≠ heap.next := Nat.ne_of_lt hp
    have hp1 : p ≠ heap.next + 1 := Nat.ne_of_lt (Nat.lt_succ_of_lt hp)
    have hp2 : p ≠ heap.next + 1 + 1 := Nat.ne_of_lt (Nat.lt_succ_of_lt (Nat.lt_succ_of_lt hp))
    simp [Heap.alloc, Function.update_of_ne hp0, Function.update_of_ne hp1,
      Function.update_of_ne hp2]

/-- Three such elements serialize to the packet. -/
theorem serialize_packet {m : MtMessage} {p q r : Pointer} {payload : List UInt8}
    (himei : imei.length = 15) (hpayload : 1 ≤ payload.length ∧ payload.length ≤ 1890)
    (helements : m.elements = [p, q, r])
    (hp : heap.cells p = .mtHeader { content := {
      uniqueClientMsgId := msgId, imei := IMEI.ofChars imei, dispositionFlags := flags } })
    (hq : heap.cells q = .mtPayload { content := ⟨payload⟩ })
    (hr : heap.cells r = .mtMsgPriority { content := ⟨priority⟩ }) :
    (m.serialize heap).1 = mtPacket (mtBody msgId imei payload flags priority) := by
  obtain ⟨hheader, hheaderLength⟩ := packed_header msgId flags himei
  obtain ⟨hdata, hdataLength⟩ := packed_payload hpayload
  obtain ⟨hprio, hprioLength⟩ := packed_priority priority
  have hbody := @mtBody_eq_wire msgId imei payload flags priority himei hpayload
  have hbytes : heap.bytesOf m.elements = mtBody msgId imei payload flags priority := by
    rw [hbody, helements]
    simp [Heap.bytesOf, hp, hq, hr, hheader, hdata, hprio]
  have hlength : heap.lengthOf m.elements = UInt16.ofNat (payload.length + 32) := by
    rw [helements, UInt16.ofNat_add]
    simp only [Heap.lengthOf, List.map_cons, List.map_nil, List.sum_cons, List.sum_nil, hp, hq, hr,
      hheaderLength, hdataLength, hprioLength, headerSize]
    grind
  have hsize : (UInt16.ofNat (payload.length + 32)).toNat = payload.length + 32 :=
    UInt16.toNat_ofNat_of_lt' (by show _ < 65536; omega)
  rw [MtMessage.serialize_eq, hbytes, hlength, bytes16_htons, hsize, mtPacket,
    length_mtBody himei]
  rfl

end Factory

/-- **`factory` and `serialize` encode mobile terminated messages.** On arguments that are in
order, the message and its copies serialize, any number of times, to the packet of the format; its
body belongs to the category of such messages, and the reference reader gets the arguments back.
On others `factory` throws and changes nothing. -/
theorem factory_encodes (here : Nat) (heap : Heap) (out : MtMessage) (msgId : UInt32)
    (imei : List UInt8) (data : Memory) (size : Nat) (flags : MtMessageFlags)
    (priority : UInt16) (past : Memory) :
    let made := Codec.factory here heap out msgId imei (some data) size flags priority
    let body := mtBody msgId imei (data.block 0 size) flags priority
    (Encodable imei size →
      made.1 = .ok ()
      ∧ (made.2.1.serialize made.2.2).1 = mtPacket body
      ∧ (∀ copies : List MtMessage, (∀ c ∈ copies, c.elements = made.2.1.elements) →
        (MtMessage.serializeAll copies made.2.2).1
          = List.replicate copies.length (mtPacket body))
      ∧ (Codec.messageCategory body.length).result (Memory.ofBuffer body past) = .mtMessage
      ∧ readMt body = some {
          msgId := msgId
          imei := imei
          flushMtQueue := flags.flushMtQueue
          sendRingAlert := flags.sendRingAlert
          updateSsdLocation := flags.updateSsdLocation
          highPriority := flags.highPriority
          assignMtmsn := flags.assignMtmsh
          payload := data.block 0 size
          priority := normalPriority priority })
    ∧ (¬ Encodable imei size → (∃ what, made.1 = .error what) ∧ made.2 = (out, heap)) := by
  intro made body
  refine ⟨?_, ?_⟩
  · intro henc
    obtain ⟨m, heap', hmade, hm⟩ :=
      @factory_makes here heap out msgId imei data size flags priority henc
    obtain ⟨hlen, -, hmin, hmax⟩ := henc
    have hrange : 1 ≤ (data.block 0 size).length ∧ (data.block 0 size).length ≤ 1890 := by
      rw [Memory.length_block]
      exact ⟨hmin, hmax⟩
    have hbody : body = wire [headerElement msgId imei flags hlen,
        payloadElement (data.block 0 size) hrange, priorityElement priority] :=
      mtBody_eq_wire hlen hrange
    have hpacket : (m.serialize heap').1 = mtPacket body :=
      serialize_packet hlen hrange hm.elements hm.headerCell hm.payloadCell hm.priorityCell
    have hmade' : made = (.ok (), m, heap') := hmade
    rw [hmade']
    refine ⟨rfl, hpacket, ?_, ?_, readMt_mtBody hlen hrange⟩
    · intro copies hcopies
      rw [MtMessage.serialize_copies m heap' copies hcopies, hpacket]
    · rw [hbody]
      refine (messageCategory_wire (by decide) _ past).mpr ⟨by simp, ?_⟩
      simp [headerElement, payloadElement, priorityElement]
      decide
  · intro hnot
    obtain ⟨what, hthrown⟩ :=
      @factory_throws here heap out msgId imei data size flags priority hnot
    have hmade : made = (.error what, out, heap) := hthrown
    rw [hmade]
    exact ⟨⟨what, rfl⟩, rfl⟩

theorem factory_encodes_sample :
    let made := Codec.factory 0 Heap.empty (MtMessage.init 0) 7 (List.replicate 15 0x31)
      (some fun _ => 9) 2 { sendRingAlert := true } 0
    (made.2.1.serialize made.2.2).1
      = [0x01, 0x00, 0x22, 0x41, 0x00, 0x15, 0, 0, 0, 7] ++ List.replicate 15 0x31
        ++ [0, 2, 0x42, 0x00, 0x02, 9, 9, 0x46, 0x00, 0x02, 0, 5] := by
  have henc := (factory_encodes 0 Heap.empty (MtMessage.init 0) 7 (List.replicate 15 0x31)
    (fun _ => 9) 2 { sendRingAlert := true } 0 (fun _ => 0)).1 (by decide)
  intro made
  rw [henc.2.1]
  decide

end Iridium.SbdDirectIp
