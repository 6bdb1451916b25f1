import Iridium.SbdDirectIp.Serialize
import Iridium.SbdDirectIp.Unpack

/-!
# Packing and unpacking an element

Six of the eight classes invert each other's encoding. `packedBytes_decode` is the direction from
the bytes: what a content decodes to packs to the identifier, the length and that content.
`packed_content` is the direction from the element: a content in range packs to bytes that decode
to it. `pack_unpack` puts both around a buffer, with anything before and behind.
-/

namespace Iridium.SbdDirectIp

open ByteOrder ReadM InformationElement

/-! ## Contents in range -/

/-- The last byte of the array is the NUL behind the characters. -/
def IMEI.Terminated (imei : IMEI) : Prop := imei.value.getD 15 0 = 0

instance (imei : IMEI) : Decidable imei.Terminated := inferInstanceAs (Decidable (_ = _))

namespace InformationElement

/-- The element with another `m_length`. -/
def withLength (length : UInt16) : InformationElement → InformationElement
  | .moHeader e => .moHeader { e with length := length }
  | .moPayload e => .moPayload { e with length := length }
  | .moLocationInfo e => .moLocationInfo { e with length := length }
  | .moConfirmation e => .moConfirmation { e with length := length }
  | .mtHeader e => .mtHeader { e with length := length }
  | .mtPayload e => .mtPayload { e with length := length }
  | .mtConfirmationMsg e => .mtConfirmationMsg { e with length := length }
  | .mtMsgPriority e => .mtMsgPriority { e with length := length }

/-- The contents that the format can carry, in the classes that go through unchanged. -/
def InRange : InformationElement → Prop
  | .moHeader e => e.content.imei.Terminated
  | .moPayload e => 1 ≤ e.content.payload.length ∧ e.content.payload.length ≤ 1960
  | .moConfirmation _ => True
  | .mtPayload e => 1 ≤ e.content.payload.length ∧ e.content.payload.length ≤ 1890
  | .mtConfirmationMsg e => e.content.imei.Terminated
  | .mtMsgPriority e => 1 ≤ e.content.priority ∧ e.content.priority ≤ 5
  | .moLocationInfo _ | .mtHeader _ => False

/-- A priority, if the element is one, is in `1..5`. -/
def PriorityInRange : InformationElement → Prop
  | .mtMsgPriority e => 1 ≤ e.content.priority ∧ e.content.priority ≤ 5
  | _ => True

end InformationElement

/-- The classes of the round trip. -/
def ElementId.RoundTrips (k : ElementId) : Prop := k ≠ .moLocationInfo ∧ k ≠ .mtHeader

instance (k : ElementId) : Decidable k.RoundTrips := inferInstanceAs (Decidable (_ ∧ _))

theorem IMEI.length_chars (imei : IMEI) : imei.chars.length = 15 := by
  rw [IMEI.chars, List.length_take, imei.size]
  rfl

theorem IMEI.ofChars_chars {imei : IMEI} (h : imei.Terminated) :
    IMEI.ofChars imei.chars = imei := by
  obtain ⟨value, size⟩ := imei
  have hlast : value.drop 15 = [0] := by
    have hlt : 15 < value.length := by omega
    rw [List.drop_eq_getElem_cons hlt, List.drop_of_length_le (by omega)]
    simpa [Terminated, hlt] using h
  have hvalue : value.take 15 ++ [0] = value := by
    rw [← hlast]
    exact List.take_append_drop 15 value
  unfold IMEI.ofChars IMEI.chars List.rightpad
  simp [size, List.take_take, hvalue]

/-! ## From the bytes -/

/-- The payload of an admissible content is packed as it is. -/
theorem packPayload_decode {id : ElementId} {limit : Nat} {c : List UInt8} (length : UInt16)
    (hlimit : limit < 65536) (hmax : c.length ≤ limit) :
    packPayload id (UInt16.ofNat limit) ⟨length, ⟨c⟩⟩ []
      = (⟨UInt16.ofNat c.length, ⟨c⟩⟩, id.value :: (beBytes 2 c.length ++ c)) := by
  have hlen : (UInt16.ofNat c.length).toNat = c.length :=
    UInt16.toNat_ofNat_of_lt' (by show _ < 65536; omega)
  have hfits : ¬ UInt16.ofNat limit < UInt16.ofNat c.length := by
    rw [UInt16.lt_iff_toNat_lt, hlen, UInt16.toNat_ofNat_of_lt' hlimit]
    omega
  simp [packPayload, hfits, basePackInto, bytes16_htons, hlen]

/-- The clamp leaves a priority in range alone. -/
theorem clampPriority {priority : UInt16} (h : 1 ≤ priority ∧ priority ≤ 5) :
    ¬ (IEMtPriority.minPriority < priority ∨ priority < IEMtPriority.maxPriority) := by
  rintro (hlow | hhigh)
  · exact absurd h.2 (UInt16.not_le.mpr hlow)
  · exact absurd h.1 (UInt16.not_le.mpr hhigh)

/-- **What a content decodes to packs to that content**, behind the identifier and its length. -/
theorem packedBytes_decode {k : ElementId} (hk : k.RoundTrips) {c : List UInt8}
    (hmin : k.minLength ≤ c.length) (hmax : c.length ≤ k.maxLength)
    (hprio : (decodeContent k c.length c).PriorityInRange) :
    packedBytes (decodeContent k c.length c) = k.value :: (beBytes 2 c.length ++ c) := by
  cases k with
  | moHeader =>
      have hlen : c.length = 28 := Nat.le_antisymm hmax hmin
      have hfields : slice c 0 4 ++ slice c 4 15 ++ slice c 19 1 ++ slice c 20 2 ++ slice c 22 2
          ++ slice c 24 4 = c := by
        simp only [slice_join, Nat.reduceAdd]
        exact slice_all hlen
      rw [slice_one (by omega)] at hfields
      simp only [decodeContent, packedBytes, packInto, IEMoHeader.packInto, basePackInto,
        bytes16_htons, bytes32_htonl]
      rw [IMEI.chars_ofChars (length_slice (by omega)), beBytes_be32 (length_slice (by omega)),
        beBytes_be16 (length_slice (by omega)), beBytes_be16 (length_slice (by omega)),
        beBytes_be32 (length_slice (by omega)), hlen]
      conv_rhs => rw [← hfields]
      simp [IEMoHeader.elementLength]
  | moPayload =>
      simp only [decodeContent, packedBytes, packInto, IEMoPayload.packInto]
      rw [packPayload_decode _ (by decide) (show c.length ≤ IEMoPayload.maxPayloadLength from hmax)]
  | moLocationInfo => exact absurd rfl hk.1
  | moConfirmation =>
      have hlen : c.length = 1 := Nat.le_antisymm hmax hmin
      have hfields := slice_all hlen
      rw [slice_one (by omega)] at hfields
      simp only [decodeContent, packedBytes, packInto, IEMoConfirmation.packInto, basePackInto,
        bytes16_htons, hlen]
      rw [hfields]
      simp [IEMoConfirmation.elementLength]
  | mtHeader => exact absurd rfl hk.2
  | mtPayload =>
      simp only [decodeContent, packedBytes, packInto, IEMtPayload.packInto]
      rw [packPayload_decode _ (by decide) (show c.length ≤ IEMtPayload.maxPayloadLength from hmax)]
  | mtConfirmationMsg =>
      have hlen : c.length = 25 := Nat.le_antisymm hmax hmin
      have hfields : slice c 0 4 ++ slice c 4 15 ++ slice c 19 4 ++ slice c 23 2 = c := by
        simp only [slice_join, Nat.reduceAdd]
        exact slice_all hlen
      simp only [decodeContent, packedBytes, packInto, IEMtConfirmationMsg.packInto, basePackInto,
        bytes16_htons, bytes32_htonl]
      rw [IMEI.chars_ofChars (length_slice (by omega)), beBytes_be32 (length_slice (by omega)),
        beBytes_be32 (length_slice (by omega)), UInt16.toUInt16_toInt16,
        beBytes_be16 (length_slice (by omega)), hlen]
      conv_rhs => rw [← hfields]
      simp [IEMtConfirmationMsg.elementLength]
  | mtMsgPriority =>
      have hlen : c.length = 2 := Nat.le_antisymm hmax hmin
      simp only [decodeContent, packedBytes, packInto, IEMtPriority.packInto, basePackInto,
        bytes16_htons]
      rw [if_neg (clampPriority hprio), beBytes_be16 (length_slice (by omega)), slice_all hlen, hlen]
      simp [IEMtPriority.elementLength]

/-! ## From the element -/

/-- The length is written anew by `packInto`. -/
theorem packedBytes_withLength (e : InformationElement) (length : UInt16) :
    packedBytes (e.withLength length) = packedBytes e := by
  cases e with
  | moPayload e | mtPayload e =>
      simp only [withLength, packedBytes, packInto, IEMoPayload.packInto, IEMtPayload.packInto,
        packPayload]
  | moHeader | moLocationInfo | moConfirmation | mtHeader | mtConfirmationMsg | mtMsgPriority =>
      rfl

/-- A content in range, as bytes: they are of admissible length and decode to it. -/
theorem exists_content {e : InformationElement} (h : e.InRange) :
    ∃ c : List UInt8, e.getId.minLength ≤ c.length ∧ c.length ≤ e.getId.maxLength
      ∧ decodeContent e.getId c.length c = e.withLength (UInt16.ofNat c.length) := by
  cases e with
  | moHeader e =>
      obtain ⟨length, cdrRef, imei, status, momsn, mtmsn, time⟩ := e
      have hlen := imei.length_chars
      refine ⟨beBytes 4 cdrRef.toNat ++ imei.chars ++ [status] ++ beBytes 2 momsn.toNat
        ++ beBytes 2 mtmsn.toNat ++ beBytes 4 time.toNat, ?_, ?_, ?_⟩
      · simp [hlen, getId, ElementId.minLength]
      · simp [hlen, getId, ElementId.maxLength]
      · have hstatus : (beBytes 4 cdrRef.toNat ++ imei.chars ++ [status] ++ beBytes 2 momsn.toNat
            ++ beBytes 2 mtmsn.toNat ++ beBytes 4 time.toNat).getD 19 0 = status := by
          simp [hlen]
        simp (disch := simp [hlen]) only [decodeContent, getId, slice_append_left,
          slice_append_end, slice_all, be16_beBytes, be32_beBytes, hstatus,
          IMEI.ofChars_chars h, withLength]
  | moPayload e => exact ⟨e.content.payload, h.1, h.2, rfl⟩
  | moLocationInfo e => exact h.elim
  | moConfirmation e => exact ⟨[e.content.status], le_rfl, le_rfl, rfl⟩
  | mtHeader e => exact h.elim
  | mtPayload e => exact ⟨e.content.payload, h.1, h.2, rfl⟩
  | mtConfirmationMsg e =>
      obtain ⟨length, msgId, imei, autoIdRef, status⟩ := e
      have hlen := imei.length_chars
      refine ⟨beBytes 4 msgId.toNat ++ imei.chars ++ beBytes 4 autoIdRef.toNat
        ++ beBytes 2 status.toUInt16.toNat, ?_, ?_, ?_⟩
      · simp [hlen, getId, ElementId.minLength]
      · simp [hlen, getId, ElementId.maxLength]
      · simp (disch := simp [hlen]) only [decodeContent, getId, slice_append_left,
          slice_append_end, slice_all, be16_beBytes, be32_beBytes, IMEI.ofChars_chars h,
          Int16.toInt16_toUInt16, withLength]
  | mtMsgPriority e =>
      refine ⟨beBytes 2 e.content.priority.toNat, by simp [getId, ElementId.minLength],
        by simp [getId, ElementId.maxLength], ?_⟩
      simp [decodeContent, getId, withLength, slice_all, be16_beBytes]

theorem inRange_priority {e : InformationElement} (h : e.InRange) (length : UInt16) :
    (e.withLength length).PriorityInRange := by
  cases e with
  | mtMsgPriority e => exact h
  | _ => trivial

theorem inRange_roundTrips {e : InformationElement} (h : e.InRange) : e.getId.RoundTrips := by
  cases e with
  | moLocationInfo | mtHeader => exact h.elim
  | _ => exact ⟨nofun, nofun⟩

/-- **A content in range packs to bytes that decode to it.** -/
theorem packed_content {e : InformationElement} (h : e.InRange) :
    ∃ c : List UInt8, e.getId.minLength ≤ c.length ∧ c.length ≤ e.getId.maxLength
      ∧ packedBytes e = e.getId.value :: (beBytes 2 c.length ++ c)
      ∧ decodeContent e.getId c.length c = e.withLength (UInt16.ofNat c.length) := by
  obtain ⟨c, hmin, hmax, hdecode⟩ := exists_content h
  have hprio := inRange_priority h (UInt16.ofNat c.length)
  rw [← hdecode] at hprio
  have hpacked := packedBytes_decode (inRange_roundTrips h) hmin hmax hprio
  rw [hdecode, packedBytes_withLength] at hpacked
  exact ⟨c, hmin, hmax, hpacked, hdecode⟩

/-! ## Around a buffer -/

/-- An accepting `unpack` of one of the classes: the length it returns, and its element. -/
theorem unpack_accepted {self : InformationElement} {mem : Memory} {data : Nat} {size : UInt16}
    (hk : self.getId.RoundTrips)
    (hacc : self.getId.Accepts (declared mem data) size.toNat) :
    (self.unpack data size).result mem
        = (decodeContent self.getId (declared mem data)
            (mem.block (data + 2) (declared mem data)), UInt16.ofNat (2 + declared mem data))
      ∧ (UInt16.ofNat (2 + declared mem data)).toNat = 2 + declared mem data := by
  have hsurplus : self.getId.surplus = 0 := by
    rw [ElementId.surplus, if_neg hk.1]
  have hread := (unpack_accepts rfl hacc).result
  rw [hsurplus, Nat.add_zero, Nat.add_zero] at hread
  have hmax := hacc.2.1
  have hbound := self.getId.maxLength_le
  exact ⟨hread, UInt16.toNat_ofNat_of_lt' (by show _ < 65536; omega)⟩

/-- What was packed lies behind the earlier bytes. -/
theorem block_packed (raw content : List UInt8) (id : UInt8) {n : Nat} (hn : n < 65536)
    (following : Memory) :
    let mem := Memory.ofBuffer (raw ++ id :: (beBytes 2 n ++ content)) following
    declared mem (raw.length + 1) = n
      ∧ mem.block (raw.length + 1 + 2) content.length = content := by
  intro mem
  have hfield : raw ++ id :: (beBytes 2 n ++ content)
      = (raw ++ [id]) ++ (beBytes 2 n ++ content) := by simp
  have hcontent : raw ++ id :: (beBytes 2 n ++ content)
      = (raw ++ [id] ++ beBytes 2 n) ++ (content ++ []) := by simp
  constructor
  · have hblock := Memory.block_ofBuffer_mid (raw ++ [id]) (beBytes 2 n) content following
    rw [← hfield, List.length_append, List.length_singleton, length_beBytes] at hblock
    rw [declared, hblock, beNat_beBytes]
    exact Nat.mod_eq_of_lt hn
  · have hblock := Memory.block_ofBuffer_mid (raw ++ [id] ++ beBytes 2 n) content [] following
    rw [← hcontent, List.length_append, List.length_append, List.length_singleton,
      length_beBytes] at hblock
    exact hblock

/-- **Packing and unpacking are inverse to each other**, in the six classes. A content in range is
appended as identifier, length and content, and `unpack` restores it from there, whatever lies
before and behind. And the element that `unpack` accepts packs to the identifier and the bytes that
it consumed. -/
theorem pack_unpack :
    (∀ e : InformationElement, e.InRange → ∀ (raw : List UInt8) (following : Memory),
      ∃ content : List UInt8,
        (e.packInto raw).2 = raw ++ e.getId.value :: (beBytes 2 content.length ++ content)
        ∧ ∀ (self : InformationElement) (size : UInt16), self.getId = e.getId →
          2 + content.length ≤ size.toNat →
          ∃ n : UInt16,
            (self.unpack (raw.length + 1) size).result
                (Memory.ofBuffer (e.packInto raw).2 following)
              = (e.withLength (UInt16.ofNat content.length), n)
            ∧ raw.length + 1 + n.toNat = (e.packInto raw).2.length)
    ∧ ∀ (self e : InformationElement) (mem : Memory) (data : Nat) (size n : UInt16),
      self.getId.RoundTrips → (self.unpack data size).result mem = (e, n) → n ≠ 0 →
      e.PriorityInRange → ∀ raw : List UInt8,
      (e.packInto raw).2 = raw ++ self.getId.value :: mem.block data n.toNat := by
  refine ⟨?_, ?_⟩
  · intro e hrange raw following
    obtain ⟨c, hmin, hmax, hpacked, hdecode⟩ := packed_content hrange
    have hraw : (e.packInto raw).2 = raw ++ e.getId.value :: (beBytes 2 c.length ++ c) := by
      rw [packInto_eq, hpacked]
    refine ⟨c, hraw, ?_⟩
    intro self size hself hsize
    have hbound := e.getId.maxLength_le
    obtain ⟨hdeclared, hblock⟩ := block_packed raw c e.getId.value
      (show c.length < 65536 by omega) following
    rw [← hraw] at hdeclared hblock
    have hcover := e.getId.cover_le c.length
    have hacc : self.getId.Accepts
        (declared (Memory.ofBuffer (e.packInto raw).2 following) (raw.length + 1))
        size.toNat := by
      rw [hdeclared, hself]
      exact ⟨hmin, hmax, by omega⟩
    obtain ⟨hresult, hn⟩ := unpack_accepted (hself ▸ inRange_roundTrips hrange) hacc
    rw [hdeclared, hblock, hself, hdecode] at hresult
    rw [hdeclared] at hn
    refine ⟨_, hresult, ?_⟩
    rw [hn, hraw]
    simp
    omega
  · intro self e mem data size n hk hresult hn hprio raw
    by_cases hacc : self.getId.Accepts (declared mem data) size.toNat
    · obtain ⟨hresult', hlen⟩ := unpack_accepted hk hacc
      obtain ⟨rfl, rfl⟩ := Prod.ext_iff.mp (hresult.symm.trans hresult')
      rw [hlen, Memory.block_add]
      generalize hc : mem.block (data + 2) (declared mem data) = c at hprio
      have hc' : c.length = declared mem data := by rw [← hc, Memory.length_block]
      have hfield : beBytes 2 c.length = mem.block data 2 := by
        have h := beBytes_beNat (mem.block data 2)
        rwa [Memory.length_block, ← declared, ← hc'] at h
      rw [← hc'] at hprio hacc ⊢
      rw [packInto_eq, packedBytes_decode hk hacc.1 hacc.2.1 hprio, hfield]
    · obtain ⟨e', stop, hread, -⟩ := @unpack_rejects self _ rfl _ _ _ hacc
      have hzero := congrArg Prod.snd (hresult.symm.trans hread.result)
      exact absurd hzero hn

theorem pack_unpack_sample :
    let e : InformationElement := .moPayload { content := ⟨[7, 8]⟩ }
    (∃ content, (e.packInto [9]).2 = [9] ++ 0x02 :: (beBytes 2 content.length ++ content))
      ∧ ((InformationElement.moPayload ⟨2, ⟨[7, 8]⟩⟩).packInto [9]).2 = [9] ++ 0x02 :: [0, 2, 7, 8] := by
  intro e
  obtain ⟨c, hc, -⟩ := pack_unpack.1 e ⟨by decide, by decide⟩ [9] fun _ => 0
  have hback := pack_unpack.2 (.create .moPayload) (.moPayload ⟨2, ⟨[7, 8]⟩⟩)
    (Memory.ofBuffer [0, 2, 7, 8] fun _ => 0) 0 4 4 (by decide) (by decide) (by decide) trivial [9]
  exact ⟨⟨c, hc⟩, hback⟩

end Iridium.SbdDirectIp
