import Iridium.SbdDirectIp.Codec
import Iridium.Lib.Tlv

/-!
# What `unpack` accepts, returns and reads

The format of an element class is two numbers, the range of its content length, and the decoding
of its content, field by field and big-endian. Two more numbers say where the code departs from
the format: the `surplus` of bytes read and consumed behind the content (three for a location,
whose flags are as wide as an `unsigned int`), and the bytes that the size argument is asked to
`cover`, which for a payload leaves out the two length bytes.

`unpack_accepts` and `unpack_rejects` are the only facts about `unpack` that other modules use.
-/

namespace Iridium.SbdDirectIp

open ByteOrder ReadM

/-! ## The format -/

namespace ElementId

/-- Shortest content. -/
def minLength : ElementId → Nat
  | .moHeader => 28
  | .moPayload => 1
  | .moLocationInfo => 11
  | .moConfirmation => 1
  | .mtHeader => 21
  | .mtPayload => 1
  | .mtConfirmationMsg => 25
  | .mtMsgPriority => 2

/-- Longest content. -/
def maxLength : ElementId → Nat
  | .moHeader => 28
  | .moPayload => 1960
  | .moLocationInfo => 11
  | .moConfirmation => 1
  | .mtHeader => 21
  | .mtPayload => 1890
  | .mtConfirmationMsg => 25
  | .mtMsgPriority => 2

/-- A payload class: its length varies. -/
def isPayload (k : ElementId) : Bool := k == .moPayload || k == .mtPayload

/-- How many bytes behind the content `unpack` reads and consumes. -/
def surplus (k : ElementId) : Nat := if k = .moLocationInfo then 3 else 0

/-- How many bytes behind the identifier `unpack` wants the size argument to cover. -/
def cover (k : ElementId) (len : Nat) : Nat := if k.isPayload then max 2 len else 2 + len

/-- `unpack` accepts a declared length `len` with `size` bytes left. -/
def Accepts (k : ElementId) (len size : Nat) : Prop :=
  k.minLength ≤ len ∧ len ≤ k.maxLength ∧ k.cover len ≤ size

instance (k : ElementId) (len size : Nat) : Decidable (k.Accepts len size) :=
  inferInstanceAs (Decidable (_ ∧ _ ∧ _))

theorem maxLength_le (k : ElementId) : k.maxLength ≤ 1960 := by
  cases k <;> decide

theorem surplus_le (k : ElementId) : k.surplus ≤ 3 := by
  cases k <;> decide

theorem two_le_cover (k : ElementId) (len : Nat) : 2 ≤ k.cover len := by
  unfold cover
  split <;> omega

theorem cover_le (k : ElementId) (len : Nat) : k.cover len ≤ 2 + len := by
  unfold cover
  split <;> omega

theorem le_cover (k : ElementId) (len : Nat) : len ≤ k.cover len := by
  unfold cover
  split <;> omega

/-- A class of fixed length accepts its length only, and wants every byte of it. -/
theorem accepts_fixed {k : ElementId} {n len size : Nat} (hmin : k.minLength = n)
    (hmax : k.maxLength = n) (hpayload : k.isPayload = false) (h : len = n ∧ 2 + n ≤ size) :
    k.Accepts len size := by
  obtain ⟨rfl, hsize⟩ := h
  refine ⟨hmin.le, hmax.ge, ?_⟩
  rw [cover, hpayload]
  exact hsize

end ElementId

/-- `n` bytes of a content from `off` on. -/
def slice (content : List UInt8) (off n : Nat) : List UInt8 := (content.drop off).take n

/-- The element that a content of `len` bytes, followed by the surplus, decodes to. -/
def decodeContent (k : ElementId) (len : Nat) (content : List UInt8) : InformationElement :=
  let length := UInt16.ofNat len
  match k with
  | .moHeader => .moHeader { length := length, content := {
      cdrRef := be32 (slice content 0 4)
      imei := IMEI.ofChars (slice content 4 15)
      sessionStatus := content.getD 19 0
      momsn := be16 (slice content 20 2)
      mtmsn := be16 (slice content 22 2)
      sessionTime := be32 (slice content 24 4) } }
  | .moPayload => .moPayload { length := length, content := ⟨content⟩ }
  | .moLocationInfo => .moLocationInfo { length := length, content := {
      flags := load32 (slice content 0 4)
      latitude := content.getD 4 0
      latitudeMinutes := be16 (slice content 5 2)
      longitude := content.getD 7 0
      longitudeMinutes := be16 (slice content 8 2)
      cepRadius := be32 (slice content 10 4) } }
  | .moConfirmation => .moConfirmation { length := length, content := ⟨content.getD 0 0⟩ }
  | .mtHeader => .mtHeader { length := length, content := {
      uniqueClientMsgId := be32 (slice content 0 4)
      imei := IMEI.ofChars (slice content 4 15)
      dispositionFlags := MtMessageFlags.ofRaw (load16 (slice content 19 2)) } }
  | .mtPayload => .mtPayload { length := length, content := ⟨content⟩ }
  | .mtConfirmationMsg => .mtConfirmationMsg { length := length, content := {
      uniqueClientMsgId := be32 (slice content 0 4)
      imei := IMEI.ofChars (slice content 4 15)
      autoIdRef := be32 (slice content 19 4)
      msgStatus := (be16 (slice content 23 2)).toInt16 } }
  | .mtMsgPriority => .mtMsgPriority { length := length, content := ⟨be16 (slice content 0 2)⟩ }

@[simp] theorem getId_decodeContent (k : ElementId) (len : Nat) (content : List UInt8) :
    (decodeContent k len content).getId = k := by
  cases k <;> rfl

@[simp] theorem getLength_decodeContent (k : ElementId) (len : Nat) (content : List UInt8) :
    (decodeContent k len content).getLength = UInt16.ofNat len := by
  cases k <;> rfl

/-! ## Slices -/

theorem length_slice {c : List UInt8} {off n : Nat} (h : off + n ≤ c.length) :
    (slice c off n).length = n := by
  rw [slice, List.length_take, List.length_drop]
  omega

/-- Slices that meet are one slice. -/
theorem slice_join {c : List UInt8} {off off' m n : Nat} (h : off + m = off') :
    slice c off m ++ slice c off' n = slice c off (m + n) := by
  rw [← h, slice, slice, slice, List.take_add, List.drop_drop]

theorem slice_all {c : List UInt8} {n : Nat} (h : c.length = n) : slice c 0 n = c := by
  rw [slice, List.drop_zero, List.take_of_length_le h.le]

theorem slice_one {c : List UInt8} {off : Nat} (h : off < c.length) :
    slice c off 1 = [c.getD off 0] := by
  rw [slice, List.drop_eq_getElem_cons h, List.take_succ_cons, List.take_zero]
  simp [h]

theorem slice_append (pre mid post : List UInt8) {off n : Nat} (hoff : pre.length = off)
    (hn : mid.length = n) : slice (pre ++ mid ++ post) off n = mid := by
  rw [slice, List.append_assoc, List.drop_left' hoff, List.take_left' hn]

theorem slice_append_end (pre mid : List UInt8) {off n : Nat} (hoff : pre.length = off)
    (hn : mid.length = n) : slice (pre ++ mid) off n = mid := by
  have h := slice_append pre mid [] hoff hn
  rwa [List.append_nil] at h

theorem slice_append_left {r c : List UInt8} {off n : Nat} (h : off + n ≤ r.length) :
    slice (r ++ c) off n = slice r off n := by
  unfold slice
  rw [List.drop_append_of_le_length (by omega), List.take_append_of_le_length]
  rw [List.length_drop]
  omega

/-! ## Loads from a slice -/

theorem slice_block {mem : Memory} {addr len off n : Nat} (h : off + n ≤ len) :
    slice (mem.block addr len) off n = mem.block (addr + off) n :=
  Memory.slice_block mem h

theorem ntohs_block (mem : Memory) (addr : Nat) :
    htons (load16 (mem.block addr 2)) = be16 (mem.block addr 2) :=
  ntohs_load16 (Memory.length_block _ _ _)

theorem ntohl_block (mem : Memory) (addr : Nat) :
    htonl (load32 (mem.block addr 4)) = be32 (mem.block addr 4) :=
  ntohl_load32 (Memory.length_block _ _ _)

/-! ## The two shapes of `unpack` -/

/-- The declared length of the element whose length field is at `data`. -/
def declared (mem : Memory) (data : Nat) : Nat := beNat (mem.block data 2)

theorem toNat_be16_block (mem : Memory) (addr : Nat) :
    (be16 (mem.block addr 2)).toNat = declared mem addr :=
  toNat_be16 (Memory.length_block _ _ _)

theorem be16_block (mem : Memory) (addr : Nat) :
    be16 (mem.block addr 2) = UInt16.ofNat (declared mem addr) := rfl

section Fixed

variable {Content : Type} {mem : Memory} {data n : Nat} {fields : Nat → ReadM (Content × Nat)}
  (size : UInt16) (self : IEContent Content)

/-- A class of fixed length `n` accepts when the size covers it and the length is right. -/
theorem unpackFixed_accepts {c : Content} {stop : Nat}
    (hfields : ReadsTo (fields data) mem (c, stop) (data + stop))
    (hstop : 2 ≤ stop) (hlen : declared mem data = n) (hsize : 2 + n ≤ size.toNat) :
    ReadsTo (unpackFixed n fields self data size) mem
      ({ length := UInt16.ofNat n, content := c }, UInt16.ofNat stop) (data + stop) := by
  have hnot : ¬ size.toNat < n + 2 := by omega
  have hne : ¬ (ntohs (load16 (mem.block data 2))).toNat ≠ n := by
    rw [ntohs, ntohs_block, toNat_be16_block]; omega
  have hmax : data + stop = max (data + 2) (max (data + stop) 0) := by omega
  rw [unpackFixed, if_neg hnot, hmax]
  refine (ReadsTo.read data 2).bind ?_
  dsimp only
  rw [if_neg hne, ntohs, ntohs_block, be16_block, hlen]
  exact hfields.bind (ReadsTo.pure _)

/-- Otherwise it reports an error, having read at most the length. -/
theorem unpackFixed_rejects (h : ¬ (declared mem data = n ∧ 2 + n ≤ size.toNat)) :
    ∃ e stop, ReadsTo (unpackFixed n fields self data size) mem (e, 0) stop
      ∧ stop ≤ data + size.toNat := by
  rw [unpackFixed]
  by_cases hshort : size.toNat < n + 2
  · rw [if_pos hshort]
    exact ⟨self, 0, ReadsTo.pure _, Nat.zero_le _⟩
  · have hne : (ntohs (load16 (mem.block data 2))).toNat ≠ n := by
      rw [ntohs, ntohs_block, toNat_be16_block]; omega
    rw [if_neg hshort]
    refine ⟨{ self with length := ntohs (load16 (mem.block data 2)) }, max (data + 2) 0,
      (ReadsTo.read data 2).bind ?_, by omega⟩
    dsimp only
    rw [if_pos hne]
    exact ReadsTo.pure _

end Fixed

section Payload

variable {mem : Memory} {data limit : Nat} (size : UInt16) (self : IEContent PayloadDto)

/-- A payload class accepts a length in its range that the size, length bytes and all, covers. -/
theorem unpackPayload_accepts (hmin : 1 ≤ declared mem data) (hmax : declared mem data ≤ limit)
    (htwo : 2 ≤ size.toNat) (hsize : declared mem data ≤ size.toNat) :
    ReadsTo (unpackPayload limit self data size) mem
      ({ length := UInt16.ofNat (declared mem data),
         content := ⟨mem.block (data + 2) (declared mem data)⟩ },
        UInt16.ofNat (2 + declared mem data)) (data + (2 + declared mem data)) := by
  have hlen : (ntohs (load16 (mem.block data 2))).toNat = declared mem data := by
    rw [ntohs, ntohs_block, toNat_be16_block]
  have hcmp : ¬ size < ntohs (load16 (mem.block data 2)) := by
    rw [UInt16.lt_iff_toNat_lt, hlen]; omega
  have hstop : data + (2 + declared mem data)
      = max (data + 2) (max (data + 2 + declared mem data) 0) := by omega
  rw [unpackPayload, if_neg (by omega), hstop]
  refine (ReadsTo.read data 2).bind ?_
  dsimp only
  rw [if_neg (by rw [hlen]; omega), if_neg hcmp, hlen, ntohs, ntohs_block, be16_block,
    UInt16.ofNat_add]
  exact (ReadsTo.read (data + 2) (declared mem data)).bind (ReadsTo.pure _)

theorem unpackPayload_rejects
    (h : ¬ (1 ≤ declared mem data ∧ declared mem data ≤ limit ∧
      max 2 (declared mem data) ≤ size.toNat)) :
    ∃ e stop, ReadsTo (unpackPayload limit self data size) mem (e, 0) stop
      ∧ stop ≤ data + size.toNat := by
  have hlen : (ntohs (load16 (mem.block data 2))).toNat = declared mem data := by
    rw [ntohs, ntohs_block, toNat_be16_block]
  rw [unpackPayload]
  by_cases hshort : size.toNat < 2
  · rw [if_pos hshort]
    exact ⟨self, 0, ReadsTo.pure _, Nat.zero_le _⟩
  · rw [if_neg hshort]
    refine ⟨{ self with length := ntohs (load16 (mem.block data 2)) }, max (data + 2) 0,
      (ReadsTo.read data 2).bind ?_, by omega⟩
    dsimp only
    by_cases hrange : (ntohs (load16 (mem.block data 2))).toNat < 1
        ∨ limit < (ntohs (load16 (mem.block data 2))).toNat
    · rw [if_pos hrange]
      exact ReadsTo.pure _
    · have hcmp : size < ntohs (load16 (mem.block data 2)) := by
        rw [hlen] at hrange
        rw [UInt16.lt_iff_toNat_lt, hlen]; omega
      rw [if_neg hrange, if_pos hcmp]
      exact ReadsTo.pure _

end Payload

/-! ## The field readers

Each reads its fields one after the other from behind the length field. -/

section Fields

variable (mem : Memory) (data : Nat)

theorem moHeader_fields : ReadsTo (IEMoHeader.fields data) mem ({
      cdrRef := be32 (mem.block (data + 2) 4)
      imei := IMEI.ofChars (mem.block (data + 6) 15)
      sessionStatus := mem (data + 21)
      momsn := be16 (mem.block (data + 22) 2)
      mtmsn := be16 (mem.block (data + 24) 2)
      sessionTime := be32 (mem.block (data + 26) 4) }, 30) (data + 30) := by
  refine ⟨?_, fun limit => ?_, rfl⟩
  · simp [IEMoHeader.fields, ntohs_block, ntohl_block, Memory.block_one]
  · simp [IEMoHeader.fields]
    omega

theorem moLocationInfo_fields : ReadsTo (IEMoLocationInfo.fields data) mem ({
      flags := load32 (mem.block (data + 2) 4)
      latitude := mem (data + 6)
      latitudeMinutes := be16 (mem.block (data + 7) 2)
      longitude := mem (data + 9)
      longitudeMinutes := be16 (mem.block (data + 10) 2)
      cepRadius := be32 (mem.block (data + 12) 4) }, 16) (data + 16) := by
  refine ⟨?_, fun limit => ?_, rfl⟩
  · simp [IEMoLocationInfo.fields, ntohs_block, ntohl_block, Memory.block_one]
  · simp [IEMoLocationInfo.fields]
    omega

theorem moConfirmation_fields :
    ReadsTo (IEMoConfirmation.fields data) mem (⟨mem (data + 2)⟩, 3) (data + 3) := by
  refine ⟨?_, fun limit => ?_, rfl⟩
  · simp [IEMoConfirmation.fields, Memory.block_one]
  · simp [IEMoConfirmation.fields]
    omega

theorem mtHeader_fields : ReadsTo (IEMtHeader.fields data) mem ({
      uniqueClientMsgId := be32 (mem.block (data + 2) 4)
      imei := IMEI.ofChars (mem.block (data + 6) 15)
      dispositionFlags := MtMessageFlags.ofRaw (load16 (mem.block (data + 21) 2)) }, 23)
      (data + 23) := by
  refine ⟨?_, fun limit => ?_, rfl⟩
  · simp [IEMtHeader.fields, ntohl_block]
  · simp [IEMtHeader.fields]
    omega

theorem mtConfirmationMsg_fields : ReadsTo (IEMtConfirmationMsg.fields data) mem ({
      uniqueClientMsgId := be32 (mem.block (data + 2) 4)
      imei := IMEI.ofChars (mem.block (data + 6) 15)
      autoIdRef := be32 (mem.block (data + 21) 4)
      msgStatus := (be16 (mem.block (data + 25) 2)).toInt16 }, 27) (data + 27) := by
  refine ⟨?_, fun limit => ?_, rfl⟩
  · simp [IEMtConfirmationMsg.fields, ntohs_block, ntohl_block]
  · simp [IEMtConfirmationMsg.fields]
    omega

theorem mtMsgPriority_fields :
    ReadsTo (IEMtPriority.fields data) mem (⟨be16 (mem.block (data + 2) 2)⟩, 4) (data + 4) := by
  refine ⟨?_, fun limit => ?_, rfl⟩
  · simp [IEMtPriority.fields, IEMtPriority.elementLength, ntohs_block]
  · simp [IEMtPriority.fields]

end Fields

/-! ## `unpack` -/

/-- The virtual call only puts the object back under its class. -/
theorem virtual_readsTo {Content : Type} (wrap : IEContent Content → InformationElement)
    {m : ReadM (IEContent Content × UInt16)} {mem : Memory} {e : IEContent Content} {n : UInt16}
    {stop : Nat} (h : ReadsTo m mem (e, n) stop) :
    ReadsTo (do let (e, n) ← m; return (wrap e, n)) mem (wrap e, n) stop := by
  have hbind : ReadsTo (do let (e, n) ← m; return (wrap e, n)) mem (wrap e, n) (max stop 0) :=
    h.bind (ReadsTo.pure (wrap e, n))
  rwa [Nat.max_eq_left (Nat.zero_le _)] at hbind

/-- **What an accepting `unpack` returns and reads.** -/
theorem unpack_accepts {self : InformationElement} {k : ElementId} (hself : self.getId = k)
    {mem : Memory} {data : Nat} {size : UInt16}
    (h : k.Accepts (declared mem data) size.toNat) :
    ReadsTo (self.unpack data size) mem
      (decodeContent k (declared mem data)
          (mem.block (data + 2) (declared mem data + k.surplus)),
        UInt16.ofNat (2 + declared mem data + k.surplus))
      (data + (2 + declared mem data + k.surplus)) := by
  subst hself
  obtain ⟨hmin, hmax, hcover⟩ := h
  cases self with
  | moHeader self =>
      have hlen : declared mem data = 28 := Nat.le_antisymm hmax hmin
      have hread := virtual_readsTo .moHeader (unpackFixed_accepts size self
        (moHeader_fields mem data) (by omega) hlen (by rwa [hlen] at hcover))
      simpa [hlen, decodeContent, slice_block, ElementId.surplus, InformationElement.getId,
        InformationElement.unpack, IEMoHeader.unpack, IEMoHeader.elementLength] using hread
  | moPayload self =>
      have htwo : 2 ≤ size.toNat := (ElementId.two_le_cover _ _).trans hcover
      have hsize : declared mem data ≤ size.toNat := (ElementId.le_cover _ _).trans hcover
      have hread := virtual_readsTo .moPayload (unpackPayload_accepts size self
        hmin hmax htwo hsize)
      simpa [decodeContent, ElementId.surplus, ElementId.maxLength, InformationElement.getId,
        InformationElement.unpack, IEMoPayload.unpack, IEMoPayload.maxPayloadLength] using hread
  | moLocationInfo self =>
      have hlen : declared mem data = 11 := Nat.le_antisymm hmax hmin
      have hread := virtual_readsTo .moLocationInfo (unpackFixed_accepts size self
        (moLocationInfo_fields mem data) (by omega) hlen (by rwa [hlen] at hcover))
      simpa [hlen, decodeContent, slice_block, ElementId.surplus, InformationElement.getId,
        InformationElement.unpack, IEMoLocationInfo.unpack, IEMoLocationInfo.elementLength] using hread
  | moConfirmation self =>
      have hlen : declared mem data = 1 := Nat.le_antisymm hmax hmin
      have hread := virtual_readsTo .moConfirmation (unpackFixed_accepts size self
        (moConfirmation_fields mem data) (by omega) hlen (by rwa [hlen] at hcover))
      simpa [hlen, decodeContent, slice_block, ElementId.surplus, InformationElement.getId,
        InformationElement.unpack, IEMoConfirmation.unpack, IEMoConfirmation.elementLength] using hread
  | mtHeader self =>
      have hlen : declared mem data = 21 := Nat.le_antisymm hmax hmin
      have hread := virtual_readsTo .mtHeader (unpackFixed_accepts size self
        (mtHeader_fields mem data) (by omega) hlen (by rwa [hlen] at hcover))
      simpa [hlen, decodeContent, slice_block, ElementId.surplus, InformationElement.getId,
        InformationElement.unpack, IEMtHeader.unpack, IEMtHeader.elementLength] using hread
  | mtPayload self =>
      have htwo : 2 ≤ size.toNat := (ElementId.two_le_cover _ _).trans hcover
      have hsize : declared mem data ≤ size.toNat := (ElementId.le_cover _ _).trans hcover
      have hread := virtual_readsTo .mtPayload (unpackPayload_accepts size self
        hmin hmax htwo hsize)
      simpa [decodeContent, ElementId.surplus, ElementId.maxLength, InformationElement.getId,
        InformationElement.unpack, IEMtPayload.unpack, IEMtPayload.maxPayloadLength] using hread
  | mtConfirmationMsg self =>
      have hlen : declared mem data = 25 := Nat.le_antisymm hmax hmin
      have hread := virtual_readsTo .mtConfirmationMsg (unpackFixed_accepts size self
        (mtConfirmationMsg_fields mem data) (by omega) hlen (by rwa [hlen] at hcover))
      simpa [hlen, decodeContent, slice_block, ElementId.surplus, InformationElement.getId,
        InformationElement.unpack, IEMtConfirmationMsg.unpack, IEMtConfirmationMsg.elementLength] using hread
  | mtMsgPriority self =>
      have hlen : declared mem data = 2 := Nat.le_antisymm hmax hmin
      have hread := virtual_readsTo .mtMsgPriority (unpackFixed_accepts size self
        (mtMsgPriority_fields mem data) (by omega) hlen (by rwa [hlen] at hcover))
      simpa [hlen, decodeContent, slice_block, ElementId.surplus, InformationElement.getId,
        InformationElement.unpack, IEMtPriority.unpack, IEMtPriority.elementLength] using hread

/-- **Any other `unpack` reports an error** without reading beyond what the size covers. -/
theorem unpack_rejects {self : InformationElement} {k : ElementId} (hself : self.getId = k)
    {mem : Memory} {data : Nat} {size : UInt16}
    (h : ¬ k.Accepts (declared mem data) size.toNat) :
    ∃ e stop, ReadsTo (self.unpack data size) mem (e, 0) stop
      ∧ stop ≤ data + size.toNat := by
  -- one case for the classes of fixed length, where the range is a single number
  have hfixed : ∀ {Content : Type} (wrap : IEContent Content → InformationElement)
      (fields : Nat → ReadM (Content × Nat)) (self : IEContent Content) (n : Nat),
      ¬ (declared mem data = n ∧ 2 + n ≤ size.toNat) →
      ∃ e stop, ReadsTo (do let (e, m) ← unpackFixed n fields self data size; return (wrap e, m))
        mem (e, 0) stop ∧ stop ≤ data + size.toNat := by
    intro Content wrap fields self n hnot
    obtain ⟨e, stop, hread, hstop⟩ := unpackFixed_rejects size self hnot
    exact ⟨wrap e, stop, virtual_readsTo wrap hread, hstop⟩
  have hpayload : ∀ (wrap : IEContent PayloadDto → InformationElement)
      (self : IEContent PayloadDto) (limit : Nat),
      ¬ (1 ≤ declared mem data ∧ declared mem data ≤ limit
        ∧ max 2 (declared mem data) ≤ size.toNat) →
      ∃ e stop, ReadsTo (do let (e, m) ← unpackPayload limit self data size; return (wrap e, m))
        mem (e, 0) stop ∧ stop ≤ data + size.toNat := by
    intro wrap self limit hnot
    obtain ⟨e, stop, hread, hstop⟩ := unpackPayload_rejects size self hnot
    exact ⟨wrap e, stop, virtual_readsTo wrap hread, hstop⟩
  subst hself
  cases self with
  | moHeader self =>
      exact hfixed .moHeader _ _ _ fun hacc => h (ElementId.accepts_fixed rfl rfl rfl hacc)
  | moPayload self => exact hpayload .moPayload _ _ h
  | moLocationInfo self =>
      exact hfixed .moLocationInfo _ _ _ fun hacc => h (ElementId.accepts_fixed rfl rfl rfl hacc)
  | moConfirmation self =>
      exact hfixed .moConfirmation _ _ _ fun hacc => h (ElementId.accepts_fixed rfl rfl rfl hacc)
  | mtHeader self =>
      exact hfixed .mtHeader _ _ _ fun hacc => h (ElementId.accepts_fixed rfl rfl rfl hacc)
  | mtPayload self => exact hpayload .mtPayload _ _ h
  | mtConfirmationMsg self =>
      exact hfixed .mtConfirmationMsg _ _ _ fun hacc => h (ElementId.accepts_fixed rfl rfl rfl hacc)
  | mtMsgPriority self =>
      exact hfixed .mtMsgPriority _ _ _ fun hacc => h (ElementId.accepts_fixed rfl rfl rfl hacc)

end Iridium.SbdDirectIp
