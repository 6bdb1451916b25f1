import Iridium.SbdDirectIp.InformationElement
import Iridium.Lib.Tlv

/-!
# Does a payload encoder tell its length?

Either payload class narrows the size of its vector to 16 bits and compares what is left with its
limit. A vector whose size modulo `2 ^ 16` is above the limit is truncated, whatever its size is;
any other one goes out whole, behind a header that declares the narrowed size. So the header tells
the truth below `2 ^ 16` bytes and, beyond, for the residues above the limit only
(`payloadEncoders_truthful_iff`).
-/

namespace Iridium.SbdDirectIp

open ByteOrder Tlv

/-- What an encoder that truncates to a limit promises: it keeps the first bytes of the payload,
appends one frame with them, and has their number for its length. A frame declares the length of
its content. -/
structure Truthful (id : ElementId) (maxPayloadLength : Nat) (e : IEContent PayloadDto)
    (raw : List UInt8) (packed : IEContent PayloadDto × List UInt8) : Prop where
  stored : packed.1.content.payload = e.content.payload.take maxPayloadLength
  appended : ∃ f : Frame, packed.2 = raw ++ f.encode ∧ f.id = id.value
    ∧ f.content = e.content.payload.take maxPayloadLength
  getLength : packed.1.length.toNat = min e.content.payload.length maxPayloadLength

section Encoder

variable {id : ElementId} {max : Nat} {e : IEContent PayloadDto} {raw : List UInt8}

theorem basePackInto_eq (length : UInt16) :
    basePackInto id length raw = raw ++ id.value :: beBytes 2 length.toNat := by
  rw [basePackInto, bytes16_htons]

theorem narrow_lt_iff (hmax : max < 65536) (size : Nat) :
    UInt16.ofNat max < UInt16.ofNat size ↔ max < size % 65536 := by
  rw [UInt16.lt_iff_toNat_lt, UInt16.toNat_ofNat', UInt16.toNat_ofNat', Nat.mod_eq_of_lt hmax]

/-- A narrowed size above the limit: the payload is truncated. -/
theorem packPayload_truncates (hmax : max < 65536)
    (h : max < e.content.payload.length % 65536) :
    packPayload id (UInt16.ofNat max) e raw
      = (⟨UInt16.ofNat max, ⟨e.content.payload.take max⟩⟩,
        raw ++ id.value :: beBytes 2 max ++ e.content.payload.take max) := by
  have hle : max - e.content.payload.length = 0 := by
    have := Nat.mod_le e.content.payload.length 65536
    omega
  have htoNat : (UInt16.ofNat max).toNat = max := UInt16.toNat_ofNat_of_lt' hmax
  rw [packPayload, if_pos ((narrow_lt_iff hmax _).mpr h)]
  simp only [resize, htoNat, hle, basePackInto_eq, List.replicate_zero, List.append_nil]

/-- Any other narrowed size: the payload goes out whole. -/
theorem packPayload_whole (hmax : max < 65536)
    (h : e.content.payload.length % 65536 ≤ max) :
    packPayload id (UInt16.ofNat max) e raw
      = ({ e with length := UInt16.ofNat e.content.payload.length },
        raw ++ id.value :: beBytes 2 (e.content.payload.length % 65536)
          ++ e.content.payload) := by
  have hnot : ¬ UInt16.ofNat max < UInt16.ofNat e.content.payload.length := by
    rw [narrow_lt_iff hmax]
    omega
  rw [packPayload, if_neg hnot, basePackInto_eq, UInt16.toNat_ofNat']

/-- **A payload encoder tells its length exactly when the narrowing is harmless**: the size fits in
16 bits, or what is left of it is above the limit all the same. -/
theorem packPayload_truthful_iff (hmax : max < 65536) :
    Truthful id max e raw (packPayload id (UInt16.ofNat max) e raw)
      ↔ e.content.payload.length < 65536 ∨ max < e.content.payload.length % 65536 := by
  have hbound : (e.content.payload.take max).length < 65536 := by
    rw [List.length_take]
    omega
  by_cases h : max < e.content.payload.length % 65536
  · have hle := Nat.mod_le e.content.payload.length 65536
    have hlen : (e.content.payload.take max).length = max := by
      rw [List.length_take]
      omega
    refine iff_of_true ?_ (.inr h)
    rw [packPayload_truncates hmax h]
    refine ⟨rfl, ⟨⟨id.value, _, hbound⟩, ?_, rfl, rfl⟩, ?_⟩
    · rw [Frame.encode, hlen, List.append_assoc]
      rfl
    · rw [UInt16.toNat_ofNat_of_lt' hmax, Nat.min_eq_right (by omega)]
  · rw [packPayload_whole hmax (by omega)]
    constructor
    · intro htruthful
      have hstored := congrArg List.length htruthful.stored
      rw [List.length_take] at hstored
      -- a payload that is kept whole is within the limit
      have hsmall : e.content.payload.length ≤ max := by
        dsimp only at hstored
        omega
      exact .inl (by omega)
    · rintro (hsize | hlarge)
      · rw [Nat.mod_eq_of_lt hsize] at h ⊢
        have htake : e.content.payload.take max = e.content.payload :=
          List.take_of_length_le (by omega)
        refine ⟨htake.symm, ⟨⟨id.value, e.content.payload, hsize⟩, ?_, rfl, htake.symm⟩, ?_⟩
        · rw [Frame.encode, List.append_assoc]
          rfl
        · rw [UInt16.toNat_ofNat_of_lt' hsize, Nat.min_eq_left (by omega)]
      · exact absurd hlarge h

end Encoder

/-- `IEMoPayload::packInto` and `IEMtPayload::packInto`, on an element and the bytes before it. -/
theorem payloadEncoders_truthful_iff (e : IEContent PayloadDto) (raw : List UInt8) :
    (Truthful .moPayload 1960 e raw (IEMoPayload.packInto e raw)
        ↔ e.content.payload.length < 65536 ∨ 1960 < e.content.payload.length % 65536)
      ∧ (Truthful .mtPayload 1890 e raw (IEMtPayload.packInto e raw)
        ↔ e.content.payload.length < 65536 ∨ 1890 < e.content.payload.length % 65536) :=
  ⟨packPayload_truthful_iff (by decide), packPayload_truthful_iff (by decide)⟩

/-- A payload of `2 ^ 16` bytes goes out whole, behind a header that declares none. -/
theorem payloadEncoders_untruthful_sample :
    let e : IEContent PayloadDto := { content := ⟨List.replicate 65536 0x41⟩ }
    (IEMoPayload.packInto e []).2
        = [0x02, 0x00, 0x00] ++ List.replicate 65536 0x41
      ∧ ¬ Truthful .moPayload 1960 e [] (IEMoPayload.packInto e [])
      ∧ ¬ Truthful .mtPayload 1890 e [] (IEMtPayload.packInto e []) := by
  intro e
  have hlen : e.content.payload.length = 65536 := List.length_replicate
  refine ⟨?_, ?_, ?_⟩
  · have hwhole := @packPayload_whole .moPayload 1960 e [] (by decide) (by rw [hlen]; decide)
    have hheader : beBytes 2 (e.content.payload.length % 65536) = [0x00, 0x00] := by
      rw [hlen]
      decide
    rw [IEMoPayload.packInto, IEMoPayload.maxPayloadLength, hwhole, hheader]
    rfl
  · rw [IEMoPayload.packInto, IEMoPayload.maxPayloadLength, packPayload_truthful_iff (by decide),
      hlen]
    decide
  · rw [IEMtPayload.packInto, IEMtPayload.maxPayloadLength, packPayload_truthful_iff (by decide),
      hlen]
    decide

end Iridium.SbdDirectIp
