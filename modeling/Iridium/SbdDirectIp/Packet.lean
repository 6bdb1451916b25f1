import Iridium.SbdDirectIp.Unpack

/-!
# The header of a packet in a stream

The first three bytes of a stream are the protocol number and the length of what follows. Bytes
that come later change neither.
-/

namespace Iridium.SbdDirectIp

open ByteOrder

/-- The length field in the header of a stream. -/
def lengthField (s : List UInt8) : Nat := beNat (slice s 1 2)

variable {r c : List UInt8}

theorem headD_append (h : 3 ≤ r.length) : (r ++ c).headD 0 = r.headD 0 := by
  cases r with
  | nil => simp at h
  | cons b r => rfl

theorem lengthField_append (h : 3 ≤ r.length) : lengthField (r ++ c) = lengthField r := by
  rw [lengthField, slice_append_left h, lengthField]

theorem be16_lengthField (h : 3 ≤ r.length) :
    (be16 (slice r 1 2)).toNat = lengthField r := by
  apply toNat_be16
  rw [slice, List.length_take, List.length_drop]
  omega

theorem be16_ne_zero (h : 3 ≤ r.length) (hne : lengthField r ≠ 0) :
    be16 (slice r 1 2) ≠ 0 := by
  intro hzero
  rw [← be16_lengthField h, hzero] at hne
  exact hne rfl

/-- The header of a stream, taken out of the buffer. -/
theorem header_of_stream (h : 3 ≤ r.length) :
    ((MessageHeader.ofBytes (r.take MessageHeader.size)).proto ≠ sbdProtoNumber.toInt8
      ↔ r.headD 0 ≠ 1)
    ∧ (MessageHeader.ofBytes (r.take MessageHeader.size)).proto = (r.headD 0).toInt8
    ∧ ntohs (MessageHeader.ofBytes (r.take MessageHeader.size)).length = be16 (slice r 1 2) := by
  obtain ⟨b0, b1, b2, rest, rfl⟩ : ∃ b0 b1 b2 rest, r = b0 :: b1 :: b2 :: rest := by
    match r, h with
    | b0 :: b1 :: b2 :: rest, _ => exact ⟨b0, b1, b2, rest, rfl⟩
  refine ⟨?_, rfl, ntohs_load16 rfl⟩
  show b0.toInt8 ≠ (1 : UInt8).toInt8 ↔ b0 ≠ 1
  refine not_congr ⟨fun h => ?_, fun h => h ▸ rfl⟩
  exact congrArg Int8.toUInt8 h

end Iridium.SbdDirectIp
