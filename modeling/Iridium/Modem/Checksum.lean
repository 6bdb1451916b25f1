import Iridium.Modem.Transfer

/-!
# Which sum is it?

The device sums the bytes of a message as numbers from 0 to 255. The loops of `WriteMessage` and
`ReadMessage` sum them as plain `char`s, which is the same where a `char` is unsigned. Where it is
signed each byte from `80` on counts for 256 less, and 256 such bytes are needed to make up for it
in 16 bits (`sum16_eq_iff`).
-/

namespace Iridium

open ByteOrder Serial Text

/-- The checksum of the device. -/
def unsignedSum (payload : List UInt8) : Nat := (payload.map UInt8.toNat).sum % 2 ^ 16

/-- How many bytes are negative as a signed `char`. -/
def highBytes (payload : List UInt8) : Nat := payload.countP (0x80 ≤ ·)

namespace Platform

theorem ofChar_unsigned {platform : Platform} (h : platform.charSigned = false) (c : UInt8) :
    (platform.ofChar c).toNat = c.toNat := by
  rw [ofChar, h]
  rfl

theorem toNat_signExtend (c : UInt8) :
    c.toInt8.toInt32.toUInt32.toNat % 65536 = c.toNat + if 0x80 ≤ c then 0xFF00 else 0 := by
  have hall : ∀ n : Fin 256, (UInt8.ofFin n).toInt8.toInt32.toUInt32.toNat % 65536
      = (UInt8.ofFin n).toNat + if 0x80 ≤ UInt8.ofFin n then 0xFF00 else 0 := by
    decide +kernel
  exact hall c.toFin

theorem foldl_unsigned {platform : Platform} (h : platform.charSigned = false)
    (payload : List UInt8) (acc : UInt32) :
    (payload.foldl (fun sum c => sum + platform.ofChar c) acc).toNat % 65536
      = (acc.toNat + (payload.map UInt8.toNat).sum) % 65536 := by
  induction payload generalizing acc with
  | nil => rfl
  | cons c cs ih =>
      rw [List.foldl_cons, ih, UInt32.toNat_add, ofChar_unsigned h, List.map_cons, List.sum_cons]
      omega

theorem foldl_signed {platform : Platform} (h : platform.charSigned = true)
    (payload : List UInt8) (acc : UInt32) :
    (payload.foldl (fun sum c => sum + platform.ofChar c) acc).toNat % 65536
      = (acc.toNat + (payload.map UInt8.toNat).sum + 0xFF00 * highBytes payload) % 65536 := by
  induction payload generalizing acc with
  | nil => rfl
  | cons c cs ih =>
      have hc := toNat_signExtend c
      rw [List.foldl_cons, ih, UInt32.toNat_add, ofChar, if_pos h, List.map_cons, List.sum_cons,
        highBytes, highBytes, List.countP_cons]
      by_cases hhigh : 0x80 ≤ c
      · simp only [hhigh, if_true, decide_true] at hc ⊢
        omega
      · simp only [hhigh, if_false, decide_false, Bool.false_eq_true] at hc ⊢
        omega

end Platform

namespace Modem

variable {modem : Modem} {payload : List UInt8}

/-- The bytes above `7F` do no harm: `char` is unsigned, or they cancel out. -/
def SignHarmless (modem : Modem) (payload : List UInt8) : Prop :=
  modem.platform.charSigned = false ∨ highBytes payload % 256 = 0

theorem sum16_eq_iff : modem.sum16 payload = unsignedSum payload ↔ SignHarmless modem payload := by
  rw [sum16, unsignedSum, Platform.sum, SignHarmless]
  cases h : modem.platform.charSigned with
  | false =>
      rw [Platform.foldl_unsigned h]
      simp
  | true =>
      rw [Platform.foldl_signed h]
      have hzero : (0 : UInt32).toNat = 0 := rfl
      simp only [hzero, Bool.true_eq_false, false_or]
      omega

theorem checksum_eq_iff :
    modem.checksum payload = beBytes 2 (unsignedSum payload) ↔ SignHarmless modem payload := by
  have hsum : modem.sum16 payload < 65536 := Nat.mod_lt _ (by decide)
  have hunsigned : unsignedSum payload < 65536 := Nat.mod_lt _ (by decide)
  rw [checksum_eq, ← sum16_eq_iff]
  constructor
  · intro h
    have hnat := congrArg beNat h
    rw [beNat_beBytes, beNat_beBytes] at hnat
    omega
  · intro h
    rw [h]

/-- To a modem that is ready, `WriteMessage` sends the payload and the checksum of the device. -/
def SendsUnsignedSum (modem : Modem) (payload : List UInt8) : Prop :=
  ∀ p : Port, p.Accepts → ascii "READY\r\n" <:+: p.stream →
    ((modem.WriteMessage payload).after p).sent
      = p.sent ++ [announcement payload, payload, beBytes 2 (unsignedSum payload)]

/-- From a frame with the payload, `ReadMessage` accepts the checksum of the device and no other. -/
def AcceptsUnsignedSum (modem : Modem) (payload : List UInt8) : Prop :=
  ∀ (p : Port) (c d : UInt8) (rest : List UInt8), p.Accepts →
    EchoThen p (frame payload [c, d] rest) →
    ((modem.ReadMessage.result p).1 = .ok () ↔ beNat [c, d] = unsignedSum payload)

theorem sendsUnsignedSum_iff (hopen : modem.isOpen = true) (hlow : 1 ≤ payload.length)
    (hhigh : payload.length ≤ 1960) :
    SendsUnsignedSum modem payload ↔ SignHarmless modem payload := by
  rw [← checksum_eq_iff]
  constructor
  · intro hsends
    let p : Port := { incoming := [ascii "READY\r\n"], bound := by decide }
    have hready : ascii "READY\r\n" <:+: p.stream := by decide
    have hsent := hsends p (fun _ => rfl) hready
    rw [writeMessage_sent hopen (fun _ => rfl) hready hlow hhigh] at hsent
    simpa using hsent
  · intro hchecksum p hp hready
    rw [writeMessage_sent hopen hp hready hlow hhigh, hchecksum]

theorem acceptsUnsignedSum_iff (hopen : modem.isOpen = true) (hne : payload ≠ [])
    (hlen : payload.length < 65536) :
    AcceptsUnsignedSum modem payload ↔ SignHarmless modem payload := by
  have haccepts : ∀ (p : Port) (c d : UInt8) (rest : List UInt8), p.Accepts →
      EchoThen p (frame payload [c, d] rest) →
      ((modem.ReadMessage.result p).1 = .ok () ↔ modem.checksum payload = [c, d]) := by
    intro p c d rest hp hecho
    rw [readMessage_eq hopen hp hecho, received_frame modem hlen]
    by_cases hsum : modem.checksum payload = [c, d] <;> simp [hne, hsum]
  rw [← checksum_eq_iff]
  constructor
  · intro hunsigned
    obtain ⟨c, d, hcd⟩ := checksum_pair modem payload
    -- a frame with the checksum that the target computes
    let p : Port := {
      incoming := [ascii "\r", frame payload [c, d] []]
      bound := by
        simp only [List.flatten_cons, List.flatten_nil, frame, List.length_append,
          length_beBytes, List.length_cons, List.length_nil]
        have hcr : (ascii "\r").length = 1 := rfl
        omega }
    have hecho : EchoThen p (frame payload [c, d] []) := by
      have h : EchoThen p _ := @echoThen_cons p (ascii "\r") _ rfl List.infix_rfl
      simpa using h
    have hsum := (hunsigned p c d [] (fun _ => rfl) hecho).mp
      ((haccepts p c d [] (fun _ => rfl) hecho).mpr hcd)
    rw [hcd, ← hsum]
    exact (beBytes_beNat [c, d]).symm
  · intro hchecksum p c d rest hp hecho
    rw [haccepts p c d rest hp hecho, hchecksum]
    constructor
    · intro h
      rw [← h, beNat_beBytes]
      exact Nat.mod_eq_of_lt (Nat.mod_lt _ (by decide))
    · intro h
      rw [← h]
      exact beBytes_beNat [c, d]

/-- **The modem's checksum is the device's exactly where the sign of a `char` does no harm**: the
one that `WriteMessage` sends, for the payloads it takes, and the one that `ReadMessage` accepts,
for every payload that a frame can carry. -/
theorem checksum_unsigned_iff (modem : Modem) (hopen : modem.isOpen = true) (payload : List UInt8)
    (hne : payload ≠ []) :
    (payload.length ≤ 1960 →
      (SendsUnsignedSum modem payload ↔ SignHarmless modem payload))
    ∧ (payload.length < 65536 →
      (AcceptsUnsignedSum modem payload ↔ SignHarmless modem payload)) :=
  ⟨sendsUnsignedSum_iff hopen (List.length_pos_iff.mpr hne), acceptsUnsignedSum_iff hopen hne⟩

theorem checksum_unsigned_sample :
    SendsUnsignedSum x86 [0x41, 0x7F] ∧ AcceptsUnsignedSum x86 [0x41, 0x7F] := by
  obtain ⟨hsends, haccepts⟩ := checksum_unsigned_iff x86 rfl [0x41, 0x7F] (by decide)
  have hharmless : SignHarmless x86 [0x41, 0x7F] := .inr (by decide)
  exact ⟨(hsends (by decide)).mpr hharmless, (haccepts (by decide)).mpr hharmless⟩

/-- On an x86 host, one byte `80` goes out with the sum `FF80`, and its sum `0080` is refused. -/
theorem checksum_signed_sample :
    x86.checksum [0x80] = [0xFF, 0x80] ∧ unsignedSum [0x80] = 0x0080
      ∧ ¬ SendsUnsignedSum x86 [0x80] ∧ ¬ AcceptsUnsignedSum x86 [0x80] := by
  have hharm : ¬ SignHarmless x86 [0x80] := by
    rintro (h | h)
    · cases h
    · exact absurd h (by decide)
  refine ⟨by decide +kernel, by decide, ?_, ?_⟩
  · rw [sendsUnsignedSum_iff rfl (by decide) (by decide)]
    exact hharm
  · rw [acceptsUnsignedSum_iff rfl (by decide) (by decide)]
    exact hharm

end Modem

end Iridium
