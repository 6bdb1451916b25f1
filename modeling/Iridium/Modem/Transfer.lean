import Iridium.Modem.Casts

/-!
# Messages on the wire

A message goes to the modem and comes back in a frame: its length, its bytes, and their sum, each
number most significant byte first whatever the target is (`swapped_bytes16`, `number16_toNat`).

`received` says what a reader of such a frame makes of the bytes that are to come. Behind the echo
`ReadMessage` is that reader (`readFrame_eq`), whatever the chunks. So it returns the payload of a
frame or throws with nothing (`writeMessage_readMessage`).
-/

namespace Iridium

open ByteOrder Serial Text SbdDirectIp

/-! ## Numbers of two bytes -/

theorem Platform.isBigEndian_eq (platform : Platform) :
    platform.isBigEndian = platform.bigEndian := by
  obtain ⟨charSigned, bigEndian⟩ := platform
  cases charSigned <;> cases bigEndian <;> rfl

theorem Platform.swapped_bytes16 (platform : Platform) (i : UInt16) :
    platform.swapped (platform.bytes16 i) = beBytes 2 i.toNat := by
  rw [swapped, isBigEndian_eq, bytes16]
  cases platform.bigEndian <;> rfl

namespace Modem

variable {modem : Modem} {p : Port}

theorem number16_toNat {c : List UInt8} (h : c.length = 2) :
    (modem.number16 c).toNat = beNat c := by
  have hlt : beNat c < 65536 := by simpa [h] using beNat_lt c
  have hvalue : (if modem.platform.bigEndian then beNat (modem.platform.swapped c)
      else leNat (modem.platform.swapped c)) = beNat c := by
    rw [Platform.swapped, Platform.isBigEndian_eq]
    cases modem.platform.bigEndian <;> rfl
  rw [number16, Platform.load16, hvalue]
  exact UInt16.toNat_ofNat_of_lt' hlt

/-- The sum of a payload as the target computes it, in 16 bits. -/
def sum16 (modem : Modem) (payload : List UInt8) : Nat :=
  (modem.platform.sum payload).toNat % 65536

theorem toNat_sum_and (payload : List UInt8) :
    (modem.platform.sum payload &&& 0xFFFF).toNat = modem.sum16 payload := by
  rw [UInt32.toNat_and, sum16]
  exact Nat.and_two_pow_sub_one_eq_mod _ 16

theorem checksum_eq (payload : List UInt8) :
    modem.checksum payload = beBytes 2 (modem.sum16 payload) := by
  have hlt : modem.sum16 payload < 65536 := Nat.mod_lt _ (by decide)
  rw [checksum, Platform.swapped_bytes16, UInt32.toNat_toUInt16, toNat_sum_and,
    Nat.mod_eq_of_lt hlt]

theorem checksum_pair (modem : Modem) (payload : List UInt8) :
    ∃ c d, modem.checksum payload = [c, d] :=
  List.length_eq_two.mp (by rw [checksum_eq, length_beBytes])

/-- The comparison that `ReadMessage` makes. -/
theorem sum_and_eq_iff (modem : Modem) {c : List UInt8} (h : c.length = 2)
    (payload : List UInt8) :
    modem.platform.sum payload &&& 0xFFFF = (modem.number16 c).toUInt32
      ↔ modem.checksum payload = c := by
  rw [← UInt32.toNat_inj, toNat_sum_and, UInt16.toNat_toUInt32, number16_toNat h, checksum_eq]
  constructor
  · intro heq
    have hback := beBytes_beNat c
    rwa [h, ← heq] at hback
  · rintro rfl
    rw [beNat_beBytes]
    exact (Nat.mod_mod _ _).symm

/-! ## The reader of a frame -/

/-- What a reader of a frame makes of the bytes to come. -/
def received (modem : Modem) (stream : List UInt8) : Except Thrown Unit × List UInt8 :=
  match stream with
  | hi :: lo :: rest =>
    if rest.length < beNat [hi, lo] then (.error (.runtimeError "message receive error"), [])
    else
      match rest.drop (beNat [hi, lo]) with
      | c :: d :: _ =>
        if rest.take (beNat [hi, lo]) ≠ [] ∧ modem.checksum (rest.take (beNat [hi, lo])) ≠ [c, d]
        then (.error (.runtimeError "CRC check error"), [])
        else (.ok (), rest.take (beNat [hi, lo]))
      | _ => (.error (.runtimeError "message CRC receive error"), [])
  | _ => (.error (.runtimeError "message length receive error"), [])

/-- A frame, and what follows it. -/
def frame (payload checksum rest : List UInt8) : List UInt8 :=
  beBytes 2 payload.length ++ (payload ++ (checksum ++ rest))

theorem received_frame (modem : Modem) {payload : List UInt8} (hlen : payload.length < 65536)
    (c d : UInt8) (rest : List UInt8) :
    modem.received (frame payload [c, d] rest)
      = if payload ≠ [] ∧ modem.checksum payload ≠ [c, d] then
          (.error (.runtimeError "CRC check error"), [])
        else (.ok (), payload) := by
  obtain ⟨hi, lo, hlength⟩ : ∃ hi lo, beBytes 2 payload.length = [hi, lo] :=
    List.length_eq_two.mp (length_beBytes 2 _)
  have hn : beNat [hi, lo] = payload.length := by
    rw [← hlength, beNat_beBytes]
    exact Nat.mod_eq_of_lt hlen
  have hlong : ¬ (payload ++ c :: d :: rest).length < payload.length := by
    rw [List.length_append]
    omega
  rw [frame, hlength]
  simp only [List.cons_append, List.nil_append, received, hn, if_neg hlong, List.drop_left,
    List.take_left]

/-- **What a reader returns is the payload of a frame** with the sum of that payload, if there is
any; else it throws, and returns nothing. -/
theorem received_cases (modem : Modem) (stream : List UInt8) :
    (∃ what, modem.received stream = (.error (.runtimeError what), []))
      ∨ ∃ payload c d rest, modem.received stream = (.ok (), payload)
        ∧ stream = frame payload [c, d] rest ∧ payload.length < 65536
        ∧ (payload ≠ [] → modem.checksum payload = [c, d]) := by
  match stream with
  | [] | [_] => exact .inl ⟨_, rfl⟩
  | hi :: lo :: rest =>
      have hlt : beNat [hi, lo] < 65536 := by simpa using beNat_lt [hi, lo]
      by_cases hshort : rest.length < beNat [hi, lo]
      · exact .inl ⟨_, by rw [received, if_pos hshort]⟩
      · have hlen : (rest.take (beNat [hi, lo])).length = beNat [hi, lo] := by
          rw [List.length_take]
          omega
        match hbehind : rest.drop (beNat [hi, lo]) with
        | [] | [_] => exact .inl ⟨_, by rw [received, if_neg hshort, hbehind]⟩
        | c :: d :: behind =>
            -- the stream is the frame that its length field cuts out
            have hstream : hi :: lo :: rest
                = frame (rest.take (beNat [hi, lo])) [c, d] behind := by
              have hfield : beBytes 2 (beNat [hi, lo]) = [hi, lo] := beBytes_beNat [hi, lo]
              have hsplit := List.take_append_drop (beNat [hi, lo]) rest
              rw [hbehind] at hsplit
              rw [frame, hlen, hfield]
              exact congrArg ([hi, lo] ++ ·) hsplit.symm
            have hbound : (rest.take (beNat [hi, lo])).length < 65536 := by rwa [hlen]
            have houtcome := received_frame modem hbound c d behind
            rw [← hstream] at houtcome
            by_cases hbad : rest.take (beNat [hi, lo]) ≠ []
                ∧ modem.checksum (rest.take (beNat [hi, lo])) ≠ [c, d]
            · exact .inl ⟨_, houtcome.trans (if_pos hbad)⟩
            · refine .inr ⟨_, c, d, behind, houtcome.trans (if_neg hbad), hstream, hbound, ?_⟩
              intro hne
              by_contra hdiffer
              exact hbad ⟨hne, hdiffer⟩

theorem readPayload_of_le {length : UInt16} (h : length.toNat ≤ p.stream.length) :
    (readPayload length).result p = some (p.stream.take length.toNat)
      ∧ ((readPayload length).after p).stream = p.stream.drop length.toNat := by
  by_cases hzero : length = 0
  · subst hzero
    exact ⟨rfl, rfl⟩
  · rw [readPayload, if_neg hzero, result_readExact, if_pos h, stream_readExact h]
    exact ⟨rfl, rfl⟩

theorem readPayload_of_lt {length : UInt16} (h : p.stream.length < length.toNat) :
    (readPayload length).result p = none := by
  have hzero : length ≠ 0 := by
    rintro rfl
    exact absurd h (Nat.not_lt_zero _)
  rw [readPayload, if_neg hzero, result_readExact, if_neg (by omega)]

/-- Behind the echo, `ReadMessage` is a reader of frames. -/
theorem readFrame_eq : modem.readFrame.result p = modem.received p.stream := by
  match hstream : p.stream with
  | [] | [_] =>
      have hnone : (readExact 2).result p = none := by
        rw [result_readExact, hstream]
        rfl
      simp [readFrame, hnone, received]
  | hi :: lo :: rest =>
      have hsplit : p.stream = [hi, lo] ++ rest := hstream
      obtain ⟨hread, hrest⟩ := readExact_append (n := 2) hsplit rfl
      have hlength : (modem.number16 [hi, lo]).toNat = beNat [hi, lo] := number16_toNat rfl
      by_cases hshort : rest.length < beNat [hi, lo]
      · have hnone := @readPayload_of_lt ((readExact 2).after p) (modem.number16 [hi, lo])
          (by rw [hrest, hlength]; exact hshort)
        simp [readFrame, hread, hnone, received, hshort]
      · obtain ⟨hpayload, hbehind⟩ :=
          @readPayload_of_le ((readExact 2).after p) (modem.number16 [hi, lo])
            (by rw [hrest, hlength]; omega)
        rw [hrest, hlength] at hpayload hbehind
        match hdrop : rest.drop (beNat [hi, lo]) with
        | [] | [_] =>
            rw [hdrop] at hbehind
            have hnone : (readExact 2).result
                ((readPayload (modem.number16 [hi, lo])).after ((readExact 2).after p)) = none := by
              rw [result_readExact, hbehind]
              rfl
            simp [readFrame, hread, hpayload, hnone, received, hshort, hdrop]
        | c :: d :: behind =>
            have hfield : ((readPayload (modem.number16 [hi, lo])).after
                ((readExact 2).after p)).stream = [c, d] ++ behind := hbehind.trans hdrop
            obtain ⟨hcrc, -⟩ := readExact_append (n := 2) hfield rfl
            have hsum := sum_and_eq_iff modem (show [c, d].length = 2 from rfl)
              (rest.take (beNat [hi, lo]))
            simp only [readFrame, received, hread, hpayload, hcrc, hshort, hdrop, hsum,
              SerialM.result_bind, ne_eq, if_false]
            split <;> rfl

/-! ## The two functions -/

/-- When the echo has been read, these bytes are to come. -/
structure EchoThen (p : Port) (stream : List UInt8) : Prop where
  echo : ((readUntil (ascii "\r") []).result p).1 = true
  stream : ((readUntil (ascii "\r") []).after p).stream = stream

/-- An echo that comes in a read of its own. -/
theorem echoThen_cons {chunk : List UInt8} {chunks : List (List UInt8)}
    (h : p.incoming = chunk :: chunks) (hcr : ascii "\r" <:+: chunk) :
    EchoThen p chunks.flatten := by
  have hnil : ¬ ascii "\r" <:+: [] := by decide
  have hgather : gather (ascii "\r") [] p.incoming = (chunk, chunks) := by
    rw [h, gather, if_neg hnil, List.nil_append, gather_found hcr]
  refine ⟨?_, ?_⟩
  · rw [readUntil_found_iff]
    show ascii "\r" <:+: (gather (ascii "\r") [] p.incoming).1
    rw [hgather]
    exact hcr
  · show (gather (ascii "\r") [] p.incoming).2.flatten = _
    rw [hgather]

theorem readMessage_eq (hopen : modem.isOpen = true) (hp : p.Accepts) {stream : List UInt8}
    (h : EchoThen p stream) : modem.ReadMessage.result p = modem.received stream := by
  simp [ReadMessage, hopen, hp.result_write, h.echo, readFrame_eq, h.stream]

/-- `ReadMessage` throws before the frame, with nothing, or is the reader of it. -/
theorem readMessage_cases (modem : Modem) (p : Port) :
    (∃ what, modem.ReadMessage.result p = (.error (.runtimeError what), []))
      ∨ ∃ stream, EchoThen p stream ∧ modem.ReadMessage.result p = modem.received stream := by
  by_cases hopen : modem.isOpen = true
  · by_cases hsent : (write (ascii "AT+SBDRB\r")).result p = true
    · by_cases hecho : ((readUntil (ascii "\r") []).result p).1 = true
      · refine .inr ⟨_, ⟨hecho, rfl⟩, ?_⟩
        simp [ReadMessage, hopen, hsent, hecho, readFrame_eq]
      · exact .inl ⟨"message length receive error", by simp [ReadMessage, hopen, hsent, hecho]⟩
    · exact .inl ⟨"send command error", by simp [ReadMessage, hopen, hsent]⟩
  · exact .inl ⟨"modem not opened", by simp [ReadMessage, hopen]⟩

theorem payload_inRange {payload : List UInt8} (hlow : 1 ≤ payload.length)
    (hhigh : payload.length ≤ 1960) :
    ¬ (payload = [] ∨ IEMoPayload.maxPayloadLength < payload.length) := by
  rw [← List.length_eq_zero_iff, IEMoPayload.maxPayloadLength]
  omega

/-- What `WriteMessage` sends to a modem that is ready for it. -/
theorem writeMessage_sent (hopen : modem.isOpen = true) (hp : p.Accepts)
    (hready : ascii "READY\r\n" <:+: p.stream) {payload : List UInt8} (hlow : 1 ≤ payload.length)
    (hhigh : payload.length ≤ 1960) :
    ((modem.WriteMessage payload).after p).sent
      = p.sent ++ [announcement payload, payload, modem.checksum payload] := by
  have hrange := payload_inRange hlow hhigh
  have hfound : ((readUntil (ascii "READY\r\n") []).result p).1 = true := readUntil_found hready
  have hwaiting : ((readUntil (ascii "READY\r\n") []).after
      ((write (announcement payload)).after p)).Accepts := hp.write.readUntil
  simp [WriteMessage, hopen, hrange, hp.result_write, hp.sent_write, hfound,
    hwaiting.result_write, hwaiting.sent_write, hwaiting.write.result_write,
    hwaiting.write.sent_write]

/-- **What `WriteMessage` sends, `ReadMessage` reads, all or nothing.** A frame with the checksum
that `WriteMessage` sends is read as its payload. Whenever the reads end, `ReadMessage` has thrown
and returns nothing, or it returns the payload of the frame that was to come behind the echo, with
the checksum that `WriteMessage` would have sent if there is any payload. A frame with another one
makes it throw. -/
theorem writeMessage_readMessage (modem : Modem) (hopen : modem.isOpen = true) :
    (∀ payload rest, 1 ≤ payload.length → payload.length ≤ 1960 →
      (∀ p : Port, p.Accepts → ascii "READY\r\n" <:+: p.stream →
        ((modem.WriteMessage payload).after p).sent
          = p.sent ++ [announcement payload, payload, modem.checksum payload])
      ∧ ∀ p : Port, p.Accepts → EchoThen p (frame payload (modem.checksum payload) rest) →
        modem.ReadMessage.result p = (.ok (), payload))
    ∧ (∀ p, (∃ what, modem.ReadMessage.result p = (.error (.runtimeError what), []))
      ∨ ∃ payload c d rest, modem.ReadMessage.result p = (.ok (), payload)
        ∧ EchoThen p (frame payload [c, d] rest) ∧ payload.length < 65536
        ∧ (payload ≠ [] → modem.checksum payload = [c, d]))
    ∧ ∀ p payload c d rest, payload.length < 65536 → EchoThen p (frame payload [c, d] rest) →
      payload ≠ [] → modem.checksum payload ≠ [c, d] →
      ∃ what, modem.ReadMessage.result p = (.error (.runtimeError what), []) := by
  refine ⟨?_, ?_, ?_⟩
  · intro payload rest hlow hhigh
    refine ⟨fun p hp hready => writeMessage_sent hopen hp hready hlow hhigh, ?_⟩
    intro p hp hecho
    obtain ⟨c, d, hcd⟩ := checksum_pair modem payload
    rw [hcd] at hecho
    rw [readMessage_eq hopen hp hecho, received_frame modem (by omega), if_neg]
    rintro ⟨-, hdiffer⟩
    exact hdiffer hcd
  · intro p
    rcases readMessage_cases modem p with hthrown | ⟨stream, hecho, hresult⟩
    · exact .inl hthrown
    · rw [hresult]
      rcases received_cases modem stream with hthrown | ⟨payload, c, d, rest, hok, rfl, hlen, hsum⟩
      · exact .inl hthrown
      · exact .inr ⟨payload, c, d, rest, hok, hecho, hlen, hsum⟩
  · intro p payload c d rest hlen hecho hne hdiffer
    rcases readMessage_cases modem p with hthrown | ⟨stream, hecho', hresult⟩
    · exact hthrown
    · have hstream : stream = frame payload [c, d] rest := hecho'.stream.symm.trans hecho.stream
      rw [hresult, hstream, received_frame modem hlen, if_pos ⟨hne, hdiffer⟩]
      exact ⟨_, rfl⟩

/-- Two bytes above `7F` on an x86 host. -/
theorem writeMessage_readMessage_sample :
    let p : Port := {
      incoming := [ascii "AT+SBDRB\r", frame [0xFF, 0x80] (x86.checksum [0xFF, 0x80]) (ascii "OK\r\n")]
      bound := by decide }
    x86.ReadMessage.result p = (.ok (), [0xFF, 0x80]) := by
  intro p
  refine ((writeMessage_readMessage x86 rfl).1 [0xFF, 0x80] (ascii "OK\r\n") (by decide)
    (by decide)).2 p (fun _ => rfl) ?_
  have hecho : EchoThen p _ := @echoThen_cons p (ascii "AT+SBDRB\r") _ rfl (by decide)
  simpa using hecho

end Modem

end Iridium
