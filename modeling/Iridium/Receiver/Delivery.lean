import Iridium.Receiver.Sessions
import Iridium.SbdDirectIp.MoDecoding

/-!
# Delivery

A packet with a mobile originated message reaches the application as it was sent, however its bytes
are cut and whatever other connections there are: the session signals the message, once, and nothing
else (`packet_delivered`).
-/

namespace Iridium

open ByteOrder SbdDirectIp IncomingSbdSession

namespace SbdReceiver

variable {past : List UInt8 → Memory} {here : Nat} {w : SbdReceiver} {labels : List Label}

/-! ## One packet and nothing else -/

/-- A message that fills the buffer leaves no bytes to complain about. -/
theorem takeMessage_single {expired : Bool} {self : IncomingSbdSession}
    (hle : self.inBuf.length ≤ self.messageLength.toNat) :
    (takeMessage past here expired self).2.length ≤ 1 := by
  have hemit : ∀ event, (emit expired event).length ≤ 1 := by
    intro event
    unfold emit
    split <;> simp
  unfold takeMessage
  split
  · exact Nat.zero_le 1
  · dsimp only
    split
    · exact hemit _
    · split
      · exact hemit _
      · have hleft : ¬ 0 < (self.inBuf.drop self.messageLength.toNat).length := by
          rw [List.length_drop]
          omega
        rw [if_neg hleft, List.append_nil]
        exact hemit _

/-- A read up to the end of the packet signals once at most. -/
theorem onRead_single {r c : List UInt8} (hnonzero : Nonzero (r ++ c))
    (hle : 3 ≤ (r ++ c).length → (r ++ c).length ≤ 3 + lengthField (r ++ c)) :
    (onRead past here (received r) ⟨false, .ok c⟩).2.length ≤ 1 := by
  by_cases hstill : (r ++ c).length < 3
  · have hshort : r.length < 3 := by
      rw [List.length_append] at hstill
      omega
    rw [received, if_pos hshort, onRead_short past here hstill]
    exact Nat.zero_le 1
  have hlen : 3 ≤ (r ++ c).length := by omega
  have hwhole := hle hlen
  by_cases hshort : r.length < 3
  · rw [received, if_pos hshort, onRead_header past here hlen]
    split
    · exact Nat.le_refl 1
    · apply takeMessage_single
      rw [received_of_long hlen, be16_lengthField hlen, List.length_drop]
      omega
  · have hlong : 3 ≤ r.length := by omega
    have hfield := be16_lengthField hlong
    have hsame := @lengthField_append r c hlong
    have hcond : ¬ (MessageHeader.size ≤ (r.drop 3 ++ c).length ∧ be16 (slice r 1 2) = 0) := by
      rintro ⟨-, hzero⟩
      apply hnonzero hlen
      rw [hsame, ← hfield, hzero]
      rfl
    rw [received_of_long hlong, onRead]
    dsimp only
    rw [if_neg hcond]
    apply takeMessage_single
    show (r.drop 3 ++ c).length ≤ _
    rw [List.length_append] at hwhole
    rw [hfield, List.length_append, List.length_drop]
    omega

/-- A session on a packet and nothing else signals once at most. -/
theorem length_run_packet (eof : String) {s : List UInt8} (hne : lengthField s ≠ 0)
    (hlen : s.length = 3 + lengthField s) (chunks : List (List UInt8)) (r : List UInt8)
    (hstream : r ++ chunks.flatten = s) (hopen : judgement past here r = none) :
    (run past here (received r) (streamReads eof chunks)).length ≤ 1 := by
  -- as in `Tracks.run`: what is read is taken over into the bytes received
  induction chunks generalizing r with
  | nil => exact Nat.le_refl 1
  | cons c cs ih =>
      rw [List.flatten_cons, ← List.append_assoc] at hstream
      have hfield : 3 ≤ (r ++ c).length → lengthField (r ++ c) = lengthField s := by
        intro hlong
        rw [← hstream, lengthField_append hlong]
      have hnonzero : Nonzero (r ++ c) := fun hlong => (hfield hlong).symm ▸ hne
      have hsingle := @onRead_single past here r c hnonzero (by
        intro hlong
        rw [hfield hlong, ← hlen, ← hstream]
        exact (List.prefix_append _ _).length_le)
      unfold streamReads at ih ⊢
      rw [List.map_cons, List.cons_append, run]
      rcases onRead_received past here hnonzero hopen with ⟨event, rest, -, hread⟩ | ⟨hnone, hread⟩
      · rw [hread] at hsingle ⊢
        exact hsingle
      · rw [hread]
        exact ih (r ++ c) hstream hnone

/-! ## What a packet is judged -/

/-- Headers, payloads and confirmations in any order, with at least one header and one payload, for
which the length field has room. -/
structure WellFormed (es : List WireElement) : Prop where
  kinds : ∀ e ∈ es, e.kind.IsPlainMo
  size : (wire es).length ≤ 65535
  header : ∃ e ∈ es, e.kind = .moHeader
  payload : ∃ e ∈ es, e.kind = .moPayload

/-- The packet of a message. -/
def moPacket (es : List WireElement) : List UInt8 :=
  sbdProtoNumber :: beBytes 2 (wire es).length ++ wire es

variable {es : List WireElement}

theorem WellFormed.ne_nil (h : WellFormed es) : wire es ≠ [] := by
  obtain ⟨e, he, -⟩ := h.header
  obtain ⟨before, after, rfl⟩ := List.append_of_mem he
  simp [wire, Tlv.encodeAll, Tlv.Frame.encode]

theorem lengthField_moPacket (h : WellFormed es) : lengthField (moPacket es) = (wire es).length := by
  have hslice : slice (moPacket es) 1 2 = beBytes 2 (wire es).length := by
    simp [moPacket, slice]
  have hsize := h.size
  rw [lengthField, hslice, beNat_beBytes]
  exact Nat.mod_eq_of_lt (by omega)

theorem length_moPacket (h : WellFormed es) :
    (moPacket es).length = 3 + lengthField (moPacket es) := by
  rw [lengthField_moPacket h]
  simp [moPacket]
  omega

/-- What the application gets: the elements that were sent, the IMEI of the first header and the
content of the first payload. -/
structure Decoded (here : Nat) (es : List WireElement) (m : MoMessage) : Prop where
  elements : m.elements = es.map WireElement.decode
  imei : ∀ vectors, m.imei here vectors = (first .moHeader es).map WireElement.imei
  payload : ∀ vectors, m.payload here vectors = (first .moPayload es).map WireElement.content

theorem judge_wire (h : WellFormed es) :
    ∃ m, judge past here (wire es) = .onMessage m ∧ Decoded here es m := by
  obtain ⟨ps, hps, hbytes, hdecode⟩ := exists_pieces fun e he => (h.kinds e he).ne_location
  have hheader : ∃ p ∈ ps, p.kind = .moHeader := by
    rw [← exists_kind_elementsOf, hps]
    exact h.header
  have hpayload : ∃ p ∈ ps, p.kind = .moPayload := by
    rw [← exists_kind_elementsOf, hps]
    exact h.payload
  have hparses : Parses (Memory.ofBuffer (wire es) (past (wire es))) (wire es).length 0 ps none := by
    have hall := parses_bytesAll ps (past (wire es))
    rwa [hbytes] at hall
  have hcategory : (Codec.messageCategory (wire es).length).result
      (Memory.ofBuffer (wire es) (past (wire es))) = .moMessage := by
    apply (messageCategory_wire (by decide) es _).mpr
    refine ⟨?_, fun e he => (h.kinds e he).idCategory⟩
    rintro rfl
    exact h.ne_nil rfl
  have hok := (@parseMo_ok_iff _ here _ (MoMessage.init here) _ _ h.size hparses).mpr
    ⟨rfl, hheader, hpayload⟩
  have hmessage := parseMo_message h.size hparses hok
  refine ⟨MoMessage.ofElements here (ps.map Piece.decode), ?_, ?_, ?_, ?_⟩
  · unfold judge
    dsimp only
    rw [hcategory, if_neg (not_not_intro rfl)]
    split
    · next hthrown =>
        rw [hthrown] at hok
        cases hok
    · next message hparsed =>
        rw [hparsed] at hmessage
        rw [← hmessage]
  · rw [← hdecode]
    rfl
  · intro vectors
    rw [imei_found vectors hheader, hps]
  · intro vectors
    rw [payload_found vectors hpayload, hps]

theorem firstEvent_moPacket (h : WellFormed es) (eof : String) :
    firstEvent past here eof (moPacket es) = judge past here (wire es) := by
  have hlen := length_moPacket h
  have hbody : slice (moPacket es) 3 (lengthField (moPacket es)) = wire es := by
    rw [lengthField_moPacket h]
    simp [moPacket, slice]
  have hproto : (moPacket es).headD 0 = 1 := rfl
  rw [firstEvent, if_neg (by omega), if_neg (not_not_intro hproto), if_neg (by omega), hbody]

/-! ## Delivery -/

/-- **A packet is delivered, once and with nothing else.** Whatever else the receiver does, a session
whose connection delivers the packet of a well-formed message has signalled, when it has ended, this
message and no error. -/
theorem packet_delivered (h : (system past here).Run (fun _ _ => True) {} labels w) (i : Nat)
    (es : List WireElement) (hes : WellFormed es) (eof : String) (chunks : List (List UInt8))
    (hchunks : chunks.flatten = moPacket es) (hreads : reads labels i <+: streamReads eof chunks)
    (hended : w.Ended i) :
    ∃ m, w.signals i = [.onMessage m] ∧ Decoded here es m := by
  have hne : lengthField (moPacket es) ≠ 0 := by
    rw [lengthField_moPacket hes]
    exact (List.length_pos_iff.mpr hes.ne_nil).ne'
  obtain ⟨m, hm, hdecoded⟩ := @judge_wire past here es hes
  have hfirst := head?_run_of_stream past here eof (fun _ => hne) chunks hchunks
  have hsingle := @length_run_packet past here eof (moPacket es) hne (length_moPacket hes) chunks []
    hchunks rfl
  rw [firstEvent_moPacket hes, hm] at hfirst
  refine ⟨m, ?_, hdecoded⟩
  rw [signals_of_stream h hreads hended]
  change (run past here {} (streamReads eof chunks)).length ≤ 1 at hsingle
  cases hrun : run past here {} (streamReads eof chunks) with
  | nil =>
      rw [hrun] at hfirst
      cases hfirst
  | cons event events =>
      rw [hrun] at hfirst hsingle
      obtain rfl : event = .onMessage m := Option.some.inj hfirst
      have hnil : events = [] := by
        apply List.length_eq_zero_iff.mp
        rw [List.length_cons] at hsingle
        omega
      rw [hnil]

instance (w : SbdReceiver) (i : Nat) : Decidable (w.Ended i) :=
  inferInstanceAs (Decidable (_ = _))

/-- Two connections at a time. The packet of the first one comes in two pieces, the other one sends
a wrong protocol number in between, and the receiver is stopped. -/
def twoConnections : List Label :=
  let packet := moPacket [sampleHeader, samplePayload]
  [.start {}, .accepted 0 .connected, .read 0 (.ok (packet.take 20)), .accepted 0 .connected,
    .read 1 (.ok [9, 9, 9]), .stop false none, .read 0 (.ok (packet.drop 20)),
    .accepted 0 .aborted]

theorem packet_delivered_sample :
    ∃ w m, (system (fun _ _ => 0) 0).Run (fun _ _ => True) {} twoConnections w
      ∧ w.signals 0 = [.onMessage m] ∧ m.payload 0 (fun _ => []) = some [7] := by
  obtain ⟨w, hrun, hended⟩ := @System.exists_run_of_exec _ _ (system (fun _ _ => 0) 0)
    (fun _ _ => True) _ {} twoConnections (fun w => w.Ended 0) _ (by decide +kernel)
  obtain ⟨m, hsignals, hdecoded⟩ := packet_delivered hrun 0 [sampleHeader, samplePayload]
    ⟨by decide, by decide, by decide, by decide⟩ "End of file"
    [(moPacket [sampleHeader, samplePayload]).take 20,
      (moPacket [sampleHeader, samplePayload]).drop 20]
    (by decide) (by decide) hended
  exact ⟨w, m, hrun, hsignals, hdecoded.payload _⟩

end SbdReceiver

end Iridium
