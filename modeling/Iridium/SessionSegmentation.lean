import Iridium.IncomingSbdSession
import Iridium.SbdDirectIp.Packet
import Iridium.Lib.Segmentation

/-!
# The receiving session and the segmentation of its stream

TCP may deliver a stream in any pieces. What a session signals first is a function of the stream
alone, `firstEvent`, and it hands over one message at most (`session_of_stream`).

The state of a session that reads on is `received r`, where `r` is what it has received so far;
its verdict is `judgement r`, which later bytes do not change. So the session is a `Consumer` that
tracks its stream.
-/

namespace Iridium

open ByteOrder SbdDirectIp

def ReceiverEvent.isMessage : ReceiverEvent → Bool
  | .onMessage _ => true
  | .onError _ => false

namespace IncomingSbdSession

variable (past : List UInt8 → Memory) (here : Nat)

/-! ## The reference -/

/-- What becomes of the bytes of a message. -/
def judge (buf : List UInt8) : ReceiverEvent :=
  let mem := Memory.ofBuffer buf (past buf)
  let category := (Codec.messageCategory buf.length).result mem
  if category ≠ .moMessage then .onError (categoryError category)
  else match (Codec.parseMo here buf.length (MoMessage.init here)).result mem with
    | (.error what, _) => .onError ("message parse error: " ++ what)
    | (.ok (), message) => .onMessage message

/-- What a session signals first, for a whole stream and the text of the error at its end. -/
def firstEvent (eof : String) (s : List UInt8) : ReceiverEvent :=
  if s.length < 3 then .onError eof
  else if s.headD 0 ≠ 1 then
    .onError ("invalid protocol number " ++ toString (s.headD 0).toInt8.toInt)
  else if s.length < 3 + lengthField s then .onError eof
  else judge past here (slice s 3 (lengthField s))

/-! ## The state and the verdict after some bytes -/

/-- The state of a session that has received these bytes and reads on. -/
def received (r : List UInt8) : IncomingSbdSession :=
  if r.length < 3 then { inBuf := r }
  else { inBuf := r.drop 3, messageLength := be16 (slice r 1 2) }

/-- What the session signals on these bytes, if it does. -/
def judgement (r : List UInt8) : Option ReceiverEvent :=
  if r.length < 3 then none
  else if r.headD 0 ≠ 1 then
    some (.onError ("invalid protocol number " ++ toString (r.headD 0).toInt8.toInt))
  else if r.length < 3 + lengthField r then none
  else some (judge past here (slice r 3 (lengthField r)))

theorem firstEvent_eq (eof : String) (s : List UInt8) :
    firstEvent past here eof s = (judgement past here s).getD (.onError eof) := by
  unfold firstEvent judgement
  by_cases hshort : s.length < 3
  · rw [if_pos hshort, if_pos hshort, Option.getD_none]
  · rw [if_neg hshort, if_neg hshort]
    by_cases hproto : s.headD 0 ≠ 1
    · rw [if_pos hproto, if_pos hproto, Option.getD_some]
    · rw [if_neg hproto, if_neg hproto]
      split <;> rfl

section Prefix

variable {r c : List UInt8}

/-- Later bytes do not change a verdict. -/
theorem judgement_append {event : ReceiverEvent} (h : judgement past here r = some event) :
    judgement past here (r ++ c) = some event := by
  unfold judgement at h ⊢
  by_cases hshort : r.length < 3
  · rw [if_pos hshort] at h
    cases h
  · have hlen : 3 ≤ r.length := by omega
    have hshort' : ¬ (r ++ c).length < 3 := by
      rw [List.length_append]
      omega
    rw [if_neg hshort] at h
    rw [if_neg hshort', headD_append hlen, lengthField_append hlen]
    by_cases hproto : r.headD 0 ≠ 1
    · rw [if_pos hproto] at h ⊢
      exact h
    · rw [if_neg hproto] at h ⊢
      by_cases hbody : r.length < 3 + lengthField r
      · rw [if_pos hbody] at h
        cases h
      · rw [if_neg hbody] at h
        have hbody' : ¬ (r ++ c).length < 3 + lengthField r := by
          rw [List.length_append]
          omega
        rw [if_neg hbody', slice_append_left (by omega)]
        exact h

end Prefix

/-! ## One read -/

/-- A session with a whole message in its buffer ends with the judgement on it. -/
theorem takeMessage_whole {self : IncomingSbdSession} (hne : self.messageLength ≠ 0)
    (hlen : self.messageLength.toNat ≤ self.inBuf.length) :
    ∃ rest, takeMessage past here false self
      = (none, judge past here (self.inBuf.take self.messageLength.toNat) :: rest) := by
  have hcond : ¬ (self.messageLength = 0 ∨ self.inBuf.length < self.messageLength.toNat) := by
    rintro (h | h)
    · exact hne h
    · omega
  have htake : (self.inBuf.take self.messageLength.toNat).length = self.messageLength.toNat := by
    rw [List.length_take]
    omega
  unfold takeMessage judge emit
  rw [if_neg hcond, htake]
  dsimp only
  split
  · exact ⟨[], rfl⟩
  · generalize (Codec.parseMo here self.messageLength.toNat (MoMessage.init here)).result
      (Memory.ofBuffer (self.inBuf.take self.messageLength.toNat)
        (past (self.inBuf.take self.messageLength.toNat))) = parsed
    obtain ⟨thrown, message⟩ := parsed
    cases thrown with
    | error what => exact ⟨[], rfl⟩
    | ok => exact ⟨_, rfl⟩

theorem takeMessage_reads_on {expired : Bool} {self : IncomingSbdSession}
    (h : self.messageLength = 0 ∨ self.inBuf.length < self.messageLength.toNat) :
    takeMessage past here expired self = (some self, []) := by
  rw [takeMessage, if_pos h]

/-- The length field is not zero, as soon as the stream has one. -/
def Nonzero (s : List UInt8) : Prop := 3 ≤ s.length → lengthField s ≠ 0

theorem received_of_long {r : List UInt8} (h : 3 ≤ r.length) :
    received r = { inBuf := r.drop 3, messageLength := be16 (slice r 1 2) } := by
  rw [received, if_neg (by omega)]

/-- With the header of a stream behind it, the session judges the message or reads on. -/
theorem takeMessage_received {r : List UInt8} (hlen : 3 ≤ r.length) (hproto : r.headD 0 = 1)
    (hne : lengthField r ≠ 0) :
    (∃ event rest, judgement past here r = some event
      ∧ takeMessage past here false (received r) = (none, event :: rest))
    ∨ (judgement past here r = none
      ∧ takeMessage past here false (received r) = (some (received r), [])) := by
  have hlength := be16_lengthField hlen
  rw [received_of_long hlen]
  have hjudgement : judgement past here r = if r.length < 3 + lengthField r then none
      else some (judge past here (slice r 3 (lengthField r))) := by
    rw [judgement, if_neg (by omega), if_neg (not_not_intro hproto)]
  by_cases hbody : r.length < 3 + lengthField r
  · refine .inr ⟨?_, takeMessage_reads_on past here (.inr ?_)⟩
    · rw [hjudgement, if_pos hbody]
    · show (r.drop 3).length < _
      rw [hlength, List.length_drop]
      omega
  · have hwhole : (be16 (slice r 1 2)).toNat ≤ (r.drop 3).length := by
      rw [hlength, List.length_drop]
      omega
    obtain ⟨rest, htake⟩ := @takeMessage_whole past here
      { inBuf := r.drop 3, messageLength := be16 (slice r 1 2) } (be16_ne_zero hlen hne) hwhole
    refine .inl ⟨_, rest, ?_, htake⟩
    show _ = some (judge past here ((r.drop 3).take (be16 (slice r 1 2)).toNat))
    rw [hjudgement, if_neg hbody, hlength]
    rfl

/-- The read that completes the header. -/
theorem onRead_header {r c : List UInt8} (hlen : 3 ≤ (r ++ c).length) :
    onRead past here { inBuf := r } ⟨false, .ok c⟩ =
      if (r ++ c).headD 0 ≠ 1 then
        (none, [.onError
          ("invalid protocol number " ++ toString ((r ++ c).headD 0).toInt8.toInt)])
      else takeMessage past here false (received (r ++ c)) := by
  obtain ⟨hproto, htext, hfield⟩ := header_of_stream hlen
  rw [onRead]
  dsimp only
  rw [if_pos ⟨hlen, rfl⟩, received_of_long hlen]
  by_cases hbad : (r ++ c).headD 0 ≠ 1
  · rw [if_pos (hproto.mpr hbad), if_pos hbad, htext]
    rfl
  · rw [if_neg (fun hp => hbad (hproto.mp hp)), if_neg hbad, hfield]
    rfl

/-- A read that does not complete it. -/
theorem onRead_short {r c : List UInt8} (hshort : (r ++ c).length < 3) (expired : Bool) :
    onRead past here { inBuf := r } ⟨expired, .ok c⟩ = (some { inBuf := r ++ c }, []) := by
  have hheader : ¬ (MessageHeader.size ≤ (r ++ c).length ∧ (0 : UInt16) = 0) := by
    rintro ⟨h, -⟩
    exact absurd h (by simpa [MessageHeader.size] using hshort)
  rw [onRead]
  dsimp only
  rw [if_neg hheader]
  exact takeMessage_reads_on past here (.inl rfl)

/-- **One read**: the session goes from the bytes received before to those received with it. -/
theorem onRead_received {r c : List UInt8} (hnonzero : Nonzero (r ++ c))
    (hopen : judgement past here r = none) :
    (∃ event rest, judgement past here (r ++ c) = some event
      ∧ onRead past here (received r) ⟨false, .ok c⟩ = (none, event :: rest))
    ∨ (judgement past here (r ++ c) = none
      ∧ onRead past here (received r) ⟨false, .ok c⟩ = (some (received (r ++ c)), [])) := by
  by_cases hshort : r.length < 3
  · have hreceived : received r = { inBuf := r } := by rw [received, if_pos hshort]
    rw [hreceived]
    by_cases hstill : (r ++ c).length < 3
    · -- no header yet
      refine .inr ⟨by rw [judgement, if_pos hstill], ?_⟩
      rw [onRead_short past here hstill, received, if_pos hstill]
    · -- the header is complete with this read
      have hlen : 3 ≤ (r ++ c).length := by omega
      rw [onRead_header past here hlen]
      by_cases hbad : (r ++ c).headD 0 ≠ 1
      · rw [if_pos hbad]
        exact .inl ⟨_, [], by rw [judgement, if_neg hstill, if_pos hbad], rfl⟩
      · rw [if_neg hbad]
        exact takeMessage_received past here hlen (not_not.mp hbad) (hnonzero hlen)
  · -- the header came with an earlier read
    have hlen : 3 ≤ r.length := by omega
    have hlen' : 3 ≤ (r ++ c).length := by
      rw [List.length_append]
      omega
    have hproto : r.headD 0 = 1 := by
      by_contra hbad
      rw [judgement, if_neg hshort, if_pos hbad] at hopen
      cases hopen
    have hne := hnonzero hlen'
    have hcond : ¬ (MessageHeader.size ≤ (r.drop 3 ++ c).length ∧ be16 (slice r 1 2) = 0) := by
      rintro ⟨-, hzero⟩
      rw [lengthField_append hlen] at hne
      exact be16_ne_zero hlen hne hzero
    have hnext : received (r ++ c)
        = { inBuf := r.drop 3 ++ c, messageLength := be16 (slice r 1 2) } := by
      rw [received_of_long hlen', List.drop_append_of_le_length hlen, slice_append_left hlen]
    have h := takeMessage_received past here hlen' (by rw [headD_append hlen, hproto]) hne
    rw [onRead, received_of_long hlen]
    dsimp only
    rw [if_neg hcond, hnext]
    rw [hnext] at h
    exact h

/-! ## Whole sessions -/

/-- The session as a consumer of its stream. Its verdict is the first signal. -/
def consumer (eof : String) : Consumer UInt8 IncomingSbdSession (Option ReceiverEvent) where
  read self c :=
    match onRead past here self ⟨false, .ok c⟩ with
    | (some self, _) => .inl self
    | (none, events) => .inr events.head?
  eof self := (onRead past here self ⟨false, .error eof⟩).2.head?

theorem consumer_tracks (eof : String) {s : List UInt8} (hnonzero : Nonzero s) :
    Consumer.Tracks (consumer past here eof) s [] (fun r self => self = received r)
      (fun r => (judgement past here r).map some) (some (.onError eof)) where
  read r c self _ hprefix hopen hself := by
    subst hself
    have hprefix' : Nonzero (r ++ c) := by
      obtain ⟨rest, hrest⟩ := hprefix
      intro hlen
      have h := hnonzero (by rw [← hrest, List.length_append]; omega)
      rwa [← hrest, lengthField_append hlen] at h
    rw [Option.map_eq_none_iff] at hopen
    rcases onRead_received past here hprefix' hopen with ⟨event, rest, hsome, hread⟩ | ⟨hnone, hread⟩
    · exact .inr ⟨some event, by simp [hsome], by simp [consumer, hread]⟩
    · exact .inl ⟨by simp [hnone], received (r ++ c), by simp [consumer, hread], rfl⟩
  eof self _ _ := rfl
  stable r c b _ _ hverdict := by
    obtain ⟨event, hsome, rfl⟩ := Option.map_eq_some_iff.mp hverdict
    rw [judgement_append past here hsome, Option.map_some]

/-- The reads of a stream that arrives in these chunks and then ends. -/
def streamReads (eof : String) (chunks : List (List UInt8)) : List ReadOutcome :=
  chunks.map (fun c => ⟨false, .ok c⟩) ++ [⟨false, .error eof⟩]

section Signals

variable {self : IncomingSbdSession} {expired : Bool} {read : ReadOutcome}
  {next : Option IncomingSbdSession} {events : List ReceiverEvent}

theorem countP_emit_onError (expired : Bool) (what : String) :
    (emit expired (.onError what)).countP ReceiverEvent.isMessage = 0 := by
  unfold emit
  split <;> rfl

theorem tail_emit (expired : Bool) (event : ReceiverEvent) : (emit expired event).tail = [] := by
  unfold emit
  split <;> rfl

/-- A session that reads on has not signalled anything; one that ends hands over a message with
its first signal only. -/
theorem takeMessage_signals (h : takeMessage past here expired self = (next, events)) :
    (next.isSome → events = []) ∧ events.tail.countP ReceiverEvent.isMessage = 0 := by
  unfold takeMessage at h
  split at h
  · cases h
    exact ⟨fun _ => rfl, rfl⟩
  · dsimp only at h
    split at h
    · cases h
      exact ⟨fun hnext => absurd hnext (by simp), by rw [tail_emit]; rfl⟩
    · split at h
      · cases h
        exact ⟨fun hnext => absurd hnext (by simp), by rw [tail_emit]; rfl⟩
      · cases h
        refine ⟨fun hnext => absurd hnext (by simp), ?_⟩
        -- behind the message there is the error of what is left over, if anything
        split
        · have hleft := countP_emit_onError expired
          cases expired with
          | true => rfl
          | false => exact hleft _
        · rw [List.append_nil, tail_emit]
          rfl

theorem onRead_signals (h : onRead past here self read = (next, events)) :
    (next.isSome → events = []) ∧ events.tail.countP ReceiverEvent.isMessage = 0 := by
  unfold onRead at h
  split at h
  · cases h
    exact ⟨fun hnext => absurd hnext (by simp), by rw [tail_emit]; rfl⟩
  · dsimp only at h
    split at h
    · split at h
      · cases h
        exact ⟨fun hnext => absurd hnext (by simp), by rw [tail_emit]; rfl⟩
      · exact takeMessage_signals past here h
    · exact takeMessage_signals past here h

end Signals

theorem head?_run (eof : String) (self : IncomingSbdSession) (chunks : List (List UInt8)) :
    (run past here self (streamReads eof chunks)).head?
      = (consumer past here eof).run self chunks := by
  induction chunks generalizing self with
  | nil => rfl
  | cons c cs ih =>
      unfold streamReads at ih ⊢
      rw [List.map_cons, List.cons_append, run, Consumer.run]
      rcases hread : onRead past here self ⟨false, .ok c⟩ with ⟨_ | self', events⟩
      · simp [consumer, hread]
      · have hsilent := (onRead_signals past here hread).1 rfl
        simp [consumer, hread, hsilent, ih]

/-- However its reads come out, a session hands over a message with its first signal only. -/
theorem tail_run (self : IncomingSbdSession) (reads : List ReadOutcome) :
    (run past here self reads).tail.countP ReceiverEvent.isMessage = 0 := by
  induction reads generalizing self with
  | nil => rfl
  | cons read reads ih =>
      rw [run]
      rcases hread : onRead past here self read with ⟨_ | self', events⟩
      · exact (onRead_signals past here hread).2
      · rw [(onRead_signals past here hread).1 rfl]
        exact ih self'

theorem countP_run (self : IncomingSbdSession) (reads : List ReadOutcome) :
    (run past here self reads).countP ReceiverEvent.isMessage ≤ 1 := by
  have htail := tail_run past here self reads
  cases hrun : run past here self reads with
  | nil => exact Nat.zero_le 1
  | cons event events =>
      rw [hrun, List.tail_cons] at htail
      rw [List.countP_cons, htail]
      split <;> omega

/-- The message handed over, if any, is the first signal. -/
theorem onMessage_mem_run (self : IncomingSbdSession) (reads : List ReadOutcome)
    (message : MoMessage) :
    .onMessage message ∈ run past here self reads
      ↔ (run past here self reads).head? = some (.onMessage message) := by
  have htail := tail_run past here self reads
  cases hrun : run past here self reads with
  | nil => simp
  | cons event events =>
      rw [hrun, List.tail_cons, List.countP_eq_zero] at htail
      rw [List.head?_cons, Option.some.injEq, List.mem_cons]
      constructor
      · rintro (h | h)
        · exact h.symm
        · exact absurd rfl (htail _ h)
      · intro h
        exact .inl h.symm

/-- The first signal of a session is a function of its stream. -/
theorem head?_run_of_stream (eof : String) {s : List UInt8} (hnonzero : Nonzero s)
    (chunks : List (List UInt8)) (hchunks : chunks.flatten = s) :
    (run past here {} (streamReads eof chunks)).head? = some (firstEvent past here eof s) := by
  have hrun := (consumer_tracks past here eof hnonzero).run chunks [] _ List.prefix_rfl
    (by simpa using hchunks) rfl rfl
  rw [head?_run, firstEvent_eq]
  refine hrun.trans ?_
  cases judgement past here s with
  | none => rfl
  | some event => rfl

/-- **A session does not depend on the segmentation of its stream.** However a stream is cut into
reads, the session signals `firstEvent` first; and whatever its reads are, it hands over one
message at most. -/
theorem session_of_stream (eof : String) (s : List UInt8)
    (hnonzero : 3 ≤ s.length → lengthField s ≠ 0) (chunks : List (List UInt8))
    (hchunks : chunks.flatten = s) :
    (run past here {} (streamReads eof chunks)).head? = some (firstEvent past here eof s)
      ∧ ∀ reads, (run past here {} reads).countP ReceiverEvent.isMessage ≤ 1 := by
  exact ⟨head?_run_of_stream past here eof hnonzero chunks hchunks, countP_run past here {}⟩

/-- A header and a payload, cut inside the packet's header and inside the message, with a byte
too many. -/
def sampleChunks : List (List UInt8) :=
  [[1, 0], [35, 1, 0, 28] ++ List.replicate 20 0x30, List.replicate 8 0x30 ++ [2, 0], [1, 7, 99]]

theorem session_of_stream_sample :
    ((run (fun _ _ => 0) 0 {} (streamReads "End of file" sampleChunks)).head?.map
      ReceiverEvent.isMessage) = some true := by
  rw [(session_of_stream (fun _ _ => 0) 0 "End of file" sampleChunks.flatten (by decide)
    sampleChunks rfl).1]
  decide +kernel

end IncomingSbdSession

end Iridium
