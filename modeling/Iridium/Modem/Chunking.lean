import Iridium.Modem.Transfer

/-!
# Does `ReadMessage` depend on the chunks?

The buffer that the echo is read into is local to that read. What the read brings behind the first
CR goes away with the buffer, and the exact reads that follow start behind it
(`echoThen_drop`). So the frame is read whole when a read ends with the CR, and a reply that comes
in one read is lost (`readMessage_chunking`).
-/

namespace Iridium

open ByteOrder Serial Text

namespace Modem

variable {modem : Modem} {p : Port} {echo rest : List UInt8}

/-- Some read ends with the CR behind the echo. -/
def EndsARead (p : Port) (echo : List UInt8) : Prop :=
  ∃ before behind, p.incoming = before ++ behind ∧ before.flatten = echo ++ [cr]

/-- How many bytes the read that brings the CR behind the echo brings behind that. -/
def overshoot (p : Port) (echo : List UInt8) : Nat :=
  (gather (ascii "\r") [] p.incoming).1.length - (echo ++ [cr]).length

theorem echo_found (hstream : p.stream = echo ++ cr :: rest) :
    ((readUntil (ascii "\r") []).result p).1 = true := by
  apply readUntil_found
  exact ⟨echo, rest, by rw [hstream]; simp [ascii, cr]⟩

/-- What is in the buffer when the echo has been read. -/
theorem gather_echo (hecho : cr ∉ echo) (hstream : p.stream = echo ++ cr :: rest) :
    ∃ lost, (gather (ascii "\r") [] p.incoming).1 = echo ++ cr :: lost
      ∧ lost ++ (gather (ascii "\r") [] p.incoming).2.flatten = rest
      ∧ overshoot p echo = lost.length := by
  have hfound : ascii "\r" <:+: (gather (ascii "\r") [] p.incoming).1 :=
    readUntil_found_iff.mp (echo_found hstream)
  have happend := gather_append (ascii "\r") [] p.incoming
  obtain ⟨lost, hbuf, hrest⟩ :=
    split_at_first hecho (hfound.subset (by decide)) (happend.trans hstream)
  refine ⟨lost, hbuf, hrest, ?_⟩
  rw [overshoot, hbuf]
  simp only [List.length_append, List.length_cons, List.length_nil]
  omega

/-- The frame is read from behind what came with the CR. -/
theorem echoThen_drop (hecho : cr ∉ echo) (hstream : p.stream = echo ++ cr :: rest) :
    EchoThen p (rest.drop (overshoot p echo)) := by
  obtain ⟨lost, -, hrest, hovershoot⟩ := gather_echo hecho hstream
  refine ⟨echo_found hstream, ?_⟩
  show (gather (ascii "\r") [] p.incoming).2.flatten = _
  rw [hovershoot, ← hrest, List.drop_left]

theorem overshoot_eq_zero_iff (hecho : cr ∉ echo) (hstream : p.stream = echo ++ cr :: rest) :
    overshoot p echo = 0 ↔ EndsARead p echo := by
  obtain ⟨lost, hbuf, -, hovershoot⟩ := gather_echo hecho hstream
  obtain ⟨taken, htaken, hflatten, hlast⟩ := gather_split (ascii "\r") [] p.incoming
  rw [List.nil_append, hbuf] at hflatten
  rw [hovershoot, List.length_eq_zero_iff]
  constructor
  · rintro rfl
    exact ⟨taken, _, htaken, hflatten.symm⟩
  · rintro ⟨before, behind, hsplit, hbefore⟩
    -- no chunk is taken once the CR is there
    have hle : taken <+: before := by
      rcases List.prefix_or_prefix_of_prefix ⟨_, htaken.symm⟩ ⟨behind, hsplit.symm⟩ with h | h
      · exact h
      · obtain ⟨more, rfl⟩ := h
        rcases List.eq_nil_or_concat more with rfl | ⟨init, c, rfl⟩
        · simp
        · refine absurd ?_ (hlast (before ++ init) c (by simp))
          refine ⟨echo, init.flatten, ?_⟩
          rw [List.flatten_append, hbefore]
          simp [ascii, cr]
    obtain ⟨more, rfl⟩ := hle
    rw [List.flatten_append, ← hflatten, List.append_assoc, List.append_cancel_left_eq] at hbefore
    exact (List.append_eq_nil_iff.mp (List.cons.inj hbefore).2).1

/-! ## A reply -/

/-- An echo or an empty line up to its CR, a frame, and a line that ends in `OK`. -/
def reply (echo payload : List UInt8) (c d : UInt8) (line : List UInt8) : List UInt8 :=
  echo ++ cr :: frame payload [c, d] (line ++ ascii "OK\r\n")

/-- What a frame says. -/
def outcome (modem : Modem) (payload : List UInt8) (c d : UInt8) :
    Except Thrown Unit × List UInt8 :=
  if payload ≠ [] ∧ modem.checksum payload ≠ [c, d] then
    (.error (.runtimeError "CRC check error"), [])
  else (.ok (), payload)

/-- **Whether a reply is read depends on its chunks.** It is when the read that brings the first CR
ends with it. In any case the outcome is read from the bytes behind those that came with the CR.
So there are always chunks for which the reply is lost. -/
theorem readMessage_chunking (modem : Modem) (hopen : modem.isOpen = true)
    (echo payload line : List UInt8) (c d : UInt8) (hecho : cr ∉ echo)
    (hlen : payload.length < 65536) (p : Port) (hp : p.Accepts)
    (hstream : p.stream = reply echo payload c d line) :
    (EndsARead p echo → modem.ReadMessage.result p = modem.outcome payload c d)
    ∧ (modem.ReadMessage.result p = modem.outcome payload c d
      ↔ modem.received ((frame payload [c, d] (line ++ ascii "OK\r\n")).drop (overshoot p echo))
        = modem.outcome payload c d)
    ∧ ¬ ∀ q : Port, q.Accepts → q.stream = p.stream →
      modem.ReadMessage.result q = modem.outcome payload c d := by
  have hread : ∀ q : Port, q.Accepts → q.stream = p.stream → modem.ReadMessage.result q
      = modem.received
        ((frame payload [c, d] (line ++ ascii "OK\r\n")).drop (overshoot q echo)) := by
    intro q hq hsame
    exact readMessage_eq hopen hq (echoThen_drop hecho (hsame.trans hstream))
  refine ⟨?_, by rw [hread p hp rfl], ?_⟩
  · intro hends
    rw [hread p hp rfl, (overshoot_eq_zero_iff hecho hstream).mpr hends, List.drop_zero,
      received_frame modem hlen, outcome]
  · intro hall
    have hcr : ascii "\r" <:+: p.stream :=
      ⟨echo, _, by rw [hstream, reply]; exact List.append_assoc _ _ _⟩
    have hone : EchoThen p.inOneRead [] := @echoThen_cons p.inOneRead p.stream [] rfl hcr
    have hlost : modem.ReadMessage.result p.inOneRead
        = (.error (.runtimeError "message length receive error"), []) :=
      readMessage_eq (p := p.inOneRead) hopen hp hone
    have hresult := hlost.symm.trans (hall p.inOneRead hp p.stream_inOneRead)
    rw [outcome] at hresult
    split at hresult
    · simp at hresult
    · simp at hresult

/-- A reply with the byte `41`. -/
def shortReply : List UInt8 := reply [] [0x41] 0x00 0x41 []

/-- It comes in a read that ends with the CR, and another one. -/
def apart : Port where
  incoming := [ascii "\r", frame [0x41] [0x00, 0x41] (ascii "OK\r\n")]
  bound := by decide

theorem readMessage_chunking_apart : x86.ReadMessage.result apart = x86.outcome [0x41] 0x00 0x41 :=
  (readMessage_chunking x86 rfl [] [0x41] [] 0x00 0x41 (by decide) (by decide) apart (fun _ => rfl)
    (by decide)).1 ⟨[ascii "\r"], _, rfl, rfl⟩

/-- Apart it gives the byte, in one read it makes `ReadMessage` throw. -/
theorem readMessage_chunking_sample :
    apart.stream = shortReply ∧ apart.inOneRead.stream = shortReply
      ∧ x86.ReadMessage.result apart = (.ok (), [0x41])
      ∧ x86.ReadMessage.result apart.inOneRead
        = (.error (.runtimeError "message length receive error"), []) := by
  refine ⟨by decide, by decide, by decide +kernel, by decide +kernel⟩

end Modem

end Iridium
