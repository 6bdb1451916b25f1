import Iridium.Modem.Failures
import Iridium.Programs.Sender

/-!
# The sender and a modem that answers

A device that answers every command with a reply of the documented shape, in whatever chunks, and
sends nothing in between. Every function of `Modem` then takes exactly its own reply, so the next one
finds the one that is meant for it. When the program succeeds can be read from the lines of these
replies (`sender_succeeds_iff`).
-/

namespace Iridium

open SbdDirectIp Serial Text Decimal

namespace Modem

variable {modem : Modem} {p : Port} {chunks rest : List (List UInt8)} {line : List UInt8}

/-- The chunks of a reply with this line. -/
structure Reply (chunks : List (List UInt8)) (line : List UInt8) : Prop where
  brings : Brings (ascii "OK\r\n") [] chunks
  content : ∃ echo tail, Echo echo ∧ ascii "OK\r\n" <:+: tail
    ∧ chunks.flatten = echo ++ ascii "\r\n" ++ line ++ ascii "\r\n" ++ tail

/-- What the device is going to send, when it takes all that it is sent. -/
structure Comes (p : Port) (incoming : List (List UInt8)) : Prop where
  accepts : p.Accepts
  incoming : p.incoming = incoming

theorem Comes.sent (hp : Comes p chunks) (bytes : List UInt8) :
    Comes ((write bytes).after p) chunks :=
  ⟨hp.accepts.write, incoming_write.trans hp.incoming⟩

theorem Comes.replied (hp : Comes p (chunks ++ rest)) {delim buf : List UInt8}
    (hbrings : Brings delim buf chunks) :
    (readUntil delim buf).result p = (true, buf ++ chunks.flatten)
      ∧ Comes ((readUntil delim buf).after p) rest := by
  have hgather := hbrings.gather_eq rest
  rw [← hp.incoming] at hgather
  refine ⟨?_, hp.accepts.readUntil, ?_⟩
  · show (decide (delim <:+: (gather delim buf p.incoming).1), (gather delim buf p.incoming).1) = _
    rw [hgather, decide_eq_true hbrings.found]
  · rw [incoming_readUntil, hgather]

theorem Reply.answers (h : Reply chunks line) (hp : Comes p (chunks ++ rest)) :
    ∃ echo, Echo echo ∧ Answers p echo line := by
  obtain ⟨echo, tail, hecho, hok, hcontent⟩ := h.content
  refine ⟨echo, hecho, hp.accepts, tail ++ rest.flatten, ?_,
    hok.trans (List.prefix_append ..).isInfix⟩
  rw [Port.stream, hp.incoming, List.flatten_append, hcontent]
  simp only [List.append_assoc]

/-! ## What is left of the replies -/

theorem Comes.ask (hp : Comes p (chunks ++ rest)) (hopen : modem.isOpen = true)
    (hbrings : Brings (ascii "OK\r\n") [] chunks) (cmd : List UInt8) :
    Comes ((modem.ask cmd).after p) rest := by
  obtain ⟨hread, hrest⟩ := (hp.sent cmd).replied hbrings
  have hafter : (modem.ask cmd).after p
      = (readUntil (ascii "OK\r\n") []).after ((write cmd).after p) := by
    simp [Modem.ask, hopen, hp.accepts.result_write, hread]
  rwa [hafter]

theorem after_query {σ : Type} (cmd : List UInt8) (format : LineFormat σ) (out : σ) :
    (modem.query cmd format out).after p = (modem.ask cmd).after p := by
  rw [query, SerialM.after_bind]
  cases (modem.ask cmd).result p <;> rfl

theorem after_zeroCommand (cmd : List UInt8) :
    (modem.zeroCommand cmd).after p = (modem.ask cmd).after p := by
  rw [zeroCommand, SerialM.after_bind]
  cases (modem.ask cmd).result p <;> rfl

/-- The three reads of `GetSignalQuality` take what one read up to the `OK` would. -/
theorem Comes.getSignalQuality (hp : Comes p (chunks ++ rest)) (hopen : modem.isOpen = true)
    (hline : Answer line) (herror : ¬ ascii "ERROR" <:+: line) (h : Reply chunks line) :
    Comes ((modem.GetSignalQuality false).after p) rest := by
  obtain ⟨echo, hecho, hanswers⟩ := h.answers hp
  obtain ⟨tail, hstream, hok⟩ := hanswers.lines
  have hdelim : ascii "\r\n" = ascii "\r" ++ [lf] := by decide
  have hcr : lf ∉ ascii "\r" := by decide
  have hfirst := lf_notMem_concat hecho.oneLine
  have hsecond := lf_notMem_concat hline.oneLine
  have hgood := find_npos (not_infix_concat hecho.notError)
  have hgood' := find_npos (not_infix_concat herror)
  have hend : ∀ l rest : List UInt8, ascii "\r" ++ [lf] <:+: (l ++ [cr]) ++ lf :: rest :=
    fun l rest => ⟨l, rest, by simp [ascii, cr]⟩
  have hends := hend echo ((line ++ [cr]) ++ lf :: tail)
  have hends' := hend line tail
  have hskip : ∀ l, lf ∉ l → ¬ ascii "OK\r" <:+ l → ∀ x, ascii "OK\r\n" <:+: (l ++ [lf]) ++ x →
      ascii "OK\r\n" <:+: x := by
    intro l hl hnot x hin
    have hok : ascii "OK\r\n" = ascii "OK\r" ++ [lf] := by decide
    rw [hok, List.append_assoc, List.singleton_append] at hin
    rcases infix_line (by decide) hl hin with hsuffix | hin
    · exact absurd hsuffix hnot
    · rwa [hok]
  have hskip₁ := hskip _ hfirst (not_suffix_concat hecho.notOk)
  have hskip₂ := hskip _ hsecond (not_suffix_concat hline.notOk)
  have hpart : ∀ x, ascii "OK\r\n" <:+: x → ascii "\r\n" <:+: x :=
    fun x hin => (by decide : ascii "\r\n" <:+: ascii "OK\r\n").trans hin
  generalize echo ++ [cr] = first at *
  generalize line ++ [cr] = second at *
  have hw := hp.sent (ascii "AT+CSQ?\r")
  have haccepts : (write (ascii "AT+CSQ?\r")).result p = true := hp.accepts.result_write
  rw [← @stream_write p (ascii "AT+CSQ?\r")] at hstream
  generalize hq : (write (ascii "AT+CSQ?\r")).after p = q at hw hstream
  obtain ⟨r, hread, hr, -⟩ := readUntil_line hcr hfirst (List.nil_append _ ▸ hstream)
    (by rw [List.nil_append, hstream]; exact hends)
  obtain ⟨r', hread', hr', -⟩ := readUntil_line hcr hsecond hr (by rw [hr]; exact hends')
  rw [← hdelim] at hread hr hread' hr'
  have hfound := readUntil_found (hr' ▸ hok)
  have hafter : (modem.GetSignalQuality false).after p
      = (readUntil (ascii "OK\r\n") r').after ((readUntil (ascii "\r\n") r).after
        ((readUntil (ascii "\r\n") []).after q)) := by
    simp [Modem.GetSignalQuality, hopen, haccepts, hq, hread, hread', hfound,
      getline_append hfirst, getline_append hsecond, hgood, hgood']
  have htaken : (gather (ascii "\r\n") [] q.incoming).1 = first ++ [lf] ++ r := by
    rw [List.append_assoc]
    exact congrArg (·.2) hread
  have htaken' : (gather (ascii "\r\n") r (gather (ascii "\r\n") [] q.incoming).2).1
      = second ++ [lf] ++ r' := by
    rw [List.append_assoc]
    exact congrArg (·.2) hread'
  have hrest : (gather (ascii "OK\r\n") [] q.incoming).2 = rest := by
    rw [hw.incoming, h.brings.gather_eq]
  rw [hafter]
  refine ⟨hw.accepts.readUntil.readUntil.readUntil, ?_⟩
  rw [incoming_readUntil, incoming_readUntil, incoming_readUntil, ← hrest,
    ← gather_stage hpart [], htaken, gather_skip hskip₁, ← gather_stage hpart r, htaken',
    gather_skip hskip₂]

/-- A message is stored in two replies: that the modem is ready, and the result. -/
theorem Comes.writeMessage {ready : List (List UInt8)} (hp : Comes p (ready ++ (chunks ++ rest)))
    (hopen : modem.isOpen = true) (hready : Brings (ascii "READY\r\n") [] ready)
    (hbrings : Brings (ascii "OK\r\n") [] chunks) {payload : List UInt8}
    (hlow : 1 ≤ payload.length) (hhigh : payload.length ≤ 1960) :
    ((readUntil (ascii "READY\r\n") []).result p).1 = true
      ∧ Comes ((readUntil (ascii "READY\r\n") []).after p) (chunks ++ rest)
      ∧ Comes ((modem.WriteMessage payload).after p) rest := by
  obtain ⟨hannounced, hwaits⟩ := hp.replied hready
  refine ⟨by rw [hannounced], hwaits, ?_⟩
  have hrange := payload_inRange hlow hhigh
  obtain ⟨hread, hcomes⟩ := (hp.sent (announcement payload)).replied hready
  have hsent := (hcomes.sent payload).sent (modem.checksum payload)
  have hafter : (modem.WriteMessage payload).after p
      = (readUntil (ascii "OK\r\n") []).after ((write (modem.checksum payload)).after
        ((write payload).after ((readUntil (ascii "READY\r\n") []).after
          ((write (announcement payload)).after p)))) := by
    simp [WriteMessage, hopen, hrange, hp.accepts.result_write, hread,
      hcomes.accepts.result_write, hcomes.accepts.write.result_write]
  rw [hafter]
  exact (hsent.replied hbrings).2

/-! ## When the program succeeds -/

theorem numberReturned_eq (hboost : modem.boost.Documented) (out : UInt8) (n : Numeral) :
    numberReturned modem out n = if InUInt8 n.value then (.ok true, UInt8.ofInt n.value)
      else if InInt n.value then (.error .badNumericCast, out) else (.ok false, out) := by
  rw [numberReturned, hboost.convert_uint8]
  by_cases hbyte : InUInt8 n.value
  · simp [hbyte]
  · by_cases hint : InInt n.value <;> simp [hbyte, hint]

/-- A number that fits keeps its value. -/
theorem ofInt_eq_iff {v : Int} (hbyte : InUInt8 v) {k : Nat} (hk : k < 256) :
    UInt8.ofInt v = UInt8.ofNat k ↔ v = k := by
  obtain ⟨hlow, hhigh⟩ := hbyte
  have hmod : v % 2 ^ 8 = v := Int.emod_eq_of_lt hlow hhigh
  rw [UInt8.ofInt, hmod, ← UInt8.toNat_inj, UInt8.toNat_ofNat', UInt8.toNat_ofNat',
    Nat.mod_eq_of_lt (by omega), Nat.mod_eq_of_lt hk]
  omega

theorem transfer_iff (hopen : modem.isOpen = true) (hboost : modem.boost.Documented)
    {status : SbdSessionStatus} (hp : Comes p (chunks ++ rest)) (h : Reply chunks status.line) :
    modem.transfer.result p = .success ↔ status.moStatus < 5 := by
  obtain ⟨echo, hecho, hanswers⟩ := h.answers hp
  have hreturned : ((modem.DoSbdSession false).result p).returned = .ok status := by
    rw [doSbdSession_line hopen hecho hanswers]
    simp [sbdixFormat, sbdixItems, convertAll, convert_printed_uint8 hboost,
      convert_printed_uint16 hboost, Field.mark, sessionStatus]
  simp only [transfer, SerialM.result_bind, hreturned, SerialM.result_pure]
  split
  · next hlow => exact iff_of_true rfl hlow
  · next hlow => exact iff_of_false (by simp) hlow

theorem resultCode_eq (hboost : modem.boost.Documented) (n : Numeral) :
    resultCode (some (convertAll modem.boost resultFormat.fields [{ number := n }] 0).1)
        (convertAll modem.boost resultFormat.fields [{ number := n }] 0).2
      = if InUInt8 n.value then .ok (UInt8.ofInt n.value)
        else if InInt n.value then .error .badNumericCast else .ok 4 := by
  simp only [resultFormat, numberLine, convertAll, hboost.convert_uint8]
  by_cases hbyte : InUInt8 n.value
  · simp [hbyte, resultCode]
  · by_cases hint : InInt n.value <;> simp [hbyte, hint, resultCode]

/-- A payload of a length that the modem takes. -/
def Fits (payload : List UInt8) : Prop := 1 ≤ payload.length ∧ payload.length ≤ 1960

instance : DecidablePred Fits := fun _ => inferInstanceAs (Decidable (_ ∧ _))

theorem writeMessage_of_not_fits (hopen : modem.isOpen = true) {payload : List UInt8}
    (h : ¬ Fits payload) (p : Port) :
    ((modem.WriteMessage payload).result p).returned = .error (.runtimeError "bad payload length") := by
  have hrange : payload.length = 0 ∨ IEMoPayload.maxPayloadLength < payload.length := by
    rw [Fits] at h
    rw [IEMoPayload.maxPayloadLength]
    omega
  simp only [WriteMessage, hopen, Bool.not_true, Bool.false_eq_true, if_false, if_pos hrange]
  rfl

theorem store_iff (hopen : modem.isOpen = true) (hboost : modem.boost.Documented)
    {payload : List UInt8} {ready session : List (List UInt8)} {code : Numeral}
    {status : SbdSessionStatus} (hp : Comes p (ready ++ (chunks ++ (session ++ rest))))
    (hready : Brings (ascii "READY\r\n") [] ready) (hcode : Reply chunks code.text)
    (hstatus : Reply session status.line) :
    (modem.store payload).result p = .success
      ↔ Fits payload ∧ code.value = 0 ∧ status.moStatus < 5 := by
  by_cases hfits : Fits payload
  · obtain ⟨hlow, hhigh⟩ := id hfits
    obtain ⟨hannounced, hcomes, hafter⟩ := hp.writeMessage hopen hready hcode.brings hlow hhigh
    obtain ⟨echo, hecho, hanswers⟩ := hcode.answers hcomes
    have hreturned := writeMessage_line hopen hecho hlow hhigh ⟨hannounced, hanswers⟩
    rw [resultCode_eq hboost] at hreturned
    simp only [store, SerialM.result_bind, hreturned]
    by_cases hbyte : InUInt8 code.value
    · have hzero : UInt8.ofInt code.value = 0 ↔ code.value = 0 := ofInt_eq_iff hbyte (by decide)
      rw [if_pos hbyte]
      dsimp only
      by_cases hcode : code.value = 0
      · rw [if_neg (not_not.mpr (hzero.mpr hcode)), transfer_iff hopen hboost hafter hstatus]
        exact ⟨fun h => ⟨hfits, hcode, h⟩, fun h => h.2.2⟩
      · rw [if_pos fun h => hcode (hzero.mp h)]
        exact iff_of_false (by simp) fun h => hcode h.2.1
    · have hne : code.value ≠ 0 := by
        intro hzero
        rw [hzero] at hbyte
        exact hbyte (by decide)
      rw [if_neg hbyte]
      by_cases hint : InInt code.value
      · rw [if_pos hint]
        exact iff_of_false (by simp) fun h => hne h.2.1
      · rw [if_neg hint]
        exact iff_of_false (by simp) fun h => hne h.2.1
  · simp only [store, SerialM.result_bind, writeMessage_of_not_fits hopen hfits p]
    exact iff_of_false (by simp) fun h => hfits h.1

end Modem

open Modem

/-- What a modem sends while the program runs, reply by reply, and the values in it. -/
structure Conversation where
  opening : List (List UInt8)
  registration : List (List UInt8)
  signal : List (List UInt8)
  clearing : List (List UInt8)
  ready : List (List UInt8)
  storing : List (List UInt8)
  session : List (List UInt8)
  n : Numeral
  netstatus : Numeral
  quality : Numeral
  cleared : List UInt8
  code : Numeral
  status : SbdSessionStatus
  brings_opening : Brings (ascii "OK\r\n") [] opening
  reply_registration : Reply registration (cregLine n netstatus)
  reply_signal : Reply signal (csqLine quality)
  reply_clearing : Reply clearing cleared
  answer_cleared : Answer cleared
  brings_ready : Brings (ascii "READY\r\n") [] ready
  reply_storing : Reply storing code.text
  reply_session : Reply session status.line

namespace Conversation

variable (c : Conversation)

def chunks : List (List UInt8) :=
  c.opening ++ (c.registration ++ (c.signal ++ (c.clearing ++ (c.ready ++ (c.storing ++ c.session)))))

/-- The modem is registered and hears a signal, its buffer has been cleared and holds the payload now,
and the session has transferred it. -/
def Accepts (payload : List UInt8) : Prop :=
  (c.netstatus.value = 1 ∨ c.netstatus.value = 5) ∧ (1 ≤ c.quality.value ∧ c.quality.value < 256)
    ∧ c.cleared.head? = some 0x30 ∧ Fits payload ∧ c.code.value = 0 ∧ c.status.moStatus < 5

instance : DecidablePred c.Accepts := fun _ => inferInstanceAs (Decidable (_ ∧ _))

end Conversation

variable {modem : Modem} {p : Port} {rest : List (List UInt8)} {payload : List UInt8}

theorem clear_iff (c : Conversation) (hopen : modem.isOpen = true)
    (hboost : modem.boost.Documented)
    (hp : Comes p (c.clearing ++ (c.ready ++ (c.storing ++ (c.session ++ rest))))) :
    (modem.clear payload).result p = .success ↔ c.cleared.head? = some 0x30
      ∧ Fits payload ∧ c.code.value = 0 ∧ c.status.moStatus < 5 := by
  obtain ⟨echo, hecho, hanswers⟩ := c.reply_clearing.answers hp
  have hreturned := (zeroCommand_answered hopen hecho c.answer_cleared hanswers
    (clearCommand .clearMObuffer)).1
  have hafter := hp.ask hopen c.reply_clearing.brings (clearCommand .clearMObuffer)
  rw [← after_zeroCommand] at hafter
  simp only [clear, SbdClearBuffers, SerialM.result_bind, hreturned]
  by_cases hzero : c.cleared.head? = some 0x30
  · rw [if_neg (by simp [hzero]), store_iff hopen hboost hafter c.brings_ready
      c.reply_storing c.reply_session]
    exact ⟨fun h => ⟨hzero, h⟩, fun h => h.2⟩
  · rw [if_pos (by simp [hzero])]
    exact iff_of_false (by simp) fun h => hzero h.1

theorem hear_iff (c : Conversation) (hopen : modem.isOpen = true)
    (hboost : modem.boost.Documented)
    (hp : Comes p (c.signal ++ (c.clearing ++ (c.ready ++ (c.storing ++ (c.session ++ rest)))))) :
    (modem.hear payload).result p = .success
      ↔ (1 ≤ c.quality.value ∧ c.quality.value < 256) ∧ c.cleared.head? = some 0x30
        ∧ Fits payload ∧ c.code.value = 0 ∧ c.status.moStatus < 5 := by
  obtain ⟨echo, hecho, hanswers⟩ := c.reply_signal.answers hp
  have hsignal := getSignalQuality_line hopen hecho hanswers false
  have hafter := hp.getSignalQuality hopen (plain_csqLine c.quality).answer
    (notError_csqLine c.quality) c.reply_signal
  rw [numberReturned_eq hboost] at hsignal
  simp only [hear, SerialM.result_bind, hsignal]
  by_cases hbyte : InUInt8 c.quality.value
  · have hzero : UInt8.ofInt c.quality.value = 0 ↔ c.quality.value = 0 :=
      ofInt_eq_iff hbyte (by decide)
    obtain ⟨hleast, hmost⟩ := id hbyte
    rw [if_pos hbyte]
    dsimp only
    by_cases hsilent : c.quality.value = 0
    · rw [if_pos (hzero.mpr hsilent)]
      exact iff_of_false (by simp) fun h => absurd h.1.1 (by omega)
    · rw [if_neg fun h => hsilent (hzero.mp h), clear_iff c hopen hboost hafter]
      exact ⟨fun h => ⟨⟨by omega, hmost⟩, h⟩, fun h => h.2⟩
  · have hnot : ¬ (1 ≤ c.quality.value ∧ c.quality.value < 256) :=
      fun h => hbyte ⟨by omega, h.2⟩
    rw [if_neg hbyte]
    by_cases hint : InInt c.quality.value
    · rw [if_pos hint]
      exact iff_of_false (by simp) fun h => hnot h.1
    · rw [if_neg hint]
      exact iff_of_false (by simp) fun h => hnot h.1

theorem send_iff (c : Conversation) (hopen : modem.isOpen = true)
    (hboost : modem.boost.Documented)
    (hp : Comes p (c.registration ++ (c.signal ++ (c.clearing ++ (c.ready ++ (c.storing
      ++ (c.session ++ rest))))))) :
    (modem.send payload).result p = .success ↔ c.Accepts payload := by
  obtain ⟨echo, hecho, hanswers⟩ := c.reply_registration.answers hp
  have hnet := netGetStatus_line hopen hecho hanswers
  have hafter := hp.ask hopen c.reply_registration.brings (ascii "AT+CREG?\r")
  rw [← after_query _ cregFormat 4] at hafter
  rw [numberReturned_eq hboost] at hnet
  unfold Conversation.Accepts
  simp only [send, SerialM.result_bind, hnet]
  by_cases hbyte : InUInt8 c.netstatus.value
  · have hhome : UInt8.ofInt c.netstatus.value = 1 ↔ c.netstatus.value = 1 :=
      ofInt_eq_iff hbyte (by decide)
    have hroaming : UInt8.ofInt c.netstatus.value = 5 ↔ c.netstatus.value = 5 :=
      ofInt_eq_iff hbyte (by decide)
    rw [if_pos hbyte]
    dsimp only
    rw [if_neg (by simp)]
    by_cases hregistered : c.netstatus.value = 1 ∨ c.netstatus.value = 5
    · have hnot : ¬ (UInt8.ofInt c.netstatus.value ≠ 1 ∧ UInt8.ofInt c.netstatus.value ≠ 5) := by
        rw [not_and_or, not_not, not_not, hhome, hroaming]
        exact hregistered
      rw [if_neg hnot]
      refine (hear_iff c hopen hboost hafter).trans ?_
      exact ⟨fun h => ⟨hregistered, h⟩, fun h => h.2⟩
    · have hboth : UInt8.ofInt c.netstatus.value ≠ 1 ∧ UInt8.ofInt c.netstatus.value ≠ 5 := by
        rw [Ne, hhome, Ne, hroaming]
        exact not_or.mp hregistered
      rw [if_pos hboth]
      exact iff_of_false (by simp) fun h => hregistered h.1
  · have hnot : ¬ (c.netstatus.value = 1 ∨ c.netstatus.value = 5) := by
      rintro (heq | heq) <;> exact hbyte (by rw [heq]; decide)
    rw [if_neg hbyte]
    by_cases hint : InInt c.netstatus.value
    · rw [if_pos hint]
      exact iff_of_false (by simp) fun h => hnot h.1
    · rw [if_neg hint]
      exact iff_of_false (by simp) fun h => hnot h.1

theorem Modem.Comes.open {modem : Modem} {calls : DeviceCalls} {chunks : List (List UInt8)}
    (hclosed : modem.isOpen = false) (hopening : calls.opening = none)
    (hconfiguring : calls.configuring = none) (hp : Comes p (chunks ++ rest))
    (hbrings : Brings (ascii "OK\r\n") [] chunks) :
    (modem.Open calls).result p = (.ok (), { modem with isOpen := true })
      ∧ Comes ((modem.Open calls).after p) rest := by
  obtain ⟨hread, hrest⟩ := (hp.sent (verboseCommand calls.beyond)).replied hbrings
  have hafter : (modem.Open calls).after p
      = (readUntil (ascii "OK\r\n") []).after ((write (verboseCommand calls.beyond)).after p) := by
    simp [Modem.Open, hclosed, hopening, hconfiguring, hp.accepts.result_write, hread]
  refine ⟨?_, hafter ▸ hrest⟩
  simp [Modem.Open, hclosed, hopening, hconfiguring, hp.accepts.result_write, hread]

/-- **When the program succeeds**, with a device that answers: exactly when each of the replies says
so. -/
theorem sender_succeeds_iff (modem : Modem) (hboost : modem.boost.Documented) (calls : DeviceCalls)
    (hopening : calls.opening = none) (hconfiguring : calls.configuring = none)
    (c : Conversation) (hp : Comes p (c.chunks ++ rest)) :
    (sender modem calls payload).result p = .success ↔ c.Accepts payload := by
  have hcomes : Comes p (c.opening ++ (c.registration ++ (c.signal ++ (c.clearing ++ (c.ready
      ++ (c.storing ++ (c.session ++ rest))))))) := by
    simpa only [Conversation.chunks, List.append_assoc] using hp
  obtain ⟨hopen, hafter⟩ :=
    @Modem.Comes.open p _ modem.constructed calls _ rfl hopening hconfiguring hcomes c.brings_opening
  simp only [sender, SerialM.result_bind, hopen]
  exact send_iff c rfl hboost hafter

/-- A transfer, where some of the replies come in two reads. -/
def sampleConversation : Conversation where
  opening := [ascii "ATQ0V1\r\r\nOK\r\n"]
  registration := [ascii "AT+CREG?\r\r\n+CREG:002,", ascii "005\r\n\r\nOK\r\n"]
  signal := [ascii "AT+CSQ?\r\r\n", ascii "+CSQ:4\r\n\r\nOK\r\n"]
  clearing := [ascii "AT+SBDD0\r\r\n0\r\n\r\nOK\r\n"]
  ready := [ascii "AT+SBDWB=3\r\r\nREADY\r\n"]
  storing := [ascii "\r\n0\r\n\r\nOK\r\n"]
  session := [ascii "AT+SBDIX\r\r\n+SBDIX: 0, 13, 0, 0, 0, 0\r\n\r\nO", ascii "K\r\n"]
  n := ⟨.none, [0, 0, 2], by decide⟩
  netstatus := ⟨.none, [0, 0, 5], by decide⟩
  quality := ofInt 4
  cleared := ascii "0"
  code := ofInt 0
  status := ⟨0, 13, 0, 0, 0, 0⟩
  brings_opening := ⟨by decide +kernel, fun _ => by decide +kernel⟩
  reply_registration := ⟨⟨by decide +kernel, fun _ => by decide +kernel⟩, ascii "AT+CREG?\r",
    ascii "\r\nOK\r\n", ⟨by decide, by decide, by decide⟩, by decide, by decide +kernel⟩
  reply_signal := ⟨⟨by decide +kernel, fun _ => by decide +kernel⟩, ascii "AT+CSQ?\r",
    ascii "\r\nOK\r\n", ⟨by decide, by decide, by decide⟩, by decide, by decide +kernel⟩
  reply_clearing := ⟨⟨by decide +kernel, fun _ => by decide +kernel⟩, ascii "AT+SBDD0\r",
    ascii "\r\nOK\r\n", ⟨by decide, by decide, by decide⟩, by decide, by decide +kernel⟩
  answer_cleared := ⟨by decide, by decide⟩
  brings_ready := ⟨by decide +kernel, fun _ => by decide +kernel⟩
  reply_storing := ⟨⟨by decide +kernel, fun _ => by decide +kernel⟩, [],
    ascii "\r\nOK\r\n", echo_nil, by decide, by decide +kernel⟩
  reply_session := ⟨⟨by decide +kernel, fun _ => by decide +kernel⟩, ascii "AT+SBDIX\r",
    ascii "\r\nOK\r\n", ⟨by decide, by decide, by decide⟩, by decide, by decide +kernel⟩

example :
    let p : Port := { incoming := sampleConversation.chunks, bound := by decide +kernel }
    (sender x86 {} (ascii "abc")).result p = .success := by
  intro p
  have hcomes : Comes p (sampleConversation.chunks ++ []) :=
    ⟨fun _ => rfl, (List.append_nil _).symm⟩
  refine (sender_succeeds_iff x86 Boost.standard_documented {} rfl rfl sampleConversation
    hcomes).mpr ?_
  decide +kernel

end Iridium
