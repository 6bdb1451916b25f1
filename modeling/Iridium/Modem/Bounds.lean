import Iridium.Modem.Casts

/-!
# Bounds

A search that fails returns `npos`, and the functions take it for a position: they hand the `npos -
pos` characters from `pos` on to a cast. So they stay inside the line exactly as long as each
delimiter that they search for is there (`SafelyDelimited`), and a number that a cast refuses is
what ends the search.
-/

namespace Iridium

open Serial Text ReadM

section Lines

variable {σ : Type}

/-- What is left of a line behind the flag of a field. -/
def Field.skipFlag (field : Field σ) (rest : List UInt8) : List UInt8 :=
  match field.flag with
  | none => rest
  | some _ => rest.drop 3

/-- What is left behind a number, its delimiter and the blank. -/
def Field.skipNumber (field : Field σ) (rest : List UInt8) : List UInt8 :=
  rest.drop (rest.idxOf field.delim + 2)

/-- No delimiter is missing. -/
def Delimited : List (Field σ) → List UInt8 → Prop
  | [], _ => True
  | field :: fields, rest =>
    field.delim ∈ field.skipFlag rest ∧ Delimited fields (field.skipNumber (field.skipFlag rest))

/-- No delimiter is missing up to the first number that is not converted, and none at all when that
number is an `int` but no `uint8_t`. -/
def SafelyDelimited (boost : Boost) : List (Field σ) → List UInt8 → Prop
  | [], _ => True
  | field :: fields, rest =>
    let number := field.skipFlag rest
    field.delim ∈ number ∧
      match field.number.convert boost (number.take (number.idxOf field.delim)) with
      | .ok _ => SafelyDelimited boost fields (field.skipNumber number)
      | .error .badLexicalCast => True
      | .error _ => Delimited fields (field.skipNumber number)

/-- The numbers start somewhere, and no delimiter is missing. -/
def LineFormat.Delimited (format : LineFormat σ) (line : List UInt8) : Prop :=
  ∃ pos, format.start line = some pos ∧ Iridium.Delimited format.fields (line.drop pos)

/-- A line that can be taken apart without leaving it. -/
def LineFormat.SafelyDelimited (boost : Boost) (format : LineFormat σ) (line : List UInt8) : Prop :=
  ∀ pos, format.start line = some pos →
    Iridium.SafelyDelimited boost format.fields (line.drop pos)

/-- The numbers of a format do not start behind the line. -/
def LineFormat.StartsInside (format : LineFormat σ) : Prop :=
  ∀ line pos, line.length < 2 ^ 63 → format.start line = some pos → pos ≤ line.length

/-- What a call reads of its line is inside of it, and a line without all of its delimiters is
reported as a failure. -/
structure StaysInside {ρ : Type} (format : LineFormat σ) (call : Call ρ) (failure : ρ → Prop) :
    Prop where
  inside : InBounds (call.line.getD []).length call.ranges
  reported : ∀ line, call.line = some line → ¬ format.Delimited line → failure call.returned

namespace Modem

variable {boost : Boost} {line : List UInt8} {past : Memory} {pos : Nat}

/-! ## One number -/

theorem decodeFlag_start (field : Field σ) (out : σ) (mem : Memory) (hpos : pos < 2 ^ 63 + 1) :
    ∃ start, ((decodeFlag field pos out).result mem).2 = start ∧ start ≤ pos + 3
      ∧ line.drop start = field.skipFlag (line.drop pos)
      ∧ (start ≤ line.length → InBounds line.length ((decodeFlag field pos out).log mem)) := by
  unfold decodeFlag Field.skipFlag
  cases field.flag with
  | none => exact ⟨pos, rfl, by omega, rfl, fun _ => InBounds.nil _⟩
  | some mark =>
      have hadd : sizeAdd pos 3 = pos + 3 := sizeAdd_of_lt (by omega)
      refine ⟨pos + 3, by simp [hadd], by omega, by simp, ?_⟩
      intro hstart
      simp only [log_bind, log_read, log_pure, List.append_nil, InBounds.cons_iff, InBounds.nil,
        and_true]
      omega

/-- A number whose delimiter is there is a slice of the line. -/
theorem number_found {c : UInt8} {start : Nat} (hc : c ∈ line.drop start)
    (hlen : line.length < 2 ^ 63) :
    start + sizeSub (findFirstOf line c start) start ≤ line.length
      ∧ (Memory.ofBuffer line past).block start (sizeSub (findFirstOf line c start) start)
        = (line.drop start).take ((line.drop start).idxOf c)
      ∧ sizeAdd (findFirstOf line c start) 2 ≤ line.length + 1
      ∧ line.drop (sizeAdd (findFirstOf line c start) 2)
        = (line.drop start).drop ((line.drop start).idxOf c + 2) := by
  obtain ⟨hle, hlt⟩ := findFirstOf_bounds hc
  have hfind : findFirstOf line c start = start + (line.drop start).idxOf c := if_pos hc
  have hsub : sizeSub (findFirstOf line c start) start = (line.drop start).idxOf c := by
    rw [sizeSub_of_le hle (by omega), hfind, Nat.add_sub_cancel_left]
  have hadd : sizeAdd (findFirstOf line c start) 2 = start + ((line.drop start).idxOf c + 2) := by
    rw [sizeAdd_of_lt (by omega), hfind, Nat.add_assoc]
  have hinside : start + (line.drop start).idxOf c ≤ line.length := by omega
  rw [hsub, hadd, Memory.block_ofBuffer hinside, List.drop_drop]
  exact ⟨hinside, rfl, by omega, rfl⟩

/-- A number whose delimiter is missing runs up to `npos`. -/
theorem number_missing {c : UInt8} {start : Nat} (hc : c ∉ line.drop start)
    (hstart : start ≤ npos) (hlen : line.length < 2 ^ 63) :
    ¬ start + sizeSub (findFirstOf line c start) start ≤ line.length := by
  rw [findFirstOf_npos hc, sizeSub_of_le hstart (by decide), Nat.add_sub_cancel' hstart, npos]
  omega

/-! ## All numbers -/

/-- No conversion throws anything else. -/
theorem convert_error {number : Number σ} {text : List UInt8} {thrown : Thrown}
    (h : number.convert boost text = .error thrown) :
    thrown = .badLexicalCast ∨ thrown = .badNumericCast := by
  unfold Number.convert at h
  grind

/-- **The numbers of a safely delimited line stay inside of it**, and the first one that is not
converted is a failure. Otherwise they leave the line, or an exception escapes. -/
theorem decodeFields_inside (hlen : line.length < 2 ^ 63) (fields : List (Field σ))
    (hpos : pos ≤ line.length + 1) (out : σ) :
    let decoded := decodeFields boost line fields pos out
    let mem := Memory.ofBuffer line past
    (SafelyDelimited boost fields (line.drop pos) → InBounds line.length (decoded.log mem)
        ∧ (Delimited fields (line.drop pos)
          ∨ (decoded.result mem).1 = .error .badLexicalCast))
      ∧ (¬ SafelyDelimited boost fields (line.drop pos) → InBounds line.length (decoded.log mem) →
        ¬ Delimited fields (line.drop pos)
          ∧ (decoded.result mem).1 = .error .badNumericCast) := by
  induction fields generalizing pos out with
  | nil =>
      simp [decodeFields, Delimited, SafelyDelimited]
  | cons field fields ih =>
      obtain ⟨start, hflag, hle, hskip, hinside⟩ :=
        @decodeFlag_start _ line pos field out (Memory.ofBuffer line past) (by omega)
      rw [Delimited, SafelyDelimited, ← hskip, decodeFields]
      simp only [result_bind, log_bind, hflag, log_read, result_read, InBounds.append_iff,
        InBounds.cons_iff, InBounds.nil, and_true]
      by_cases hc : field.delim ∈ line.drop start
      · obtain ⟨hread, htext, hnext, hdrop⟩ := @number_found line past _ _ hc hlen
        have hstart : start ≤ line.length := by omega
        have ih := @ih _ hnext
        rw [hdrop] at ih
        simp only [hc, hread, htext, hinside hstart, true_and, Field.skipNumber]
        cases hconvert : field.number.convert boost
            ((line.drop start).take ((line.drop start).idxOf field.delim)) with
        | ok store => exact ih _
        | error thrown =>
            rcases convert_error hconvert with rfl | rfl
            · simp
            · simp only [result_pure, log_pure, InBounds.nil]
              grind
      · -- the range ends at `npos`
        have hmissing := number_missing hc (by unfold npos; omega) hlen
        simp [hc, hmissing]

/-! ## A line -/

variable {ρ : Type} {modem : Modem} {format : LineFormat σ} {out : σ}
  {returned : Option (Except Thrown Unit) → σ → ρ} {failure : ρ → Prop} {call : Call ρ}

/-- What a function makes of the ends of a conversion. -/
structure Reports (returned : Option (Except Thrown Unit) → σ → ρ) (failure : ρ → Prop) : Prop where
  noStart : ∀ out, failure (returned none out)
  lexical : ∀ out, failure (returned (some (.error .badLexicalCast)) out)
  numeric : ∀ out, ¬ failure (returned (some (.error .badNumericCast)) out)

theorem conclude_staysInside_iff (hformat : format.StartsInside) (h : Reports returned failure)
    (hlen : line.length < 2 ^ 63) :
    StaysInside format (modem.conclude format line out returned) failure
      ↔ format.SafelyDelimited modem.boost line := by
  cases hstart : format.start line with
  | none =>
      refine iff_of_true ⟨?_, ?_⟩ ?_
      · simp [conclude, decode, hstart]
      · intro _ _ _
        simpa [conclude, decode, hstart] using h.noStart out
      · intro pos hpos
        rw [hstart] at hpos
        cases hpos
  | some pos =>
      have hpos := hformat line pos hlen hstart
      obtain ⟨hsafe, hunsafe⟩ := @decodeFields_inside _ modem.boost line (modem.past line) pos hlen
        format.fields (by omega) out
      have hdelimited : format.Delimited line ↔ Delimited format.fields (line.drop pos) := by
        simp [LineFormat.Delimited, hstart]
      have hsafely : format.SafelyDelimited modem.boost line
          ↔ SafelyDelimited modem.boost format.fields (line.drop pos) := by
        simp [LineFormat.SafelyDelimited, hstart]
      rw [hsafely, conclude_of_start hstart]
      constructor
      · intro hstays
        by_contra hnot
        obtain ⟨hmissing, hthrown⟩ := hunsafe hnot hstays.inside
        have hfailure := hstays.reported line rfl (hdelimited.not.mpr hmissing)
        rw [hthrown] at hfailure
        exact h.numeric _ hfailure
      · intro hall
        obtain ⟨hinside, hends⟩ := hsafe hall
        refine ⟨hinside, ?_⟩
        rintro line' ⟨⟩ hmissing
        rcases hends with hdelims | hlexical
        · exact absurd (hdelimited.mpr hdelims) hmissing
        · rw [hlexical]
          exact h.lexical _

/-- A call that has taken a line apart, or none. -/
inductive TakesApart (modem : Modem) (format : LineFormat σ) (out : σ)
    (returned : Option (Except Thrown Unit) → σ → ρ) : Call ρ → Prop where
  | nothing (r : ρ) : TakesApart modem format out returned { returned := r }
  | line (line : List UInt8) (hlen : line.length < 2 ^ 63) :
    TakesApart modem format out returned (modem.conclude format line out returned)

/-- **A call stays inside its line exactly when that is safely delimited.** -/
theorem TakesApart.staysInside_iff (hcall : TakesApart modem format out returned call)
    (hformat : format.StartsInside) (h : Reports returned failure) :
    StaysInside format call failure
      ↔ ∀ line, call.line = some line → format.SafelyDelimited modem.boost line := by
  cases hcall with
  | nothing r =>
      refine iff_of_true ⟨InBounds.nil _, ?_⟩ ?_
      · rintro line ⟨⟩
      · rintro line ⟨⟩
  | line line hlen =>
      rw [conclude_staysInside_iff hformat h hlen]
      constructor
      · rintro hsafe line' ⟨⟩
        exact hsafe
      · intro hsafe
        exact hsafe line rfl

end Modem

end Lines

namespace Modem

variable {modem : Modem} {p : Port}

/-! ## Lengths -/

theorem length_secondLine_le (buf : List UInt8) : (secondLine buf).length ≤ buf.length := by
  obtain ⟨hfirst, hrest⟩ := @length_getline_le ⟨buf, true⟩ [] buf.length le_rfl (Nat.zero_le _)
  exact (length_getline_le hrest hfirst).1

/-- A line that is read is no longer than what comes. -/
theorem length_secondLine_lt (delim : List UInt8) :
    (secondLine ((readUntil delim []).result p).2).length < 2 ^ 63 := by
  have hline := length_secondLine_le ((readUntil delim []).result p).2
  have hread := @length_readUntil p delim []
  have hbound := p.length_stream_lt
  rw [List.length_nil, Nat.zero_add] at hread
  omega

/-- What `ask` brings is no line, or one of those. -/
theorem ask_cases (cmd : List UInt8) :
    (∃ line, (modem.ask cmd).result p = .line line ∧ line.length < 2 ^ 63)
      ∨ ∀ line, (modem.ask cmd).result p ≠ .line line := by
  have hline := @length_secondLine_lt ((write cmd).after p) (ascii "OK\r\n")
  simp only [ask, SerialM.result_ite, SerialM.result_bind, SerialM.result_pure]
  grind

/-! ## Where the numbers start -/

theorem headerStart_le {header line : List UInt8} {pos : Nat} (hlen : line.length < 2 ^ 63)
    (h : headerStart header header.length line = some pos) : pos ≤ line.length := by
  unfold headerStart at h
  rcases find_bounds line header with hnone | hle
  · simp [hnone] at h
  · have hne : find line header ≠ npos := by
      unfold npos
      omega
    rw [if_neg hne, sizeAdd_of_lt (by omega)] at h
    cases h
    exact hle

theorem commaStart_le {header line : List UInt8} {pos : Nat} (hlen : line.length < 2 ^ 63)
    (h : commaStart header header.length line = some pos) : pos ≤ line.length := by
  unfold commaStart at h
  cases hheader : headerStart header header.length line with
  | none => simp [hheader] at h
  | some start =>
      rw [hheader] at h
      by_cases hcomma : comma ∈ line.drop start
      · obtain ⟨-, hlt⟩ := findFirstOf_bounds hcomma
        have hne : findFirstOf line comma start ≠ npos := by
          unfold npos
          omega
        simp only [if_neg hne] at h
        rw [sizeAdd_of_lt (by omega)] at h
        cases h
        exact hlt
      · simp [findFirstOf_npos hcomma] at h

/-! ## The functions -/

section Reports

theorem reports_succeeded {σ : Type} :
    Reports (succeeded (σ := σ)) (fun r => r.1 = .ok false) where
  noStart _ := rfl
  lexical _ := rfl
  numeric _ := nofun

theorem reports_sessionStatus :
    Reports sessionStatus (· = .error (.runtimeError "bad session status")) where
  noStart _ := rfl
  lexical _ := rfl
  numeric _ := nofun

theorem reports_resultCode : Reports resultCode (· = .ok 4) where
  noStart _ := rfl
  lexical _ := rfl
  numeric _ := nofun

end Reports

theorem query_takesApart {σ : Type} (cmd : List UInt8) (format : LineFormat σ) (out : σ) :
    TakesApart modem format out succeeded ((modem.query cmd format out).result p) := by
  rw [query, SerialM.result_bind]
  rcases @ask_cases modem p cmd with ⟨line, hask, hlen⟩ | hnone
  · rw [hask]
    exact .line line hlen
  · cases hask : (modem.ask cmd).result p with
    | line line => exact absurd hask (hnone line)
    | _ => exact .nothing _

theorem doSbdSession_takesApart (answer : Bool) :
    TakesApart modem sbdixFormat {} sessionStatus ((modem.DoSbdSession answer).result p) := by
  rw [DoSbdSession, SerialM.result_bind]
  rcases @ask_cases modem p (if answer then ascii "AT+SBDIXA\r" else ascii "AT+SBDIX\r") with
    ⟨line, hask, hlen⟩ | hnone
  · rw [hask]
    exact .line line hlen
  · cases hask : (modem.ask (if answer then ascii "AT+SBDIXA\r" else ascii "AT+SBDIX\r")).result p with
    | line line => exact absurd hask (hnone line)
    | _ => exact .nothing _

theorem writeMessage_takesApart (payload : List UInt8) :
    TakesApart modem resultFormat 0 resultCode ((modem.WriteMessage payload).result p) := by
  simp only [WriteMessage, SerialM.result_ite, SerialM.result_bind, SerialM.result_pure]
  repeat' split
  all_goals first | exact .nothing _ | exact .line _ (length_secondLine_lt _)

theorem getSignalQuality_takesApart (lastKnown : Bool) :
    TakesApart modem csqFormat 0 succeeded ((modem.GetSignalQuality lastKnown).result p) := by
  -- neither of the two reads brings more than what comes
  have hbound := p.length_stream_lt
  have hread := @length_readUntil ((write (ascii "AT+CSQ?\r")).after p) (ascii "\r\n") []
  rw [stream_write, List.length_nil, Nat.zero_add] at hread
  simp only [GetSignalQuality, SerialM.result_ite, SerialM.result_bind, SerialM.result_pure]
  generalize (readUntil (ascii "\r\n") []).result ((write (ascii "AT+CSQ?\r")).after p)
    = reply at hread ⊢
  obtain ⟨hfirst, hbuf⟩ :=
    @length_getline_le ⟨reply.2, true⟩ [] reply.2.length le_rfl (Nat.zero_le _)
  generalize IStream.getline ⟨reply.2, true⟩ [] = first at hfirst hbuf ⊢
  have hread' := @length_readUntil ((readUntil (ascii "\r\n") []).after
    ((write (ascii "AT+CSQ?\r")).after p)) (ascii "\r\n") first.2.buf
  generalize (readUntil (ascii "\r\n") first.2.buf).result ((readUntil (ascii "\r\n") []).after
    ((write (ascii "AT+CSQ?\r")).after p)) = reply' at hread' ⊢
  obtain ⟨hsecond, -⟩ := @length_getline_le ⟨reply'.2, first.2.good⟩ first.1
    p.stream.length (by dsimp only; omega) (by omega)
  split
  · exact query_takesApart _ _ _
  · repeat' split
    all_goals first | exact .nothing _ | exact .line _ (by omega)

theorem startsInside_header {σ : Type} {format : LineFormat σ} (header : List UInt8)
    (hstart : format.start = headerStart header header.length) : format.StartsInside := by
  intro line pos hlen h
  rw [hstart] at h
  exact headerStart_le hlen h

theorem startsInside_comma {σ : Type} {format : LineFormat σ} (header : List UInt8)
    (hstart : format.start = commaStart header header.length) : format.StartsInside := by
  intro line pos hlen h
  rw [hstart] at h
  exact commaStart_le hlen h

theorem netGetStatus_staysInside_iff :
    StaysInside cregFormat (modem.NetGetStatus.result p) (·.1 = .ok false)
      ↔ ∀ line, (modem.NetGetStatus.result p).line = some line →
        cregFormat.SafelyDelimited modem.boost line := by
  apply (query_takesApart _ cregFormat 4).staysInside_iff _ reports_succeeded
  exact startsInside_comma (ascii "+CREG:") rfl

theorem writeMessage_staysInside_iff (payload : List UInt8) :
    StaysInside resultFormat ((modem.WriteMessage payload).result p) (· = .ok 4)
      ↔ ∀ line, ((modem.WriteMessage payload).result p).line = some line →
        resultFormat.SafelyDelimited modem.boost line := by
  apply (writeMessage_takesApart payload).staysInside_iff _ reports_resultCode
  rintro line pos hlen ⟨⟩
  exact Nat.zero_le _

/-- **Which replies the parsers stay inside of**: the ones whose line is safely delimited. -/
theorem parsers_stayInside_iff (modem : Modem) (p : Port) :
    (StaysInside cregFormat (modem.NetGetStatus.result p) (·.1 = .ok false)
      ↔ ∀ line, (modem.NetGetStatus.result p).line = some line →
        cregFormat.SafelyDelimited modem.boost line)
    ∧ (∀ lastKnown,
      StaysInside csqFormat ((modem.GetSignalQuality lastKnown).result p) (·.1 = .ok false)
      ↔ ∀ line, ((modem.GetSignalQuality lastKnown).result p).line = some line →
        csqFormat.SafelyDelimited modem.boost line)
    ∧ (StaysInside sbddetFormat (modem.SbdDetach.result p) (·.1 = .ok false)
      ↔ ∀ line, (modem.SbdDetach.result p).line = some line →
        sbddetFormat.SafelyDelimited modem.boost line)
    ∧ (∀ out, StaysInside sbdsxFormat ((modem.SbdGetStatus out).result p) (·.1 = .ok false)
      ↔ ∀ line, ((modem.SbdGetStatus out).result p).line = some line →
        sbdsxFormat.SafelyDelimited modem.boost line)
    ∧ (∀ answer, StaysInside sbdixFormat ((modem.DoSbdSession answer).result p)
        (· = .error (.runtimeError "bad session status"))
      ↔ ∀ line, ((modem.DoSbdSession answer).result p).line = some line →
        sbdixFormat.SafelyDelimited modem.boost line)
    ∧ ∀ payload, StaysInside resultFormat ((modem.WriteMessage payload).result p) (· = .ok 4)
      ↔ ∀ line, ((modem.WriteMessage payload).result p).line = some line →
        resultFormat.SafelyDelimited modem.boost line := by
  refine ⟨netGetStatus_staysInside_iff, ?_, ?_, ?_, ?_, writeMessage_staysInside_iff⟩
  · intro lastKnown
    apply (getSignalQuality_takesApart lastKnown).staysInside_iff _ reports_succeeded
    exact startsInside_header (ascii "+CSQ:") rfl
  · apply (query_takesApart _ sbddetFormat 36).staysInside_iff _ reports_succeeded
    exact startsInside_comma (ascii "+SBDDET:") rfl
  · intro out
    apply (query_takesApart _ sbdsxFormat out).staysInside_iff _ reports_succeeded
    exact startsInside_header (ascii "+SBDSX: ") rfl
  · intro answer
    apply (doSbdSession_takesApart answer).staysInside_iff _ reports_sessionStatus
    exact startsInside_header (ascii "+SBDIX: ") rfl

/-- A line without a carriage return is read up to `npos`, and so is the one that is left when no
reply follows a payload. -/
theorem parsers_leave_sample :
    let noReturn : Port := {
      incoming := [ascii "\r\n+CREG:1,2\nOK\r\n"], bound := by decide }
    let lost : Port := { incoming := [ascii "READY\r\n"], bound := by decide }
    ¬ StaysInside cregFormat (x86.NetGetStatus.result noReturn) (·.1 = .ok false)
      ∧ ¬ StaysInside resultFormat ((x86.WriteMessage [0x41]).result lost) (· = .ok 4) := by
  intro noReturn lost
  constructor
  · rw [netGetStatus_staysInside_iff]
    intro h
    have hline : (x86.NetGetStatus.result noReturn).line = some (ascii "+CREG:1,2") := by
      decide +kernel
    obtain ⟨hcr, -⟩ := h _ hline 8 (by decide +kernel)
    exact absurd hcr (by decide)
  · rw [writeMessage_staysInside_iff]
    intro h
    have hline : ((x86.WriteMessage [0x41]).result lost).line = some [] := by decide +kernel
    obtain ⟨hcr, -⟩ := h _ hline 0 rfl
    exact absurd hcr (by decide)

end Modem

end Iridium
