import Iridium.Modem.Casts
import Iridium.Modem.Reply

/-!
# The other commands

`Open`, `Close`, `SbdClearBuffers`, `ClearMomsn` and `GetImei` of `src/Modem.cpp`. The last three look
at the second line of a reply and convert nothing. In whatever chunks it comes, they return what the
line says (`commands_answered`).
-/

namespace Iridium

open Serial Text

/-- `EClearMessageBuffers`. -/
inductive EClearMessageBuffers where
  | clearMObuffer | clearMTbuffer | clearBoth
  deriving DecidableEq, Repr

/-- The enumerators' values. -/
def EClearMessageBuffers.value : EClearMessageBuffers → UInt8
  | .clearMObuffer => 0
  | .clearMTbuffer => 1
  | .clearBoth => 2

/-- The errors of the calls in `Open` and `Close`, if there are any, and the byte that lies behind
the string literal of the first command. -/
structure DeviceCalls where
  opening : Option String := none
  configuring : Option String := none
  closing : Option String := none
  beyond : UInt8 := 0
  deriving DecidableEq, Repr

namespace Modem

/-- `"ATQ0V1\r"` with a length of nine: the literal has a terminating null, and ends there. -/
def verboseCommand (beyond : UInt8) : List UInt8 := ascii "ATQ0V1\r" ++ [0, beyond]

/-- What `Open` throws, and the modem after it. A `set_option` that throws leaves the device open. -/
def Open (modem : Modem) (calls : DeviceCalls) : SerialM (Except Thrown Unit × Modem) := do
  -- `close` may throw instead
  let failure : Except Thrown Unit × Modem :=
    (.error (.runtimeError (calls.closing.getD modem.ioError)), modem)
  if modem.isOpen then return (.ok (), modem)
  else match calls.opening with
    | some what => return (.error (.runtimeError what), modem)
    | none =>
      match calls.configuring with
      | some what => return (.error (.runtimeError what), { modem with isOpen := true })
      | none =>
        -- responses are sent to the DTE in verbose mode
        let sent ← write (verboseCommand calls.beyond)
        if !sent then return failure
        else
          let reply ← readUntil (ascii "OK\r\n") []
          if !reply.1 then return failure
          else return (.ok (), { modem with isOpen := true })

/-- The device is closed even where `close` throws. -/
def Close (modem : Modem) (woexcept : Bool) (calls : DeviceCalls) : Except Thrown Unit × Modem :=
  if !modem.isOpen then (.ok (), modem)
  else match calls.closing with
    | some what =>
      (if !woexcept then .error (.runtimeError what) else .ok (), { modem with isOpen := false })
    | none => (.ok (), { modem with isOpen := false })

/-- `line[0] == '0'`. The first character of an empty line is a null. -/
def startsWithZero (line : List UInt8) : Bool := line.headD 0 == 0x30

/-- A command whose reply is `0` when it has succeeded. -/
def zeroCommand (modem : Modem) (cmd : List UInt8) : SerialM Bool := do
  match ← modem.ask cmd with
  | .line line => return startsWithZero line
  | _ => return false

/-- `AT+SBDD0`, where the value of `clear` is added to the digit. -/
def clearCommand (clear : EClearMessageBuffers) : List UInt8 :=
  ascii "AT+SBDD" ++ [0x30 + clear.value, cr]

def SbdClearBuffers (modem : Modem) (clear : EClearMessageBuffers) : SerialM Bool :=
  modem.zeroCommand (clearCommand clear)

def ClearMomsn (modem : Modem) : SerialM Bool := modem.zeroCommand (ascii "AT+SBDC\r")

/-- The text before the first `\r` of a line. -/
def imeiOf (line : List UInt8) : Option (List UInt8) :=
  let pos2 := findFirstOf line cr 0
  if pos2 = npos then none else some (line.take (sizeSub pos2 0))

/-- Next to `imei`, which is left as it is in case of a failure. -/
def GetImei (modem : Modem) (imei : List UInt8) : SerialM (Bool × List UInt8) := do
  match ← modem.ask (ascii "AT+CGSN\r") with
  | .line line =>
    match imeiOf line with
    | none => return (false, imei)
    | some text => return (true, text)
  | _ => return (false, imei)

/-! ## What they make of a line -/

variable {modem : Modem} {p : Port} {echo line : List UInt8}

theorem startsWithZero_concat (line : List UInt8) :
    startsWithZero (line ++ [cr]) = (line.head? == some 0x30) := by
  cases line with
  | nil => rfl
  | cons c cs => rfl

theorem imeiOf_append {text : List UInt8} (htext : cr ∉ text) (rest : List UInt8)
    (hlen : text.length < 2 ^ 63) : imeiOf (text ++ cr :: rest) = some text := by
  have hdrop : (text ++ cr :: rest).drop 0 = text ++ cr :: rest := List.drop_zero
  have hfind := findFirstOf_append hdrop htext
  rw [Nat.zero_add] at hfind
  have hne : ¬ text.length = npos := by
    unfold npos
    omega
  rw [imeiOf, hfind, if_neg hne, sizeSub_of_le (Nat.zero_le _) (by omega), Nat.sub_zero,
    List.take_left]

theorem sent_ask (hopen : modem.isOpen = true) (hp : p.Accepts) (cmd : List UInt8) :
    ((modem.ask cmd).after p).sent = p.sent ++ [cmd] := by
  simp only [ask, hopen, Bool.not_true, Bool.false_eq_true, if_false, SerialM.after_bind,
    hp.result_write]
  split <;> exact hp.sent_write

theorem zeroCommand_answered (hopen : modem.isOpen = true) (hecho : Echo echo)
    (hline : Answer line) (h : Answers p echo line) (cmd : List UInt8) :
    (modem.zeroCommand cmd).result p = (line.head? == some 0x30)
      ∧ ((modem.zeroCommand cmd).after p).sent = p.sent ++ [cmd] := by
  have hask := h.ask hopen hecho hline cmd
  constructor
  · simp only [zeroCommand, SerialM.result_bind, hask]
    exact startsWithZero_concat line
  · simp only [zeroCommand, SerialM.after_bind, hask]
    exact sent_ask hopen h.accepts cmd

theorem getImei_answered (hopen : modem.isOpen = true) (hecho : Echo echo) (hline : Answer line)
    (h : Answers p echo line) (imei : List UInt8) :
    (modem.GetImei imei).result p = (true, line.takeWhile (· ≠ cr))
      ∧ ((modem.GetImei imei).after p).sent = p.sent ++ [ascii "AT+CGSN\r"] := by
  have hask := h.ask hopen hecho hline (ascii "AT+CGSN\r")
  -- the line that is searched ends in a `\r` of its own
  obtain ⟨rest, hsplit⟩ : ∃ rest, line ++ [cr] = line.takeWhile (· ≠ cr) ++ cr :: rest := by
    have hline := List.takeWhile_append_dropWhile (p := (· ≠ cr)) (l := line)
    cases hdrop : line.dropWhile (· ≠ cr) with
    | nil =>
        rw [hdrop, List.append_nil] at hline
        exact ⟨[], by rw [hline]⟩
    | cons c rest =>
        have hc := List.head?_dropWhile_not (· ≠ cr) line
        rw [hdrop] at hc
        obtain rfl : c = cr := by simpa using hc
        rw [hdrop] at hline
        exact ⟨rest ++ [cr], by rw [← List.cons_append, ← List.append_assoc, hline]⟩
  have htext : cr ∉ line.takeWhile (· ≠ cr) := by
    intro hmem
    simpa using List.mem_takeWhile_imp hmem
  have hshort : (line.takeWhile (· ≠ cr)).length < 2 ^ 63 := by
    have hlen := length_lt_of_answers h
    have hle := (List.takeWhile_prefix (l := line) (· ≠ cr)).length_le
    rw [List.length_append] at hlen
    omega
  have himei := imeiOf_append htext rest hshort
  rw [← hsplit] at himei
  constructor
  · simp only [GetImei, SerialM.result_bind, hask, himei]
    rfl
  · simp only [GetImei, SerialM.after_bind, hask, himei]
    exact sent_ask hopen h.accepts _

/-- **The commands return what the line says**: that it begins with `0`, or its text. Each sends its
command, and nothing else. -/
theorem commands_answered (hopen : modem.isOpen = true) (hecho : Echo echo) (hline : Answer line)
    (h : Answers p echo line) :
    (∀ clear, (modem.SbdClearBuffers clear).result p = (line.head? == some 0x30)
      ∧ ((modem.SbdClearBuffers clear).after p).sent = p.sent ++ [clearCommand clear])
    ∧ (modem.ClearMomsn.result p = (line.head? == some 0x30)
      ∧ (modem.ClearMomsn.after p).sent = p.sent ++ [ascii "AT+SBDC\r"])
    ∧ ∀ imei, (modem.GetImei imei).result p = (true, line.takeWhile (· ≠ cr))
      ∧ ((modem.GetImei imei).after p).sent = p.sent ++ [ascii "AT+CGSN\r"] := by
  refine ⟨?_, ?_, ?_⟩
  · intro clear
    exact zeroCommand_answered hopen hecho hline h (clearCommand clear)
  · exact zeroCommand_answered hopen hecho hline h _
  · intro imei
    exact getImei_answered hopen hecho hline h imei

/-- An IMEI that comes in two reads. -/
theorem commands_answered_sample :
    let p : Port := {
      incoming := [ascii "AT+CGSN\r\r\n3001250", ascii "61511830\r\n\r\nOK\r\n"]
      bound := by decide }
    (x86.GetImei []).result p = (true, ascii "300125061511830") := by
  intro p
  have hecho : Echo (ascii "AT+CGSN\r") := ⟨by decide, by decide, by decide⟩
  have hline : Answer (ascii "300125061511830") := ⟨by decide, by decide⟩
  have hanswers : Answers p (ascii "AT+CGSN\r") (ascii "300125061511830") :=
    ⟨fun _ => rfl, ascii "\r\nOK\r\n", by decide +kernel, by decide⟩
  rw [((commands_answered rfl hecho hline hanswers).2.2 []).1]
  decide

end Modem

end Iridium
