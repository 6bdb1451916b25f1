import Iridium.Lib.Memory
import Iridium.Lib.Serial
import Iridium.Lib.Text
import Iridium.SbdDirectIp.InformationElement

/-!
# The modem

`Modem` of `src/Modem.cpp`: AT commands over a serial port, and what comes back. Whether the device
is open, the target the program is built for and the casts of boost are fields of `Modem`; the port
is the state that the functions pass along. `read_until_timeout` is `readUntil`, a timeout being
one way for the reads to end.

The status functions take a line of the reply apart in the same way: from where the numbers start,
each number runs to the next delimiter, and the next one starts two characters behind it. That is
`decodeFields`, and each function applies it to its own fields. The characters are read through a
pointer to the line, so every range that is handed to a cast is on record (`Call.ranges`).
-/

namespace Iridium

open ByteOrder Serial Text ReadM SbdDirectIp

/-- What is thrown: a `std::runtime_error` with its text, or an exception of boost. -/
inductive Thrown where
  | runtimeError (what : String)
  | badLexicalCast
  | badNumericCast
  deriving DecidableEq, Repr

/-! ## The target -/

/-- The target of the build: is a plain `char` signed, and is the most significant byte of an
integer the first one in memory? -/
structure Platform where
  charSigned : Bool
  bigEndian : Bool
  deriving DecidableEq, Repr

namespace Platform

/-- The `c` of `union { uint16_t i; char c[2]; }`. -/
def bytes16 (platform : Platform) (i : UInt16) : List UInt8 :=
  if platform.bigEndian then beBytes 2 i.toNat else leBytes 2 i.toNat

/-- The `i` of that union. -/
def load16 (platform : Platform) (c : List UInt8) : UInt16 :=
  UInt16.ofNat (if platform.bigEndian then beNat c else leNat c)

@[inherit_doc bytes16]
def bytes32 (platform : Platform) (i : UInt32) : List UInt8 :=
  if platform.bigEndian then beBytes 4 i.toNat else leBytes 4 i.toNat

def isBigEndian (platform : Platform) : Bool :=
  (platform.bytes32 0x01020304).head? == some 1

/-- `std::swap(c[0], c[1])`, unless the target is big-endian. -/
def swapped (platform : Platform) (c : List UInt8) : List UInt8 :=
  if !platform.isBigEndian then c.reverse else c

/-- A `char` converted to `uint32_t`. -/
def ofChar (platform : Platform) (c : UInt8) : UInt32 :=
  if platform.charSigned then c.toInt8.toInt32.toUInt32 else c.toUInt32

/-- `for (char c: payload) sum += c`. -/
def sum (platform : Platform) (payload : List UInt8) : UInt32 :=
  payload.foldl (fun sum c => sum + platform.ofChar c) 0

end Platform

/-! ## Casts -/

/-- The casts of boost; `none` is the exception that a cast throws. An `int` has 32 bits. -/
structure Boost where
  /-- `lexical_cast<int>` and `lexical_cast<int32_t>`. -/
  lexicalInt : List UInt8 → Option Int
  /-- `lexical_cast<uint16_t>`. -/
  lexicalUInt16 : List UInt8 → Option UInt16
  /-- `numeric_cast<uint8_t>`. -/
  numericUInt8 : Int → Option UInt8

/-- How a number of a reply is converted, and where in `σ` it goes. -/
inductive Number (σ : Type) where
  /-- `numeric_cast<uint8_t>(lexical_cast<int>(…))`. -/
  | uint8 (store : UInt8 → σ → σ)
  | uint16 (store : UInt16 → σ → σ)
  | int32 (store : Int → σ → σ)

/-- The conversion of a text, and the assignment. -/
def Number.convert {σ : Type} (boost : Boost) (number : Number σ) (text : List UInt8) :
    Except Thrown (σ → σ) :=
  match number with
  | .uint8 store =>
    match boost.lexicalInt text with
    | none => .error .badLexicalCast
    | some v =>
      match boost.numericUInt8 v with
      | none => .error .badNumericCast
      | some v => .ok (store v)
  | .uint16 store =>
    match boost.lexicalUInt16 text with
    | none => .error .badLexicalCast
    | some v => .ok (store v)
  | .int32 store =>
    match boost.lexicalInt text with
    | none => .error .badLexicalCast
    | some v => .ok (store v)

/-! ## A line of a reply -/

/-- One number of a line, and the delimiter behind it. A flag before it is one character. -/
structure Field (σ : Type) where
  flag : Option (Bool → σ → σ) := none
  number : Number σ
  delim : UInt8

/-- Where the numbers of a line start, `none` when the line is not the one expected, and what they
are. -/
structure LineFormat (σ : Type) where
  start : List UInt8 → Option Nat
  fields : List (Field σ)

/-- What there is: the device, the target, the casts, the text of a read error, and what lies behind
a line in memory. -/
structure Modem where
  isOpen : Bool
  platform : Platform
  boost : Boost
  ioError : String
  past : List UInt8 → Memory

/-- What a function returns, the line it has taken apart if it got so far, and the ranges of that
line it has used: the ones handed to a cast, and the characters it looked at. -/
structure Call (ρ : Type) where
  returned : ρ
  line : Option (List UInt8) := none
  ranges : List Access := []

namespace Modem

variable {σ ρ : Type}

/-- The flag before a number is one character, and the number starts three characters behind it. -/
def decodeFlag (field : Field σ) (pos : Nat) (out : σ) : ReadM (σ × Nat) :=
  match field.flag with
  | none => return (out, pos)
  | some mark => do
    let c ← read pos 1
    return (mark (c == ascii "1") out, sizeAdd pos 3)

/-- The numbers of a line, from a position on. A cast that throws ends it. -/
def decodeFields (boost : Boost) (line : List UInt8) :
    List (Field σ) → Nat → σ → ReadM (Except Thrown Unit × σ)
  | [], _, out => return (.ok (), out)
  | field :: fields, pos, out => do
    let flag ← decodeFlag field pos out
    let pos2 := findFirstOf line field.delim flag.2
    let text ← read flag.2 (sizeSub pos2 flag.2)
    match field.number.convert boost text with
    | .error thrown => return (.error thrown, flag.1)
    | .ok store => decodeFields boost line fields (sizeAdd pos2 2) (store flag.1)

/-- A line, into `out`. `none` when the numbers do not start anywhere. -/
def decode (modem : Modem) (format : LineFormat σ) (line : List UInt8) (out : σ) :
    ReadM (Option (Except Thrown Unit) × σ) :=
  match format.start line with
  | none => return (none, out)
  | some pos => do
    let decoded ← decodeFields modem.boost line format.fields pos out
    return (some decoded.1, decoded.2)

/-- Take a line apart and conclude. -/
def conclude (modem : Modem) (format : LineFormat σ) (line : List UInt8) (out : σ)
    (returned : Option (Except Thrown Unit) → σ → ρ) : Call ρ :=
  let mem := Memory.ofBuffer line (modem.past line)
  let decoded := (modem.decode format line out).result mem
  { returned := returned decoded.1 decoded.2
    line := some line
    ranges := (modem.decode format line out).log mem }

theorem conclude_of_start {modem : Modem} {format : LineFormat σ} {line : List UInt8} {pos : Nat}
    (hstart : format.start line = some pos) (out : σ)
    (returned : Option (Except Thrown Unit) → σ → ρ) :
    let mem := Memory.ofBuffer line (modem.past line)
    let decoded := (decodeFields modem.boost line format.fields pos out).result mem
    modem.conclude format line out returned
      = { returned := returned (some decoded.1) decoded.2
          line := some line
          ranges := (decodeFields modem.boost line format.fields pos out).log mem } := by
  simp [conclude, decode, hstart]

/-- The end of the functions that return a `bool`. Only `bad_lexical_cast` is caught. -/
def succeeded (decoded : Option (Except Thrown Unit)) (out : σ) : Except Thrown Bool × σ :=
  match decoded with
  | none => (.ok false, out)
  | some (.ok ()) => (.ok true, out)
  | some (.error .badLexicalCast) => (.ok false, out)
  | some (.error thrown) => (.error thrown, out)

/-- Two `getline`s. -/
def secondLine (buf : List UInt8) : List UInt8 :=
  let first := IStream.getline ⟨buf, true⟩ []
  (first.2.getline first.1).1

/-- How far a command gets. -/
inductive Asked where
  | closed | notSent | noReply
  | line (line : List UInt8)

/-- Send a command, wait for the end of its reply, and take the second line. -/
def ask (modem : Modem) (cmd : List UInt8) : SerialM Asked := do
  if !modem.isOpen then return .closed
  else
    let sent ← write cmd
    if !sent then return .notSent
    else
      let reply ← readUntil (ascii "OK\r\n") []
      if !reply.1 then return .noReply else return .line (secondLine reply.2)

/-- A command that reports failure by `false`. -/
def query (modem : Modem) (cmd : List UInt8) (format : LineFormat σ) (out : σ) :
    SerialM (Call (Except Thrown Bool × σ)) := do
  match ← modem.ask cmd with
  | .line line => return modem.conclude format line out succeeded
  | _ => return { returned := (.ok false, out) }

/-! ## Status functions -/

/-- Behind a text of `skip` characters. -/
def headerStart (header : List UInt8) (skip : Nat) (line : List UInt8) : Option Nat :=
  let pos := find line header
  if pos = npos then none else some (sizeAdd pos skip)

/-- Behind the first comma that follows a text. -/
def commaStart (header : List UInt8) (skip : Nat) (line : List UInt8) : Option Nat :=
  match headerStart header skip line with
  | none => none
  | some pos =>
    let pos := findFirstOf line comma pos
    if pos = npos then none else some (sizeAdd pos 1)

/-- A line with one number from its start to the end. -/
def numberLine (start : List UInt8 → Option Nat) : LineFormat UInt8 where
  start := start
  fields := [{ number := .uint8 fun v _ => v, delim := cr }]

/-- `+CREG:002,004`. -/
def cregFormat : LineFormat UInt8 := numberLine (commaStart (ascii "+CREG:") 6)

def NetGetStatus (modem : Modem) : SerialM (Call (Except Thrown Bool × UInt8)) :=
  -- 4 is "unknown"
  modem.query (ascii "AT+CREG?\r") cregFormat 4

/-- `+CSQ:4`. -/
def csqFormat : LineFormat UInt8 := numberLine (headerStart (ascii "+CSQ:") 5)

def GetSignalQuality (modem : Modem) (lastKnown : Bool) :
    SerialM (Call (Except Thrown Bool × UInt8)) := do
  let failure : Call (Except Thrown Bool × UInt8) := { returned := (.ok false, 0) }
  if lastKnown then modem.query (ascii "AT+CSQF?\r") csqFormat 0
  else if !modem.isOpen then return failure
  else
    let sent ← write (ascii "AT+CSQ?\r")
    if !sent then return failure
    else
      let reply ← readUntil (ascii "\r\n") []
      if !reply.1 then return failure
      else
        let first := IStream.getline ⟨reply.2, true⟩ []
        if find first.1 (ascii "ERROR") ≠ npos then return failure
        else
          let reply ← readUntil (ascii "\r\n") first.2.buf
          if !reply.1 then return failure
          else
            let second := IStream.getline { first.2 with buf := reply.2 } first.1
            if find second.1 (ascii "ERROR") ≠ npos then return failure
            else
              let reply ← readUntil (ascii "OK\r\n") second.2.buf
              if !reply.1 then return failure
              else return modem.conclude csqFormat second.1 0 succeeded

/-- `+SBDDET:1,18`. -/
def sbddetFormat : LineFormat UInt8 := numberLine (commaStart (ascii "+SBDDET:") 8)

def SbdDetach (modem : Modem) : SerialM (Call (Except Thrown Bool × UInt8)) :=
  -- 36 is reserved, but indicates an error
  modem.query (ascii "AT+SBDDET\r") sbddetFormat 36

structure SbdStatus where
  moFlag : Bool := false
  momsn : UInt16 := 0
  mtFlag : Bool := false
  mtmsn : Int := -1
  raFlag : Bool := false
  mtQueue : UInt8 := 0
  deriving DecidableEq, Repr

/-- `+SBDSX: 0, 13, 0, -1, 0, 0`. -/
def sbdsxFormat : LineFormat SbdStatus where
  start := headerStart (ascii "+SBDSX: ") 8
  fields := [
    { flag := some fun b status => { status with moFlag := b }
      number := .uint16 fun v status => { status with momsn := v }
      delim := comma },
    { flag := some fun b status => { status with mtFlag := b }
      number := .int32 fun v status => { status with mtmsn := v }
      delim := comma },
    { flag := some fun b status => { status with raFlag := b }
      number := .uint8 fun v status => { status with mtQueue := v }
      delim := cr }]

def SbdGetStatus (modem : Modem) (status : SbdStatus) :
    SerialM (Call (Except Thrown Bool × SbdStatus)) :=
  modem.query (ascii "AT+SBDSX\r") sbdsxFormat status

/-! ## Sessions -/

/-- The source leaves the fields uninitialised, and returns it only when all are assigned. -/
structure SbdSessionStatus where
  moStatus : UInt8 := 0
  momsn : UInt16 := 0
  mtStatus : UInt8 := 0
  mtmsn : UInt16 := 0
  mtMessageLen : UInt16 := 0
  mtQueue : UInt8 := 0
  deriving DecidableEq, Repr

/-- `+SBDIX: 32, 13, 2, 0, 0, 0`. -/
def sbdixFormat : LineFormat SbdSessionStatus where
  start := headerStart (ascii "+SBDIX: ") 8
  fields := [
    { number := .uint8 fun v status => { status with moStatus := v }, delim := comma },
    { number := .uint16 fun v status => { status with momsn := v }, delim := comma },
    { number := .uint8 fun v status => { status with mtStatus := v }, delim := comma },
    { number := .uint16 fun v status => { status with mtmsn := v }, delim := comma },
    { number := .uint16 fun v status => { status with mtMessageLen := v }, delim := comma },
    { number := .uint8 fun v status => { status with mtQueue := v }, delim := cr }]

/-- The end of `DoSbdSession`. -/
def sessionStatus (decoded : Option (Except Thrown Unit)) (status : SbdSessionStatus) :
    Except Thrown SbdSessionStatus :=
  match decoded with
  | none => .error (.runtimeError "bad session status")
  | some (.ok ()) => .ok status
  | some (.error .badLexicalCast) => .error (.runtimeError "bad session status")
  | some (.error thrown) => .error thrown

def DoSbdSession (modem : Modem) (answer : Bool) :
    SerialM (Call (Except Thrown SbdSessionStatus)) := do
  match ← modem.ask (if answer then ascii "AT+SBDIXA\r" else ascii "AT+SBDIX\r") with
  | .closed => return { returned := .error (.runtimeError "modem not opened") }
  | .notSent => return { returned := .error (.runtimeError "send command error") }
  | .noReply => return { returned := .error (.runtimeError modem.ioError) }
  | .line line => return modem.conclude sbdixFormat line {} sessionStatus

/-! ## Messages -/

/-- The result code alone, from the start of the line. -/
def resultFormat : LineFormat UInt8 := numberLine fun _ => some 0

/-- The end of `WriteMessage`. 4 is a nonexistent return code. -/
def resultCode (decoded : Option (Except Thrown Unit)) (res : UInt8) : Except Thrown UInt8 :=
  match decoded with
  | some (.ok ()) => .ok res
  | some (.error .badLexicalCast) => .ok 4
  | some (.error thrown) => .error thrown
  | none => .ok 4

/-- The two bytes that follow a payload. -/
def checksum (modem : Modem) (payload : List UInt8) : List UInt8 :=
  modem.platform.swapped
    (modem.platform.bytes16 (modem.platform.sum payload &&& 0xFFFF).toUInt16)

/-- The command that announces a payload. -/
def announcement (payload : List UInt8) : List UInt8 :=
  ascii ("AT+SBDWB=" ++ toString payload.length ++ "\r")

def WriteMessage (modem : Modem) (payload : List UInt8) :
    SerialM (Call (Except Thrown UInt8)) := do
  let failure (what : String) : Call (Except Thrown UInt8) :=
    { returned := .error (.runtimeError what) }
  if !modem.isOpen then return failure "modem not opened"
  else if payload.length = 0 ∨ IEMoPayload.maxPayloadLength < payload.length then
    return failure "bad payload length"
  else
    let sent ← write (announcement payload)
    if !sent then return failure "send command error"
    else
      let ready ← readUntil (ascii "READY\r\n") []
      if !ready.1 then return failure "reply receive error"
      else
        let sent ← write payload
        if !sent then return failure "send payload error"
        else
          let sent ← write (modem.checksum payload)
          if !sent then return failure "send CRC error"
          else
            -- whether the delimiter came is not checked
            let reply ← readUntil (ascii "OK\r\n") []
            return modem.conclude resultFormat (secondLine reply.2) 0 resultCode

/-- A number of two bytes as it comes from the device. -/
def number16 (modem : Modem) (c : List UInt8) : UInt16 :=
  modem.platform.load16 (modem.platform.swapped c)

/-- The payload is read when its length is not zero. -/
def readPayload (length : UInt16) : SerialM (Option (List UInt8)) :=
  if length = 0 then return some [] else readExact length.toNat

/-- `ReadMessage` behind the echo: length, payload, checksum, and the end of the reply. Every throw
clears the payload. -/
def readFrame (modem : Modem) : SerialM (Except Thrown Unit × List UInt8) := do
  let failure (what : String) : Except Thrown Unit × List UInt8 :=
    (.error (.runtimeError what), [])
  match ← readExact 2 with
  | none => return failure "message length receive error"
  | some c =>
    match ← readPayload (modem.number16 c) with
    | none => return failure "message receive error"
    | some payload =>
      match ← readExact 2 with
      | none => return failure "message CRC receive error"
      | some c =>
        let crc := modem.number16 c
        if payload ≠ [] ∧ modem.platform.sum payload &&& 0xFFFF ≠ crc.toUInt32 then
          return failure "CRC check error"
        else
          -- whether the delimiter came is not checked
          let _ ← readUntil (ascii "OK\r\n") []
          return (.ok (), payload)

/-- Next to the payload. -/
def ReadMessage (modem : Modem) : SerialM (Except Thrown Unit × List UInt8) := do
  let failure (what : String) : Except Thrown Unit × List UInt8 :=
    (.error (.runtimeError what), [])
  if !modem.isOpen then return failure "modem not opened"
  else
    let sent ← write (ascii "AT+SBDRB\r")
    if !sent then return failure "send command error"
    else
      -- get echo of command or empty line; the buffer is local to this read
      let echo ← readUntil (ascii "\r") []
      if !echo.1 then return failure "message length receive error"
      else modem.readFrame

end Modem

end Iridium
