import Iridium.Modem.Reply

/-!
# Status lines

The lines of the status functions, with any numerals in them, and what each function makes of its
line: the numerals, converted one after the other. With printed values in range that is the values
(`statusLines_decode`).
-/

namespace Iridium

open Serial Text Decimal

namespace Modem

variable {modem : Modem} {p : Port} {echo : List UInt8}

/-! ## Lines with numerals -/

def cregLine (n status : Numeral) : List UInt8 :=
  ascii "+CREG:" ++ n.text ++ ascii "," ++ status.text

def csqLine (quality : Numeral) : List UInt8 := ascii "+CSQ:" ++ quality.text

def sbddetLine (status error : Numeral) : List UInt8 :=
  ascii "+SBDDET:" ++ status.text ++ ascii "," ++ error.text

def flagText (flag : Bool) : List UInt8 := if flag then ascii "1" else ascii "0"

def sbdsxLine (moFlag : Bool) (momsn : Numeral) (mtFlag : Bool) (mtmsn : Numeral) (raFlag : Bool)
    (mtQueue : Numeral) : List UInt8 :=
  ascii "+SBDSX: " ++ flagText moFlag ++ ascii ", " ++ momsn.text ++ ascii ", "
    ++ flagText mtFlag ++ ascii ", " ++ mtmsn.text ++ ascii ", "
    ++ flagText raFlag ++ ascii ", " ++ mtQueue.text

def sbdixLine (moStatus momsn mtStatus mtmsn mtMessageLen mtQueue : Numeral) : List UInt8 :=
  ascii "+SBDIX: " ++ moStatus.text ++ ascii ", " ++ momsn.text ++ ascii ", "
    ++ mtStatus.text ++ ascii ", " ++ mtmsn.text ++ ascii ", "
    ++ mtMessageLen.text ++ ascii ", " ++ mtQueue.text

@[simp] theorem plain_flagText (flag : Bool) : Plain (flagText flag) := by
  cases flag <;> decide +kernel

theorem plain_cregLine (n status : Numeral) : Plain (cregLine n status) := by
  simp only [cregLine, plain_append_iff, plain_text, and_true]
  decide +kernel

theorem plain_csqLine (quality : Numeral) : Plain (csqLine quality) := by
  simp only [csqLine, plain_append_iff, plain_text, and_true]
  decide +kernel

theorem plain_sbddetLine (status error : Numeral) : Plain (sbddetLine status error) := by
  simp only [sbddetLine, plain_append_iff, plain_text, and_true]
  decide +kernel

theorem plain_sbdsxLine (moFlag : Bool) (momsn : Numeral) (mtFlag : Bool) (mtmsn : Numeral)
    (raFlag : Bool) (mtQueue : Numeral) :
    Plain (sbdsxLine moFlag momsn mtFlag mtmsn raFlag mtQueue) := by
  simp only [sbdsxLine, plain_append_iff, plain_text, plain_flagText, and_true]
  decide +kernel

theorem plain_sbdixLine (moStatus momsn mtStatus mtmsn mtMessageLen mtQueue : Numeral) :
    Plain (sbdixLine moStatus momsn mtStatus mtmsn mtMessageLen mtQueue) := by
  simp only [sbdixLine, plain_append_iff, plain_text, and_true]
  decide +kernel

/-! ## Where the numbers start -/

theorem headerStart_append {header : List UInt8} {skip : Nat} (hskip : skip < 2 ^ 64)
    (rest : List UInt8) : headerStart header skip (header ++ rest) = some skip := by
  have hfind : find (header ++ rest) header = 0 := find_start (List.prefix_append header rest)
  have hne : ¬ 0 = npos := by decide
  rw [headerStart, hfind, if_neg hne, sizeAdd_of_lt (by omega), Nat.zero_add]

theorem commaStart_append {header rest : List UInt8} (n : Numeral)
    (hlen : (header ++ (n.text ++ comma :: rest)).length < 2 ^ 63) :
    commaStart header header.length (header ++ (n.text ++ comma :: rest))
      = some (header ++ n.text ++ [comma]).length := by
  have hdrop : (header ++ (n.text ++ comma :: rest)).drop header.length
      = n.text ++ comma :: rest := List.drop_left
  have hfind := findFirstOf_append hdrop (comma_notMem n)
  simp only [List.length_append, List.length_cons] at hlen
  have hne : ¬ header.length + n.text.length = npos := by
    unfold npos
    omega
  rw [commaStart, headerStart_append (by omega)]
  simp only [hfind, if_neg hne]
  rw [sizeAdd_of_lt (by omega)]
  simp only [List.length_append, List.length_cons, List.length_nil, Nat.zero_add]

/-! ## What a function makes of its line -/

theorem numberLine_delims (start : List UInt8 → Option Nat) :
    ∀ field ∈ (numberLine start).fields, ∀ n : Numeral, field.delim ∉ n.text := by
  simpa [numberLine] using cr_notMem

/-- The one number of a line, converted. -/
theorem conclude_number {ρ : Type} (start : List UInt8 → Option Nat) (header : List UInt8)
    (n : Numeral) (hstart : start (header ++ n.text ++ [cr]) = some header.length)
    (hlen : (header ++ n.text ++ [cr]).length < 2 ^ 63) (out : UInt8)
    (returned : Option (Except Thrown Unit) → UInt8 → ρ) :
    (modem.conclude (numberLine start) (header ++ n.text ++ [cr]) out returned).returned
      = returned (some (convertAll modem.boost (numberLine start).fields [{ number := n }] out).1)
        (convertAll modem.boost (numberLine start).fields [{ number := n }] out).2 := by
  apply conclude_render modem (numberLine start) header [{ number := n }] rfl
    (numberLine_delims start) hstart _ hlen
  simp [numberLine, render, Field.flagText]

/-- What the functions for one number return. -/
def numberReturned (modem : Modem) (out : UInt8) (n : Numeral) : Except Thrown Bool × UInt8 :=
  match (Number.uint8 fun v _ => v).convert modem.boost n.text with
  | .error .badLexicalCast => (.ok false, out)
  | .error thrown => (.error thrown, out)
  | .ok store => (.ok true, store out)

theorem succeeded_number (start : List UInt8 → Option Nat) (n : Numeral) (out : UInt8) :
    succeeded (some (convertAll modem.boost (numberLine start).fields [{ number := n }] out).1)
        (convertAll modem.boost (numberLine start).fields [{ number := n }] out).2
      = numberReturned modem out n := by
  simp only [numberLine, convertAll, Field.mark, numberReturned]
  cases (Number.uint8 fun v _ => v).convert modem.boost n.text with
  | error thrown => cases thrown <;> rfl
  | ok store => rfl

theorem netGetStatus_line (hopen : modem.isOpen = true) (hecho : Echo echo) {n status : Numeral}
    (h : Answers p echo (cregLine n status)) :
    (modem.NetGetStatus.result p).returned = numberReturned modem 4 status := by
  have hlen := length_lt_of_answers h
  have hline : cregLine n status ++ [cr]
      = ascii "+CREG:" ++ (n.text ++ comma :: (status.text ++ [cr])) := by
    simp [cregLine, ascii, comma]
  rw [NetGetStatus, h.query hopen hecho (plain_cregLine n status).answer, cregFormat,
    ← succeeded_number]
  apply conclude_number _ _ _ _ hlen
  rw [← cregLine, hline]
  exact commaStart_append n (hline ▸ hlen)

theorem sbdDetach_line (hopen : modem.isOpen = true) (hecho : Echo echo) {status error : Numeral}
    (h : Answers p echo (sbddetLine status error)) :
    (modem.SbdDetach.result p).returned = numberReturned modem 36 error := by
  have hlen := length_lt_of_answers h
  have hline : sbddetLine status error ++ [cr]
      = ascii "+SBDDET:" ++ (status.text ++ comma :: (error.text ++ [cr])) := by
    simp [sbddetLine, ascii, comma]
  rw [SbdDetach, h.query hopen hecho (plain_sbddetLine status error).answer, sbddetFormat,
    ← succeeded_number]
  apply conclude_number _ _ _ _ hlen
  rw [← sbddetLine, hline]
  exact commaStart_append status (hline ▸ hlen)

theorem notError_csqLine (quality : Numeral) : ¬ ascii "ERROR" <:+: csqLine quality := by
  intro hin
  have hmem : (0x45 : UInt8) ∈ csqLine quality := hin.subset (by decide)
  rcases List.mem_append.mp hmem with hheader | htext
  · exact absurd hheader (by decide)
  · exact notMem_text (by decide) (by decide) (by decide) quality htext

theorem getSignalQuality_line (hopen : modem.isOpen = true) (hecho : Echo echo)
    {quality : Numeral} (h : Answers p echo (csqLine quality)) (lastKnown : Bool) :
    ((modem.GetSignalQuality lastKnown).result p).returned = numberReturned modem 0 quality := by
  have hlen := length_lt_of_answers h
  rw [h.getSignalQuality hopen hecho (plain_csqLine quality).answer (notError_csqLine quality),
    csqFormat, ← succeeded_number]
  apply conclude_number _ _ _ _ hlen
  rw [List.append_assoc]
  exact headerStart_append (by decide) _

/-- The numerals of a status line, as the fields of `SbdGetStatus`. -/
def sbdsxItems (moFlag : Bool) (momsn : Numeral) (mtFlag : Bool) (mtmsn : Numeral) (raFlag : Bool)
    (mtQueue : Numeral) : List Item :=
  [⟨moFlag, momsn⟩, ⟨mtFlag, mtmsn⟩, ⟨raFlag, mtQueue⟩]

theorem sbdsx_delims : ∀ field ∈ sbdsxFormat.fields, ∀ n : Numeral, field.delim ∉ n.text := by
  simp [sbdsxFormat, comma_notMem, cr_notMem]

theorem sbdsxLine_eq (moFlag : Bool) (momsn : Numeral) (mtFlag : Bool) (mtmsn : Numeral)
    (raFlag : Bool) (mtQueue : Numeral) :
    sbdsxLine moFlag momsn mtFlag mtmsn raFlag mtQueue ++ [cr]
      = ascii "+SBDSX: "
        ++ render sbdsxFormat.fields (sbdsxItems moFlag momsn mtFlag mtmsn raFlag mtQueue) := by
  have hflag : ∀ flag : Bool, flagText flag = [if flag then 0x31 else 0x30] := by decide
  simp [sbdsxLine, sbdsxFormat, sbdsxItems, render, Field.flagText, hflag, ascii, comma]

theorem sbdGetStatus_line (hopen : modem.isOpen = true) (hecho : Echo echo)
    {moFlag mtFlag raFlag : Bool} {momsn mtmsn mtQueue : Numeral}
    (h : Answers p echo (sbdsxLine moFlag momsn mtFlag mtmsn raFlag mtQueue)) (out : SbdStatus) :
    ((modem.SbdGetStatus out).result p).returned
      = succeeded
        (some (convertAll modem.boost sbdsxFormat.fields
          (sbdsxItems moFlag momsn mtFlag mtmsn raFlag mtQueue) out).1)
        (convertAll modem.boost sbdsxFormat.fields
          (sbdsxItems moFlag momsn mtFlag mtmsn raFlag mtQueue) out).2 := by
  have hlen := length_lt_of_answers h
  rw [SbdGetStatus, h.query hopen hecho (plain_sbdsxLine _ _ _ _ _ _).answer]
  apply conclude_render modem sbdsxFormat (ascii "+SBDSX: ") _ rfl sbdsx_delims _
    (sbdsxLine_eq moFlag momsn mtFlag mtmsn raFlag mtQueue) hlen
  rw [sbdsxLine_eq]
  exact @headerStart_append (ascii "+SBDSX: ") 8 (by decide) _

/-- The numerals of a session line, as the fields of `DoSbdSession`. -/
def sbdixItems (moStatus momsn mtStatus mtmsn mtMessageLen mtQueue : Numeral) : List Item :=
  [⟨false, moStatus⟩, ⟨false, momsn⟩, ⟨false, mtStatus⟩, ⟨false, mtmsn⟩, ⟨false, mtMessageLen⟩,
    ⟨false, mtQueue⟩]

theorem sbdix_delims : ∀ field ∈ sbdixFormat.fields, ∀ n : Numeral, field.delim ∉ n.text := by
  simp [sbdixFormat, comma_notMem, cr_notMem]

theorem sbdixLine_eq (moStatus momsn mtStatus mtmsn mtMessageLen mtQueue : Numeral) :
    sbdixLine moStatus momsn mtStatus mtmsn mtMessageLen mtQueue ++ [cr]
      = ascii "+SBDIX: " ++ render sbdixFormat.fields
        (sbdixItems moStatus momsn mtStatus mtmsn mtMessageLen mtQueue) := by
  simp [sbdixLine, sbdixFormat, sbdixItems, render, Field.flagText, ascii, comma]

theorem doSbdSession_line (hopen : modem.isOpen = true) (hecho : Echo echo)
    {moStatus momsn mtStatus mtmsn mtMessageLen mtQueue : Numeral}
    (h : Answers p echo (sbdixLine moStatus momsn mtStatus mtmsn mtMessageLen mtQueue))
    (answer : Bool) :
    ((modem.DoSbdSession answer).result p).returned
      = sessionStatus
        (some (convertAll modem.boost sbdixFormat.fields
          (sbdixItems moStatus momsn mtStatus mtmsn mtMessageLen mtQueue) {}).1)
        (convertAll modem.boost sbdixFormat.fields
          (sbdixItems moStatus momsn mtStatus mtmsn mtMessageLen mtQueue) {}).2 := by
  have hlen := length_lt_of_answers h
  have hask := h.ask hopen hecho (plain_sbdixLine _ _ _ _ _ _).answer
  have hconclude : (modem.DoSbdSession answer).result p
      = modem.conclude sbdixFormat
        (sbdixLine moStatus momsn mtStatus mtmsn mtMessageLen mtQueue ++ [cr]) {}
        sessionStatus := by
    simp [DoSbdSession, hask]
  rw [hconclude]
  apply conclude_render modem sbdixFormat (ascii "+SBDIX: ") _ rfl sbdix_delims _
    (sbdixLine_eq moStatus momsn mtStatus mtmsn mtMessageLen mtQueue) hlen
  rw [sbdixLine_eq]
  exact @headerStart_append (ascii "+SBDIX: ") 8 (by decide) _

/-! ## Printed values -/

/-- A printed line for each status. -/
def SbdStatus.line (status : SbdStatus) : List UInt8 :=
  sbdsxLine status.moFlag (ofInt status.momsn.toNat) status.mtFlag (ofInt status.mtmsn)
    status.raFlag (ofInt status.mtQueue.toNat)

@[inherit_doc SbdStatus.line]
def SbdSessionStatus.line (status : SbdSessionStatus) : List UInt8 :=
  sbdixLine (ofInt status.moStatus.toNat) (ofInt status.momsn.toNat)
    (ofInt status.mtStatus.toNat) (ofInt status.mtmsn.toNat)
    (ofInt status.mtMessageLen.toNat) (ofInt status.mtQueue.toNat)

section Printed

variable {boost : Boost} {σ : Type}

theorem convert_printed_uint8 (h : boost.Documented) (store : UInt8 → σ → σ) (x : UInt8) :
    (Number.uint8 store).convert boost (ofInt x.toNat).text = .ok (store x) := by
  have hrange : InUInt8 (ofInt x.toNat).value := by
    have := x.toNat_lt
    rw [value_ofInt, InUInt8]
    omega
  have hmod : ((x.toNat : Int) % 2 ^ 8).toNat = x.toNat := by
    have := x.toNat_lt
    omega
  rw [h.convert_uint8, if_pos hrange, value_ofInt, UInt8.ofInt, hmod, UInt8.ofNat_toNat]

theorem convert_printed_uint16 (h : boost.Documented) (store : UInt16 → σ → σ) (x : UInt16) :
    (Number.uint16 store).convert boost (ofInt x.toNat).text = .ok (store x) := by
  have hrange : (ofInt x.toNat).magnitude < 65536 := by
    have := x.toNat_lt
    rw [magnitude_eq, value_ofInt]
    omega
  have hmod : ((x.toNat : Int) % 2 ^ 16).toNat = x.toNat := by
    have := x.toNat_lt
    omega
  rw [h.convert_uint16, if_pos hrange, value_ofInt, UInt16.ofInt, hmod, UInt16.ofNat_toNat]

theorem convert_printed_int32 (h : boost.Documented) (store : Int → σ → σ) {v : Int}
    (hv : InInt v) : (Number.int32 store).convert boost (ofInt v).text = .ok (store v) := by
  rw [h.convert_int32, value_ofInt, if_pos hv]

end Printed

/-- **Status lines decode to the values printed.** -/
theorem statusLines_decode (modem : Modem) (hopen : modem.isOpen = true)
    (hboost : modem.boost.Documented) (echo : List UInt8) (hecho : Echo echo) :
    (∀ (status : SbdSessionStatus) (answer : Bool) (p : Port), p.Accepts →
      p.stream = echo ++ ascii "\r\n" ++ status.line ++ ascii "\r\n\r\nOK\r\n" →
      ((modem.DoSbdSession answer).result p).returned = .ok status)
    ∧ ∀ (status out : SbdStatus) (p : Port), InInt status.mtmsn → p.Accepts →
      p.stream = echo ++ ascii "\r\n" ++ status.line ++ ascii "\r\n\r\nOK\r\n" →
      ((modem.SbdGetStatus out).result p).returned = (.ok true, status) := by
  have hanswers : ∀ (p : Port) (line : List UInt8), p.Accepts →
      p.stream = echo ++ ascii "\r\n" ++ line ++ ascii "\r\n\r\nOK\r\n" →
      Answers p echo line := by
    intro p line hp hstream
    refine ⟨hp, ascii "\r\nOK\r\n", ?_, by decide⟩
    rw [hstream]
    simp [ascii]
  constructor
  · intro status answer p hp hstream
    rw [doSbdSession_line hopen hecho (hanswers p _ hp hstream)]
    simp [sbdixFormat, sbdixItems, convertAll, convert_printed_uint8 hboost,
      convert_printed_uint16 hboost, Field.mark, sessionStatus]
  · intro status out p hrange hp hstream
    rw [sbdGetStatus_line hopen hecho (hanswers p _ hp hstream)]
    simp [sbdsxFormat, sbdsxItems, convertAll, convert_printed_uint8 hboost,
      convert_printed_uint16 hboost, convert_printed_int32 hboost _ hrange, Field.mark, succeeded]

theorem statusLines_decode_sample :
    let session : Port := {
      incoming := [ascii "AT+SBDIX\r\r\n+SBDIX: 32, 1", ascii "3, 2, 0, 0, 255\r\n\r\nOK\r\n"]
      bound := by decide }
    let status : Port := {
      incoming := [ascii "\r\n+SBDSX: 0, 13, 1, -1, 0, 4\r\n\r\nOK\r\n"]
      bound := by decide }
    ((x86.DoSbdSession false).result session).returned = .ok ⟨32, 13, 2, 0, 0, 255⟩
      ∧ ((x86.SbdGetStatus {}).result status).returned
        = (.ok true, ⟨false, 13, true, -1, false, 4⟩) := by
  intro session status
  -- the first reply begins with the echo of the command, the second one with an empty line
  have hecho : Echo (ascii "AT+SBDIX\r") := ⟨by decide, by decide, by decide⟩
  constructor
  · obtain ⟨hsession, -⟩ := statusLines_decode x86 rfl Boost.standard_documented _ hecho
    exact hsession ⟨32, 13, 2, 0, 0, 255⟩ false session (fun _ => rfl) (by decide +kernel)
  · obtain ⟨-, hstatus⟩ := statusLines_decode x86 rfl Boost.standard_documented _ echo_nil
    exact hstatus ⟨false, 13, true, -1, false, 4⟩ {} status (by decide) (fun _ => rfl)
      (by decide +kernel)

end Modem

end Iridium
