import Iridium.Modem.Status
import Iridium.Modem.Transfer

/-!
# Numbers out of range

A number of eight bits goes through two casts. The first throws when the number is no `int`, and is
caught; the second throws when it is one but no `uint8_t`, and that exception is not. So a number
between the two ranges (`Between`) escapes from every function that converts one, unless a number
before it has stopped the conversion (`FirstSlips`). An unsigned number is negated by its sign, so
a negative sequence number is taken for a positive one.
-/

namespace Iridium

open Serial Text Decimal

/-- An `int` and no `uint8_t`. -/
def Between (v : Int) : Prop := InInt v ∧ ¬ InUInt8 v

instance (v : Int) : Decidable (Between v) :=
  inferInstanceAs (Decidable (InInt v ∧ ¬ InUInt8 v))

/-- The range of a `uint16_t`. -/
def InUInt16 (v : Int) : Prop := 0 ≤ v ∧ v < 2 ^ 16

instance (v : Int) : Decidable (InUInt16 v) := inferInstanceAs (Decidable (0 ≤ v ∧ v < 2 ^ 16))

section Conversion

variable {σ : Type} {boost : Boost}

/-- The numbers that a conversion takes. -/
def Number.Takes (number : Number σ) (n : Numeral) : Prop :=
  match number with
  | .uint8 _ => InUInt8 n.value
  | .uint16 _ => n.magnitude < 65536
  | .int32 _ => InInt n.value

/-- The numbers that slip through the first of two casts. -/
def Number.Slips (number : Number σ) (n : Numeral) : Prop :=
  match number with
  | .uint8 _ => Between n.value
  | _ => False

/-- The first number that is not taken slips through. -/
def FirstSlips : List (Field σ) → List Item → Prop
  | field :: fields, item :: items =>
    field.number.Slips item.number ∨ (field.number.Takes item.number ∧ FirstSlips fields items)
  | _, _ => False

/-- All numbers are taken. -/
def AllTaken : List (Field σ) → List Item → Prop
  | field :: fields, item :: items => field.number.Takes item.number ∧ AllTaken fields items
  | _, _ => True

theorem Number.convert_cases (h : boost.Documented) (number : Number σ) (n : Numeral) :
    (number.Takes n ∧ ¬ number.Slips n ∧ ∃ store, number.convert boost n.text = .ok store)
      ∨ (¬ number.Takes n ∧ number.Slips n
        ∧ number.convert boost n.text = .error .badNumericCast)
      ∨ (¬ number.Takes n ∧ ¬ number.Slips n
        ∧ number.convert boost n.text = .error .badLexicalCast) := by
  cases number with
  | uint8 store =>
      rw [h.convert_uint8]
      unfold Takes Slips Between
      by_cases hbyte : InUInt8 n.value
      · exact .inl ⟨hbyte, fun hslips => hslips.2 hbyte, _, if_pos hbyte⟩
      · by_cases hint : InInt n.value
        · refine .inr (.inl ⟨hbyte, ⟨hint, hbyte⟩, ?_⟩)
          rw [if_neg hbyte, if_pos hint]
        · refine .inr (.inr ⟨hbyte, fun hslips => hint hslips.1, ?_⟩)
          rw [if_neg hbyte, if_neg hint]
  | uint16 store =>
      rw [h.convert_uint16]
      by_cases hshort : n.magnitude < 65536
      · exact .inl ⟨hshort, id, _, if_pos hshort⟩
      · exact .inr (.inr ⟨hshort, id, if_neg hshort⟩)
  | int32 store =>
      rw [h.convert_int32]
      by_cases hint : InInt n.value
      · exact .inl ⟨hint, id, _, if_pos hint⟩
      · exact .inr (.inr ⟨hint, id, if_neg hint⟩)

/-- **What ends the conversion of a line**: nothing, or the first number that is not taken. -/
theorem convertAll_cases (h : boost.Documented) (fields : List (Field σ)) (items : List Item)
    (out : σ) :
    (AllTaken fields items ∧ ¬ FirstSlips fields items
        ∧ (convertAll boost fields items out).1 = .ok ())
      ∨ (¬ AllTaken fields items ∧ FirstSlips fields items
        ∧ (convertAll boost fields items out).1 = .error .badNumericCast)
      ∨ (¬ AllTaken fields items ∧ ¬ FirstSlips fields items
        ∧ (convertAll boost fields items out).1 = .error .badLexicalCast) := by
  induction fields generalizing items out with
  | nil => exact .inl ⟨trivial, id, rfl⟩
  | cons field fields ih =>
      cases items with
      | nil => exact .inl ⟨trivial, id, rfl⟩
      | cons item items =>
          rw [convertAll, AllTaken, FirstSlips]
          rcases field.number.convert_cases h item.number with
            ⟨htakes, hslips, store, hconvert⟩ | ⟨htakes, hslips, hconvert⟩
              | ⟨htakes, hslips, hconvert⟩
          · rw [hconvert]
            simpa [htakes, hslips] using ih items (store (field.mark item out))
          · rw [hconvert]
            exact .inr (.inl ⟨fun hall => htakes hall.1, .inl hslips, rfl⟩)
          · rw [hconvert]
            refine .inr (.inr ⟨fun hall => htakes hall.1, ?_, rfl⟩)
            rintro (hslips' | ⟨htakes', -⟩)
            · exact hslips hslips'
            · exact htakes htakes'

end Conversion

namespace Modem

variable {modem : Modem} {p : Port} {echo : List UInt8}

/-- Nothing but a `std::runtime_error` is thrown. -/
def OnlyRuntimeErrors {α : Type} (returned : Except Thrown α) : Prop :=
  ∀ thrown, returned = .error thrown → ∃ what, thrown = .runtimeError what

/-! ## One number -/

theorem numberReturned_iff (hboost : modem.boost.Documented) (out : UInt8) (n : Numeral) :
    (numberReturned modem out n).1 = .ok (decide (InUInt8 n.value)) ↔ ¬ Between n.value := by
  rw [numberReturned, hboost.convert_uint8]
  by_cases hbyte : InUInt8 n.value
  · simp [hbyte, Between]
  · by_cases hint : InInt n.value <;> simp [hbyte, hint, Between]

theorem onlyRuntimeErrors_ok {α : Type} (a : α) : OnlyRuntimeErrors (.ok a) := by
  intro thrown hthrown
  cases hthrown

theorem onlyRuntimeErrors_error_iff {α : Type} {thrown : Thrown} :
    OnlyRuntimeErrors (.error thrown : Except Thrown α) ↔ ∃ what, thrown = .runtimeError what := by
  constructor
  · intro honly
    exact honly thrown rfl
  · rintro hwhat thrown' hthrown
    cases hthrown
    exact hwhat

/-- A function that catches `bad_lexical_cast` throws something else exactly where the first number
that is not taken slips through. -/
theorem onlyRuntimeErrors_iff {σ α : Type} {boost : Boost} (hboost : boost.Documented)
    (fields : List (Field σ)) (items : List Item) (out : σ)
    {returned : Option (Except Thrown Unit) → σ → Except Thrown α}
    (hok : ∀ out, OnlyRuntimeErrors (returned (some (.ok ())) out))
    (hlexical : ∀ out, OnlyRuntimeErrors (returned (some (.error .badLexicalCast)) out))
    (hnumeric : ∀ out, returned (some (.error .badNumericCast)) out = .error .badNumericCast) :
    OnlyRuntimeErrors (returned (some (convertAll boost fields items out).1)
        (convertAll boost fields items out).2)
      ↔ ¬ FirstSlips fields items := by
  rcases convertAll_cases hboost fields items out with
    ⟨-, hnot, hresult⟩ | ⟨-, hfirst, hresult⟩ | ⟨-, hnot, hresult⟩
  · rw [hresult]
    exact iff_of_true (hok _) hnot
  · rw [hresult, hnumeric, onlyRuntimeErrors_error_iff]
    refine iff_of_false ?_ (not_not.mpr hfirst)
    rintro ⟨what, hwhat⟩
    cases hwhat
  · rw [hresult]
    exact iff_of_true (hlexical _) hnot

theorem resultCode_iff (hboost : modem.boost.Documented) (n : Numeral) :
    OnlyRuntimeErrors (resultCode
        (some (convertAll modem.boost resultFormat.fields [{ number := n }] 0).1)
        (convertAll modem.boost resultFormat.fields [{ number := n }] 0).2)
      ↔ ¬ Between n.value := by
  have hslips : FirstSlips resultFormat.fields [{ number := n }] ↔ Between n.value := by
    simp [resultFormat, numberLine, FirstSlips, Number.Slips]
  rw [← hslips]
  apply onlyRuntimeErrors_iff hboost
  · intro out
    exact onlyRuntimeErrors_ok out
  · intro out
    exact onlyRuntimeErrors_ok 4
  · intro out
    rfl

/-! ## A message that is written -/

/-- The modem is ready for a payload, and then this is its reply. -/
structure AnswersWhenReady (p : Port) (echo line : List UInt8) : Prop where
  ready : ((readUntil (ascii "READY\r\n") []).result p).1 = true
  answers : Answers ((readUntil (ascii "READY\r\n") []).after p) echo line

theorem writeMessage_line (hopen : modem.isOpen = true) (hecho : Echo echo) {code : Numeral}
    {payload : List UInt8} (hlow : 1 ≤ payload.length) (hhigh : payload.length ≤ 1960)
    (h : AnswersWhenReady p echo code.text) :
    ((modem.WriteMessage payload).result p).returned
      = resultCode (some (convertAll modem.boost resultFormat.fields [{ number := code }] 0).1)
        (convertAll modem.boost resultFormat.fields [{ number := code }] 0).2 := by
  have hrange := payload_inRange hlow hhigh
  have hp : p.Accepts := h.answers.accepts
  have hwaiting : ((readUntil (ascii "READY\r\n") []).after
      ((write (announcement payload)).after p)).Accepts := hp.write.readUntil
  -- the reply is what is to come when the checksum has been sent
  have hanswers : Answers ((write (modem.checksum payload)).after ((write payload).after
      ((readUntil (ascii "READY\r\n") []).after ((write (announcement payload)).after p))))
      echo code.text := by
    refine ⟨hwaiting.write.write, ?_⟩
    simpa using h.answers.stream
  obtain ⟨-, hsecond⟩ := hanswers.readUntil_ok hecho (plain_text code).answer
  have hlen := length_lt_of_answers hanswers
  have hreturned : (modem.conclude resultFormat (code.text ++ [cr]) 0 resultCode).returned
      = resultCode (some (convertAll modem.boost resultFormat.fields [{ number := code }] 0).1)
        (convertAll modem.boost resultFormat.fields [{ number := code }] 0).2 :=
    conclude_number (fun _ => some 0) [] code rfl hlen 0 resultCode
  rw [← hreturned]
  simp only [result_readUntil_write] at hsecond
  simp [WriteMessage, hopen, hrange, hp.result_write, h.ready, hwaiting.result_write,
    hwaiting.write.result_write, hsecond]

/-! ## Several numbers -/

theorem doSbdSession_iff (hopen : modem.isOpen = true) (hboost : modem.boost.Documented)
    (hecho : Echo echo) {moStatus momsn mtStatus mtmsn mtMessageLen mtQueue : Numeral}
    (h : Answers p echo (sbdixLine moStatus momsn mtStatus mtmsn mtMessageLen mtQueue))
    (answer : Bool) :
    OnlyRuntimeErrors ((modem.DoSbdSession answer).result p).returned
      ↔ ¬ FirstSlips sbdixFormat.fields
        (sbdixItems moStatus momsn mtStatus mtmsn mtMessageLen mtQueue) := by
  rw [doSbdSession_line hopen hecho h]
  apply onlyRuntimeErrors_iff hboost
  · intro out
    exact onlyRuntimeErrors_ok out
  · intro out
    exact onlyRuntimeErrors_error_iff.mpr ⟨_, rfl⟩
  · intro out
    rfl

/-- All numbers of a status line fit their types. -/
def SbdsxFits (momsn mtmsn mtQueue : Numeral) : Prop :=
  InUInt16 momsn.value ∧ InInt mtmsn.value ∧ InUInt8 mtQueue.value

instance (momsn mtmsn mtQueue : Numeral) : Decidable (SbdsxFits momsn mtmsn mtQueue) :=
  inferInstanceAs
    (Decidable (InUInt16 momsn.value ∧ InInt mtmsn.value ∧ InUInt8 mtQueue.value))

theorem inUInt16_iff (n : Numeral) : InUInt16 n.value ↔ 0 ≤ n.value ∧ n.magnitude < 65536 := by
  rw [magnitude_eq, InUInt16]
  omega

theorem sbdGetStatus_iff (hopen : modem.isOpen = true) (hboost : modem.boost.Documented)
    (hecho : Echo echo) {moFlag mtFlag raFlag : Bool} {momsn mtmsn mtQueue : Numeral}
    (h : Answers p echo (sbdsxLine moFlag momsn mtFlag mtmsn raFlag mtQueue)) (out : SbdStatus) :
    ((modem.SbdGetStatus out).result p).returned.1 = .ok (decide (SbdsxFits momsn mtmsn mtQueue))
      ↔ ¬ (momsn.magnitude < 65536 ∧ InInt mtmsn.value
        ∧ (Between mtQueue.value ∨ (momsn.value < 0 ∧ InUInt8 mtQueue.value))) := by
  have htaken : AllTaken sbdsxFormat.fields (sbdsxItems moFlag momsn mtFlag mtmsn raFlag mtQueue)
      ↔ momsn.magnitude < 65536 ∧ InInt mtmsn.value ∧ InUInt8 mtQueue.value := by
    simp [sbdsxFormat, sbdsxItems, AllTaken, Number.Takes]
  have hslips : FirstSlips sbdsxFormat.fields
      (sbdsxItems moFlag momsn mtFlag mtmsn raFlag mtQueue)
      ↔ momsn.magnitude < 65536 ∧ InInt mtmsn.value ∧ Between mtQueue.value := by
    simp [sbdsxFormat, sbdsxItems, FirstSlips, Number.Slips, Number.Takes]
  have hfits := inUInt16_iff momsn
  have hdecide : ∀ b : Bool, (Except.ok b : Except Thrown Bool)
      = .ok (decide (SbdsxFits momsn mtmsn mtQueue)) ↔ (b = true ↔ SbdsxFits momsn mtmsn mtQueue) := by
    intro b
    by_cases hfit : SbdsxFits momsn mtmsn mtQueue <;> cases b <;> simp [hfit]
  rw [sbdGetStatus_line hopen hecho h]
  rcases convertAll_cases hboost sbdsxFormat.fields
      (sbdsxItems moFlag momsn mtFlag mtmsn raFlag mtQueue) out with
    ⟨hall, hnot, hresult⟩ | ⟨hall, hfirst, hresult⟩ | ⟨hall, hnot, hresult⟩
  · -- a line that is taken: does the sequence number fit?
    rw [htaken] at hall
    rw [hresult, show (succeeded (some (.ok ())) _).1 = .ok true from rfl, hdecide, SbdsxFits, hfits]
    unfold Between
    grind
  · rw [hslips] at hfirst
    rw [hresult]
    refine iff_of_false ?_ (not_not.mpr ⟨hfirst.1, hfirst.2.1, .inl hfirst.2.2⟩)
    intro hthrown
    cases hthrown
  · rw [htaken] at hall
    rw [hslips] at hnot
    rw [hresult, show (succeeded (some (.error .badLexicalCast)) _).1 = .ok false from rfl,
      hdecide, SbdsxFits, hfits]
    grind

/-! ## All replies -/

/-- **Which numbers are reported as ordinary failures.** A function of one number returns whether
it fits, unless it is between the two ranges; `SbdGetStatus` unless this happens to the last of its
numbers, or a negative sequence number is taken; `DoSbdSession` and `WriteMessage` throw nothing
but a `std::runtime_error`, unless the first number that is not taken is between the ranges. -/
theorem outOfRange_reported_iff (modem : Modem) (hopen : modem.isOpen = true)
    (hboost : modem.boost.Documented) (echo : List UInt8) (hecho : Echo echo) (p : Port) :
    (∀ n status : Numeral, Answers p echo (cregLine n status) →
      ((modem.NetGetStatus.result p).returned.1 = .ok (decide (InUInt8 status.value))
        ↔ ¬ Between status.value))
    ∧ (∀ (quality : Numeral) (lastKnown : Bool), Answers p echo (csqLine quality) →
      (((modem.GetSignalQuality lastKnown).result p).returned.1
          = .ok (decide (InUInt8 quality.value))
        ↔ ¬ Between quality.value))
    ∧ (∀ status error : Numeral, Answers p echo (sbddetLine status error) →
      ((modem.SbdDetach.result p).returned.1 = .ok (decide (InUInt8 error.value))
        ↔ ¬ Between error.value))
    ∧ (∀ (moFlag mtFlag raFlag : Bool) (momsn mtmsn mtQueue : Numeral) (out : SbdStatus),
      Answers p echo (sbdsxLine moFlag momsn mtFlag mtmsn raFlag mtQueue) →
      (((modem.SbdGetStatus out).result p).returned.1
          = .ok (decide (SbdsxFits momsn mtmsn mtQueue))
        ↔ ¬ (momsn.magnitude < 65536 ∧ InInt mtmsn.value
          ∧ (Between mtQueue.value ∨ (momsn.value < 0 ∧ InUInt8 mtQueue.value)))))
    ∧ (∀ (moStatus momsn mtStatus mtmsn mtMessageLen mtQueue : Numeral) (answer : Bool),
      Answers p echo (sbdixLine moStatus momsn mtStatus mtmsn mtMessageLen mtQueue) →
      (OnlyRuntimeErrors ((modem.DoSbdSession answer).result p).returned
        ↔ ¬ FirstSlips sbdixFormat.fields
          (sbdixItems moStatus momsn mtStatus mtmsn mtMessageLen mtQueue)))
    ∧ ∀ (payload : List UInt8) (code : Numeral), 1 ≤ payload.length → payload.length ≤ 1960 →
      AnswersWhenReady p echo code.text →
      (OnlyRuntimeErrors ((modem.WriteMessage payload).result p).returned
        ↔ ¬ Between code.value) := by
  refine ⟨?_, ?_, ?_, ?_, ?_, ?_⟩
  · intro n status h
    rw [netGetStatus_line hopen hecho h]
    exact numberReturned_iff hboost 4 status
  · intro quality lastKnown h
    rw [getSignalQuality_line hopen hecho h lastKnown]
    exact numberReturned_iff hboost 0 quality
  · intro status error h
    rw [sbdDetach_line hopen hecho h]
    exact numberReturned_iff hboost 36 error
  · intro moFlag mtFlag raFlag momsn mtmsn mtQueue out h
    exact sbdGetStatus_iff hopen hboost hecho h out
  · intro moStatus momsn mtStatus mtmsn mtMessageLen mtQueue answer h
    exact doSbdSession_iff hopen hboost hecho h answer
  · intro payload code hlow hhigh h
    rw [writeMessage_line hopen hecho hlow hhigh h]
    exact resultCode_iff hboost code

theorem outOfRange_reported_sample :
    let p : Port := {
      incoming := [ascii "AT+CREG?\r\r\n+CREG:2,99999999999\r\n\r\nOK\r\n"], bound := by decide }
    (x86.NetGetStatus.result p).returned.1 = .ok false := by
  intro p
  have hecho : Echo (ascii "AT+CREG?\r") := ⟨by decide, by decide, by decide⟩
  obtain ⟨hcreg, -⟩ :=
    outOfRange_reported_iff x86 rfl Boost.standard_documented (ascii "AT+CREG?\r") hecho p
  have hanswers : Answers p (ascii "AT+CREG?\r") (cregLine (ofInt 2) (ofInt 99999999999)) :=
    ⟨fun _ => rfl, ascii "\r\nOK\r\n", by decide +kernel, by decide⟩
  have hreturned := (hcreg (ofInt 2) (ofInt 99999999999) hanswers).mpr (by decide +kernel)
  rw [hreturned]
  decide +kernel

/-- The network status 256 makes a `bad_numeric_cast` escape, and so does the session status 256;
the sequence number -1 is taken for 65535. -/
theorem outOfRange_escapes_sample :
    let creg : Port := {
      incoming := [ascii "\r\n+CREG:2,256\r\n\r\nOK\r\n"], bound := by decide }
    let sbdix : Port := {
      incoming := [ascii "\r\n+SBDIX: 256, 13, 2, 0, 0, 0\r\n\r\nOK\r\n"], bound := by decide }
    let sbdsx : Port := {
      incoming := [ascii "\r\n+SBDSX: 0, -1, 0, -1, 0, 0\r\n\r\nOK\r\n"], bound := by decide }
    (Answers creg [] (cregLine (ofInt 2) (ofInt 256))
      ∧ (x86.NetGetStatus.result creg).returned.1 = .error .badNumericCast)
    ∧ (Answers sbdix []
        (sbdixLine (ofInt 256) (ofInt 13) (ofInt 2) (ofInt 0) (ofInt 0) (ofInt 0))
      ∧ ((x86.DoSbdSession false).result sbdix).returned = .error .badNumericCast)
    ∧ (Answers sbdsx [] (sbdsxLine false (ofInt (-1)) false (ofInt (-1)) false (ofInt 0))
      ∧ ((x86.SbdGetStatus {}).result sbdsx).returned
        = (.ok true, { momsn := 65535 })) := by
  intro creg sbdix sbdsx
  refine ⟨⟨⟨fun _ => rfl, ascii "\r\nOK\r\n", ?_, by decide⟩, ?_⟩,
    ⟨⟨fun _ => rfl, ascii "\r\nOK\r\n", ?_, by decide⟩, ?_⟩,
    ⟨⟨fun _ => rfl, ascii "\r\nOK\r\n", ?_, by decide⟩, ?_⟩⟩ <;> decide +kernel

end Modem

end Iridium
