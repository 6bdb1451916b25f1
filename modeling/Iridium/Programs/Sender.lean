import Iridium.Lib.Dialogue
import Iridium.Modem.Commands

/-!
# The sender

`examples/modem/sender/main.cpp` from where the device is acquired: open the modem, look whether it is
registered and hears a signal, clear its buffer, store the payload and start a session. The program
ends at the first step that fails.

Whatever the device does, the commands that have been sent are the first ones of these, in this order,
and a program that ends with success has sent them all (`sender_sends`).
-/

namespace Iridium

open Serial Text

/-- How the program ends; `terminate` when an exception leaves `main`. -/
inductive Exit where
  | success | failure | terminate
  deriving DecidableEq, Repr

namespace Modem

/-- The constructor does not open the device. -/
def constructed (modem : Modem) : Modem := { modem with isOpen := false }

/-- The last step. -/
def transfer (modem : Modem) : SerialM Exit := do
  let session ← modem.DoSbdSession false
  match session.returned with
  | .error (.runtimeError _) => return .failure
  | .error _ => return .terminate
  | .ok status => return if status.moStatus < 5 then .success else .failure

/-- Store the payload, and go on. -/
def store (modem : Modem) (payload : List UInt8) : SerialM Exit := do
  let stored ← modem.WriteMessage payload
  match stored.returned with
  | .error (.runtimeError _) => return .failure
  | .error _ => return .terminate
  | .ok res => if res ≠ 0 then return .failure else modem.transfer

/-- Clear the buffer, and go on. -/
def clear (modem : Modem) (payload : List UInt8) : SerialM Exit := do
  let cleared ← modem.SbdClearBuffers .clearMObuffer
  if !cleared then return .failure else modem.store payload

/-- Look at the signal, and go on. Whether `GetSignalQuality` succeeds is not looked at. -/
def hear (modem : Modem) (payload : List UInt8) : SerialM Exit := do
  let signal ← modem.GetSignalQuality false
  match signal.returned with
  | (.error _, _) => return .terminate
  | (.ok _, quality) => if quality = 0 then return .failure else modem.clear payload

/-- With the modem open. -/
def send (modem : Modem) (payload : List UInt8) : SerialM Exit := do
  let net ← modem.NetGetStatus
  match net.returned with
  | (.error _, _) => return .terminate
  | (.ok registered, netstatus) =>
    if !registered then return .failure
    -- registered in home network or roaming
    else if netstatus ≠ 1 ∧ netstatus ≠ 5 then return .failure
    else modem.hear payload

end Modem

def sender (modem : Modem) (calls : DeviceCalls) (payload : List UInt8) : SerialM Exit := do
  match ← modem.constructed.Open calls with
  | (.error _, _) => return .failure
  | (.ok (), modem) => modem.send payload

/-! ## What the functions send -/

namespace Modem

variable (modem : Modem)

theorem follows_ask (cmd : List UInt8) :
    Follows (modem.ask cmd) [cmd] fun asked => ∃ line, asked = .line line := by
  unfold ask
  split
  · exact (quits_pure fun ⟨line, hline⟩ => nomatch hline).follows [cmd]
  · refine (follows_write cmd).bind_silent ?_ ?_
    · rintro sent rfl
      refine (follows_readUntil _ _).silent_bind fun reply => ?_
      split
      · exact .pure _ _
      · exact .pure _ _
    · intro sent hsent
      rw [Bool.not_eq_true] at hsent
      subst hsent
      exact quits_pure fun ⟨line, hline⟩ => nomatch hline

theorem follows_query {σ : Type} (cmd : List UInt8) (format : LineFormat σ) (out : σ) :
    Follows (modem.query cmd format out) [cmd] fun call => call.returned.1 = .ok true := by
  refine (modem.follows_ask cmd).bind_silent ?_ ?_
  · rintro asked ⟨line, rfl⟩
    exact .pure _ _
  · intro asked hasked
    cases asked with
    | line line => exact absurd ⟨line, rfl⟩ hasked
    | _ => exact quits_pure (by simp)

theorem follows_zeroCommand (cmd : List UInt8) :
    Follows (modem.zeroCommand cmd) [cmd] (· = true) := by
  refine (modem.follows_ask cmd).bind_silent ?_ ?_
  · rintro asked ⟨line, rfl⟩
    exact .pure _ _
  · intro asked hasked
    cases asked with
    | line line => exact absurd ⟨line, rfl⟩ hasked
    | _ => exact quits_pure (by simp)

theorem follows_doSbdSession : Follows (modem.DoSbdSession false) [ascii "AT+SBDIX\r"]
    fun call => ∃ status, call.returned = .ok status := by
  refine (modem.follows_ask _).bind_silent ?_ ?_
  · rintro asked ⟨line, rfl⟩
    exact .pure _ _
  · intro asked hasked
    cases asked with
    | line line => exact absurd ⟨line, rfl⟩ hasked
    | _ => exact quits_pure fun ⟨status, hstatus⟩ => nomatch hstatus

/-- Without a value, the command may not have been sent. -/
theorem follows_getSignalQuality : Follows (modem.GetSignalQuality false) [ascii "AT+CSQ?\r"]
    fun call => call.returned.2 ≠ 0 := by
  unfold GetSignalQuality
  dsimp only
  rw [if_neg Bool.false_ne_true]
  split
  · exact (quits_pure fun h => h rfl).follows _
  · refine (follows_write _).bind_silent ?_ ?_
    · rintro sent rfl
      -- the rest of it reads
      refine (follows_readUntil _ _).silent_bind fun reply => ?_
      split
      · exact .pure _ _
      · split
        · exact .pure _ _
        · refine (follows_readUntil _ _).silent_bind fun reply => ?_
          split
          · exact .pure _ _
          · split
            · exact .pure _ _
            · refine (follows_readUntil _ _).silent_bind fun reply => ?_
              split
              · exact .pure _ _
              · exact .pure _ _
    · intro sent hsent
      rw [Bool.not_eq_true] at hsent
      subst hsent
      exact quits_pure fun h => h rfl

theorem follows_writeMessage (payload : List UInt8) :
    Follows (modem.WriteMessage payload)
      [announcement payload, payload, modem.checksum payload]
      fun call => ∃ res, call.returned = .ok res := by
  have hfailure : ∀ what, Quits (pure { returned := .error (.runtimeError what) } :
      SerialM (Call (Except Thrown UInt8))) fun call => ∃ res, call.returned = .ok res :=
    fun what => quits_pure fun ⟨res, hres⟩ => nomatch hres
  have hsent : ∀ sent : Bool, ¬ sent = true → sent = false := fun _ => Bool.eq_false_of_not_eq_true
  unfold WriteMessage
  dsimp only
  split
  · exact (hfailure _).follows _
  · split
    · exact (hfailure _).follows _
    · refine (follows_write (announcement payload)).bind ?_ ?_
      · rintro sent rfl
        refine (follows_readUntil _ _).silent_bind fun ready => ?_
        split
        · exact (hfailure _).follows _
        · refine (follows_write payload).bind ?_ ?_
          · rintro sent rfl
            refine (follows_write (modem.checksum payload)).bind_silent ?_ ?_
            · rintro sent rfl
              exact (follows_readUntil _ _).silent_bind fun reply => .pure _ _
            · intro sent hnot
              rw [hsent sent hnot]
              exact hfailure _
          · intro sent hnot
            rw [hsent sent hnot]
            exact hfailure _
      · intro sent hnot
        rw [hsent sent hnot]
        exact hfailure _

theorem follows_open {modem : Modem} (hclosed : modem.isOpen = false) (calls : DeviceCalls) :
    Follows (modem.Open calls) [verboseCommand calls.beyond] fun opened => opened.1 = .ok () := by
  unfold Open
  dsimp only
  rw [if_neg (by simp [hclosed])]
  split
  · exact (quits_pure nofun).follows _
  · split
    · exact (quits_pure nofun).follows _
    · refine (follows_write _).bind_silent ?_ ?_
      · rintro sent rfl
        refine (follows_readUntil _ _).silent_bind fun reply => ?_
        split
        · exact .pure _ _
        · exact .pure _ _
      · intro sent hsent
        rw [Bool.not_eq_true] at hsent
        subst hsent
        exact quits_pure nofun

/-- The modem that has been opened. -/
theorem result_open {modem : Modem} (hclosed : modem.isOpen = false) (calls : DeviceCalls) (p : Port)
    (h : ((modem.Open calls).result p).1 = .ok ()) :
    ((modem.Open calls).result p).2 = { modem with isOpen := true } := by
  obtain ⟨opening, configuring, closing, beyond⟩ := calls
  cases opening with
  | some what => simp [Open, hclosed] at h
  | none =>
      cases configuring with
      | some what => simp [Open, hclosed] at h
      | none =>
          simp only [Open, hclosed, SerialM.result_bind, SerialM.result_ite,
            Bool.false_eq_true, if_false] at h ⊢
          split at h
          · cases h
          · next hsent =>
              rw [if_neg hsent]
              split at h
              · cases h
              · next hreply =>
                  rw [if_neg hreply]
                  rfl

end Modem

/-! ## The program -/

/-- What is sent in the course of a transfer. -/
def script (modem : Modem) (calls : DeviceCalls) (payload : List UInt8) : List (List UInt8) :=
  [Modem.verboseCommand calls.beyond, ascii "AT+CREG?\r", ascii "AT+CSQ?\r",
    Modem.clearCommand .clearMObuffer, Modem.announcement payload, payload, modem.checksum payload,
    ascii "AT+SBDIX\r"]

namespace Modem

variable (modem : Modem) (payload : List UInt8)

theorem follows_transfer : Follows modem.transfer [ascii "AT+SBDIX\r"] (· = .success) := by
  refine modem.follows_doSbdSession.bind_silent ?_ ?_
  · rintro session ⟨status, hstatus⟩
    rw [hstatus]
    exact .pure _ _
  · intro session hsession
    cases hreturned : session.returned with
    | ok status => exact absurd ⟨status, hreturned⟩ hsession
    | error thrown => cases thrown <;> exact quits_pure nofun

theorem follows_store : Follows (modem.store payload)
    [announcement payload, payload, modem.checksum payload, ascii "AT+SBDIX\r"] (· = .success) := by
  refine (modem.follows_writeMessage payload).bind ?_ ?_
  · rintro stored ⟨res, hres⟩
    rw [hres]
    dsimp only
    split
    · exact (quits_pure nofun).follows _
    · exact modem.follows_transfer
  · intro stored hstored
    cases hreturned : stored.returned with
    | ok res => exact absurd ⟨res, hreturned⟩ hstored
    | error thrown => cases thrown <;> exact quits_pure nofun

theorem follows_clear : Follows (modem.clear payload)
    [clearCommand .clearMObuffer, announcement payload, payload, modem.checksum payload,
      ascii "AT+SBDIX\r"] (· = .success) := by
  refine (modem.follows_zeroCommand _).bind ?_ ?_
  · rintro cleared rfl
    exact modem.follows_store payload
  · intro cleared hcleared
    rw [Bool.not_eq_true] at hcleared
    subst hcleared
    exact quits_pure nofun

theorem follows_hear : Follows (modem.hear payload)
    [ascii "AT+CSQ?\r", clearCommand .clearMObuffer, announcement payload, payload,
      modem.checksum payload, ascii "AT+SBDIX\r"] (· = .success) := by
  refine modem.follows_getSignalQuality.bind ?_ ?_
  · rintro ⟨⟨thrown, quality⟩, line, ranges⟩ hquality
    cases thrown with
    | error thrown => exact (quits_pure nofun).follows _
    | ok known =>
        dsimp only
        rw [if_neg hquality]
        exact modem.follows_clear payload
  · rintro ⟨⟨thrown, quality⟩, line, ranges⟩ hquality
    cases thrown with
    | error thrown => exact quits_pure nofun
    | ok known =>
        dsimp only
        rw [if_pos (not_not.mp hquality)]
        exact quits_pure nofun

theorem follows_send : Follows (modem.send payload)
    [ascii "AT+CREG?\r", ascii "AT+CSQ?\r", clearCommand .clearMObuffer, announcement payload,
      payload, modem.checksum payload, ascii "AT+SBDIX\r"] (· = .success) := by
  refine (modem.follows_query _ _ _).bind ?_ ?_
  · rintro ⟨⟨-, netstatus⟩, line, ranges⟩ rfl
    dsimp only
    rw [if_neg (by simp)]
    split
    · exact (quits_pure nofun).follows _
    · exact modem.follows_hear payload
  · rintro ⟨⟨returned, netstatus⟩, line, ranges⟩ hreturned
    cases returned with
    | error thrown => exact quits_pure nofun
    | ok registered =>
        have hnot : registered = false := by simpa using hreturned
        subst hnot
        exact quits_pure nofun

end Modem

/-- **What the program sends**, whatever the device does. It is the beginning of a transfer; the whole
of it if the program succeeds. -/
theorem sender_sends (modem : Modem) (calls : DeviceCalls) (payload : List UInt8) :
    Follows (sender modem calls payload) (script modem calls payload) (· = .success) := by
  have hclosed : modem.constructed.isOpen = false := rfl
  let Opens (result : Except Thrown Unit × Modem) : Prop :=
    result.1 = .ok () → result.2 = { modem.constructed with isOpen := true }
  have hresult : ∀ p, Opens ((modem.constructed.Open calls).result p) :=
    Modem.result_open hclosed calls
  refine (Modem.follows_open hclosed calls).bind_of hresult ?_ ?_
  · rintro ⟨opened, modem'⟩ hmodem hopened
    obtain rfl := hmodem hopened
    dsimp only at hopened
    subst hopened
    exact Modem.follows_send _ payload
  · rintro ⟨opened, modem'⟩ - hopened
    cases opened with
    | error thrown => exact quits_pure nofun
    | ok _ => exact absurd rfl hopened

end Iridium
