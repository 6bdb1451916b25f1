import Iridium.IncomingSbdSession
import Iridium.Lib.Pool
import Iridium.Lib.Transition

/-!
# The receiver

`SbdReceiver` of `src/SbdReceiver.cpp`, with the part of the world that it depends on: the accepts
that have been initiated and not yet completed, and the sessions, each with a connection of its own.

A step is a call of a public function, the owner giving up the receiver, the completion of an accept,
or a read of a session. The results of calls to the system are up to the step. An accept completes
with `operation_aborted` only when the acceptor has been closed since; it may then also complete
with a result obtained before. One that is initiated when the acceptor is not open is refused.

Sessions hold a weak pointer to the receiver and go on without it. The handler of an accept has a
plain `this`, so it is put on record when it runs after the receiver is gone.
-/

namespace Iridium

/-- An accept that has not completed: the acceptor is still open, has been closed since, or was not
open when it was initiated. -/
inductive PendingAccept where
  | waiting | cancelled | refused
  deriving DecidableEq, Repr

/-- The result that the handler of an accept is called with: `operation_aborted`, the text of
another error, or a connection. -/
inductive AcceptResult where
  | aborted
  | failed (message : String)
  | connected
  deriving DecidableEq, Repr

def PendingAccept.cancel : PendingAccept → PendingAccept
  | .waiting => .cancelled
  | a => a

/-- What an accept may come to. -/
def PendingAccept.allows : PendingAccept → AcceptResult → Bool
  | .waiting, .aborted => false
  | .waiting, _ => true
  | .cancelled, _ => true
  | .refused, .failed _ => true
  | .refused, _ => false

/-- The text of the error of each call in `start`, if there is one. -/
structure StartCalls where
  opening : Option String := none
  binding : Option String := none
  listening : Option String := none
  deriving DecidableEq, Repr

structure SbdReceiver where
  acceptorOpen : Bool := false
  sentinel : Bool := false
  -- the world around it
  alive : Bool := true
  accepts : List PendingAccept := []
  sessions : Pool IncomingSbdSession ReceiverEvent := {}
  /-- What has been thrown. -/
  thrown : List String := []
  /-- How often a handler has used a receiver that is gone. -/
  dangling : Nat := 0
  deriving DecidableEq

namespace SbdReceiver

/-- A session as a machine that is fed with the outcomes of its reads. -/
def session (past : List UInt8 → Memory) (here : Nat) :
    Machine IncomingSbdSession ReadOutcome ReceiverEvent where
  init := {}
  step := IncomingSbdSession.onRead past here

variable (past : List UInt8 → Memory) (here : Nat)

def doAccept (w : SbdReceiver) : SbdReceiver :=
  { w with accepts := w.accepts ++ [if w.acceptorOpen then .waiting else .refused] }

/-- Closing the acceptor cancels what waits on it. -/
def closeAcceptor (w : SbdReceiver) : SbdReceiver :=
  { w with acceptorOpen := false, accepts := w.accepts.map PendingAccept.cancel }

def throwing (w : SbdReceiver) (what : String) : SbdReceiver :=
  { w with thrown := w.thrown ++ [what] }

/-- An acceptor that cannot be bound or does not listen is closed again. -/
def start (w : SbdReceiver) (calls : StartCalls) : SbdReceiver :=
  if w.acceptorOpen then w
  else match calls.opening with
    | some message => w.throwing message
    | none =>
      let w := { w with acceptorOpen := true }
      match calls.binding with
      | some message => w.closeAcceptor.throwing message
      | none =>
        match calls.listening with
        | some message => w.closeAcceptor.throwing message
        | none => { w with sentinel := true }.doAccept

/-- `closing` is the text of the error of `close`. The descriptor is gone in any case. -/
def stop (w : SbdReceiver) (woexcept : Bool) (closing : Option String) : SbdReceiver :=
  if !w.acceptorOpen then w
  else
    let w := { w with sentinel := false }.closeAcceptor
    match closing with
    | some message => if !woexcept then w.throwing message else w
    | none => w

/-- The owner gives up its pointer, which is the last one between two steps. -/
def destroy (w : SbdReceiver) (closing : Option String) : SbdReceiver :=
  { w.stop true closing with alive := false }

/-- The handler of `async_accept`. Without the receiver there is nothing that it could go on
with. -/
def onAccept (w : SbdReceiver) : AcceptResult → SbdReceiver
  | .aborted => w
  | .failed _ => if w.alive then w.doAccept else { w with dangling := w.dangling + 1 }
  | .connected =>
    if w.alive then
      { w with sessions := w.sessions.join (session past here) }.doAccept
    else { w with dangling := w.dangling + 1 }

/-! ## Steps -/

inductive Label where
  | start (calls : StartCalls)
  | stop (woexcept : Bool) (closing : Option String)
  | destroy (closing : Option String)
  | accepted (index : Nat) (result : AcceptResult)
  | read (i : Nat) (result : Except String (List UInt8))
  deriving DecidableEq

/-- An accept completes. -/
def finish (w : SbdReceiver) (index : Nat) : SbdReceiver :=
  { w with accepts := w.accepts.eraseIdx index }

def step (w : SbdReceiver) : Label → Option SbdReceiver
  | .start calls => if w.alive then some (w.start calls) else none
  | .stop woexcept closing => if w.alive then some (w.stop woexcept closing) else none
  | .destroy closing => if w.alive then some (w.destroy closing) else none
  | .accepted index result =>
    match w.accepts[index]? with
    | none => none
    | some a => if a.allows result then some ((w.finish index).onAccept past here result) else none
  | .read i result =>
    (w.sessions.feed (session past here) i ⟨!w.alive, result⟩).map fun sessions =>
      { w with sessions := sessions }

def system : System SbdReceiver Label := ⟨step past here⟩

/-! ## What a step does -/

variable {past here} {w v : SbdReceiver}

/-- `start` leaves everything but the record, or fails with an acceptor that it has opened, or opens
the acceptor and initiates an accept. -/
theorem start_cases (w : SbdReceiver) (calls : StartCalls) :
    (∃ thrown, w.start calls = { w with thrown := thrown })
      ∨ (w.acceptorOpen = false ∧ ∃ thrown, w.start calls = { w.closeAcceptor with thrown := thrown })
      ∨ (w.acceptorOpen = false ∧ w.start calls
        = { w with acceptorOpen := true, sentinel := true, accepts := w.accepts ++ [.waiting] }) := by
  unfold start
  split
  · exact .inl ⟨w.thrown, rfl⟩
  · next hclosed =>
      rw [Bool.not_eq_true] at hclosed
      split
      · exact .inl ⟨_, rfl⟩
      · dsimp only
        split
        · exact .inr (.inl ⟨hclosed, _, rfl⟩)
        · split
          · exact .inr (.inl ⟨hclosed, _, rfl⟩)
          · exact .inr (.inr ⟨hclosed, rfl⟩)

theorem stop_cases (w : SbdReceiver) (woexcept : Bool) (closing : Option String) :
    (w.acceptorOpen = false ∧ w.stop woexcept closing = w)
      ∨ (w.acceptorOpen = true ∧ ∃ thrown,
        w.stop woexcept closing = { w.closeAcceptor with sentinel := false, thrown := thrown }) := by
  unfold stop
  cases hopen : w.acceptorOpen with
  | false => exact .inl ⟨rfl, rfl⟩
  | true =>
      refine .inr ⟨rfl, ?_⟩
      simp only [Bool.not_true, Bool.false_eq_true, if_false]
      split
      · split
        · exact ⟨_, rfl⟩
        · exact ⟨w.thrown, rfl⟩
      · exact ⟨w.thrown, rfl⟩

/-- A handler that is not aborted initiates the next accept, and may have started a session. -/
theorem onAccept_cases (w : SbdReceiver) (result : AcceptResult) :
    (result = .aborted ∧ w.onAccept past here result = w)
      ∨ (result ≠ .aborted ∧ w.alive = false
        ∧ w.onAccept past here result = { w with dangling := w.dangling + 1 })
      ∨ (result ≠ .aborted ∧ w.alive = true ∧ ∃ sessions,
        (sessions = w.sessions ∨ sessions = w.sessions.join (session past here))
          ∧ w.onAccept past here result = { w with sessions := sessions }.doAccept) := by
  by_cases haborted : result = .aborted
  · subst haborted
    exact .inl ⟨rfl, rfl⟩
  refine .inr ?_
  by_cases halive : w.alive = true
  · refine .inr ⟨haborted, halive, ?_⟩
    cases result with
    | aborted => exact absurd rfl haborted
    | failed message => exact ⟨w.sessions, .inl rfl, if_pos halive⟩
    | connected => exact ⟨_, .inr rfl, if_pos halive⟩
  · refine .inl ⟨haborted, by simpa using halive, ?_⟩
    cases result with
    | aborted => exact absurd rfl haborted
    | failed message => exact if_neg halive
    | connected => exact if_neg halive

theorem step_accepted {index : Nat} {result : AcceptResult}
    (h : step past here w (.accepted index result) = some v) :
    ∃ a, w.accepts[index]? = some a ∧ a.allows result = true
      ∧ v = (w.finish index).onAccept past here result := by
  simp only [step] at h
  split at h
  · cases h
  · next a ha =>
      split at h
      · next hallows =>
          cases h
          exact ⟨a, ha, hallows, rfl⟩
      · cases h

theorem step_read {i : Nat} {result : Except String (List UInt8)}
    (h : step past here w (.read i result) = some v) :
    ∃ sessions, w.sessions.feed (session past here) i ⟨!w.alive, result⟩ = some sessions
      ∧ v = { w with sessions := sessions } := by
  obtain ⟨sessions, hfeed, hv⟩ := Option.map_eq_some_iff.mp h
  exact ⟨sessions, hfeed, hv.symm⟩

end SbdReceiver

end Iridium
