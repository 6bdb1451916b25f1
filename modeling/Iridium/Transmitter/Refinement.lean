import Iridium.Transmitter.Ledger
import Iridium.Lib.Outbox

/-!
# The transmitter is a sender

Every step of the transmitter does to its ledger what one operation of an `Outbox` does, or nothing
(`step_moved`), so the transmitter refines the outbox (`outbox_simulation`).

Which of the three disorderly operations a step may be matched with depends on the step
(`Warrants`): it loses a message only where the worker starts, or the timer goes off, while a
message is held; it makes one up only where a connection is made with nothing to send; and it clears
the queue in `dropMessages` alone.
-/

namespace Iridium

open SbdDirectIp

/-- The message that an item stands for: a default-constructed one, where it was made up. -/
def made (item : Option MtMessage) : MtMessage := item.getD default

namespace Ledger

/-- The ledger shows what the outbox has. -/
structure Shows (l : Ledger) (o : Outbox MtMessage) : Prop where
  posted : l.posted = o.posted
  confirmed : l.confirmed = o.delivered.map made
  held : l.held = o.held.map made
  jobs : l.jobs = o.waiting.map made

variable {l : Ledger} {o : Outbox MtMessage}

theorem Shows.post (h : l.Shows o) (message : MtMessage) :
    ∃ o', o.apply (.post message) = some o' ∧ (l.post message).Shows o' :=
  ⟨_, rfl, by rw [Ledger.post, h.posted], h.confirmed, h.held, by simp [Ledger.post, h.jobs, made]⟩

theorem Shows.cleared (h : l.Shows o) : ∃ o', o.apply .clear = some o' ∧ l.cleared.Shows o' :=
  ⟨_, rfl, h.posted, h.confirmed, h.held, rfl⟩

theorem Shows.taken (h : l.Shows o) (hheld : l.held = none) (hjobs : l.jobs ≠ []) :
    ∃ o', o.apply .take = some o' ∧ l.taken.Shows o' := by
  obtain ⟨posted, delivered, _ | e, _ | ⟨e', es⟩⟩ := o
  · exact absurd h.jobs hjobs
  · exact ⟨_, rfl, h.posted, h.confirmed, by simp [Ledger.taken, h.jobs], by
      simp [Ledger.taken, h.jobs]⟩
  all_goals exact absurd (hheld.symm.trans h.held) (by simp)

theorem Shows.fabricated (h : l.Shows o) (hheld : l.held = none) (hjobs : l.jobs = []) :
    ∃ o', o.apply .makeUp = some o' ∧ l.taken.Shows o' := by
  obtain ⟨posted, delivered, _ | e, _ | ⟨e', es⟩⟩ := o
  · exact ⟨_, rfl, h.posted, h.confirmed, by simp [Ledger.taken, hjobs, made], by
      simp [Ledger.taken, hjobs]⟩
  · exact absurd (hjobs.symm.trans h.jobs) (by simp)
  all_goals exact absurd (hheld.symm.trans h.held) (by simp)

/-- Giving back, delivering and losing do nothing where nothing is held. -/
theorem Shows.unheld (h : l.Shows o) (hheld : l.held = none) :
    l.returned.Shows o ∧ l.delivered.Shows o ∧ l.lost.Shows o := by
  have hnone : (none : Option MtMessage) = o.held.map made := hheld.symm.trans h.held
  refine ⟨⟨h.posted, h.confirmed, hnone, ?_⟩, ⟨h.posted, ?_, hnone, h.jobs⟩,
    ⟨h.posted, h.confirmed, hnone, h.jobs⟩⟩
  · simp [Ledger.returned, hheld, h.jobs]
  · simp [Ledger.delivered, hheld, h.confirmed]

theorem Shows.ended (h : l.Shows o) (hheld : l.held ≠ none) :
    (∃ o', o.apply .giveBack = some o' ∧ l.returned.Shows o')
      ∧ (∃ o', o.apply .deliver = some o' ∧ l.delivered.Shows o')
      ∧ ∃ o', o.apply .lose = some o' ∧ l.lost.Shows o' := by
  obtain ⟨posted, delivered, _ | e, waiting⟩ := o
  · exact absurd h.held hheld
  · exact ⟨⟨_, rfl, h.posted, h.confirmed, rfl, by simp [Ledger.returned, h.held, h.jobs]⟩,
      ⟨_, rfl, h.posted, by simp [Ledger.delivered, h.held, h.confirmed], rfl, h.jobs⟩,
      ⟨_, rfl, h.posted, h.confirmed, rfl, h.jobs⟩⟩

end Ledger

namespace SbdTransmitter

variable (past : List UInt8 → Memory)

/-- Transmitters as a transition system. -/
def system : System SbdTransmitter Label := ⟨step past⟩

/-- The handler that a step runs. -/
def handler (w : SbdTransmitter) : Label → Option OpKind
  | .complete index _ => (w.pending[index]?).map (·.kind)
  | _ => none

/-- The message held is forgotten: the worker starts over, or the timer goes off. -/
def Loses (w : SbdTransmitter) (label : Label) : Prop :=
  w.state.holds = true ∧
    match label with
    | .workerBegin => True
    | .complete _ result => w.handler label = some .timer ∧ result ≠ .aborted
    | _ => False

/-- A connection is made. -/
def Connects (w : SbdTransmitter) (label : Label) : Prop :=
  w.handler label = some .connect ∧ w.state = .connecting ∧ w.shutdown = false ∧
    match label with
    | .complete _ (.done _ _) => True
    | _ => False

instance (w : SbdTransmitter) (label : Label) : Decidable (w.Connects label) := by
  unfold Connects
  rcases label with _ | _ | _ | _ | _ | _ | _ | ⟨_, _ | _ | _⟩ <;> infer_instance

/-- A connection is made and there is nothing to send. -/
def Fabricates (w : SbdTransmitter) (label : Label) : Prop :=
  w.Connects label ∧ w.messageQueue.jobs = []

instance (w : SbdTransmitter) (label : Label) : Decidable (w.Loses label) := by
  unfold Loses
  cases label <;> infer_instance

/-! ## Steps -/

/-- The worker is asleep only where there is nothing to do. -/
def Resting (w : SbdTransmitter) : Prop := w.thread = .waiting → w.state = .notConnected

/-- What a step does to the ledger, and what it needs for that. -/
inductive Moved (w : SbdTransmitter) (label : Label) (v : SbdTransmitter) : Prop where
  | quiet (hledger : v.ledger = w.ledger)
      (hstate : v.state.attempting = true → w.state.attempting = true)
  | posted (message : MtMessage) (hlabel : label = .post message)
      (hledger : v.ledger = w.ledger.post message) (hstate : v.state = w.state)
  | dropped (hlabel : label = .dropMessages) (hledger : v.ledger = w.ledger.cleared)
      (hstate : v.state = w.state)
  | attempted (hledger : v.ledger = w.ledger.attempted)
  | taken (hlabel : w.Connects label) (hledger : v.ledger = w.ledger.taken)
      (hstate : v.state = .sending)
  | returned (hledger : v.ledger = w.ledger.returned) (hstate : v.state = .error)
  | delivered (hledger : v.ledger = w.ledger.delivered) (hstate : v.state = .notConnected)
  | lost (hlabel : w.Loses label) (hledger : v.ledger = w.ledger.lost)
      (hstate : v.state = .notConnected)

variable {past} {w v : SbdTransmitter} {label : Label}

theorem step_complete {index : Nat} {result : Completion}
    (h : step past w (.complete index result) = some v) :
    ∃ op, w.pending[index]? = some op ∧ (result = .aborted → op.cancelled = true)
      ∧ v = (w.finish index).onComplete past op.kind result := by
  simp only [step] at h
  cases hop : w.pending[index]? with
  | none =>
      rw [hop] at h
      cases h
  | some op =>
      simp only [hop] at h
      split at h
      · cases h
      · rename_i hnot
        refine ⟨op, rfl, ?_, (Option.some.inj h).symm⟩
        intro haborted
        simpa [haborted] using hnot

theorem step_workerBegin (h : step past w .workerBegin = some v) :
    w.thread = .starting ∧ v = w.workerBegin := by
  simp only [step, Option.ite_none_right_eq_some, Option.some.injEq] at h
  exact ⟨h.1, h.2.symm⟩

theorem step_workerCheck (h : step past w .workerCheck = some v) :
    w.thread = .looping ∧ v = w.workerCheck := by
  simp only [step, Option.ite_none_right_eq_some, Option.some.injEq] at h
  exact ⟨h.1, h.2.symm⟩

theorem step_workerWake {timedOut : Bool} (h : step past w (.workerWake timedOut) = some v) :
    w.thread = .waiting ∧ v = w.workerWake timedOut := by
  simp only [step, Option.ite_none_right_eq_some, Option.some.injEq] at h
  exact ⟨h.1, h.2.symm⟩

theorem entered_attempt (hstate : w.state = .notConnected) :
    w.Entered w.attempt .resolving w.ledger.attempted := by
  refine ⟨?_, rfl, kinds_initiate .resolve, rfl, List.prefix_append _ _⟩
  simp [attempt, enterResolving, initiate, goto, signal, ledger, posted, confirmed, held, traffic,
    hstate, State.holds, Ledger.attempted, Event.posted?, Event.confirmed?, Event.traffic]

/-- The worker goes, starts an attempt, falls asleep or does nothing. -/
theorem workerCheck_cases :
    (w.shutdown = true
        ∧ w.workerCheck = { w with sentinel := false, running := false, thread := .absent })
      ∨ (w.shutdown = false ∧ w.state = .notConnected ∧ w.messageQueue.jobs ≠ []
        ∧ w.workerCheck = w.attempt)
      ∨ (w.shutdown = false ∧ w.state = .notConnected ∧ w.messageQueue.jobs = []
        ∧ w.workerCheck = { w with thread := .waiting })
      ∨ (w.shutdown = false ∧ w.state ≠ .notConnected ∧ w.workerCheck = w) := by
  unfold workerCheck
  by_cases hshutdown : w.shutdown = true
  · rw [if_pos hshutdown]
    exact .inl ⟨hshutdown, rfl⟩
  · rw [if_neg hshutdown]
    rw [Bool.not_eq_true] at hshutdown
    by_cases hstate : w.state = .notConnected
    · rw [if_pos hstate, JobUnitQueue.waitFor]
      by_cases hjobs : w.messageQueue.jobs = []
      · rw [if_neg (not_not.mpr hjobs)]
        exact .inr (.inr (.inl ⟨hshutdown, hstate, hjobs, rfl⟩))
      · rw [if_pos hjobs]
        exact .inr (.inl ⟨hshutdown, hstate, hjobs, rfl⟩)
    · rw [if_neg hstate]
      exact .inr (.inr (.inr ⟨hshutdown, hstate, rfl⟩))

theorem handler_complete {index : Nat} {result : Completion} {op : PendingOp}
    (hop : w.pending[index]? = some op) : w.handler (.complete index result) = some op.kind := by
  show (w.pending[index]?).map (·.kind) = some op.kind
  rw [hop]
  rfl

/-- What a completion does to the ledger. -/
theorem moved_complete {index : Nat} {result : Completion}
    (h : step past w (.complete index result) = some v) : Moved w (.complete index result) v := by
  obtain ⟨op, hop, -, rfl⟩ := step_complete h
  have hhandler := @handler_complete w index result op hop
  -- the timer goes off in any state, the other handlers look at it
  by_cases htimer : op.kind = .timer
  · rw [htimer] at hhandler ⊢
    rcases @onTimer_cases (w.finish index) result with ⟨-, heq⟩ | ⟨hresult, hentered⟩
    · show Moved w _ ((w.finish index).onTimer result)
      rw [heq]
      exact .quiet rfl id
    · by_cases hholds : w.state.holds = true
      · exact .lost ⟨hholds, hhandler, hresult⟩ hentered.ledger hentered.state
      · refine .quiet (hentered.ledger.trans ?_) ?_
        · show w.ledger.lost = w.ledger
          simp [Ledger.lost, ledger, held, hholds]
        · have hstate : ((w.finish index).onComplete past .timer result).state = .notConnected :=
            hentered.state
          rw [hstate]
          intro hattempting
          cases hattempting
  · rcases (@handled_onComplete past (w.finish index) _ htimer result).outcome with
      ⟨hsame, -⟩ | ⟨-, hstate, hopen, ((herror | hsuccess) | ⟨s, hs, hentered⟩)
        | ⟨hkind, ⟨bytes, beyond, rfl⟩, hentered⟩⟩
    · refine .quiet hsame.ledger ?_
      rw [hsame.state]
      exact id
    · exact .returned herror.ledger herror.state
    · exact .delivered hsuccess.ledger hsuccess.state
    · refine .quiet hentered.ledger ?_
      rw [hentered.state]
      have hstate' : w.state = (w.finish index).state := rfl
      rcases hs with ⟨rfl, hresolving⟩ | rfl | rfl
      · intro _
        rw [hstate', hresolving]
        rfl
      · intro hattempting
        cases hattempting
      · intro hattempting
        cases hattempting
    · rw [hkind] at hhandler hstate
      exact .taken ⟨hhandler, hstate, hopen, trivial⟩ hentered.ledger hentered.state

/-- **What a step does to the messages.** -/
theorem step_moved (hresting : w.Resting) (h : step past w label = some v) : Moved w label v := by
  cases label with
  | start =>
      cases h
      unfold start
      split
      · exact .quiet rfl id
      · exact .quiet rfl id
  | stop =>
      cases h
      unfold stop
      split
      · exact .quiet rfl id
      · exact .quiet rfl id
  | post message =>
      cases h
      refine .posted message rfl ?_ rfl
      simp [post, signal, ledger, posted, confirmed, held, traffic, JobUnitQueue.put, Ledger.post,
        Event.posted?, Event.confirmed?, Event.traffic]
      rfl
  | dropMessages =>
      cases h
      refine .dropped rfl ?_ rfl
      simp [dropMessages, signal, ledger, posted, confirmed, held, traffic, JobUnitQueue.clear,
        Ledger.cleared, Event.posted?, Event.confirmed?, Event.traffic]
      rfl
  | workerBegin =>
      obtain ⟨-, rfl⟩ := step_workerBegin h
      -- the worker resets the state, and with it forgets what is held
      by_cases hholds : w.state.holds = true
      · exact .lost ⟨hholds, trivial⟩ rfl rfl
      · refine .quiet ?_ (fun hattempting => by cases hattempting)
        have hheld : w.held = none := by rw [held, if_neg hholds]
        show Ledger.mk w.posted w.confirmed none w.messageQueue.jobs w.traffic w.heap = w.ledger
        rw [← hheld]
        rfl
  | workerCheck =>
      obtain ⟨-, rfl⟩ := step_workerCheck h
      rcases @workerCheck_cases w with ⟨-, heq⟩ | ⟨-, hstate, -, heq⟩ | ⟨-, -, -, heq⟩
        | ⟨-, -, heq⟩ <;> rw [heq]
      · exact .quiet rfl id
      · exact .attempted (entered_attempt hstate).ledger
      · exact .quiet rfl id
      · exact .quiet rfl id
  | workerWake timedOut =>
      obtain ⟨hthread, rfl⟩ := step_workerWake h
      cases timedOut with
      | true => exact .quiet rfl id
      | false =>
          have hentered := @entered_attempt { w with thread := .looping } (hresting hthread)
          exact .attempted hentered.ledger
  | complete index result => exact moved_complete h

/-- A completion leaves the worker alone, and a machine that is not connected. -/
theorem idle_complete {index : Nat} {result : Completion}
    (h : step past w (.complete index result) = some v) :
    (v.frame = w.frame ∧ w.log <+: v.log)
      ∧ (w.state = .notConnected → v.state = .notConnected) := by
  obtain ⟨op, -, -, rfl⟩ := step_complete h
  by_cases htimer : op.kind = .timer
  · rw [htimer]
    rcases @onTimer_cases (w.finish index) result with ⟨-, heq⟩ | ⟨-, hentered⟩
    · rw [onComplete, heq]
      exact ⟨⟨rfl, List.prefix_rfl⟩, id⟩
    · exact ⟨⟨hentered.frame, hentered.log⟩, fun _ => hentered.state⟩
  · have hhandled := @handled_onComplete past (w.finish index) _ htimer result
    refine ⟨hhandled.frame, ?_⟩
    intro hstate
    rcases hhandled.outcome with ⟨hsame, -⟩ | ⟨-, hawaited, -⟩
    · exact hsame.state.trans hstate
    · exact absurd (hawaited.symm.trans hstate) op.kind.awaitedIn_ne

/-- The record only grows. -/
theorem log_step (h : step past w label = some v) : w.log <+: v.log := by
  cases label with
  | start =>
      cases h
      unfold start
      split <;> exact List.prefix_rfl
  | stop =>
      cases h
      unfold stop
      split <;> exact List.prefix_rfl
  | post message =>
      cases h
      exact List.prefix_append _ _
  | dropMessages =>
      cases h
      exact List.prefix_append _ _
  | workerBegin =>
      obtain ⟨-, rfl⟩ := step_workerBegin h
      exact List.prefix_rfl
  | workerCheck =>
      obtain ⟨-, rfl⟩ := step_workerCheck h
      rcases @workerCheck_cases w with ⟨-, heq⟩ | ⟨-, -, -, heq⟩ | ⟨-, -, -, heq⟩ | ⟨-, -, heq⟩ <;>
        rw [heq]
      · exact List.prefix_append _ _
  | workerWake timedOut =>
      obtain ⟨-, rfl⟩ := step_workerWake h
      cases timedOut with
      | true => exact List.prefix_rfl
      | false => exact List.prefix_append _ _
  | complete index result => exact (idle_complete h).1.2

theorem step_resting (hresting : w.Resting) (h : step past w label = some v) : v.Resting := by
  intro hthread
  cases label with
  | start =>
      cases h
      unfold start at hthread ⊢
      split at hthread
      · rename_i hrunning
        rw [if_pos hrunning]
        exact hresting hthread
      · cases hthread
  | stop =>
      cases h
      unfold stop at hthread ⊢
      split at hthread
      · rename_i hrunning
        rw [if_pos hrunning]
        exact hresting hthread
      · rename_i hrunning
        rw [if_neg hrunning]
        exact hresting hthread
  | post message =>
      cases h
      exact hresting hthread
  | dropMessages =>
      cases h
      exact hresting hthread
  | workerBegin =>
      obtain ⟨-, rfl⟩ := step_workerBegin h
      rfl
  | workerCheck =>
      obtain ⟨hlooping, rfl⟩ := step_workerCheck h
      rcases @workerCheck_cases w with ⟨-, heq⟩ | ⟨-, -, -, heq⟩ | ⟨-, hstate, -, heq⟩
        | ⟨-, -, heq⟩ <;> rw [heq] at hthread ⊢
      · cases hthread
      · exact absurd (hlooping.symm.trans hthread) (by decide)
      · exact hstate
      · exact absurd (hlooping.symm.trans hthread) (by decide)
  | workerWake timedOut =>
      obtain ⟨-, rfl⟩ := step_workerWake h
      cases timedOut <;> cases hthread
  | complete index result =>
      obtain ⟨⟨hframe, -⟩, hidle⟩ := idle_complete h
      have hsame : v.thread = w.thread := congrArg (·.1) hframe
      exact hidle (hresting (hsame.symm.trans hthread))

/-! ## The outbox -/

/-- The transmitter does what the outbox does. -/
structure Represents (w : SbdTransmitter) (o : Outbox MtMessage) : Prop where
  resting : w.Resting
  shows : w.ledger.Shows o

/-- The messages on record, in their order. -/
theorem Represents.messages {o : Outbox MtMessage} (h : w.Represents o) :
    w.confirmed ++ w.held.toList ++ w.messageQueue.jobs = o.items.map made := by
  have hconfirmed : w.confirmed = o.delivered.map made := h.shows.confirmed
  have hheld : w.held = o.held.map made := h.shows.held
  have hjobs : w.messageQueue.jobs = o.waiting.map made := h.shows.jobs
  rw [hconfirmed, hheld, hjobs, Outbox.items, List.map_append, List.map_append]
  cases o.held <;> rfl

/-- The operations of an outbox that are not in order, and the steps they come from. -/
def Warrants (w : SbdTransmitter) (label : Label) : Outbox.Op MtMessage → Prop
  | .lose => w.Loses label
  | .clear => label = .dropMessages
  | .makeUp => w.Fabricates label
  | _ => True

/-- A step is matched by one operation, or by none. -/
theorem matched {o : Outbox MtMessage} (hrep : w.Represents o) (h : step past w label = some v) :
    (v.ledger.Shows o) ∨ ∃ op o', w.Warrants label op ∧ o.apply op = some o' ∧ v.ledger.Shows o' := by
  have hshows := hrep.shows
  cases step_moved hrep.resting h with
  | quiet hledger =>
      rw [hledger]
      exact .inl hshows
  | posted message hlabel hledger =>
      obtain ⟨o', happly, hshows'⟩ := hshows.post message
      rw [hledger]
      exact .inr ⟨.post message, o', trivial, happly, hshows'⟩
  | dropped hlabel hledger =>
      obtain ⟨o', happly, hshows'⟩ := hshows.cleared
      rw [hledger]
      exact .inr ⟨.clear, o', hlabel, happly, hshows'⟩
  | attempted hledger =>
      rw [hledger]
      exact .inl ⟨hshows.posted, hshows.confirmed, hshows.held, hshows.jobs⟩
  | taken hlabel hledger =>
      have hheld : w.ledger.held = none := by
        show w.held = none
        rw [held, hlabel.2.1]
        rfl
      rw [hledger]
      -- `get()` of an empty queue makes a message up
      by_cases hjobs : w.ledger.jobs = []
      · obtain ⟨o', happly, hshows'⟩ := hshows.fabricated hheld hjobs
        exact .inr ⟨.makeUp, o', ⟨hlabel, hjobs⟩, happly, hshows'⟩
      · obtain ⟨o', happly, hshows'⟩ := hshows.taken hheld hjobs
        exact .inr ⟨.take, o', trivial, happly, hshows'⟩
  | returned hledger =>
      rw [hledger]
      by_cases hheld : w.ledger.held = none
      · exact .inl (hshows.unheld hheld).1
      · obtain ⟨o', happly, hshows'⟩ := (hshows.ended hheld).1
        exact .inr ⟨.giveBack, o', trivial, happly, hshows'⟩
  | delivered hledger =>
      rw [hledger]
      by_cases hheld : w.ledger.held = none
      · exact .inl (hshows.unheld hheld).2.1
      · obtain ⟨o', happly, hshows'⟩ := (hshows.ended hheld).2.1
        exact .inr ⟨.deliver, o', trivial, happly, hshows'⟩
  | lost hlabel hledger =>
      rw [hledger]
      by_cases hheld : w.ledger.held = none
      · exact .inl (hshows.unheld hheld).2.2
      · obtain ⟨o', happly, hshows'⟩ := (hshows.ended hheld).2.2
        exact .inr ⟨.lose, o', hlabel, happly, hshows'⟩

/-- **The transmitter refines the outbox**, with the operations that its steps warrant. -/
theorem outbox_simulation {allow : SbdTransmitter → Label → Prop}
    {allow' : Outbox MtMessage → Outbox.Op MtMessage → Prop}
    (hallow : ∀ w label op, allow w label → w.Warrants label op → ∀ o, allow' o op) :
    System.Simulation (system past) allow (Outbox.system MtMessage) allow' Represents where
  step w label v o hrep hok hstep := by
    have hresting := step_resting hrep.resting hstep
    rcases matched hrep hstep with hshows | ⟨op, o', hwarrants, happly, hshows⟩
    · exact ⟨[], o, .nil, hresting, hshows⟩
    · exact ⟨[op], o', .single (hallow w label op hok hwarrants o) happly, hresting, hshows⟩

theorem represents_init (host port : String) (heap : Heap) :
    (init host port heap).Represents {} := by
  refine ⟨?_, rfl, rfl, rfl, rfl⟩
  intro hthread
  cases hthread

end SbdTransmitter

end Iridium
