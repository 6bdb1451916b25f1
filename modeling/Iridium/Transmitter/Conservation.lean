import Iridium.Transmitter.InFlight

/-!
# Conservation

While the transmitter runs undisturbed, what the outbox guarantees of an orderly sender holds of it:
the messages posted are those confirmed, the one held and those in the queue, in this order
(`messages_conserved`).

Undisturbed means that it is not stopped, its queue is not dropped, and the worker is not woken up
for nothing. Then the timer goes off in the error state only, where no message is held, and there is
something to send as long as an attempt is under way (`Orderly`).

A transmitter that is stopped and started keeps its messages as long as no step loses the message
held (`messages_retained`). `stop` itself does not give that message back, so a run where the worker
starts again while a message is held loses it (`restart_loses_message`).
-/

namespace Iridium

open SbdDirectIp

namespace SbdTransmitter

variable {past : List UInt8 → Memory} {w v : SbdTransmitter} {label : Label}

/-- A step of a transmitter that runs undisturbed. -/
def Undisturbed (w : SbdTransmitter) : Label → Prop
  | .stop | .dropMessages => False
  | .workerWake timedOut => timedOut = true ∨ w.messageQueue.jobs ≠ []
  | .complete _ result => result ≠ .aborted
  | .start | .post _ | .workerBegin | .workerCheck => True

instance (w : SbdTransmitter) : DecidablePred w.Undisturbed
  | .stop | .dropMessages => inferInstanceAs (Decidable False)
  | .workerWake timedOut =>
    inferInstanceAs (Decidable (timedOut = true ∨ w.messageQueue.jobs ≠ []))
  | .complete _ result => inferInstanceAs (Decidable (result ≠ .aborted))
  | .start | .post _ | .workerBegin | .workerCheck => inferInstanceAs (Decidable True)

/-- What is not disturbed is not stopped. -/
theorem Undisturbed.unstopped (h : w.Undisturbed label) : Unstopped label := by
  cases label with
  | complete index result => exact h
  | stop => exact h
  | _ => trivial

/-- What holds of an undisturbed transmitter between its steps. -/
structure Orderly (w : SbdTransmitter) : Prop extends Steady w where
  full : w.state.attempting = true → w.messageQueue.jobs ≠ []

theorem orderly_init (host port : String) (heap : Heap) : (init host port heap).Orderly :=
  ⟨steady_init host port heap, fun h => by cases h⟩

/-- A completion starts no attempt, and leaves the queue alone while one is under way. -/
theorem full_complete (hw : w.Orderly) {index : Nat} {result : Completion}
    (h : step past w (.complete index result) = some v) (hattempting : v.state.attempting = true) :
    v.messageQueue.jobs ≠ [] := by
  obtain ⟨op, -, -, rfl⟩ := step_complete h
  have hnot : ∀ {s l}, (w.finish index).Entered ((w.finish index).onComplete past op.kind result)
      s l → s.attempting = true := by
    intro s l hentered
    rwa [hentered.state] at hattempting
  have hkeep : ((w.finish index).onComplete past op.kind result).ledger = w.ledger →
      w.state.attempting = true →
      ((w.finish index).onComplete past op.kind result).messageQueue.jobs ≠ [] := by
    intro hledger hbefore hnil
    have hjobs := congrArg Ledger.jobs hledger
    exact hw.full hbefore (hjobs.symm.trans hnil)
  -- of the handlers, only the one of a resolve leads to a state where this matters
  by_cases htimer : op.kind = .timer
  · rw [htimer] at hnot hkeep hattempting ⊢
    rcases @onTimer_cases (w.finish index) result with ⟨-, heq⟩ | ⟨-, hentered⟩
    · rw [onComplete, heq] at hattempting
      rw [onComplete, heq]
      exact hw.full hattempting
    · cases hnot hentered
  · rcases (@handled_onComplete past (w.finish index) _ htimer result).outcome with
      ⟨hsame, -⟩ | ⟨-, -, -, ((herror | hsuccess) | ⟨s, hs, hentered⟩) | ⟨-, -, hentered⟩⟩
    · rw [hsame.state] at hattempting
      exact hkeep hsame.ledger hattempting
    · cases hnot herror
    · cases hnot hsuccess
    · rcases hs with ⟨-, hresolving⟩ | rfl | rfl
      · refine hkeep hentered.ledger ?_
        show (w.finish index).state.attempting = true
        rw [hresolving]
        rfl
      · cases hnot hentered
      · cases hnot hentered
    · cases hnot hentered

/-- **Undisturbed, a transmitter stays in order.** -/
theorem orderly_step (hw : w.Orderly) (hallow : w.Undisturbed label)
    (h : step past w label = some v) : v.Orderly := by
  refine ⟨steady_step hw.toSteady hallow.unstopped h, ?_⟩
  cases label with
  | start =>
      cases h
      unfold start
      split <;> exact hw.full
  | stop => exact hallow.elim
  | post message =>
      cases h
      intro _
      exact List.append_ne_nil_of_right_ne_nil _ (List.cons_ne_nil _ _)
  | dropMessages => exact hallow.elim
  | workerBegin =>
      obtain ⟨-, rfl⟩ := step_workerBegin h
      intro hattempting
      cases hattempting
  | workerCheck =>
      obtain ⟨-, rfl⟩ := step_workerCheck h
      rcases @workerCheck_cases w with ⟨-, heq⟩ | ⟨-, -, hjobs, heq⟩ | ⟨-, -, -, heq⟩
        | ⟨-, -, heq⟩ <;> rw [heq]
      · exact hw.full
      · exact fun _ => hjobs
      · exact hw.full
      · exact hw.full
  | workerWake timedOut =>
      obtain ⟨-, rfl⟩ := step_workerWake h
      cases timedOut with
      | true => exact hw.full
      | false =>
          have hjobs : w.messageQueue.jobs ≠ [] := hallow.resolve_left (by decide)
          exact fun _ => hjobs
  | complete index result => exact full_complete hw h

/-- Undisturbed, no step loses or makes up a message. -/
theorem Orderly.warrants (hw : w.Orderly) (hallow : w.Undisturbed label)
    (h : step past w label = some v) : ¬ w.Loses label ∧ label ≠ .dropMessages
      ∧ ¬ w.Fabricates label := by
  refine ⟨?_, ?_, fun hfab => hw.full (by rw [hfab.1.2.1]; rfl) hfab.2⟩
  · rintro ⟨hholds, hwhy⟩
    cases label with
    | workerBegin =>
        obtain ⟨hthread, -⟩ := step_workerBegin h
        rw [hw.idle (by rw [hthread]; decide)] at hholds
        cases hholds
    | complete index result =>
        obtain ⟨op, hop, -, -⟩ := step_complete h
        have htimer : op.kind = .timer :=
          Option.some.inj ((handler_complete hop).symm.trans hwhy.1)
        rw [(hw.sole hop).1, htimer] at hholds
        cases hholds
    | _ => exact hwhy.elim
  · rintro rfl
    exact hallow

/-- **Conservation.** In every state that an undisturbed transmitter reaches, the messages posted
are those confirmed, then the one that is being sent or answered, then those in the queue. -/
theorem messages_conserved {host port : String} {heap : Heap} {labels : List Label}
    (h : (system past).Run Undisturbed (init host port heap) labels w) :
    w.posted = w.confirmed ++ w.held.toList ++ w.messageQueue.jobs := by
  have hrun := h.strengthen (fun _ _ _ => orderly_step) (fun _ _ _ => Orderly.warrants)
    (orderly_init host port heap)
  have hsim : System.Simulation (system past) (fun w label => ¬ w.Loses label
      ∧ label ≠ .dropMessages ∧ ¬ w.Fabricates label) (Outbox.system MtMessage)
      (fun o op => Outbox.Keeps o op ∧ Outbox.Honest o op) Represents := by
    apply outbox_simulation
    rintro w label op ⟨hlose, hdrop, hfab⟩ hwarrants o
    refine ⟨⟨?_, ?_⟩, ?_⟩ <;> rintro rfl
    · exact hlose hwarrants
    · exact hdrop hwarrants
    · exact hfab hwarrants
  obtain ⟨ops, o, hops, hrep⟩ := hsim.run hrun (represents_init host port heap)
  rw [show w.posted = o.posted from hrep.shows.posted, hrep.messages, Outbox.Run.exact hops,
    List.map_map]
  exact (List.map_id _).symm

/-- Two messages, the first of them sent twice: the first connection is lost while it waits for the
answer, the second brings a confirmation with status 1 in two reads. -/
def sampleLabels : List Label :=
  [.start, .workerBegin, .workerCheck, .post (MtMessage.init 1), .workerWake false,
    .complete 0 (.done [] []), .complete 0 (.done [] []), .post (MtMessage.init 2),
    .complete 0 (.done [] []), .complete 0 (.failed "reset"), .complete 0 (.done [] []),
    .workerCheck, .complete 0 (.done [] []), .complete 0 (.done [] []), .complete 0 (.done [] []),
    .complete 0 (.done [1, 0, 28, 0x44, 0, 25, 0, 0, 0, 7] []),
    .complete 0 (.done (List.replicate 15 0x30 ++ [0, 0, 0, 9, 0, 1]) []), .workerCheck]

theorem messages_conserved_sample :
    ∃ w, (system fun _ _ => 0).Run Undisturbed (init "h" "p" Heap.empty) sampleLabels w
      ∧ w.confirmed = [MtMessage.init 1] ∧ w.state = .resolving
      ∧ w.posted = w.confirmed ++ w.held.toList ++ w.messageQueue.jobs := by
  obtain ⟨w, hrun, hconfirmed, hstate⟩ := @System.exists_run_of_exec _ _ (system fun _ _ => 0)
    Undisturbed _ (init "h" "p" Heap.empty) sampleLabels
    (fun w => w.confirmed = [MtMessage.init 1] ∧ w.state = .resolving) _ (by decide +kernel)
  exact ⟨w, hrun, hconfirmed, hstate, messages_conserved hrun⟩

/-! ## Stop and start -/

/-- Nothing is lost: the messages posted are those confirmed, the one held and those in the queue,
each exactly once and in this order, but for messages that the transmitter has made up itself. -/
def Retains (w : SbdTransmitter) : Prop :=
  ∃ sent inFlight waiting : List (Option MtMessage),
    w.confirmed = sent.map made ∧ w.held.toList = inFlight.map made
      ∧ w.messageQueue.jobs = waiting.map made
      ∧ (sent ++ inFlight ++ waiting).reduceOption = w.posted

/-- **Whatever happens**, the transmitter duplicates nothing and reorders nothing: what it has on
record is some of the messages posted, in their order, but for messages it has made up itself. -/
theorem messages_sublist {allow : SbdTransmitter → Label → Prop} {host port : String} {heap : Heap}
    {labels : List Label} (h : (system past).Run allow (init host port heap) labels w) :
    ∃ items : List (Option MtMessage),
      w.confirmed ++ w.held.toList ++ w.messageQueue.jobs = items.map made
        ∧ items.reduceOption.Sublist w.posted := by
  have hsim : System.Simulation (system past) allow (Outbox.system MtMessage) (fun _ _ => True)
      Represents := outbox_simulation fun _ _ _ _ _ _ => trivial
  obtain ⟨ops, o, hops, hrep⟩ := hsim.run h (represents_init host port heap)
  refine ⟨o.items, hrep.messages, ?_⟩
  rw [show w.posted = o.posted from hrep.shows.posted]
  exact Outbox.Run.sublist hops

/-- No step of the run drops the queue, or loses the message held. -/
def Careful (w : SbdTransmitter) (label : Label) : Prop :=
  label ≠ .dropMessages ∧ ¬ w.Loses label

instance (w : SbdTransmitter) (label : Label) : Decidable (w.Careful label) := by
  unfold Careful
  infer_instance

/-- **Stop and start.** However often a transmitter is stopped and started, it retains its messages
in every state of a run in which the worker does not start, and the timer does not go off, while a
message is held. -/
theorem messages_retained {host port : String} {heap : Heap} {labels : List Label}
    (h : (system past).Run Careful (init host port heap) labels w) : w.Retains := by
  have hsim : System.Simulation (system past) Careful (Outbox.system MtMessage) Outbox.Keeps
      Represents := by
    apply outbox_simulation
    rintro w label op ⟨hdrop, hlose⟩ hwarrants o
    refine ⟨?_, ?_⟩ <;> rintro rfl
    · exact hlose hwarrants
    · exact hdrop hwarrants
  obtain ⟨ops, o, hops, hrep⟩ := hsim.run h (represents_init host port heap)
  refine ⟨o.delivered, o.held.toList, o.waiting, hrep.shows.confirmed, ?_, hrep.shows.jobs, ?_⟩
  · have hheld : w.held = o.held.map made := hrep.shows.held
    rw [hheld]
    cases o.held <;> rfl
  · exact (Outbox.Run.conserved hops).trans hrep.shows.posted.symm

/-- A step that loses the message held cannot be made good: where every message posted is on record
before it, one is missing after it. -/
theorem not_retains_of_loses (hloses : w.Loses label) (h : step past w label = some v)
    (hposted : w.posted = w.confirmed ++ w.held.toList ++ w.messageQueue.jobs) : ¬ v.Retains := by
  have hledger : v.ledger = w.ledger.lost := by
    obtain ⟨-, hwhy⟩ := hloses
    cases label with
    | workerBegin =>
        obtain ⟨-, rfl⟩ := step_workerBegin h
        rfl
    | complete index result =>
        obtain ⟨op, hop, -, rfl⟩ := step_complete h
        have htimer : op.kind = .timer :=
          Option.some.inj ((handler_complete hop).symm.trans hwhy.1)
        rw [htimer]
        exact ((@onTimer_cases (w.finish index) result).resolve_left fun hno =>
          hwhy.2 hno.1).2.ledger
    | _ => exact hwhy.elim
  have hheld : w.held = some w.sendingMessage := if_pos hloses.1
  rintro ⟨sent, inFlight, waiting, hsent, hinFlight, hwaiting, hall⟩
  rw [show v.confirmed = w.confirmed from congrArg Ledger.confirmed hledger] at hsent
  rw [show v.held = none from congrArg Ledger.held hledger] at hinFlight
  rw [show v.messageQueue.jobs = w.messageQueue.jobs from congrArg Ledger.jobs hledger] at hwaiting
  rw [show v.posted = w.posted from congrArg Ledger.posted hledger, hposted, hsent, hwaiting,
    hheld, List.map_eq_nil_iff.mp hinFlight.symm] at hall
  have hle := List.reduceOption_length_le (sent ++ [] ++ waiting)
  rw [hall] at hle
  simp at hle

/-- An error, then a stop and a start between attempts; the timer of the first run is aborted. -/
def carefulLabels : List Label :=
  [.start, .post (MtMessage.init 1), .workerBegin, .workerCheck, .complete 0 (.done [] []),
    .complete 0 (.done [] []), .complete 0 (.failed "reset"), .stop, .workerCheck,
    .complete 0 .aborted, .start, .workerBegin]

theorem messages_retained_sample :
    ∃ w, (system fun _ _ => 0).Run Careful (init "h" "p" Heap.empty) carefulLabels w
      ∧ w.state = .notConnected ∧ w.messageQueue.jobs = [MtMessage.init 1] ∧ w.Retains := by
  obtain ⟨w, hrun, hstate, hjobs⟩ := @System.exists_run_of_exec _ _ (system fun _ _ => 0)
    Careful _ (init "h" "p" Heap.empty) carefulLabels
    (fun w => w.state = .notConnected ∧ w.messageQueue.jobs = [MtMessage.init 1]) _
    (by decide +kernel)
  exact ⟨w, hrun, hstate, hjobs, messages_retained hrun⟩

/-- Stopped while the message is being sent. -/
def restartLabels : List Label :=
  [.start, .post (MtMessage.init 1), .workerBegin, .workerCheck, .complete 0 (.done [] []),
    .complete 0 (.done [] []), .stop, .complete 0 .aborted, .workerCheck, .start, .workerBegin]

/-- The message is neither confirmed nor in the queue after the second start. -/
theorem restart_loses_message :
    ∃ w, (system fun _ _ => 0).Run (fun _ label => label ≠ .dropMessages)
        (init "h" "p" Heap.empty) restartLabels w
      ∧ w.state = .notConnected ∧ w.posted = [MtMessage.init 1] ∧ ¬ w.Retains := by
  obtain ⟨w, hrun, hstate, hposted, hconfirmed, hheld, hjobs⟩ := @System.exists_run_of_exec _ _
    (system fun _ _ => 0) (fun _ label => label ≠ .dropMessages) _ (init "h" "p" Heap.empty)
    restartLabels (fun w => w.state = .notConnected ∧ w.posted = [MtMessage.init 1]
      ∧ w.confirmed = [] ∧ w.held = none ∧ w.messageQueue.jobs = []) _ (by decide +kernel)
  refine ⟨w, hrun, hstate, hposted, ?_⟩
  rintro ⟨sent, inFlight, waiting, hsent, hinFlight, hwaiting, hall⟩
  rw [hconfirmed] at hsent
  rw [hheld] at hinFlight
  rw [hjobs] at hwaiting
  rw [List.map_eq_nil_iff.mp hsent.symm, List.map_eq_nil_iff.mp hinFlight.symm,
    List.map_eq_nil_iff.mp hwaiting.symm, hposted] at hall
  cases hall

end SbdTransmitter

end Iridium
