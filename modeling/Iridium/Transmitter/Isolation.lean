import Iridium.Transmitter.Refinement

/-!
# The runs of a transmitter

`stop` does not wait for the operations that are pending, and it cannot take back a completion that
is already queued. So handlers of one run may be called in the next one, and what keeps them from
doing anything there is the guard that each of them has (`Ignores`). `start` resets what the guards
look at: a handler that finds the new run in the state that it was itself registered in takes itself
for one of the new run. The timer's handler has no guard, and the one of a write frees `m_buf`
before it.

A run is left alone by the handlers of earlier runs if and only if they are called where their
guards hold (`isolated_iff`).
-/

namespace Iridium

open SbdDirectIp

namespace SbdTransmitter

variable (past : List UInt8 → Memory)

/-- Nothing of a run has changed, and its state machine has not moved on. -/
structure Untouched (w v : SbdTransmitter) : Prop where
  state : v.state = w.state
  prevState : v.prevState = w.prevState
  errDelay : v.errDelay = w.errDelay
  buf : v.buf = w.buf
  messageQueue : v.messageQueue = w.messageQueue
  pending : v.pending = w.pending

/-- If the step calls a handler of an earlier run, it leaves the current run alone. -/
def Isolated (w : SbdTransmitter) : Label → Prop
  | .complete index result => ∀ op ∈ w.pending[index]?, op.run ≠ w.runs →
      ∀ v ∈ step past w (.complete index result), (w.finish index).Untouched v
  | _ => True

/-- The guards: the machine is in another state than the one the handler is for, or has been
stopped. A write has freed `m_buf` before that. The timer's handler has none; what takes its place
is that everything is as it would leave it. -/
def Ignores (w : SbdTransmitter) : OpKind → Prop
  | .timer => w.state = .notConnected ∧ w.prevState = .notConnected ∧ w.buf = none
      ∧ (maxDelay ≤ w.errDelay ∨ w.errDelay = 0)
  | .write => (w.state ≠ .sending ∨ w.shutdown = true) ∧ w.buf = none
  | kind => w.state ≠ kind.awaitedIn ∨ w.shutdown = true

/-- If the step calls a handler of an earlier run, its operation was aborted or its guard holds. -/
def Guarded (w : SbdTransmitter) : Label → Prop
  | .complete index result => ∀ op ∈ w.pending[index]?, op.run ≠ w.runs →
      result = .aborted ∨ w.Ignores op.kind
  | _ => True

variable {past} {w v : SbdTransmitter} {label : Label}

theorem Untouched.refl : w.Untouched w := ⟨rfl, rfl, rfl, rfl, rfl, rfl⟩

/-! ## Handlers that do nothing -/

theorem untouched_handle {expected : State} {errorText : String → String}
    {proceed : List UInt8 → List UInt8 → SbdTransmitter} {result : Completion}
    (h : w.state ≠ expected ∨ w.shutdown = true) :
    w.Untouched (w.handle expected errorText proceed result) := by
  have heq : w.handle expected errorText proceed result = w := by
    cases result with
    | aborted => rfl
    | failed message => rw [handle, if_pos h]
    | done bytes beyond => rw [handle, if_pos h]
  rw [heq]
  exact Untouched.refl

/-- The handler of a write frees the buffer even where it ignores its completion. -/
theorem untouched_onWrite {result : Completion} (hresult : result ≠ .aborted)
    (h : w.state ≠ .sending ∨ w.shutdown = true) : w.resetBuf.Untouched (w.onWrite result) := by
  have hreset : w.resetBuf.state ≠ .sending ∨ w.resetBuf.shutdown = true := h
  cases result with
  | aborted => exact absurd rfl hresult
  | failed message =>
      simp only [onWrite]
      exact untouched_handle hreset
  | done bytes beyond =>
      simp only [onWrite]
      exact untouched_handle hreset

/-- What the timer's handler changes. -/
theorem onTimer_eq {result : Completion} (hresult : result ≠ .aborted) :
    (w.onTimer result).state = .notConnected ∧ (w.onTimer result).prevState = w.state
      ∧ (w.onTimer result).buf = none ∧ (w.onTimer result).messageQueue = w.messageQueue
      ∧ (w.onTimer result).pending = w.pending
      ∧ (w.onTimer result).errDelay = if w.errDelay < maxDelay then w.errDelay * 2
        else w.errDelay := by
  rw [onTimer_done hresult]
  split
  · exact ⟨rfl, rfl, rfl, rfl, rfl, rfl⟩
  · exact ⟨rfl, rfl, rfl, rfl, rfl, rfl⟩

theorem onComplete_aborted (kind : OpKind) : w.onComplete past kind .aborted = w := by
  cases kind <;> rfl

theorem untouched_of_ignores {kind : OpKind} {result : Completion} (hresult : result ≠ .aborted)
    (h : w.Ignores kind) : w.Untouched (w.onComplete past kind result) := by
  cases kind with
  | timer =>
      obtain ⟨hstate, hprev, hbuf, hdelay⟩ := h
      obtain ⟨hstate', hprev', hbuf', hqueue, hpending, hdelay'⟩ := @onTimer_eq w result hresult
      refine ⟨hstate'.trans hstate.symm, ?_, ?_, hbuf'.trans hbuf.symm, hqueue, hpending⟩
      · rw [onComplete, hprev', hstate, hprev]
      · rw [onComplete, hdelay']
        rcases hdelay with hmax | hzero
        · rw [if_neg (UInt16.not_lt.mpr hmax)]
        · rw [hzero]
          rfl
  | write =>
      obtain ⟨hguard, hbuf⟩ := h
      have hdone : w.resetBuf.Untouched (w.onWrite result) := untouched_onWrite hresult hguard
      exact ⟨hdone.state, hdone.prevState, hdone.errDelay, hdone.buf.trans hbuf.symm,
        hdone.messageQueue, hdone.pending⟩
  | resolve => exact untouched_handle h
  | connect => exact untouched_handle h
  | readHeader => exact untouched_handle h
  | readConfirmation => exact untouched_handle h

/-! ## Handlers that do something -/

/-- A handler that goes on changes the state, or waits for the next operation of the same kind. -/
theorem Entered.touches {kind : OpKind} {s : State} {l : Ledger} (h : w.Entered v s l)
    (hstate : w.state = kind.awaitedIn) : ¬ w.Untouched v := by
  intro hsame
  have hs : s = kind.awaitedIn := by rw [← h.state, hsame.state, hstate]
  have hkinds : v.kinds = w.kinds := congrArg (List.map _) hsame.pending
  rw [h.kinds, hs, kind.operations_awaitedIn] at hkinds
  have hlength := congrArg List.length hkinds
  simp at hlength

theorem guard_of_untouched {kind : OpKind} {result : Completion} (hkind : kind ≠ .timer)
    (hresult : result ≠ .aborted) (h : w.Untouched (w.onComplete past kind result)) :
    w.state ≠ kind.awaitedIn ∨ w.shutdown = true := by
  rcases (@handled_onComplete past w _ hkind result).outcome with
    ⟨-, haborted | hguard⟩ | ⟨-, hstate, -, ((herror | hsuccess) | ⟨s, -, hentered⟩)
      | ⟨-, -, hentered⟩⟩
  · exact absurd haborted hresult
  · exact hguard
  · exact absurd h (herror.touches hstate)
  · exact absurd h (hsuccess.touches hstate)
  · exact absurd h (hentered.touches hstate)
  · exact absurd h (hentered.touches hstate)

theorem ignores_of_untouched {kind : OpKind} {result : Completion} (hresult : result ≠ .aborted)
    (h : w.Untouched (w.onComplete past kind result)) : w.Ignores kind := by
  cases kind with
  | timer =>
      obtain ⟨hstate', hprev', hbuf', -, -, hdelay'⟩ := @onTimer_eq w result hresult
      have hstate : w.state = .notConnected := h.state.symm.trans hstate'
      refine ⟨hstate, ?_, h.buf.symm.trans hbuf', ?_⟩
      · exact (h.prevState.symm.trans hprev').trans hstate
      · have hdelay : (if w.errDelay < maxDelay then w.errDelay * 2 else w.errDelay)
            = w.errDelay := hdelay'.symm.trans h.errDelay
        by_cases hlt : w.errDelay < maxDelay
        · rw [if_pos hlt] at hdelay
          right
          grind
        · exact .inl (UInt16.not_lt.mp hlt)
  | write =>
      have hguard := guard_of_untouched (by decide) hresult h
      refine ⟨hguard, ?_⟩
      have hdone : w.resetBuf.Untouched (w.onWrite result) := untouched_onWrite hresult hguard
      exact h.buf.symm.trans hdone.buf
  | resolve => exact guard_of_untouched (by decide) hresult h
  | connect => exact guard_of_untouched (by decide) hresult h
  | readHeader => exact guard_of_untouched (by decide) hresult h
  | readConfirmation => exact guard_of_untouched (by decide) hresult h

/-! ## Steps and runs -/

theorem isolated_step (h : step past w label = some v) :
    w.Isolated past label ↔ w.Guarded label := by
  cases label with
  | complete index result =>
      obtain ⟨op, hop, -, rfl⟩ := step_complete h
      have hfinish : (w.finish index).Ignores op.kind ↔ w.Ignores op.kind := by
        cases op.kind <;> exact Iff.rfl
      constructor
      · intro hisolated op' hop' hstale
        cases Option.mem_unique hop' hop
        by_cases hresult : result = .aborted
        · exact .inl hresult
        · right
          exact hfinish.mp (ignores_of_untouched hresult (hisolated op hop hstale _ h))
      · intro hguarded op' hop' hstale v hv
        cases Option.mem_unique hop' hop
        cases Option.mem_unique hv h
        rcases hguarded op hop hstale with rfl | hignores
        · rw [onComplete_aborted]
          exact Untouched.refl
        · by_cases hresult : result = .aborted
          · rw [hresult, onComplete_aborted]
            exact Untouched.refl
          · exact untouched_of_ignores hresult (hfinish.mpr hignores)
  | _ => exact Iff.rfl

/-- **The runs of a transmitter are isolated** from each other, in any sequence of steps, if and
only if every handler of an earlier run is called with `operation_aborted` or where its guard
holds. -/
theorem isolated_iff {host port : String} {heap : Heap} {labels : List Label} :
    (system past).Run (Isolated past) (init host port heap) labels w
      ↔ (system past).Run Guarded (init host port heap) labels w := by
  -- step by step: nothing has to be known of the states in between
  have hno : ∀ {allow : SbdTransmitter → Label → Prop} (t : SbdTransmitter) (label : Label)
      (u : SbdTransmitter), True → allow t label → (system past).step t label = some u → True :=
    fun _ _ _ _ _ _ => trivial
  constructor
  · intro h
    apply h.strengthen hno _ trivial
    intro t label u _ hisolated hstep
    exact (isolated_step hstep).mp hisolated
  · intro h
    apply h.strengthen hno _ trivial
    intro t label u _ hguarded hstep
    exact (isolated_step hstep).mpr hguarded

/-- The first run ends while it waits after an error; the second one has started an attempt. -/
def staleLabels : List Label :=
  [.start, .post (MtMessage.init 1), .workerBegin, .workerCheck, .complete 0 (.failed "not found"),
    .stop, .workerCheck, .start, .workerBegin, .workerCheck]

/-- The timer of the first run, which had already expired when it was cancelled, ends the attempt of
the second one and doubles its delay. -/
theorem stale_timer_disturbs :
    ∃ w v, (system fun _ _ => 0).Run (fun _ _ => True) (init "h" "p" Heap.empty) staleLabels w
      ∧ step (fun _ _ => 0) w (.complete 0 (.done [] [])) = some v
      ∧ w.runs = 2 ∧ w.pending[0]? = some { kind := .timer, run := 1, cancelled := true }
      ∧ w.state = .resolving ∧ v.state = .notConnected ∧ v.errDelay = 2
      ∧ ¬ w.Isolated (fun _ _ => 0) (.complete 0 (.done [] [])) := by
  obtain ⟨w, hrun, hruns, hop, hstate, hstep⟩ := @System.exists_run_of_exec _ _
    (system fun _ _ => 0) (fun _ _ => True) _ (init "h" "p" Heap.empty) staleLabels
    (fun w => w.runs = 2 ∧ w.pending[0]? = some { kind := .timer, run := 1, cancelled := true }
      ∧ w.state = .resolving
      ∧ (step (fun _ _ => 0) w (.complete 0 (.done [] []))).any
        (fun v => decide (v.state = .notConnected ∧ v.errDelay = 2)) = true) _ (by decide +kernel)
  obtain ⟨v, hv, hdone⟩ := (Option.any_eq_true _ _).mp hstep
  obtain ⟨hstate', hdelay⟩ := of_decide_eq_true hdone
  refine ⟨w, v, hrun, hv, hruns, hop, hstate, hstate', hdelay, ?_⟩
  -- untouched, the second run would still be resolving
  intro hisolated
  have hstale : (1 : Nat) ≠ w.runs := by
    rw [hruns]
    decide
  have huntouched := hisolated _ hop hstale v hv
  have hsame : w.state = .notConnected := huntouched.state.symm.trans hstate'
  rw [hstate] at hsame
  cases hsame

end SbdTransmitter

end Iridium
