import Iridium.SbdDirectIp.Confirmation
import Iridium.Transmitter.Exchange
import Iridium.Transmitter.Isolation

/-!
# Progress

A transmitter that runs never gets stuck, whatever has happened before: by itself it can still have
every message confirmed that it holds or that is in its queue, in this order (`progress`). What this
rests on is that the operation of its state is always under way and not cancelled (`Live`), although
others may be pending that are.

A transmitter that is stopped comes to rest. Each step of its own leaves it with less to do, a post, a
drop or another stop leaves it with no more, and when there is nothing to do its worker is gone,
nothing is pending, and its messages are still in the queue (`stop_drains`).
-/

namespace Iridium

open ByteOrder SbdDirectIp

namespace SbdTransmitter

variable {past : List UInt8 → Memory} {w v : SbdTransmitter} {label : Label}

/-- A step of the worker or a completion: no public function is called. -/
def Internal (_ : SbdTransmitter) : Label → Prop
  | .start | .stop | .post _ | .dropMessages => False
  | .workerBegin | .workerCheck | .workerWake _ | .complete _ _ => True

instance (w : SbdTransmitter) : DecidablePred w.Internal
  | .start | .stop | .post _ | .dropMessages => inferInstanceAs (Decidable False)
  | .workerBegin | .workerCheck | .workerWake _ | .complete _ _ => inferInstanceAs (Decidable True)

/-! ## The operation of a state -/

/-- The machine is not connected, or waits for an operation that is under way and not cancelled. -/
def Live (w : SbdTransmitter) : Prop :=
  w.state = .notConnected
    ∨ ∃ op ∈ w.pending, w.state = op.kind.awaitedIn ∧ op.cancelled = false

theorem live_initiate {kind : OpKind} (hstate : w.state = kind.awaitedIn) :
    (w.initiate kind).Live :=
  .inr ⟨{ kind := kind, run := w.runs }, by simp [initiate], hstate, rfl⟩

theorem live_enterError (hstate : w.state = .error) : w.enterError.Live := by
  unfold enterError
  apply live_initiate
  unfold giveBack
  split <;> split <;> exact hstate

theorem live_fail (what : String) : (w.fail what).Live := live_enterError rfl

theorem live_answered (rest : List UInt8) (status : Int16) : (w.answered rest status).Live := by
  unfold answered
  dsimp only
  split
  · exact live_enterError rfl
  · exact .inl (succeed_eq rfl).2.2

theorem live_processing : (w.enterProcessingConfirmation past).Live := by
  unfold enterProcessingConfirmation
  dsimp only
  split
  · exact live_fail _
  · split
    · exact live_fail _
    · exact live_answered _ _

theorem live_receiving (hstate : w.state = .receivingConfirmation) :
    (w.enterReceivingConfirmation past).Live := by
  have hderef : w.deref.2.state = w.state := same_deref.state
  unfold enterReceivingConfirmation
  dsimp only
  split
  · exact live_initiate (hderef.trans hstate)
  · exact live_processing

theorem live_checkHeader (header : MessageHeader) : (w.checkHeader past header).Live := by
  unfold checkHeader
  split
  · exact live_fail _
  · exact live_receiving rfl

theorem live_handle {expected : State} {errorText : String → String}
    {proceed : List UInt8 → List UInt8 → SbdTransmitter} {result : Completion}
    (hproceed : ∀ bytes beyond, (proceed bytes beyond).Live) (hstate : w.state = expected)
    (hopen : w.shutdown = false) (hresult : result ≠ .aborted) :
    (w.handle expected errorText proceed result).Live := by
  cases result with
  | aborted => exact absurd rfl hresult
  | failed message =>
      rw [(handle_eq hstate hopen errorText proceed).1]
      exact live_fail _
  | done bytes beyond =>
      rw [(handle_eq hstate hopen errorText proceed).2]
      exact hproceed bytes beyond

/-- **The handler of the operation that a state waits for starts the next one.** -/
theorem live_onComplete {kind : OpKind} {result : Completion} (hstate : w.state = kind.awaitedIn)
    (hopen : w.shutdown = false) (hresult : result ≠ .aborted) :
    (w.onComplete past kind result).Live := by
  cases kind with
  | resolve => exact live_handle (fun _ _ => live_initiate rfl) hstate hopen hresult
  | connect => exact live_handle (fun _ _ => live_initiate rfl) hstate hopen hresult
  | write =>
      cases result with
      | aborted => exact absurd rfl hresult
      | failed message => exact live_handle (fun _ _ => live_initiate rfl) hstate hopen hresult
      | done bytes beyond => exact live_handle (fun _ _ => live_initiate rfl) hstate hopen hresult
  | readHeader => exact live_handle (fun _ _ => live_checkHeader _) hstate hopen hresult
  | readConfirmation => exact live_handle (fun _ _ => live_receiving rfl) hstate hopen hresult
  | timer => exact .inl (onTimer_eq hresult).1

theorem handle_ignored {expected : State} {errorText : String → String}
    {proceed : List UInt8 → List UInt8 → SbdTransmitter} {result : Completion}
    (h : result = .aborted ∨ w.state ≠ expected ∨ w.shutdown = true) :
    w.handle expected errorText proceed result = w := by
  rcases handle_cases expected errorText proceed result with ⟨heq, -⟩ | ⟨hresult, hstate, hopen, -⟩
  · exact heq
  · rcases h with haborted | hother | hstopped
    · exact absurd haborted hresult
    · exact absurd hstate hother
    · exact absurd (hstopped.symm.trans hopen) (by decide)

/-- A handler that ignores its completion frees the buffer at most. -/
theorem ignored_onComplete {kind : OpKind} {result : Completion} (hkind : kind ≠ .timer)
    (h : result = .aborted ∨ w.state ≠ kind.awaitedIn ∨ w.shutdown = true) :
    w.onComplete past kind result = w ∨ w.onComplete past kind result = w.resetBuf := by
  cases kind with
  | timer => exact absurd rfl hkind
  | write =>
      have hreset : result = .aborted ∨ w.resetBuf.state ≠ .sending ∨ w.resetBuf.shutdown = true := h
      cases result with
      | aborted => exact .inl rfl
      | failed message =>
          refine .inr ?_
          simp only [onComplete, onWrite]
          exact handle_ignored hreset
      | done bytes beyond =>
          refine .inr ?_
          simp only [onComplete, onWrite]
          exact handle_ignored hreset
  | resolve => exact .inl (handle_ignored h)
  | connect => exact .inl (handle_ignored h)
  | readHeader => exact .inl (handle_ignored h)
  | readConfirmation => exact .inl (handle_ignored h)

theorem live_complete (hw : w.Live) (hopen : w.shutdown = false) {index : Nat}
    {result : Completion} (h : step past w (.complete index result) = some v) : v.Live := by
  obtain ⟨op, hop, haborted, rfl⟩ := step_complete h
  by_cases hwork : result ≠ .aborted ∧ (op.kind = .timer ∨ w.state = op.kind.awaitedIn)
  · obtain ⟨hresult, htimer | hstate⟩ := hwork
    · rw [htimer]
      exact .inl (onTimer_eq hresult).1
    · exact live_onComplete hstate hopen hresult
  · -- the operation that the state waits for is another one, and is still there
    have hignored : ((w.finish index).onComplete past op.kind result).state = w.state
        ∧ ((w.finish index).onComplete past op.kind result).pending = (w.finish index).pending := by
      by_cases hresult : result = .aborted
      · rw [hresult, onComplete_aborted]
        exact ⟨rfl, rfl⟩
      · have hnot : ¬ (op.kind = .timer ∨ w.state = op.kind.awaitedIn) :=
          fun h => hwork ⟨hresult, h⟩
        rw [not_or] at hnot
        rcases @ignored_onComplete past (w.finish index) _ result hnot.1 (.inr (.inl hnot.2)) with
          heq | heq <;> rw [heq] <;> exact ⟨rfl, rfl⟩
    rcases hw with hidle | ⟨other, hother, hstate, hcancelled⟩
    · exact .inl (hignored.1.trans hidle)
    · refine .inr ⟨other, ?_, hignored.1.trans hstate, hcancelled⟩
      rw [hignored.2]
      show other ∈ w.pending.eraseIdx index
      rw [List.mem_eraseIdx_iff_getElem?]
      obtain ⟨i, hi⟩ := List.mem_iff_getElem?.mp hother
      refine ⟨i, ?_, hi⟩
      rintro rfl
      rw [hop] at hi
      obtain rfl := Option.some.inj hi
      by_cases hresult : result = .aborted
      · exact absurd (hcancelled.symm.trans (haborted hresult)) (by decide)
      · exact hwork ⟨hresult, .inr hstate⟩

/-- What holds in every state of a transmitter, stopped and started as it may be. -/
structure Serving (w : SbdTransmitter) : Prop where
  running : w.running = true ↔ w.thread ≠ .absent
  resting : w.Resting
  live : w.shutdown = false → w.thread ≠ .starting → w.Live
  gone : w.thread = .absent → w.sentinel = false ∧ (w.shutdown = true ∨ w.pending = [])

theorem serving_init (host port : String) (heap : Heap) : (init host port heap).Serving where
  running := by simp [init]
  resting := nofun
  live _ _ := .inl rfl
  gone _ := ⟨rfl, .inr rfl⟩

theorem live_attempt : w.attempt.Live := live_initiate rfl

/-- A worker that has gone is not replaced by a completion. -/
theorem sentinel_complete (hstopped : w.shutdown = true) (hsentinel : w.sentinel = false)
    {index : Nat} {result : Completion} (h : step past w (.complete index result) = some v) :
    v.sentinel = false := by
  obtain ⟨op, -, -, rfl⟩ := step_complete h
  by_cases htimer : op.kind = .timer
  · rw [htimer]
    by_cases hresult : result = .aborted
    · rw [hresult]
      exact hsentinel
    · rw [onComplete, onTimer_done hresult]
      rfl
  · rcases @ignored_onComplete past (w.finish index) _ result htimer (.inr (.inr hstopped)) with
      heq | heq <;> rw [heq] <;> exact hsentinel

theorem serving_complete (hw : w.Serving) {index : Nat} {result : Completion}
    (h : step past w (.complete index result) = some v) : v.Serving := by
  have hframe := (idle_complete h).1.1
  have hthread : v.thread = w.thread := congrArg (·.1) hframe
  have hrunning : v.running = w.running := congrArg (·.2.1) hframe
  have hshutdown : v.shutdown = w.shutdown := congrArg (·.2.2) hframe
  refine ⟨?_, step_resting hw.resting h, ?_, ?_⟩
  · rw [hrunning, hthread]
    exact hw.running
  · rw [hshutdown, hthread]
    intro hopen hstarted
    exact live_complete (hw.live hopen hstarted) hopen h
  · rw [hthread, hshutdown]
    intro hgone
    obtain ⟨hsentinel, hstopped | hnone⟩ := hw.gone hgone
    · exact ⟨sentinel_complete hstopped hsentinel h, .inl hstopped⟩
    · obtain ⟨op, hop, -⟩ := step_complete h
      rw [hnone] at hop
      cases hop

theorem serving_step (hw : w.Serving) (h : step past w label = some v) : v.Serving := by
  have hresting := step_resting hw.resting h
  obtain ⟨hrunning, hrests, hlive, hgone⟩ := id hw
  cases label with
  | start =>
      cases h
      unfold start at hresting ⊢
      split at hresting
      · next hrun =>
          rw [if_pos hrun]
          exact ⟨hrunning, hresting, hlive, hgone⟩
      · next hrun =>
          rw [if_neg hrun]
          exact ⟨by simp, hresting, fun _ h => absurd rfl h, nofun⟩
  | stop =>
      cases h
      unfold stop at hresting ⊢
      split at hresting
      · next hrun =>
          rw [if_pos hrun]
          refine ⟨hrunning, hresting, nofun, ?_⟩
          intro hthread
          exact absurd hthread (hrunning.mp hrun)
      · next hrun =>
          rw [if_neg hrun]
          exact ⟨hrunning, hresting, hlive, hgone⟩
  | post message =>
      cases h
      exact ⟨hrunning, hresting, hlive, hgone⟩
  | dropMessages =>
      cases h
      exact ⟨hrunning, hresting, hlive, hgone⟩
  | workerBegin =>
      obtain ⟨hthread, rfl⟩ := step_workerBegin h
      have hrun : w.running = true := hrunning.mpr (by rw [hthread]; decide)
      exact ⟨iff_of_true hrun (show Thread.looping ≠ .absent by decide), hresting,
        fun _ _ => .inl rfl, nofun⟩
  | workerCheck =>
      obtain ⟨hthread, rfl⟩ := step_workerCheck h
      have hrun : w.running = true := hrunning.mpr (by rw [hthread]; decide)
      have hstarted : w.thread ≠ .starting := by rw [hthread]; decide
      rcases @workerCheck_cases w with ⟨hstopped, heq⟩ | ⟨hopen, hstate, -, heq⟩
        | ⟨hopen, hstate, -, heq⟩ | ⟨hopen, -, heq⟩ <;> rw [heq] at hresting ⊢
      · refine ⟨by simp, hresting, ?_, fun _ => ⟨rfl, .inl hstopped⟩⟩
        intro hopen
        exact absurd (hstopped.symm.trans hopen) (by decide)
      · refine ⟨hrunning, hresting, fun _ _ => live_attempt, ?_⟩
        intro habsent
        exact absurd (hthread.symm.trans habsent) (by decide)
      · exact ⟨iff_of_true hrun (show Thread.waiting ≠ .absent by decide), hresting,
          fun _ _ => .inl hstate, nofun⟩
      · exact ⟨hrunning, hresting, hlive, hgone⟩
  | workerWake timedOut =>
      obtain ⟨hthread, rfl⟩ := step_workerWake h
      have hrun : w.running = true := hrunning.mpr (by rw [hthread]; decide)
      have hstate := hrests hthread
      cases timedOut with
      | true => exact ⟨iff_of_true hrun (show Thread.looping ≠ .absent by decide), hresting,
          fun _ _ => .inl hstate, nofun⟩
      | false => exact ⟨iff_of_true hrun (show Thread.looping ≠ .absent by decide), hresting,
          fun _ _ => live_attempt, nofun⟩
  | complete index result => exact serving_complete hw h

/-! ## A transmission -/

section Transmission

/-- A packet with one confirmation, whose status is zero. -/
def acknowledgement : List UInt8 := [1, 0, 28, 0x44, 0, 25] ++ List.replicate 25 0

theorem judge_acknowledgement (before : SbdTransmitter) :
    (before.judge past (acknowledgement.drop 3)).state = .notConnected := by
  have hblocks : ∀ b ∈ [acknowledgement.drop 3], IsConfirmationBlock b := by decide
  have hsize : (acknowledgement.drop 3).length ≤ 65535 := by decide
  obtain ⟨ps, hmap, ⟨p, qs, rfl, hp⟩, hparses, hscan⟩ :=
    blocks_accepted (past (acknowledgement.drop 3)) (List.cons_ne_nil _ _) hblocks
      (List.append_nil _).symm
  have hconfirm : ∃ q ∈ p :: qs, q.kind = .mtConfirmationMsg := ⟨p, List.mem_cons_self, hp⟩
  have hok : ((Codec.parseMtConfirm _ MtConfirmMessage.init).result _).1 = .ok () :=
    (parseMtConfirm_ok_iff hsize hparses).mpr ⟨rfl, hconfirm⟩
  have hmessage := parseMtConfirm_message hsize hparses hok
  obtain ⟨e, hfirst, -, -, -, hstatus⟩ := confirmation_found hconfirm
  -- the element found is the only one, and its encoding is the block
  have he : p.toWireElement = e := by
    rw [elementsOf_cons, first, List.find?_cons_of_pos (by simpa using hp)] at hfirst
    exact Option.some.inj hfirst
  have hzero : be16 (slice e.content 23 2) = 0 := by
    have hblock : p.frame.encode = acknowledgement.drop 3 := (List.cons.inj hmap).1
    rw [← he, ← slice_encode, hblock]
    decide
  rw [hzero, ← hmessage] at hstatus
  unfold judge
  dsimp only
  rw [hscan, if_neg (not_not_intro rfl)]
  generalize (Codec.parseMtConfirm _ MtConfirmMessage.init).result _ = parsed at hok hstatus
  obtain ⟨thrown, confirmation⟩ := parsed
  dsimp only at hok hstatus
  rw [hok]
  dsimp only
  rw [hstatus]
  rfl

/-- The worker is in its loop, and the machine in a state with the operation of it under way. -/
structure Under (w : SbdTransmitter) (s : State) (l : Ledger) : Prop where
  shutdown : w.shutdown = false
  thread : w.thread = .looping
  state : w.state = s
  ledger : w.ledger = l
  live : w.Live

theorem OpKind.awaitedIn_inj {kind kind' : OpKind} (h : kind.awaitedIn = kind'.awaitedIn) :
    kind = kind' := by
  cases kind <;> cases kind' <;> first | rfl | cases h

/-- The transmitter can come to such a state by itself. -/
def Reaches (past : List UInt8 → Memory) (w : SbdTransmitter) (p : SbdTransmitter → Prop) : Prop :=
  ∃ ls v, (system past).Run Internal w ls v ∧ p v

theorem Reaches.refl {p : SbdTransmitter → Prop} (h : p w) : Reaches past w p := ⟨[], w, .nil, h⟩

theorem Reaches.step {p : SbdTransmitter → Prop} (hinternal : w.Internal label)
    (hstep : step past w label = some v) (h : Reaches past v p) : Reaches past w p := by
  obtain ⟨ls, u, hrun, hu⟩ := h
  exact ⟨label :: ls, u, (System.Run.single hinternal hstep).trans hrun, hu⟩

theorem Reaches.trans {p q : SbdTransmitter → Prop} (h : Reaches past w p)
    (hnext : ∀ v, p v → Reaches past v q) : Reaches past w q := by
  obtain ⟨ls, v, hrun, hv⟩ := h
  obtain ⟨ks, u, hrun', hu⟩ := hnext v hv
  exact ⟨ls ++ ks, u, hrun.trans hrun', hu⟩

/-- The operation of the state can complete, with any result. -/
theorem Live.complete (hw : w.Live) {kind : OpKind} (hstate : w.state = kind.awaitedIn)
    {result : Completion} (hresult : result ≠ .aborted) :
    ∃ index, step past w (.complete index result)
      = some ((w.finish index).onComplete past kind result) := by
  rcases hw with hidle | ⟨op, hop, hawaited, hcancelled⟩
  · exact absurd (hstate.symm.trans hidle) kind.awaitedIn_ne
  · obtain ⟨index, hindex⟩ := List.mem_iff_getElem?.mp hop
    obtain rfl := OpKind.awaitedIn_inj (hawaited.symm.trans hstate)
    refine ⟨index, ?_⟩
    simp only [step, hindex]
    rw [if_neg (fun h => hresult h.1)]

/-- **One completion**, which brings the machine from the state that it is for to the next. -/
theorem Under.next {kind : OpKind} {s : State} {l : Ledger} {l' : Ledger → Ledger} {result : Completion}
    {p : SbdTransmitter → Prop} (hw : w.Under kind.awaitedIn l) (hresult : result ≠ .aborted)
    (hentered : ∀ u : SbdTransmitter, u.state = kind.awaitedIn → u.shutdown = false →
      u.buf = w.buf → u.Entered (u.onComplete past kind result) s (l' u.ledger))
    (hnext : ∀ index, ((w.finish index).onComplete past kind result).Under s (l' l) →
      Reaches past ((w.finish index).onComplete past kind result) p) : Reaches past w p := by
  obtain ⟨index, hstep⟩ := @Live.complete past w hw.live kind hw.state result hresult
  have h := hentered (w.finish index) hw.state hw.shutdown rfl
  have hledger : (w.finish index).ledger = l := hw.ledger
  rw [hledger] at h
  refine @Reaches.step past _ _ (.complete index result) _ trivial hstep (hnext index ?_)
  refine ⟨?_, ?_, h.state, h.ledger, ?_⟩
  · exact (congrArg (·.2.2) h.frame).trans hw.shutdown
  · exact (congrArg (·.1) h.frame).trans hw.thread
  · exact live_onComplete hw.state hw.shutdown hresult

theorem entered_resolved {u : SbdTransmitter} (hstate : u.state = .resolving)
    (hopen : u.shutdown = false) :
    u.Entered (u.onComplete past .resolve (.done [] [])) .connecting u.ledger := by
  rw [onComplete, onResolve, (handle_eq hstate hopen _ _).2]
  refine ⟨?_, rfl, kinds_initiate _, rfl, List.prefix_rfl⟩
  have hholds : State.connecting.holds = u.state.holds := by
    rw [hstate]
    rfl
  exact ledger_goto hholds

theorem entered_connected {u : SbdTransmitter} (hstate : u.state = .connecting)
    (hopen : u.shutdown = false) :
    u.Entered (u.onComplete past .connect (.done [] [])) .sending u.ledger.taken := by
  rw [onComplete, onConnect, (handle_eq hstate hopen _ _).2]
  exact taken_sending hstate

theorem onWrite_done {u : SbdTransmitter} (hstate : u.state = .sending)
    (hopen : u.shutdown = false) : u.onComplete past .write (.done [] [])
      = (u.resetBuf.goto .receivingHeader).enterReceivingHeader := by
  simp only [onComplete, onWrite]
  rw [(@handle_eq u.resetBuf .sending hstate hopen _ _).2]

theorem entered_written {u : SbdTransmitter} (hstate : u.state = .sending)
    (hopen : u.shutdown = false) :
    u.Entered (u.onComplete past .write (.done [] [])) .receivingHeader u.ledger := by
  rw [onWrite_done hstate hopen]
  refine ⟨?_, rfl, kinds_initiate _, rfl, List.prefix_rfl⟩
  have hholds : State.receivingHeader.holds = u.resetBuf.state.holds := by
    show _ = u.state.holds
    rw [hstate]
    rfl
  exact ledger_goto hholds

/-- A confirmation that is in the buffer is processed at once. -/
theorem state_receiving {u : SbdTransmitter} (hbuf : u.buf = some (acknowledgement.drop 3))
    (hlength : u.confirmationLength = 28) :
    (u.enterReceivingConfirmation past).state = .notConnected := by
  have hderef : u.deref = (acknowledgement.drop 3, u) := deref_eq hbuf
  have hlen : u.confirmationLength.toNat ≤ (acknowledgement.drop 3).length := by
    rw [hlength]
    decide
  have htake : (acknowledgement.drop 3).take u.confirmationLength.toNat
      = acknowledgement.drop 3 := by
    rw [hlength]
    decide
  unfold enterReceivingConfirmation
  rw [hderef]
  dsimp only
  rw [if_neg (Nat.not_lt.mpr hlen)]
  have hended := @ended_processing u (u.goto .processingConfirmation) past _ ⟨rfl, rfl, rfl⟩
    (show State.sending.value ≤ State.processingConfirmation.value by decide) hbuf hlen
  have hstate : _ = (u.judge past _).state := congrArg (·.state) hended.outcome
  refine hstate.trans ?_
  show (u.judge past ((acknowledgement.drop 3).take u.confirmationLength.toNat)).state = _
  rw [htake]
  exact judge_acknowledgement u

/-- The confirmation comes in one read. -/
theorem entered_acknowledged {u : SbdTransmitter} (hstate : u.state = .receivingHeader)
    (hopen : u.shutdown = false) (hbuf : u.buf = some []) :
    u.Entered (u.onComplete past .readHeader (.done acknowledgement [])) .notConnected
      u.ledger.delivered := by
  have hdone : (u.onComplete past .readHeader (.done acknowledgement [])).state = .notConnected := by
    have hderef : u.deref = ([], u) := deref_eq hbuf
    have htake : u.takeHeader ([] ++ acknowledgement) []
        = (⟨1, 0x1C00⟩, u.setBuf (acknowledgement.drop 3)) := rfl
    rw [onComplete, onReadHeader, (handle_eq hstate hopen _ _).2, hderef]
    dsimp only
    rw [htake]
    dsimp only
    rw [checkHeader, if_neg (by decide)]
    exact state_receiving rfl (show ntohs 0x1C00 = 28 by decide)
  rcases (@handled_readHeader past u (.done acknowledgement [])).outcome with
    ⟨-, haborted | hother | hstopped⟩ | ⟨-, -, -, ((herror | hsuccess) | ⟨s, hs, hentered⟩)
      | ⟨hkind, -⟩⟩
  · cases haborted
  · exact absurd hstate hother
  · exact absurd (hopen.symm.trans hstopped) (by decide)
  · exact absurd (hdone.symm.trans herror.state) (by decide)
  · exact hsuccess
  · have hcontra : State.notConnected = s := hdone.symm.trans hentered.state
    rcases hs with ⟨rfl, -⟩ | rfl | rfl <;> cases hcontra
  · cases hkind

/-- The error exit of every handler but the timer's. -/
theorem entered_failed {kind : OpKind} {u : SbdTransmitter} (hkind : kind ≠ .timer)
    (hstate : u.state = kind.awaitedIn) (hopen : u.shutdown = false) :
    u.Entered (u.onComplete past kind (.failed "")) .error u.ledger.returned := by
  have hmin : 1 ≤ u.state.value := by
    rw [hstate]
    cases kind <;> decide
  have hmax : u.state.value ≤ 6 := by
    rw [hstate]
    cases kind <;> first | decide | exact absurd rfl hkind
  cases kind with
  | timer => exact absurd rfl hkind
  | write =>
      simp only [onComplete, onWrite]
      rw [(@handle_eq u.resetBuf .sending hstate hopen _ _).1]
      have hsame : u.Same u.resetBuf := ⟨rfl, rfl, rfl, rfl, List.prefix_rfl⟩
      exact hsame.entered (entered_fail _ hmin hmax)
  | resolve =>
      rw [onComplete, onResolve, (@handle_eq u .resolving hstate hopen _ _).1]
      exact entered_fail _ hmin hmax
  | connect =>
      rw [onComplete, onConnect, (@handle_eq u .connecting hstate hopen _ _).1]
      exact entered_fail _ hmin hmax
  | readHeader =>
      rw [onComplete, onReadHeader, (@handle_eq u .receivingHeader hstate hopen _ _).1]
      exact entered_fail _ hmin hmax
  | readConfirmation =>
      rw [onComplete, onReadConfirmation, (@handle_eq u .receivingConfirmation hstate hopen _ _).1]
      exact entered_fail _ hmin hmax

/-- The timer goes off in the error state, where no message is held. -/
theorem entered_expired {u : SbdTransmitter} (hstate : u.state = .error) :
    u.Entered (u.onComplete past .timer (.done [] [])) .notConnected u.ledger := by
  have hlost : u.ledger.lost = u.ledger := by
    simp [Ledger.lost, ledger, held, hstate, State.holds]
  rcases @onTimer_cases u (.done [] []) with ⟨haborted, -⟩ | ⟨-, hentered⟩
  · cases haborted
  · rwa [hlost] at hentered

end Transmission

/-! ## Progress -/

/-- The machine is not connected, and the worker comes to it. -/
structure Ready (w : SbdTransmitter) : Prop where
  shutdown : w.shutdown = false
  thread : w.thread = .looping ∨ w.thread = .waiting
  state : w.state = .notConnected

/-- The worker starts an attempt, awake or asleep. -/
theorem Ready.attempt (hw : w.Ready) {message : MtMessage} {jobs : List MtMessage}
    (hjobs : w.messageQueue.jobs = message :: jobs) {p : SbdTransmitter → Prop}
    (h : ∀ v, v.Under .resolving w.ledger.attempted → Reaches past v p) : Reaches past w p := by
  rcases hw.thread with hthread | hthread
  · have hcheck : w.workerCheck = w.attempt := by
      rw [workerCheck, hw.shutdown, if_neg (by decide), if_pos hw.state, JobUnitQueue.waitFor,
        if_pos (by rw [hjobs]; exact List.cons_ne_nil _ _)]
    have hentered := entered_attempt hw.state
    refine @Reaches.step past _ w.attempt .workerCheck _ trivial ?_ (h _ ?_)
    · rw [step, if_pos hthread, hcheck]
    · exact ⟨hw.shutdown, hthread, hentered.state, hentered.ledger, live_attempt⟩
  · have hentered := @entered_attempt { w with thread := .looping } hw.state
    refine @Reaches.step past _ (w.workerWake false) (.workerWake false) _ trivial ?_ (h _ ?_)
    · rw [step, if_pos hthread]
    · exact ⟨hw.shutdown, rfl, hentered.state, hentered.ledger, live_attempt⟩

/-- **The first message of the queue can be confirmed.** -/
theorem Ready.deliver (hw : w.Ready) {message : MtMessage} {jobs : List MtMessage}
    (hjobs : w.messageQueue.jobs = message :: jobs) :
    Reaches past w fun v => v.Ready ∧ v.messageQueue.jobs = jobs
      ∧ v.confirmed = w.confirmed ++ [message] := by
  refine hw.attempt hjobs fun v hv => ?_
  refine @Under.next past v .resolve .connecting _ id (.done [] []) _ hv (by simp)
    (fun u hstate hopen _ => entered_resolved hstate hopen) fun i hv => ?_
  refine @Under.next past _ .connect .sending _ Ledger.taken (.done [] []) _ hv (by simp)
    (fun u hstate hopen _ => entered_connected hstate hopen) fun i hv => ?_
  generalize onComplete past _ .connect (.done [] []) = u at hv
  refine @Under.next past u .write .receivingHeader _ id (.done [] []) _ hv (by simp)
    (fun u hstate hopen _ => entered_written hstate hopen) fun i hv' => ?_
  have hbuf : ((u.finish i).onComplete past .write (.done [] [])).buf = some [] := by
    rw [@onWrite_done past (u.finish i) hv.state hv.shutdown]
    rfl
  refine @Under.next past _ .readHeader .notConnected _ Ledger.delivered
    (.done acknowledgement []) _ hv' (by simp) (fun u hstate hopen hsame =>
      entered_acknowledged hstate hopen (hsame.trans hbuf)) fun i hv => ?_
  refine .refl ⟨⟨hv.shutdown, .inl hv.thread, hv.state⟩, ?_, ?_⟩
  · have hqueue := congrArg (·.jobs) hv.ledger
    refine hqueue.trans ?_
    show w.messageQueue.jobs.tail = jobs
    rw [hjobs, List.tail_cons]
  · have hconfirmed := congrArg (·.confirmed) hv.ledger
    refine hconfirmed.trans ?_
    show w.confirmed ++ [w.messageQueue.jobs.headD default] = _
    rw [hjobs, List.headD_cons]

/-- All of them can. -/
theorem Ready.deliverAll (hw : w.Ready) :
    Reaches past w fun v => v.Ready ∧ v.messageQueue.jobs = []
      ∧ v.confirmed = w.confirmed ++ w.messageQueue.jobs := by
  generalize hjobs : w.messageQueue.jobs = jobs
  induction jobs generalizing w with
  | nil => exact .refl ⟨hw, hjobs, (List.append_nil _).symm⟩
  | cons message jobs ih =>
      refine (hw.deliver hjobs).trans fun v ⟨hv, hqueue, hconfirmed⟩ => ?_
      refine (ih hv hqueue).trans fun u ⟨hu, hempty, hall⟩ => .refl ⟨hu, hempty, ?_⟩
      rw [hall, hconfirmed, List.append_assoc, List.singleton_append]

/-- What a transmitter has to send: the message held, unless the worker is about to start over and to
forget it, and the queue. -/
def unsent (w : SbdTransmitter) : List MtMessage :=
  (if w.thread = .starting then [] else w.held.toList) ++ w.messageQueue.jobs

/-- A message that is held goes back to its queue. -/
theorem Under.settle {kind : OpKind} (hw : w.Under kind.awaitedIn w.ledger) :
    Reaches past w fun v => v.Ready ∧ v.messageQueue.jobs = w.held.toList ++ w.messageQueue.jobs
      ∧ v.confirmed = w.confirmed := by
  -- whatever the queue and the confirmed messages are when the timer is under way
  have hexpire : ∀ u l, u.Under .error l → Reaches past u fun v => v.Ready
      ∧ v.messageQueue.jobs = l.jobs ∧ v.confirmed = l.confirmed := by
    intro u l hu
    refine @Under.next past u .timer .notConnected _ id (.done [] []) _ hu (by simp)
      (fun u hstate _ _ => entered_expired hstate) fun i hv => ?_
    exact .refl ⟨⟨hv.shutdown, .inl hv.thread, hv.state⟩, congrArg (·.jobs) hv.ledger,
      congrArg (·.confirmed) hv.ledger⟩
  by_cases htimer : kind = .timer
  · subst htimer
    have hheld : w.held = none := by
      rw [held, hw.state]
      rfl
    rw [hheld]
    exact hexpire w w.ledger hw
  · refine @Under.next past w kind .error _ Ledger.returned (.failed "") _ hw (by simp)
      (fun u hstate hopen _ => entered_failed htimer hstate hopen) fun i hv => ?_
    exact hexpire _ _ hv

theorem Serving.settle (hw : w.Serving) (hrunning : w.running = true) (hopen : w.shutdown = false) :
    Reaches past w fun v => v.Ready ∧ v.messageQueue.jobs = w.unsent ∧ v.confirmed = w.confirmed := by
  unfold unsent
  by_cases hstarting : w.thread = .starting
  · rw [if_pos hstarting]
    refine @Reaches.step past _ w.workerBegin .workerBegin _ trivial ?_ (.refl ⟨?_, rfl, rfl⟩)
    · rw [step, if_pos hstarting]
    · exact ⟨hopen, .inl rfl, rfl⟩
  · rw [if_neg hstarting]
    have hpresent := hw.running.mp hrunning
    rcases hw.live hopen hstarting with hidle | ⟨op, hop, hstate, hcancelled⟩
    · have hheld : w.held = none := by
        rw [held, hidle]
        rfl
      rw [hheld]
      refine .refl ⟨⟨hopen, ?_, hidle⟩, rfl, rfl⟩
      cases hthread : w.thread with
      | absent => exact absurd hthread hpresent
      | starting => exact absurd hthread hstarting
      | looping => exact .inl rfl
      | waiting => exact .inr rfl
    · have hlooping : w.thread = .looping := by
        cases hthread : w.thread with
        | absent => exact absurd hthread hpresent
        | starting => exact absurd hthread hstarting
        | looping => rfl
        | waiting => exact absurd (hstate.symm.trans (hw.resting hthread)) op.kind.awaitedIn_ne
      exact Under.settle ⟨hopen, hlooping, hstate, rfl, .inr ⟨op, hop, hstate, hcancelled⟩⟩

theorem serving_run {host port : String} {heap : Heap} {labels : List Label}
    (h : (system past).Run (fun _ _ => True) (init host port heap) labels w) : w.Serving :=
  h.invariant (fun _ _ _ hw _ hstep => serving_step hw hstep) (serving_init host port heap)

/-- **A running transmitter is never stuck.** Whatever has happened, with any number of stops and
starts: by itself, it can have all that it has to send confirmed, in order and each message once. -/
theorem progress {host port : String} {heap : Heap} {labels : List Label}
    (h : (system past).Run (fun _ _ => True) (init host port heap) labels w)
    (hrunning : w.running = true) (hopen : w.shutdown = false) :
    ∃ ls v, (system past).Run Internal w ls v ∧ v.state = .notConnected
      ∧ v.messageQueue.jobs = [] ∧ v.confirmed = w.confirmed ++ w.unsent := by
  have hreaches : Reaches past w fun v => v.state = .notConnected ∧ v.messageQueue.jobs = []
      ∧ v.confirmed = w.confirmed ++ w.unsent := by
    refine ((serving_run h).settle hrunning hopen).trans fun v ⟨hv, hqueue, hconfirmed⟩ => ?_
    refine hv.deliverAll.trans fun u ⟨hu, hempty, hall⟩ => .refl ⟨hu.state, hempty, ?_⟩
    rw [hall, hconfirmed, hqueue]
  exact hreaches

/-- The timer of the first run is still pending when the second run has started an attempt. -/
def restartedLabels : List Label :=
  [.start, .post (MtMessage.init 1), .workerBegin, .workerCheck, .complete 0 (.failed "not found"),
    .stop, .workerCheck, .start, .workerBegin, .workerCheck]

theorem progress_sample :
    ∃ w v ls, (system fun _ _ => 0).Run (fun _ _ => True) (init "h" "p" Heap.empty)
        restartedLabels w
      ∧ (system fun _ _ => 0).Run Internal w ls v ∧ v.confirmed = [MtMessage.init 1] := by
  obtain ⟨w, hrun, hrunning, hopen, hconfirmed, hunsent⟩ := @System.exists_run_of_exec _ _
    (system fun _ _ => 0) (fun _ _ => True) _ (init "h" "p" Heap.empty) restartedLabels
    (fun w => w.running = true ∧ w.shutdown = false ∧ w.confirmed = []
      ∧ w.unsent = [MtMessage.init 1]) _ (by decide +kernel)
  obtain ⟨ls, v, hrun', -, -, hall⟩ := progress hrun hrunning hopen
  rw [hconfirmed, hunsent] at hall
  exact ⟨w, v, ls, hrun, hrun', hall⟩

/-! ## Coming to rest -/

/-- How many steps of its own a transmitter that is stopped can take. A worker that is asleep may
start one more attempt. -/
def load (w : SbdTransmitter) : Nat :=
  (match w.thread with
    | .absent => 0
    | .looping => 1
    | .starting => 2
    | .waiting => 3) + w.pending.length

/-- What a step makes of the queue of a transmitter that is stopped. -/
def edited (queue : JobUnitQueue MtMessage) : Label → JobUnitQueue MtMessage
  | .post message => queue.put message
  | .dropMessages => queue.clear
  | _ => queue

/-- Nothing is taken out of the queue, written, given back, confirmed or reported. -/
def Quiet : Event → Prop
  | .attempt _ | .posted _ | .dropped => True
  | _ => False

/-- What a step other than `start` does to a transmitter that is stopped. -/
structure Rests (w : SbdTransmitter) (label : Label) (v : SbdTransmitter) : Prop where
  shutdown : v.shutdown = true
  load : v.load + (if w.Internal label then 1 else 0) ≤ w.load
  queue : v.messageQueue = edited w.messageQueue label
  log : ∃ events : List Event, v.log = w.log ++ events ∧ ∀ event ∈ events, Quiet event

theorem log_unchanged : ∃ events : List Event,
    w.log = w.log ++ events ∧ ∀ event ∈ events, Quiet event :=
  ⟨[], (List.append_nil _).symm, by simp⟩

theorem log_signal {event : Event} (hquiet : Quiet event) : ∃ events : List Event,
    w.log ++ [event] = w.log ++ events ∧ ∀ event ∈ events, Quiet event :=
  ⟨[event], rfl, by simpa using hquiet⟩

theorem rests_complete (hstopped : w.shutdown = true) {index : Nat} {result : Completion}
    (h : step past w (.complete index result) = some v) :
    w.Rests (.complete index result) v := by
  obtain ⟨op, hop, -, rfl⟩ := step_complete h
  have hlength : (w.finish index).pending.length + 1 = w.pending.length := by
    obtain ⟨hindex, -⟩ := List.getElem?_eq_some_iff.mp hop
    show (w.pending.eraseIdx index).length + 1 = _
    rw [List.length_eraseIdx_of_lt hindex]
    omega
  have hload : (w.finish index).load + 1 ≤ w.load := by
    show _ + (w.finish index).pending.length + 1 ≤ _
    rw [Nat.add_assoc, hlength]
    exact le_rfl
  by_cases htimer : op.kind = .timer
  · rw [htimer]
    by_cases hresult : result = .aborted
    · rw [hresult]
      exact ⟨hstopped, hload, rfl, log_unchanged⟩
    · rw [onComplete, onTimer_done hresult]
      split
      · exact ⟨hstopped, hload, rfl, log_unchanged⟩
      · exact ⟨hstopped, hload, rfl, log_unchanged⟩
  · rcases @ignored_onComplete past (w.finish index) _ result htimer (.inr (.inr hstopped)) with
      heq | heq <;> rw [heq] <;> exact ⟨hstopped, hload, rfl, log_unchanged⟩

/-- What `stop` cancels is still to complete. -/
theorem rests_stop (hstopped : w.shutdown = true) : w.Rests .stop w.stop := by
  unfold stop
  split
  · refine ⟨rfl, ?_, rfl, log_unchanged⟩
    show _ + (w.pending.map _).length + 0 ≤ _
    rw [List.length_map]
    exact le_rfl
  · exact ⟨hstopped, le_rfl, rfl, log_unchanged⟩

theorem rests_step (hstopped : w.shutdown = true) (hlabel : label ≠ .start)
    (h : step past w label = some v) : w.Rests label v := by
  cases label with
  | start => exact absurd rfl hlabel
  | stop =>
      cases h
      exact rests_stop hstopped
  | post message =>
      cases h
      exact ⟨hstopped, le_rfl, rfl, log_signal trivial⟩
  | dropMessages =>
      cases h
      exact ⟨hstopped, le_rfl, rfl, log_signal trivial⟩
  | workerBegin =>
      obtain ⟨hthread, rfl⟩ := step_workerBegin h
      refine ⟨hstopped, ?_, rfl, log_unchanged⟩
      rw [if_pos (show w.Internal .workerBegin from trivial)]
      simp only [load, hthread, workerBegin]
      omega
  | workerCheck =>
      obtain ⟨hthread, rfl⟩ := step_workerCheck h
      rw [workerCheck, if_pos hstopped]
      refine ⟨hstopped, ?_, rfl, log_unchanged⟩
      rw [if_pos (show w.Internal .workerCheck from trivial)]
      simp only [load, hthread]
      omega
  | workerWake timedOut =>
      obtain ⟨hthread, rfl⟩ := step_workerWake h
      cases timedOut with
      | true =>
          refine ⟨hstopped, ?_, rfl, log_unchanged⟩
          rw [if_pos (show w.Internal (.workerWake true) from trivial)]
          simp only [load, hthread, workerWake, if_true]
          omega
      | false =>
          -- the worker that was asleep starts an attempt without a look at `m_shutdown`
          refine ⟨hstopped, ?_, rfl, log_signal trivial⟩
          rw [if_pos (show w.Internal (.workerWake false) from trivial)]
          simp [load, hthread, workerWake, attempt, enterResolving, initiate, goto, signal]
          omega
  | complete index result => exact rests_complete hstopped h

/-- A transmitter that is stopped, and all it has done since is quiet. -/
def QuietSince (w v : SbdTransmitter) : Prop :=
  v.shutdown = true ∧ ∃ events : List Event, v.log = w.log ++ events ∧ ∀ event ∈ events, Quiet event

theorem quiet_step {u : SbdTransmitter} (hv : w.QuietSince v) (hlabel : label ≠ .start)
    (h : step past v label = some u) : w.QuietSince u := by
  obtain ⟨hstopped, events, hlog, hquiet⟩ := hv
  have hrests := rests_step hstopped hlabel h
  obtain ⟨events', hlog', hquiet'⟩ := hrests.log
  refine ⟨hrests.shutdown, events ++ events', ?_, ?_⟩
  · rw [hlog', hlog, List.append_assoc]
  · intro event hevent
    rcases List.mem_append.mp hevent with hbefore | hnow
    · exact hquiet event hbefore
    · exact hquiet' event hnow

theorem quiet_run {ls : List Label} (hstopped : w.shutdown = true)
    (h : (system past).Run (fun _ label => label ≠ .start) w ls v) : w.QuietSince v :=
  h.invariant (fun _ _ _ hv hlabel hstep => quiet_step hv hlabel hstep) ⟨hstopped, log_unchanged⟩

/-- **A transmitter that is stopped comes to rest**, unless it is started again, whatever is posted,
dropped or stopped meanwhile. It takes a bounded number of steps of its own, whatever the results of
its operations; they confirm and send nothing, and the queue changes by what is posted and dropped
alone. When no step is left, the worker has gone, nothing is pending and the event loop is let
go. -/
theorem stop_drains {host port : String} {heap : Heap} {labels ls : List Label}
    (h : (system past).Run (fun _ _ => True) (init host port heap) labels w)
    (hstopped : w.shutdown = true)
    (hrun : (system past).Run (fun _ label => label ≠ .start) w ls v) :
    ls.countP (w.Internal ·) + v.load ≤ w.load
    ∧ v.messageQueue = ls.foldl edited w.messageQueue
    ∧ (∃ events : List Event, v.log = w.log ++ events ∧ ∀ event ∈ events, Quiet event)
    ∧ ((∀ label, v.Internal label → step past v label = none) →
      v.thread = .absent ∧ v.running = false ∧ v.pending = [] ∧ v.sentinel = false) := by
  have hrests : ∀ u label u', u.shutdown = true → label ≠ .start →
      (system past).step u label = some u' → u.Rests label u' :=
    fun _ _ _ hu hlabel hstep => rests_step hu hlabel hstep
  have hshutdown : ∀ u label u', u.shutdown = true → label ≠ .start →
      (system past).step u label = some u' → u'.shutdown = true :=
    fun u label u' hu hlabel hstep => (hrests u label u' hu hlabel hstep).shutdown
  refine ⟨?_, ?_, ?_, ?_⟩
  · exact hrun.countP_le hshutdown
      (fun u label u' hu hlabel hstep => (hrests u label u' hu hlabel hstep).load) hstopped
  · exact hrun.foldl_eq hshutdown
      (fun u label u' hu hlabel hstep => (hrests u label u' hu hlabel hstep).queue) hstopped
  · exact (quiet_run hstopped hrun).2
  · intro hstuck
    have hserving : v.Serving := serving_run (h.trans (hrun.mono fun _ _ _ => trivial))
    have hthread : v.thread = .absent := by
      cases hthread : v.thread with
      | absent => rfl
      | starting => simpa [step, hthread] using hstuck .workerBegin trivial
      | looping => simpa [step, hthread] using hstuck .workerCheck trivial
      | waiting => simpa [step, hthread] using hstuck (.workerWake true) trivial
    refine ⟨hthread, ?_, ?_, (hserving.gone hthread).1⟩
    · by_contra hrunning
      exact hserving.running.mp (by simpa using hrunning) hthread
    · cases hpending : v.pending with
      | nil => rfl
      | cons op ops => simpa [step, hpending] using hstuck (.complete 0 (.failed "")) trivial

/-- Stopped while the name is being resolved. -/
def stoppedLabels : List Label :=
  [.start, .post (MtMessage.init 1), .workerBegin, .workerCheck, .stop]

/-- Two steps of its own, with a message posted in between. -/
def drainLabels : List Label :=
  [.complete 0 (.done [] []), .post (MtMessage.init 2), .stop, .workerCheck]

theorem stop_drains_sample :
    ∃ w v, (system fun _ _ => 0).Run (fun _ _ => True) (init "h" "p" Heap.empty) stoppedLabels w
      ∧ (system fun _ _ => 0).Run (fun _ label => label ≠ .start) w drainLabels v
      ∧ w.load = 2 ∧ v.load = 0
      ∧ v.messageQueue.jobs = [MtMessage.init 1, MtMessage.init 2] := by
  obtain ⟨w, hrun, hstopped, hload, hjobs, hsteps⟩ := @System.exists_run_of_exec _ _
    (system fun _ _ => 0) (fun _ _ => True) _ (init "h" "p" Heap.empty) stoppedLabels
    (fun w => w.shutdown = true ∧ w.load = 2 ∧ w.messageQueue.jobs = [MtMessage.init 1]
      ∧ ((system fun _ _ => 0).exec (fun _ label => label ≠ .start) w drainLabels).isSome = true)
    _ (by decide +kernel)
  obtain ⟨v, hv⟩ := Option.isSome_iff_exists.mp hsteps
  have hrun' := System.run_of_exec hv
  obtain ⟨hle, hqueue, -⟩ := stop_drains hrun hstopped hrun'
  have htwo : drainLabels.countP (w.Internal ·) = 2 := rfl
  rw [hload, htwo] at hle
  refine ⟨w, v, hrun, hrun', hload, by omega, ?_⟩
  rw [hqueue]
  show w.messageQueue.jobs ++ [MtMessage.init 2] = _
  rw [hjobs]
  rfl

end SbdTransmitter

end Iridium
