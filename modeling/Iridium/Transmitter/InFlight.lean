import Iridium.Transmitter.Refinement

/-!
# One operation in flight

As long as the transmitter is not stopped, exactly the operation that its state waits for is pending
(`Steady`): every completion finds the machine in the state that its handler expects, and the timer
goes off in the error state only.

It follows that `m_buf` is there whenever it is read, and that a confirmation is taken out of it
when it is complete (`Sound`).
-/

namespace Iridium

open SbdDirectIp

/-- `m_buf` is null where it is dereferenced, or holds too little of a confirmation. -/
def Event.isLapse : Event → Bool
  | .underrun _ | .nullBuf => true
  | _ => false

/-- The states in which `m_buf` is in use: a write takes its bytes from it, and a read puts them into
it. -/
def State.reads : State → Bool
  | .sending | .receivingHeader | .receivingConfirmation => true
  | _ => false

/-- The states between two steps in which `m_buf` is not used. -/
def State.rests : State → Bool
  | .notConnected | .resolving | .connecting | .error => true
  | _ => false

namespace SbdTransmitter

variable {past : List UInt8 → Memory} {w v : SbdTransmitter} {label : Label}

/-- A step of a transmitter that is not stopped: no call of `stop`, and no operation aborted. -/
def Unstopped : Label → Prop
  | .stop => False
  | .complete _ result => result ≠ .aborted
  | .start | .post _ | .dropMessages | .workerBegin | .workerCheck | .workerWake _ => True

instance : DecidablePred Unstopped
  | .stop => inferInstanceAs (Decidable False)
  | .complete _ result => inferInstanceAs (Decidable (result ≠ .aborted))
  | .start | .post _ | .dropMessages | .workerBegin | .workerCheck | .workerWake _ =>
    inferInstanceAs (Decidable True)

/-! ## What is pending -/

/-- What holds between the steps of a transmitter that is not stopped. -/
structure Steady (w : SbdTransmitter) : Prop where
  shutdown : w.shutdown = false
  running : w.running = false → w.thread = .absent
  idle : w.thread ≠ .looping → w.state = .notConnected
  kinds : w.kinds = w.state.operations

theorem steady_init (host port : String) (heap : Heap) : (init host port heap).Steady :=
  ⟨rfl, fun _ => rfl, fun _ => rfl, rfl⟩

/-- The operation that completes is the one that the state waits for, and the only one. -/
theorem Steady.sole (hw : w.Steady) {index : Nat} {op : PendingOp}
    (hop : w.pending[index]? = some op) :
    w.state = op.kind.awaitedIn ∧ (w.finish index).kinds = [] := by
  have hkinds := hw.kinds
  have hmem : op.kind ∈ w.state.operations := by
    rw [← hkinds]
    exact List.mem_map_of_mem (List.mem_of_getElem? hop)
  have hlength : w.pending.length ≤ 1 := by
    have hle : w.state.operations.length ≤ 1 := by cases w.state <;> decide
    rw [← hkinds] at hle
    simpa [SbdTransmitter.kinds] using hle
  refine ⟨?_, ?_⟩
  · exact OpKind.eq_awaitedIn hmem
  · obtain ⟨hindex, -⟩ := List.getElem?_eq_some_iff.mp hop
    have hnil : w.pending.eraseIdx index = [] := by
      apply List.eq_nil_of_length_eq_zero
      rw [List.length_eraseIdx_of_lt hindex]
      omega
    show (w.pending.eraseIdx index).map (·.kind) = []
    rw [hnil]
    rfl

/-- Where an operation is pending, the worker is in its loop. -/
theorem Steady.looping (hw : w.Steady) {op : PendingOp} (hstate : w.state = op.kind.awaitedIn) :
    w.thread = .looping := by
  by_contra hnot
  exact op.kind.awaitedIn_ne (hstate.symm.trans (hw.idle hnot))

theorem steady_attempt (hw : w.Steady) (hlooping : w.thread = .looping)
    (hstate : w.state = .notConnected) : w.attempt.Steady := by
  have hentered := entered_attempt hstate
  have hkinds : w.kinds = [] := by rw [hw.kinds, hstate]; rfl
  refine ⟨hw.shutdown, hw.running, fun h => absurd hlooping h, ?_⟩
  rw [hentered.kinds, hentered.state, hkinds]
  rfl

/-- A completion ends the wait of the state, and the machine enters another one. -/
theorem steady_complete (hw : w.Steady) {index : Nat} {result : Completion}
    (hresult : result ≠ .aborted) (h : step past w (.complete index result) = some v) :
    v.Steady := by
  have hframe := (idle_complete h).1.1
  have hshutdown : v.shutdown = w.shutdown := congrArg (·.2.2) hframe
  have hrunning : v.running = w.running := congrArg (·.2.1) hframe
  have hthread : v.thread = w.thread := congrArg (·.1) hframe
  obtain ⟨op, hop, -, rfl⟩ := step_complete h
  obtain ⟨hstate, hkinds⟩ := hw.sole hop
  have hlooping := hw.looping hstate
  -- whatever it enters, its operation is the only one then
  suffices hon : ∃ s l, (w.finish index).Entered ((w.finish index).onComplete past op.kind result)
      s l by
    obtain ⟨s, l, hentered⟩ := hon
    refine ⟨hshutdown.trans hw.shutdown, ?_, ?_, ?_⟩
    · rw [hrunning, hthread]
      exact hw.running
    · rw [hthread]
      exact fun h => absurd hlooping h
    · rw [hentered.kinds, hentered.state, hkinds]
      rfl
  by_cases htimer : op.kind = .timer
  · rw [htimer]
    rcases @onTimer_cases (w.finish index) result with ⟨haborted, -⟩ | ⟨-, hentered⟩
    · exact absurd haborted hresult
    · exact ⟨_, _, hentered⟩
  · rcases (@handled_onComplete past (w.finish index) _ htimer result).outcome with
      ⟨-, haborted | hother | hshut⟩ | ⟨-, -, -, ((herror | hsuccess) | ⟨s, -, hentered⟩)
        | ⟨-, -, hentered⟩⟩
    · exact absurd haborted hresult
    · exact absurd hstate hother
    · exact absurd (hw.shutdown.symm.trans hshut) (by decide)
    · exact ⟨_, _, herror⟩
    · exact ⟨_, _, hsuccess⟩
    · exact ⟨s, _, hentered⟩
    · exact ⟨_, _, hentered⟩

/-- **Not stopped, a transmitter stays steady.** -/
theorem steady_step (hw : w.Steady) (hallow : Unstopped label) (h : step past w label = some v) :
    v.Steady := by
  cases label with
  | start =>
      cases h
      unfold start
      split
      · exact hw
      · rename_i hnot
        rw [Bool.not_eq_true] at hnot
        have hidle := hw.idle (by rw [hw.running hnot]; decide)
        exact ⟨rfl, (nomatch ·), fun _ => hidle, hw.kinds⟩
  | stop => exact hallow.elim
  | post message =>
      cases h
      exact ⟨hw.shutdown, hw.running, hw.idle, hw.kinds⟩
  | dropMessages =>
      cases h
      exact ⟨hw.shutdown, hw.running, hw.idle, hw.kinds⟩
  | workerBegin =>
      obtain ⟨hthread, rfl⟩ := step_workerBegin h
      -- the worker resets the state, but there is nothing to reset
      have hidle := hw.idle (by rw [hthread]; decide)
      have hrunning : w.running ≠ false := by
        intro hnot
        rw [hw.running hnot] at hthread
        cases hthread
      refine ⟨hw.shutdown, fun h => absurd h hrunning, fun _ => rfl, ?_⟩
      have hkinds := hw.kinds
      rw [hidle] at hkinds
      exact hkinds
  | workerCheck =>
      obtain ⟨hlooping, rfl⟩ := step_workerCheck h
      rcases @workerCheck_cases w with ⟨hshut, -⟩ | ⟨-, hstate, -, heq⟩ | ⟨-, hstate, -, heq⟩
        | ⟨-, -, heq⟩
      · exact absurd (hw.shutdown.symm.trans hshut) (by decide)
      · rw [heq]
        exact steady_attempt hw hlooping hstate
      · rw [heq]
        refine ⟨hw.shutdown, fun h => ?_, fun _ => hstate, hw.kinds⟩
        exact absurd (hlooping.symm.trans (hw.running h)) (by decide)
      · rw [heq]
        exact hw
  | workerWake timedOut =>
      obtain ⟨hthread, rfl⟩ := step_workerWake h
      have hstate := hw.idle (by rw [hthread]; decide)
      have hlooping : Steady { w with thread := .looping } := by
        refine ⟨hw.shutdown, fun h => ?_, fun h => absurd rfl h, hw.kinds⟩
        exact absurd (hthread.symm.trans (hw.running h)) (by decide)
      cases timedOut with
      | true => exact hlooping
      | false => exact steady_attempt hlooping rfl hstate
  | complete index result => exact steady_complete hw hallow h

/-! ## What is in the buffer -/

/-- No lapse is on record. -/
def Clean (w : SbdTransmitter) : Prop := ∀ event ∈ w.log, event.isLapse = false

/-- The machine is between two steps, `m_buf` is there if it is going to be read, and it always
was. -/
structure Sound (w : SbdTransmitter) : Prop where
  clean : w.Clean
  between : w.state ≠ .processingConfirmation ∧ w.state ≠ .success
  buf : w.state.reads = true → w.buf ≠ none

/-- In a state of this kind there is nothing to be said of the buffer. -/
theorem Clean.sound (hw : w.Clean) (hstate : w.state.rests = true) : w.Sound := by
  refine ⟨hw, ?_, ?_⟩
  · constructor <;> intro h <;> rw [h] at hstate <;> cases hstate
  · intro hreads
    cases hs : w.state <;> simp_all [State.rests, State.reads]

theorem sound_init (host port : String) (heap : Heap) : (init host port heap).Sound := by
  apply Clean.sound
  · intro event hevent
    cases hevent
  · rfl

theorem clean_signal {event : Event} (hw : w.Clean) (hevent : event.isLapse = false) :
    (w.signal event).Clean := by
  intro e he
  rcases List.mem_append.mp he with he | he
  · exact hw e he
  · rw [List.mem_singleton.mp he]
    exact hevent

theorem sound_enterError (hw : w.Clean) (hstate : w.state = .error) : w.enterError.Sound := by
  have hclean : w.giveBack.Clean := by
    unfold giveBack
    split
    · exact clean_signal hw rfl
    · exact hw
  have herror : w.giveBack.state = .error := by
    unfold giveBack
    split <;> exact hstate
  unfold enterError
  generalize w.giveBack = u at hclean herror
  have htimer : ∀ u : SbdTransmitter, u.Clean → u.state = .error → u.startTimer.Sound := by
    intro u hclean herror
    have hcancel : (u.cancel (· == .timer)).Clean := hclean
    apply Clean.sound
    · exact clean_signal hcancel rfl
    · show u.state.rests = true
      rw [herror]
      rfl
  dsimp only
  apply htimer
  · split <;> exact hclean
  · split <;> exact herror

theorem sound_fail {what : String} (hw : w.Clean) : (w.fail what).Sound :=
  sound_enterError (clean_signal hw rfl) rfl

theorem sound_succeed {data : List UInt8} (hw : w.Clean) (hbuf : w.buf = some data) :
    w.succeed.Sound := by
  have hentered : ∀ u : SbdTransmitter, u.Clean →
      (({ u with errDelay := 1 }.goto .success).enterSuccess).Sound := by
    intro u hu
    exact Clean.sound hu rfl
  unfold succeed
  rw [deref_eq hbuf]
  dsimp only
  apply hentered
  split
  · exact clean_signal hw rfl
  · exact hw

theorem sound_answered {rest : List UInt8} {status : Int16} (hw : w.Clean) :
    (w.answered rest status).Sound := by
  have hset : ((w.setBuf rest).signal (.onTransmitResult status)).Clean := clean_signal hw rfl
  unfold answered
  dsimp only
  split
  · exact sound_enterError hset rfl
  · exact sound_succeed (clean_signal hset rfl) rfl

variable (past)

/-- A confirmation is taken out of the buffer when all of it is there. -/
theorem sound_processing {data : List UInt8} (hw : w.Clean) (hbuf : w.buf = some data)
    (hlen : w.confirmationLength.toNat ≤ data.length) :
    (w.enterProcessingConfirmation past).Sound := by
  have hderef : w.deref = (data, w) := deref_eq hbuf
  unfold enterProcessingConfirmation
  rw [hderef]
  dsimp only
  rw [takeConfirmation_eq hlen]
  split
  · exact sound_fail hw
  · split
    · exact sound_fail hw
    · exact sound_answered hw

theorem sound_receiving (hw : w.Clean) {data : List UInt8} (hbuf : w.buf = some data) :
    ((w.goto .receivingConfirmation).enterReceivingConfirmation past).Sound := by
  have hderef : (w.goto .receivingConfirmation).deref
      = (data, w.goto .receivingConfirmation) := deref_eq hbuf
  unfold enterReceivingConfirmation
  rw [hderef]
  dsimp only
  split
  · refine ⟨hw, ⟨State.noConfusion, State.noConfusion⟩, ?_⟩
    intro _ hnone
    exact absurd (hbuf.symm.trans hnone) (by simp)
  · rename_i hlong
    exact sound_processing past hw hbuf (Nat.not_lt.mp hlong)

/-- A handler is sound if what it is for is. -/
theorem sound_handle {expected : State} {errorText : String → String}
    {proceed : List UInt8 → List UInt8 → SbdTransmitter} {result : Completion} (hw : w.Sound)
    (hproceed : w.state = expected → ∀ bytes beyond, (proceed bytes beyond).Sound) :
    (w.handle expected errorText proceed result).Sound := by
  rcases @handle_cases w expected errorText proceed result with
    ⟨heq, -⟩ | ⟨-, hstate, -, ⟨message, heq⟩ | ⟨bytes, beyond, -, heq⟩⟩
  · rw [heq]
    exact hw
  · rw [heq]
    exact sound_fail hw.clean
  · rw [heq]
    exact hproceed hstate bytes beyond

/-- In the states that use `m_buf` it can be dereferenced. -/
theorem Sound.deref (hw : w.Sound) (hreads : w.state.reads = true) :
    ∃ data, w.deref = (data, w) := by
  obtain ⟨data, hbuf⟩ := Option.ne_none_iff_exists'.mp (hw.buf hreads)
  exact ⟨data, deref_eq hbuf⟩

/-- The buffer is freed before the guard, which has to let the handler pass. -/
theorem sound_write (hw : w.Sound) (hstate : w.state = .sending) (hopen : w.shutdown = false)
    (result : Completion) : (w.onWrite result).Sound := by
  have hhandle := @handle_eq w.resetBuf .sending hstate hopen ("transmit error: " ++ ·)
    fun _ _ => (w.resetBuf.goto .receivingHeader).enterReceivingHeader
  cases result with
  | aborted => exact hw
  | failed message =>
      simp only [onWrite]
      rw [hhandle.1]
      exact sound_fail hw.clean
  | done bytes beyond =>
      simp only [onWrite]
      rw [hhandle.2]
      exact ⟨hw.clean, ⟨State.noConfusion, State.noConfusion⟩, fun _ => Option.some_ne_none _⟩

theorem sound_readHeader (hw : w.Sound) (result : Completion) :
    (w.onReadHeader past result).Sound := by
  apply sound_handle hw
  intro hstate bytes beyond
  obtain ⟨data, hderef⟩ := hw.deref (by rw [hstate]; rfl)
  rw [hderef]
  dsimp only [takeHeader]
  have hclean : ∀ u : SbdTransmitter, u.Clean → ∀ rest header,
      ((u.setBuf rest).checkHeader past header).Sound := by
    intro u hu rest header
    unfold checkHeader
    -- the header may lie beyond the bytes received; that is no lapse
    split
    · exact sound_fail hu
    · exact sound_receiving past hu rfl
  apply hclean
  split
  · exact clean_signal hw.clean rfl
  · exact hw.clean

theorem sound_readConfirmation (hw : w.Sound) (result : Completion) :
    (w.onReadConfirmation past result).Sound := by
  apply sound_handle hw
  intro hstate bytes beyond
  obtain ⟨data, hderef⟩ := hw.deref (by rw [hstate]; rfl)
  rw [hderef]
  exact sound_receiving past hw.clean rfl

theorem sound_timer (hw : w.Sound) (result : Completion) : (w.onTimer result).Sound := by
  have hentered : ∀ u : SbdTransmitter, u.Clean →
      (u.goto .notConnected).enterNotConnected.Sound := by
    intro u hu
    exact Clean.sound hu rfl
  cases result with
  | aborted => exact hw
  | failed message =>
      apply hentered
      split <;> exact hw.clean
  | done bytes beyond =>
      apply hentered
      split <;> exact hw.clean

/-- Every handler, in the state that it is for. -/
theorem sound_onComplete {kind : OpKind} (hw : w.Sound) (hstate : w.state = kind.awaitedIn)
    (hopen : w.shutdown = false) (result : Completion) :
    (w.onComplete past kind result).Sound := by
  cases kind with
  | resolve =>
      apply sound_handle hw
      intro _ bytes beyond
      exact Clean.sound hw.clean rfl
  | connect =>
      apply sound_handle hw
      intro _ bytes beyond
      -- the buffer is there when the message is printed, and when the write takes it
      refine ⟨?_, ⟨State.noConfusion, State.noConfusion⟩, fun _ => Option.some_ne_none _⟩
      exact clean_signal (clean_signal hw.clean rfl) rfl
  | write => exact sound_write hw hstate hopen result
  | readHeader => exact sound_readHeader past hw result
  | readConfirmation => exact sound_readConfirmation past hw result
  | timer => exact sound_timer hw result

variable {past}

theorem sound_attempt (hw : w.Clean) : w.attempt.Sound := by
  apply Clean.sound
  · exact clean_signal hw rfl
  · rfl

/-- **Not stopped, a transmitter stays sound.** -/
theorem sound_step (hsteady : w.Steady) (hw : w.Sound) (hallow : Unstopped label)
    (h : step past w label = some v) : v.Sound := by
  cases label with
  | start =>
      cases h
      unfold start
      split
      · exact hw
      · exact ⟨hw.clean, hw.between, hw.buf⟩
  | stop => exact hallow.elim
  | post message =>
      cases h
      exact ⟨clean_signal hw.clean rfl, hw.between, hw.buf⟩
  | dropMessages =>
      cases h
      exact ⟨clean_signal hw.clean rfl, hw.between, hw.buf⟩
  | workerBegin =>
      obtain ⟨-, rfl⟩ := step_workerBegin h
      exact Clean.sound hw.clean rfl
  | workerCheck =>
      obtain ⟨-, rfl⟩ := step_workerCheck h
      rcases @workerCheck_cases w with ⟨-, heq⟩ | ⟨-, -, -, heq⟩ | ⟨-, -, -, heq⟩ | ⟨-, -, heq⟩ <;>
        rw [heq]
      · exact ⟨hw.clean, hw.between, hw.buf⟩
      · exact sound_attempt hw.clean
      · exact ⟨hw.clean, hw.between, hw.buf⟩
      · exact hw
  | workerWake timedOut =>
      obtain ⟨-, rfl⟩ := step_workerWake h
      cases timedOut with
      | true => exact ⟨hw.clean, hw.between, hw.buf⟩
      | false =>
          have hclean : Clean { w with thread := .looping } := hw.clean
          exact sound_attempt hclean
  | complete index result =>
      obtain ⟨op, hop, -, rfl⟩ := step_complete h
      have hfinish : (w.finish index).Sound := ⟨hw.clean, hw.between, hw.buf⟩
      exact sound_onComplete past hfinish (hsteady.sole hop).1 hsteady.shutdown result

/-- **One operation in flight.** In every state that a transmitter reaches without being stopped,
the machine is in one of seven states and exactly the operation that the state starts is pending,
none where it is not connected. Its completion will pass the guard of its handler. `m_buf` is there
as long as the operation of a state uses it, it was there whenever it was dereferenced, and it never
held less of a confirmation than was taken out of it. -/
theorem one_in_flight {host port : String} {heap : Heap} {labels : List Label}
    (h : (system past).Run (fun _ label => Unstopped label) (init host port heap) labels w) :
    w.state ∈ [.notConnected, .resolving, .connecting, .sending, .receivingHeader,
        .receivingConfirmation, .error]
      ∧ (w.state = .notConnected → w.pending = [])
      ∧ (w.state ≠ .notConnected → ∃ op, w.pending = [op] ∧ w.state.operations = [op.kind])
      ∧ (∀ op ∈ w.pending, w.state = op.kind.awaitedIn ∧ w.shutdown = false)
      ∧ (w.state.reads = true → w.buf ≠ none)
      ∧ .nullBuf ∉ w.log ∧ ∀ count, .underrun count ∉ w.log := by
  have hstep : ∀ t label u, t.Steady ∧ t.Sound → Unstopped label →
      (system past).step t label = some u → u.Steady ∧ u.Sound := by
    intro t label u ht hallow hstep
    exact ⟨steady_step ht.1 hallow hstep, sound_step ht.1 ht.2 hallow hstep⟩
  obtain ⟨hsteady, hsound⟩ := h.invariant hstep ⟨steady_init host port heap,
    sound_init host port heap⟩
  have hkinds : w.pending.map (·.kind) = w.state.operations := hsteady.kinds
  have hlapse : ∀ event : Event, event.isLapse = true → event ∉ w.log := by
    intro event hevent hmem
    rw [hsound.clean event hmem] at hevent
    cases hevent
  obtain ⟨hprocessing, hsuccess⟩ := hsound.between
  refine ⟨?_, ?_, ?_, ?_, hsound.buf, hlapse _ rfl, fun count => hlapse _ rfl⟩
  · cases hstate : w.state <;> simp_all
  · intro hstate
    rw [hstate] at hkinds
    exact List.map_eq_nil_iff.mp hkinds
  · intro hstate
    have hone : ∃ kind, w.state.operations = [kind] := by
      cases hw : w.state <;> first | exact ⟨_, rfl⟩ | contradiction
    obtain ⟨kind, hkind⟩ := hone
    rw [hkind] at hkinds
    obtain ⟨op, hop, rfl⟩ := List.map_eq_singleton_iff.mp hkinds
    exact ⟨op, hop, hkind⟩
  · intro op hop
    obtain ⟨index, hindex⟩ := List.getElem?_of_mem hop
    exact ⟨(hsteady.sole hindex).1, hsteady.shutdown⟩

/-- A message that is sent twice: the first answer is cut inside its header, so that its third byte
is arbitrary; the queue is dropped meanwhile, and the worker wakes up for nothing. -/
def inFlightLabels : List Label :=
  [.start, .workerBegin, .workerCheck, .workerWake false, .post (MtMessage.init 1),
    .complete 0 (.done [] []), .complete 0 (.done [] []), .complete 0 (.done [] []),
    .complete 0 (.done [1, 0] [30]), .dropMessages, .complete 0 (.done [0x44] []), .start,
    .complete 0 (.failed "reset"), .complete 0 (.done [] []), .workerCheck,
    .complete 0 (.done [] []), .complete 0 (.done [] []), .complete 0 (.done [] []),
    .complete 0 (.done [1, 0, 28, 0x44, 0, 25, 0, 0, 0, 7] [])]

theorem one_in_flight_sample :
    ∃ w, (system fun _ _ => 0).Run (fun _ label => Unstopped label) (init "h" "p" Heap.empty)
        inFlightLabels w
      ∧ w.state = .receivingConfirmation
      ∧ (∃ op, w.pending = [op] ∧ w.state.operations = [op.kind]) ∧ w.buf ≠ none := by
  obtain ⟨w, hrun, hstate⟩ := @System.exists_run_of_exec _ _ (system fun _ _ => 0)
    (fun _ label => Unstopped label) _ (init "h" "p" Heap.empty) inFlightLabels
    (fun w => w.state = .receivingConfirmation) _ (by decide +kernel)
  obtain ⟨-, -, hpending, -, hbuf, -⟩ := one_in_flight hrun
  exact ⟨w, hrun, hstate, hpending (by rw [hstate]; decide), hbuf (by rw [hstate]; rfl)⟩

end SbdTransmitter

end Iridium
