import Iridium.Modem.ReadUntilTimeout

/-!
# What `read_until_timeout` comes to

When a call returns, no handler is left that could use its local variables, and its result is the one
of a plain blocking read of the bytes that were taken (`returned_refines`): that is what the rest of
the model puts in its place.

Whether it returns is another matter. A timeout that comes in between two reads of the device cancels
nothing, and the timer is not started again; and a device that `Close` closes while the timer's handler
is still to be called makes that handler throw. `settled_iff` says that there is no other way to miss
the deadline, and `returns_iff` from which states a call can still return when nothing more comes from
the device and from `Close`.
-/

namespace Iridium.TimedRead

open Serial

variable {c d : TimedRead} {label : Label} {labels : List Label} {delim buf : List UInt8}
  {deviceOpen : Bool}

/-! ## Steps -/

/-- What a step needs and does. -/
inductive Effect (c : TimedRead) : Label → TimedRead → Prop where
  | deliver (bytes : List UInt8) (hreading : c.reading = .outstanding) :
      Effect c (.deliver bytes) { c with reading := .queued (.received bytes) }
  | fail (message : String) (hreading : c.reading = .outstanding) :
      Effect c (.fail message) { c with reading := .queued (.failed message) }
  | expire (htimer : c.timer = .running) : Effect c .expire { c with timer := .queued }
  | timerHandler (hthread : c.thread = true) (htimer : c.timer = .queued) :
      Effect c .timerHandler c.onTimer
  | readHandler (result : ReadResult) (hthread : c.thread = true)
      (hreading : c.reading = .queued result) : Effect c .readHandler (c.onRead result)
  | exit (hthread : c.thread = true) (htimer : c.timer = .finished)
      (hreading : c.reading = .finished) : Effect c .exit { c with thread := false }
  | check (hcaller : c.caller = .checking) :
      Effect c .check { c with caller := if c.complete then .joining else .waiting }
  | wake (hcaller : c.caller = .waiting) : Effect c .wake { c with caller := .checking }
  | join (hcaller : c.caller = .joining) (hthread : c.thread = false) :
      Effect c .join { c with caller := .returned }
  | closeTimer : Effect c .closeTimer c.cancelTimer
  | closeDevice (hfree : c.Free) : Effect c .closeDevice c.closeDevice

theorem step_iff : step c label = some d ↔ c.terminated = false ∧ Effect c label d := by
  constructor
  · intro h
    unfold step at h
    split at h
    · cases h
    · next hrunning =>
        refine ⟨by simpa using hrunning, ?_⟩
        cases label with
        | readHandler =>
            dsimp only at h
            split at h
            · next result hreading =>
                split at h
                · next hthread =>
                    cases h
                    exact .readHandler result hthread hreading
                · cases h
            · cases h
        | closeTimer =>
            cases h
            exact .closeTimer
        | _ =>
            dsimp only at h
            split at h
            · next hcond =>
                cases h
                first
                | exact .deliver _ hcond
                | exact .fail _ hcond
                | exact .expire hcond
                | exact .timerHandler hcond.1 hcond.2
                | exact .exit hcond.1 hcond.2.1 hcond.2.2
                | exact .check hcond
                | exact .wake hcond
                | exact .join hcond.1 hcond.2
                | exact .closeDevice hcond
            · cases h
  · rintro ⟨hrunning, heffect⟩
    unfold step
    rw [if_neg (by simp [hrunning])]
    cases heffect <;> simp_all

/-- The result is the last one of the chain. -/
def Last (delim buf : List UInt8) : ReadResult → Prop
  | .received bytes => delim <:+: buf ++ bytes
  | _ => True

instance (result : ReadResult) : Decidable (Last delim buf result) :=
  match result with
  | .received _ => inferInstanceAs (Decidable (_ <:+: _))
  | .found | .aborted | .failed _ => inferInstanceAs (Decidable True)

/-- The handler in the chain ends the read, or starts the next one. -/
theorem onRead_cases (c : TimedRead) (result : ReadResult) :
    (Last c.delim c.buf result ∧ ∃ buf taken ec,
        c.onRead result = { c with buf := buf, taken := taken }.conclude ec)
      ∨ (¬ Last c.delim c.buf result ∧ ∃ buf taken,
        c.onRead result = { c with buf := buf, taken := taken }.readSome) := by
  cases result with
  | received bytes =>
      by_cases hfound : c.delim <:+: c.buf ++ bytes
      · exact .inl ⟨hfound, _, _, .success, by rw [onRead, if_pos hfound]⟩
      · exact .inr ⟨hfound, _, _, by rw [onRead, if_neg hfound]⟩
  | found => exact .inl ⟨trivial, c.buf, c.taken, .success, rfl⟩
  | aborted => exact .inl ⟨trivial, c.buf, c.taken, .aborted, rfl⟩
  | failed message => exact .inl ⟨trivial, c.buf, c.taken, .failed message, rfl⟩

/-! ## The threads -/

/-- What the caller, its thread and the handlers know of each other. -/
structure Coherent (c : TimedRead) : Prop where
  complete : c.complete = true ↔ c.reading = .finished
  timer : c.reading = .finished → c.timer ≠ .running
  left : c.caller = .joining ∨ c.caller = .returned → c.complete = true
  returned : c.caller = .returned → c.thread = false
  exited : c.thread = false → c.timer = .finished ∧ c.reading = .finished
  closed : c.deviceOpen = false → c.reading ≠ .outstanding
  terminated : c.terminated = true → c.deviceOpen = false ∧ c.timer = .queued

theorem Coherent.onTimer (hc : c.Coherent) (hrunning : c.terminated = false)
    (hthread : c.thread = true) (hqueued : c.timer = .queued) : c.onTimer.Coherent := by
  obtain ⟨hcomplete, htimer, hleft, hreturned, hexited, hclosed, hterminated⟩ := hc
  unfold TimedRead.onTimer cancelRead
  split <;> constructor <;> grind

theorem Coherent.onRead (hc : c.Coherent) (hrunning : c.terminated = false)
    (hthread : c.thread = true) {result : ReadResult} (hreading : c.reading = .queued result) :
    (c.onRead result).Coherent := by
  obtain ⟨hcomplete, htimer, hleft, hreturned, hexited, hclosed, hterminated⟩ := hc
  rcases onRead_cases c result with ⟨-, buf, taken, ec, heq⟩ | ⟨-, buf, taken, heq⟩ <;> rw [heq]
  · constructor <;> grind [conclude, cancelTimer]
  · constructor <;> grind [readSome]

theorem Coherent.closeDevice (hc : c.Coherent) (hrunning : c.terminated = false) :
    c.closeDevice.Coherent := by
  obtain ⟨hcomplete, htimer, hleft, hreturned, hexited, hclosed, hterminated⟩ := hc
  constructor <;> grind [TimedRead.closeDevice, cancelRead]

theorem Coherent.answer (hc : c.Coherent) (hreading : c.reading = .outstanding) (result : ReadResult) :
    { c with reading := .queued result }.Coherent where
  complete := by
    have hcomplete := hc.complete
    rw [hreading] at hcomplete
    exact hcomplete.trans (iff_of_false nofun nofun)
  timer := nofun
  left := hc.left
  returned := hc.returned
  exited h := by
    have hfinished := (hc.exited h).2
    rw [hreading] at hfinished
    cases hfinished
  closed _ := nofun
  terminated := hc.terminated

theorem Coherent.cancelTimer (hc : c.Coherent) : c.cancelTimer.Coherent where
  complete := hc.complete
  timer hfinished := by
    unfold TimedRead.cancelTimer
    split
    · nofun
    · next hstopped => exact hstopped
  left := hc.left
  returned := hc.returned
  exited hthread := by
    obtain ⟨htimer, hreading⟩ := hc.exited hthread
    refine ⟨?_, hreading⟩
    rw [TimedRead.cancelTimer, if_neg (by rw [htimer]; nofun)]
    exact htimer
  closed := hc.closed
  terminated hterminated := by
    obtain ⟨hclosed, htimer⟩ := hc.terminated hterminated
    refine ⟨hclosed, ?_⟩
    rw [TimedRead.cancelTimer, if_neg (by rw [htimer]; nofun)]
    exact htimer

theorem Coherent.setCaller (hc : c.Coherent) {caller : Caller}
    (hleft : caller = .joining ∨ caller = .returned → c.complete = true)
    (hreturned : caller = .returned → c.thread = false) : { c with caller := caller }.Coherent where
  complete := hc.complete
  timer := hc.timer
  left := hleft
  returned := hreturned
  exited := hc.exited
  closed := hc.closed
  terminated := hc.terminated

theorem Coherent.exit (hc : c.Coherent) (htimer : c.timer = .finished)
    (hreading : c.reading = .finished) : { c with thread := false }.Coherent where
  complete := hc.complete
  timer := hc.timer
  left := hc.left
  returned _ := rfl
  exited _ := ⟨htimer, hreading⟩
  closed := hc.closed
  terminated := hc.terminated

theorem coherent_step (hc : c.Coherent) (h : step c label = some d) : d.Coherent := by
  obtain ⟨hrunning, heffect⟩ := step_iff.mp h
  cases heffect with
  | deliver bytes hreading => exact hc.answer hreading _
  | fail message hreading => exact hc.answer hreading _
  | expire htimer =>
      have hcancelled := hc.cancelTimer
      rwa [TimedRead.cancelTimer, if_pos htimer] at hcancelled
  | timerHandler hthread hqueued => exact hc.onTimer hrunning hthread hqueued
  | readHandler result hthread hreading => exact hc.onRead hrunning hthread hreading
  | exit hthread htimer hreading => exact hc.exit htimer hreading
  | check hcaller =>
      split
      · next hcomplete => exact hc.setCaller (fun _ => hcomplete) nofun
      · exact hc.setCaller (by simp) nofun
  | wake hcaller => exact hc.setCaller (by simp) nofun
  | join hcaller hthread => exact hc.setCaller (fun _ => hc.left (.inl hcaller)) (fun _ => hthread)
  | closeTimer => exact hc.cancelTimer
  | closeDevice hfree => exact hc.closeDevice hrunning

theorem coherent_begin : (begin delim buf deviceOpen).Coherent := by
  unfold begin
  split <;> constructor <;> grind [readSome]

theorem coherent_run (h : system.Run (fun _ _ => True) (begin delim buf deviceOpen) labels c) :
    c.Coherent :=
  h.invariant (fun _ _ _ hc _ hstep => coherent_step hc hstep) coherent_begin

theorem Coherent.thread_of_timer (hc : c.Coherent) (htimer : c.timer ≠ .finished) : c.thread = true := by
  by_contra hthread
  exact htimer (hc.exited (by simpa using hthread)).1

theorem Coherent.thread_of_reading (hc : c.Coherent) (hreading : c.reading ≠ .finished) : c.thread = true := by
  by_contra hthread
  exact hreading (hc.exited (by simpa using hthread)).2

/-! ## The result -/

/-- The buffer holds what a blocking read would have gathered so far, and the error code says
whether the delimiter is in it. -/
structure Gathers (delim buf : List UInt8) (c : TimedRead) : Prop where
  same : c.delim = delim
  gathered : ∀ later, gather delim buf (c.taken ++ later) = gather delim c.buf later
  missing : c.reading ≠ .finished → c.reading ≠ .queued .found → ¬ delim <:+: c.buf
  found : c.reading = .queued .found → delim <:+: c.buf
  success : c.ec = some .success → delim <:+: c.buf
  failure : ∀ ec, c.ec = some ec → ec ≠ .success → ¬ delim <:+: c.buf
  finished : c.reading = .finished → c.ec ≠ none

/-- Bytes that come while the delimiter is missing are gathered by a blocking read too. -/
theorem Gathers.onRead (hc : c.Gathers delim buf) {result : ReadResult}
    (hreading : c.reading = .queued result) : (c.onRead result).Gathers delim buf := by
  obtain ⟨hdelim, hgathered, hmissing, hfound, hsuccess, hfailure, hfinished⟩ := hc
  cases result with
  | found => constructor <;> grind [TimedRead.onRead, conclude, cancelTimer]
  | aborted => constructor <;> grind [TimedRead.onRead, conclude, cancelTimer]
  | failed message => constructor <;> grind [TimedRead.onRead, conclude, cancelTimer]
  | received bytes =>
      have hnot : ¬ delim <:+: c.buf := hmissing (by grind) (by grind)
      have hnext : ∀ later, gather delim buf ((c.taken ++ [bytes]) ++ later)
          = gather delim (c.buf ++ bytes) later := by
        intro later
        rw [List.append_assoc, hgathered, List.singleton_append, gather, if_neg hnot]
      by_cases hlast : c.delim <:+: c.buf ++ bytes
      · rw [TimedRead.onRead, if_pos hlast]
        rw [hdelim] at hlast
        constructor <;> grind [conclude, cancelTimer]
      · rw [TimedRead.onRead, if_neg hlast]
        rw [hdelim] at hlast
        constructor <;> grind [readSome]

theorem gathers_step (hc : c.Gathers delim buf) (h : step c label = some d) :
    d.Gathers delim buf := by
  obtain ⟨-, heffect⟩ := step_iff.mp h
  cases heffect with
  | readHandler result hthread hreading => exact hc.onRead hreading
  | timerHandler hthread htimer =>
      obtain ⟨hdelim, hgathered, hmissing, hfound, hsuccess, hfailure, hfinished⟩ := hc
      unfold onTimer cancelRead
      split <;> constructor <;> grind
  | _ =>
      obtain ⟨hdelim, hgathered, hmissing, hfound, hsuccess, hfailure, hfinished⟩ := hc
      constructor <;> grind [cancelTimer, closeDevice, cancelRead]

theorem gathers_begin : (begin delim buf deviceOpen).Gathers delim buf := by
  unfold begin
  split <;> constructor <;> grind [readSome]

/-- A call that is back uses nothing any more. -/
theorem step_returned (hc : c.Coherent) (hback : c.caller = .returned) (h : step c label = some d) :
    label ≠ .timerHandler ∧ label ≠ .readHandler ∧ d.caller = .returned ∧ d.buf = c.buf
      ∧ d.ec = c.ec := by
  have hthread := hc.returned hback
  obtain ⟨-, heffect⟩ := step_iff.mp h
  cases heffect <;> grind [cancelTimer, closeDevice, cancelRead]

/-- Neither do the steps that come after it. -/
theorem run_returned (hc : c.Coherent) (hback : c.caller = .returned)
    (h : system.Run (fun _ _ => True) c labels d) :
    .timerHandler ∉ labels ∧ .readHandler ∉ labels ∧ d.caller = .returned ∧ d.buf = c.buf
      ∧ d.ec = c.ec := by
  induction h with
  | nil => exact ⟨List.not_mem_nil, List.not_mem_nil, hback, rfl, rfl⟩
  | @snoc t u ls l hrun _ hnext ih =>
      obtain ⟨htimer, hread, hback', hbuf, hec⟩ := ih
      have ht : t.Coherent := hrun.invariant (fun _ _ _ hc _ hstep => coherent_step hc hstep) hc
      obtain ⟨htimer', hread', hback'', hbuf', hec'⟩ := step_returned ht hback' hnext
      refine ⟨?_, ?_, hback'', hbuf'.trans hbuf, hec'.trans hec⟩
      · simp [htimer, htimer'.symm]
      · simp [hread, hread'.symm]

/-- **A call that returns is a blocking read.** Whatever the order in which the threads, the device,
the clock and `Close` take their steps: when the call is back, no handler is called any more, and its
result is the one of `readUntil` on the bytes that were taken, with nothing to come behind them unless
the delimiter was found. -/
theorem returned_refines (h : system.Run (fun _ _ => True) (begin delim buf deviceOpen) labels c)
    (hback : c.caller = .returned) :
    (∀ ls d, system.Run (fun _ _ => True) c ls d →
      .timerHandler ∉ ls ∧ .readHandler ∉ ls ∧ d.buf = c.buf ∧ d.ec = c.ec)
    ∧ ∀ (p : Port) (later : List (List UInt8)), p.incoming = c.taken ++ later →
      (c.ec = some .success ∨ later = []) →
        (readUntil delim buf).result p = (decide (c.ec = some .success), c.buf)
          ∧ ((readUntil delim buf).after p).incoming = later := by
  have hc := coherent_run h
  have hgathers : c.Gathers delim buf :=
    h.invariant (fun _ _ _ hc _ hstep => gathers_step hc hstep) gathers_begin
  refine ⟨?_, ?_⟩
  · intro ls d hrun
    obtain ⟨htimer, hread, -, hbuf, hec⟩ := run_returned hc hback hrun
    exact ⟨htimer, hread, hbuf, hec⟩
  · intro p later hincoming hend
    have hfinished := (hc.exited (hc.returned hback)).2
    obtain ⟨ec, hec⟩ := Option.ne_none_iff_exists'.mp (hgathers.finished hfinished)
    have hgather : gather delim buf p.incoming = (c.buf, later) := by
      rw [hincoming, hgathers.gathered]
      rcases hend with hsuccess | rfl
      · exact gather_found (hgathers.success hsuccess) later
      · rfl
    have hfound : delim <:+: c.buf ↔ c.ec = some .success := by
      constructor
      · intro hin
        by_contra hnot
        exact hgathers.failure ec hec (fun heq => hnot (heq ▸ hec)) hin
      · exact hgathers.success
    constructor
    · show (decide (delim <:+: (gather delim buf p.incoming).1), (gather delim buf p.incoming).1) = _
      rw [hgather, decide_eq_decide.mpr hfound]
    · show (gather delim buf p.incoming).2 = later
      rw [hgather]

/-- The delimiter comes in two pieces, before the time is over. -/
def promptSteps : List Label :=
  [.deliver [79], .readHandler, .check, .deliver [75, 13], .readHandler, .wake, .check,
    .timerHandler, .exit, .join]

theorem returned_refines_sample :
    ∃ c, system.Run (fun _ _ => True) (begin [79, 75] [] true) promptSteps c
      ∧ ∀ p : Port, p.incoming = [[79], [75, 13], [1]] →
        (readUntil [79, 75] []).result p = (true, [79, 75, 13]) := by
  obtain ⟨c, hrun, hback, htaken, hec, hbuf⟩ := @System.exists_run_of_exec _ _ system
    (fun _ _ => True) _ (begin [79, 75] [] true) promptSteps
    (fun c => c.caller = .returned ∧ c.taken = [[79], [75, 13]] ∧ c.ec = some .success
      ∧ c.buf = [79, 75, 13]) _ (by decide)
  refine ⟨c, hrun, ?_⟩
  intro p hp
  have hresult := ((returned_refines hrun hback).2 p [[1]] (by rw [hp, htaken]; rfl) (.inl hec)).1
  rw [hresult, hec, hbuf]
  rfl

/-! ## The deadline -/

/-- The read is over or ends with its next handler. -/
def Ending (c : TimedRead) : Prop :=
  match c.reading with
  | .outstanding => False
  | .queued result => Last c.delim c.buf result
  | .finished => True

/-- The deadline is kept: on an open device the timer is still to come as long as the read goes on,
and on a closed one it has been. -/
structure Settled (c : TimedRead) : Prop where
  ending : c.deviceOpen = true → c.timer = .finished → c.Ending
  harmless : c.deviceOpen = false → c.timer = .finished

/-- The timer's handler comes between two reads of the device, or `Close` before the timer's
handler. -/
def Misses (c : TimedRead) : Label → Prop
  | .timerHandler => c.reading ≠ .outstanding ∧ ¬ c.Ending
  | .closeDevice => c.timer ≠ .finished
  | _ => False

instance (c : TimedRead) : Decidable c.Ending := by
  unfold Ending
  split <;> infer_instance

instance (c : TimedRead) (label : Label) : Decidable (c.Misses label) := by
  cases label <;> unfold Misses <;> infer_instance

/-- **One step**: a call that has kept its deadline goes on to keep it unless this step misses it. -/
theorem settled_step (hc : c.Settled) (hcoherent : c.Coherent) (h : step c label = some d) :
    d.Settled ↔ ¬ c.Misses label := by
  obtain ⟨-, heffect⟩ := step_iff.mp h
  obtain ⟨hending, hharmless⟩ := hc
  have hclosed := hcoherent.closed
  have htimer := hcoherent.timer
  cases heffect with
  | timerHandler hthread hqueued =>
      have hopen : c.deviceOpen = true := by grind
      rw [onTimer, if_pos hopen]
      constructor
      · rintro ⟨hending', -⟩ ⟨hnot, hgoing⟩
        have hend := hending' hopen rfl
        apply hgoing
        simpa [Ending, cancelRead, hnot] using hend
      · intro hkeeps
        refine ⟨fun _ _ => ?_, fun _ => rfl⟩
        by_cases houtstanding : c.reading = .outstanding
        · simp [Ending, cancelRead, houtstanding, Last]
        · have hend : c.Ending := by
            by_contra hgoing
            exact hkeeps ⟨houtstanding, hgoing⟩
          simpa [Ending, cancelRead, houtstanding] using hend
  | readHandler result hthread hreading =>
      refine iff_of_true ?_ id
      rcases onRead_cases c result with ⟨-, buf, taken, ec, heq⟩ | ⟨hlast, buf, taken, heq⟩ <;> rw [heq]
      · constructor <;> grind [conclude, cancelTimer, Ending]
      · constructor <;> grind [readSome, Ending]
  | closeDevice hfree =>
      constructor
      · rintro ⟨-, hharmless'⟩ hmisses
        exact hmisses (hharmless' rfl)
      · intro hkeeps
        have hfinished : c.timer = .finished := by
          by_contra hnot
          exact hkeeps hnot
        constructor <;> grind [closeDevice, cancelRead]
  | deliver bytes hreading => exact iff_of_true (by constructor <;> grind [Ending]) id
  | fail message hreading => exact iff_of_true (by constructor <;> grind [Ending]) id
  | expire hrun => exact iff_of_true (by constructor <;> grind) id
  | exit hthread hfinished hreading => exact iff_of_true (by constructor <;> grind [Ending]) id
  | check hcaller => exact iff_of_true (by constructor <;> grind [Ending]) id
  | wake hcaller => exact iff_of_true (by constructor <;> grind [Ending]) id
  | join hcaller hthread => exact iff_of_true (by constructor <;> grind [Ending]) id
  | closeTimer => exact iff_of_true (by constructor <;> grind [cancelTimer, Ending]) id

/-- **The deadline is kept in every state of a run exactly when no step misses it**: neither the
timer's handler, called when a read that is not the last has completed, nor `Close`, closing the
device before the timer's handler has been called. -/
theorem settled_iff (h : system.Run (fun _ _ => True) (begin delim buf true) labels c) :
    (∀ ls d, ls <+: labels → system.Run (fun _ _ => True) (begin delim buf true) ls d → d.Settled)
      ↔ system.Run (fun c label => ¬ c.Misses label) (begin delim buf true) labels c := by
  have hbegin : (begin delim buf true).Settled := by
    unfold begin
    split <;> constructor <;> grind [readSome]
  have hiff := @System.Run.always_iff _ _ system (fun c label => ¬ c.Misses label)
    (begin delim buf true) c labels (fun c => c.Settled ∧ c.Coherent) ⟨hbegin, coherent_begin⟩
    (by
      intro t l u ht hstep
      rw [← settled_step ht.1 ht.2 hstep]
      exact and_iff_left (coherent_step ht.2 hstep)) h
  rw [← hiff]
  constructor
  · intro hsettled ls d hls hrun
    exact ⟨hsettled ls d hls hrun, coherent_run hrun⟩
  · intro hsettled ls d hls hrun
    exact (hsettled ls d hls hrun).1

theorem settled_iff_sample :
    ∃ c, system.Run (fun c label => ¬ c.Misses label) (begin [79, 75] [] true) promptSteps c
      ∧ ∀ ls d, ls <+: promptSteps →
        system.Run (fun _ _ => True) (begin [79, 75] [] true) ls d → d.Settled := by
  obtain ⟨c, hrun, -⟩ := @System.exists_run_of_exec _ _ system (fun c label => ¬ c.Misses label) _
    (begin [79, 75] [] true) promptSteps (fun _ => True) _ (by decide)
  exact ⟨c, hrun, (settled_iff (hrun.mono fun _ _ _ => trivial)).mpr hrun⟩

/-! ## Returning -/

/-- Steps of the call, its thread and the clock: nothing is heard from the device and from `Close`. -/
def Alone (_ : TimedRead) : Label → Prop
  | .deliver _ | .fail _ | .closeTimer | .closeDevice => False
  | .expire | .timerHandler | .readHandler | .exit | .check | .wake | .join => True

/-- The call can return by itself. -/
def Returns (c : TimedRead) : Prop :=
  ∃ ls d, system.Run Alone c ls d ∧ d.caller = .returned

theorem Returns.of_step (hrunning : c.terminated = false) (heffect : Effect c label d)
    (halone : c.Alone label) (h : d.Returns) : c.Returns := by
  obtain ⟨ls, e, hrun, hback⟩ := h
  have hstep : system.step c label = some d := step_iff.mpr ⟨hrunning, heffect⟩
  exact ⟨_, e, (System.Run.single halone hstep).trans hrun, hback⟩

section Returning

variable (hc : c.Coherent) (hrunning : c.terminated = false)
include hrunning

/-- The caller finds its thread at the end. -/
theorem returns_of_exited (hthread : c.thread = false) (hcomplete : c.complete = true) :
    c.Returns := by
  have hjoining : ∀ e : TimedRead, e.terminated = false → e.thread = false →
      e.caller = .joining → e.Returns := by
    intro e hrunning' hthread' hcaller
    apply Returns.of_step hrunning' (.join hcaller hthread') trivial
    exact ⟨[], _, .nil, rfl⟩
  have hchecking : ∀ e : TimedRead, e.terminated = false → e.thread = false →
      e.complete = true → e.caller = .checking → e.Returns := by
    intro e hrunning' hthread' hcomplete' hcaller
    apply Returns.of_step hrunning' (.check hcaller) trivial
    exact hjoining _ hrunning' hthread' (if_pos hcomplete')
  cases hcaller : c.caller with
  | returned => exact ⟨[], c, .nil, hcaller⟩
  | joining => exact hjoining c hrunning hthread hcaller
  | checking => exact hchecking c hrunning hthread hcomplete hcaller
  | waiting =>
      apply Returns.of_step hrunning (.wake hcaller) trivial
      exact hchecking _ hrunning hthread hcomplete rfl

include hc

/-- No handler is left. -/
theorem returns_of_finished (htimer : c.timer = .finished) (hreading : c.reading = .finished) :
    c.Returns := by
  have hcomplete := hc.complete.mpr hreading
  by_cases hthread : c.thread = true
  · apply Returns.of_step hrunning (.exit hthread htimer hreading) trivial
    exact returns_of_exited hrunning rfl hcomplete
  · exact returns_of_exited hrunning (by simpa using hthread) hcomplete

/-- Only the last handler of the read is left. -/
theorem returns_of_last {result : ReadResult} (htimer : c.timer = .finished)
    (hreading : c.reading = .queued result) (hlast : Last c.delim c.buf result) : c.Returns := by
  have hthread := hc.thread_of_reading (by rw [hreading]; nofun)
  have heffect := Effect.readHandler result hthread hreading
  have hnext := coherent_step hc (step_iff.mpr ⟨hrunning, heffect⟩)
  apply Returns.of_step hrunning heffect trivial
  rcases onRead_cases c result with ⟨-, buf, taken, ec, heq⟩ | ⟨hnot, -⟩
  · rw [heq] at hnext ⊢
    exact returns_of_finished hnext hrunning (by simp [conclude, cancelTimer, htimer]) rfl
  · exact absurd hlast hnot

/-- The next read of a closed device is the last one. -/
theorem returns_of_closed (hclosed : c.deviceOpen = false) (htimer : c.timer = .finished) :
    c.Returns := by
  cases hreading : c.reading with
  | outstanding => exact absurd hreading (hc.closed hclosed)
  | finished => exact returns_of_finished hc hrunning htimer hreading
  | queued result =>
      by_cases hlast : Last c.delim c.buf result
      · exact returns_of_last hc hrunning htimer hreading hlast
      have hthread := hc.thread_of_reading (by rw [hreading]; nofun)
      have heffect := Effect.readHandler result hthread hreading
      have hnext := coherent_step hc (step_iff.mpr ⟨hrunning, heffect⟩)
      apply Returns.of_step hrunning heffect trivial
      rcases onRead_cases c result with ⟨hyes, -⟩ | ⟨-, buf, taken, heq⟩
      · exact absurd hyes hlast
      · rw [heq] at hnext ⊢
        have hfailed : (({ c with buf := buf, taken := taken } : TimedRead).readSome).reading
            = .queued (.failed "Bad file descriptor") := by
          simp [readSome, hclosed]
        exact returns_of_last hnext hrunning htimer hfailed trivial

/-- The timer's handler ends a read that is outstanding or over. -/
theorem returns_of_handler (hopen : c.deviceOpen = true) (htimer : c.timer = .queued)
    (hreading : c.reading = .outstanding ∨ c.reading = .finished) : c.Returns := by
  have heffect := Effect.timerHandler (hc.thread_of_timer (by rw [htimer]; nofun)) htimer
  have hnext := coherent_step hc (step_iff.mpr ⟨hrunning, heffect⟩)
  apply Returns.of_step hrunning heffect trivial
  rw [onTimer, if_pos hopen] at hnext ⊢
  rcases hreading with houtstanding | hfinished
  · exact @returns_of_last _ hnext hrunning .aborted rfl (by simp [cancelRead, houtstanding]) trivial
  · exact returns_of_finished hnext hrunning rfl (by simp [cancelRead, hfinished])

/-- Between two reads, the timer's handler can wait for the next one. -/
theorem returns_of_queued (hopen : c.deviceOpen = true) (htimer : c.timer = .queued) :
    c.Returns := by
  cases hreading : c.reading with
  | outstanding => exact returns_of_handler hc hrunning hopen htimer (.inl hreading)
  | finished => exact returns_of_handler hc hrunning hopen htimer (.inr hreading)
  | queued result =>
      have hthread := hc.thread_of_reading (by rw [hreading]; nofun)
      have heffect := Effect.readHandler result hthread hreading
      have hnext := coherent_step hc (step_iff.mpr ⟨hrunning, heffect⟩)
      apply Returns.of_step hrunning heffect trivial
      rcases onRead_cases c result with ⟨-, buf, taken, ec, heq⟩ | ⟨-, buf, taken, heq⟩
      · rw [heq] at hnext ⊢
        exact returns_of_handler hnext hrunning hopen (by simp [conclude, cancelTimer, htimer])
          (.inr rfl)
      · rw [heq] at hnext ⊢
        exact returns_of_handler hnext hrunning hopen htimer (.inl (if_pos hopen))

end Returning

/-- From a state that is settled the call can return. -/
theorem returns_of_settled (hc : c.Coherent) (hsettled : c.Settled) : c.Returns := by
  have hrunning : c.terminated = false := by
    rw [← Bool.not_eq_true]
    intro hterminated
    obtain ⟨hclosed, hqueued⟩ := hc.terminated hterminated
    have hfinished := hsettled.harmless hclosed
    rw [hqueued] at hfinished
    cases hfinished
  by_cases hopen : c.deviceOpen = true
  · cases htimer : c.timer with
    | running =>
        have heffect := Effect.expire htimer
        have hnext := coherent_step hc (step_iff.mpr ⟨hrunning, heffect⟩)
        exact Returns.of_step hrunning heffect trivial (returns_of_queued hnext hrunning hopen rfl)
    | queued => exact returns_of_queued hc hrunning hopen htimer
    | finished =>
        have hending := hsettled.ending hopen htimer
        unfold Ending at hending
        split at hending
        · exact hending.elim
        · next result hreading => exact returns_of_last hc hrunning htimer hreading hending
        · next hreading => exact returns_of_finished hc hrunning htimer hreading
  · have hclosed : c.deviceOpen = false := by simpa using hopen
    exact returns_of_closed hc hrunning hclosed (hsettled.harmless hclosed)

/-- A state that is not settled is not left for one that is. -/
theorem missed_step (hc : ¬ c.Settled) (halone : c.Alone label) (hcoherent : c.Coherent)
    (h : step c label = some d) : ¬ d.Settled := by
  obtain ⟨hrunning, heffect⟩ := step_iff.mp h
  rintro ⟨hending, hharmless⟩
  apply hc
  have hclosed := hcoherent.closed
  cases heffect with
  | timerHandler hthread hqueued =>
      by_cases hopen : c.deviceOpen = true
      · exact ⟨fun _ hfinished => by grind, by grind⟩
      · rw [onTimer, if_neg hopen] at hharmless
        exact ⟨fun hyes => absurd hyes hopen, hharmless⟩
  | readHandler result hthread hreading =>
      rcases onRead_cases c result with ⟨hlast, buf, taken, ec, heq⟩ | ⟨hlast, buf, taken, heq⟩
      · rw [heq] at hending hharmless
        constructor <;> grind [conclude, cancelTimer, Ending]
      · rw [heq] at hending hharmless
        constructor <;> grind [readSome, Ending]
  | expire hrun => constructor <;> grind [Ending]
  | exit hthread hfinished hreading => constructor <;> grind [Ending]
  | check hcaller => constructor <;> grind [Ending]
  | wake hcaller => constructor <;> grind [Ending]
  | join hcaller hthread => constructor <;> grind [Ending]
  | deliver | fail | closeTimer | closeDevice => exact halone.elim

/-- **When a call can return by itself**: whatever has happened before, there are steps of the call,
its thread and the clock that bring it back, with nothing more from the device and from `Close`, if
and only if the state is settled. From any other state there are none. -/
theorem returns_iff (h : system.Run (fun _ _ => True) (begin delim buf deviceOpen) labels c) :
    c.Returns ↔ c.Settled := by
  have hc := coherent_run h
  constructor
  · rintro ⟨ls, d, hrun, hback⟩
    by_contra hnot
    have hinv := @System.Run.invariant _ _ _ _ _ _ _ (fun c => ¬ c.Settled ∧ c.Coherent)
      (fun _ _ _ ht halone hstep =>
        ⟨missed_step ht.1 halone ht.2 hstep, coherent_step ht.2 hstep⟩) hrun ⟨hnot, hc⟩
    obtain ⟨htimer, hreading⟩ := hinv.2.exited (hinv.2.returned hback)
    apply hinv.1
    refine ⟨fun _ _ => ?_, fun _ => htimer⟩
    simp [Ending, hreading]
  · exact returns_of_settled hc

/-- The time is over when a first piece has come and its handler is still queued. -/
def lateSteps : List Label :=
  [.check, .deliver [79], .expire, .timerHandler, .readHandler]

/-- Nothing that the call does by itself brings it back. -/
theorem returns_sample :
    ∃ c, system.Run (fun _ _ => True) (begin [79, 75] [] true) lateSteps c ∧ ¬ c.Returns := by
  obtain ⟨c, hrun, hopen, htimer, hending⟩ := @System.exists_run_of_exec _ _ system
    (fun _ _ => True) _ (begin [79, 75] [] true) lateSteps
    (fun c => c.deviceOpen = true ∧ c.timer = .finished ∧ ¬ c.Ending) _ (by decide)
  refine ⟨c, hrun, ?_⟩
  rw [returns_iff hrun]
  intro hsettled
  exact hending (hsettled.ending hopen htimer)

end Iridium.TimedRead
