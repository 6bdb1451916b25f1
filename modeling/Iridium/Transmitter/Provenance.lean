import Iridium.Transmitter.Refinement
import Iridium.SbdDirectIp.Serialize

/-!
# Provenance

What a transmitter sends and gives back is what was posted, where no connection is made for an
attempt that has lapsed (`genuine_iff`). An attempt lapses when the queue is dropped, or when the
worker starts it without need; the next message posted makes up for it.

Whether an attempt has lapsed can be read off the traffic alone (`Ledger.lapsed`). Until the queue
is looked at again it says just whether the queue is empty (`Tracked`), and `get` answers an empty
queue with a message of its own.
-/

namespace Iridium

open SbdDirectIp MtMessage

/-! ## The ledger -/

/-- Whether the attempt has lapsed after an event. -/
def Event.lapse (lapsed : Bool) : Event → Bool
  | .attempt idle => idle
  | .dropped => true
  | .posted _ => false
  | _ => lapsed

/-- What an event should be like, when these messages are posted and the heap is this one. -/
def Event.Genuine (heap : Heap) (posted : List MtMessage) : Event → Prop
  | .got _ idle => idle = false
  | .wrote message bytes => message ∈ posted ∧ bytes = (message.serialize heap).1
  | .ungot message => message ∈ posted
  | _ => True

namespace Ledger

def lapsed (l : Ledger) : Bool := l.traffic.foldl Event.lapse false

/-- Every message in this ledger is one of those posted. -/
structure Proven (heap : Heap) (l : Ledger) : Prop where
  held : ∀ m ∈ l.held, m ∈ l.posted
  jobs : ∀ m ∈ l.jobs, m ∈ l.posted
  cells : l.heap.Alike heap
  traffic : ∀ e ∈ l.traffic, e.Genuine heap l.posted

variable {heap : Heap} {l : Ledger}

theorem Proven.post (h : l.Proven heap) (message : MtMessage) : (l.post message).Proven heap := by
  have hmem : ∀ m ∈ l.posted, m ∈ l.posted ++ [message] := fun m hm => List.mem_append_left _ hm
  refine ⟨fun m hm => hmem m (h.held m hm), ?_, h.cells, ?_⟩
  · intro m hm
    rcases List.mem_append.mp hm with hold | hnew
    · exact hmem m (h.jobs m hold)
    · exact List.mem_append_right _ hnew
  · intro e he
    rcases List.mem_append.mp he with hold | hnew
    · have hgenuine := h.traffic e hold
      cases e with
      | wrote m bytes => exact ⟨hmem m hgenuine.1, hgenuine.2⟩
      | ungot m => exact hmem m hgenuine
      | _ => exact hgenuine
    · rw [List.mem_singleton.mp hnew]
      trivial

theorem Proven.cleared (h : l.Proven heap) : l.cleared.Proven heap := by
  refine ⟨h.held, (fun m hm => nomatch hm), h.cells, ?_⟩
  intro e he
  rcases List.mem_append.mp he with hold | hnew
  · exact h.traffic e hold
  · rw [List.mem_singleton.mp hnew]
    trivial

theorem Proven.attempted (h : l.Proven heap) : l.attempted.Proven heap := by
  refine ⟨h.held, h.jobs, h.cells, ?_⟩
  intro e he
  rcases List.mem_append.mp he with hold | hnew
  · exact h.traffic e hold
  · rw [List.mem_singleton.mp hnew]
    trivial

/-- The one that matters: the queue must not be empty. -/
theorem Proven.taken (h : l.Proven heap) (hjobs : l.jobs ≠ []) : l.taken.Proven heap := by
  obtain ⟨m, ms, hcons⟩ := List.exists_cons_of_ne_nil hjobs
  have hm : m ∈ l.posted := h.jobs m (by rw [hcons]; exact List.mem_cons_self)
  have hhead : l.jobs.headD default = m := by rw [hcons]; rfl
  have hbytes : (m.serialize l.heap).1 = (m.serialize heap).1 := serialize_alike m h.cells
  have hheap : (m.serialize l.heap).2.Alike heap := by
    rw [serialize_eq]
    intro p
    have hpacked := alike_packAll l.heap m.elements p
    exact ⟨hpacked.1.trans (h.cells p).1, hpacked.2.trans (h.cells p).2⟩
  refine ⟨?_, ?_, ?_, ?_⟩
  · intro m' hm'
    have heq : l.jobs.headD default = m' := Option.some.inj hm'
    rwa [← heq, hhead]
  · intro m' hm'
    exact h.jobs m' (List.mem_of_mem_tail hm')
  · show ((l.jobs.headD default).serialize l.heap).2.Alike heap
    rwa [hhead]
  · intro e he
    have htraffic : l.taken.traffic = l.traffic ++ [.got m false, .wrote m (m.serialize l.heap).1] := by
      simp [Ledger.taken, hcons]
    rw [htraffic] at he
    rcases List.mem_append.mp he with hold | hnew
    · exact h.traffic e hold
    · rcases List.mem_pair.mp hnew with rfl | rfl
      · exact rfl
      · exact ⟨hm, hbytes⟩

theorem Proven.returned (h : l.Proven heap) : l.returned.Proven heap := by
  refine ⟨(fun m hm => nomatch hm), ?_, h.cells, ?_⟩
  · intro m hm
    rcases List.mem_append.mp hm with hheld | hjobs
    · exact h.held m (Option.mem_toList.mp hheld)
    · exact h.jobs m hjobs
  · intro e he
    rcases List.mem_append.mp he with hold | hnew
    · exact h.traffic e hold
    · obtain ⟨m, hm, rfl⟩ := List.mem_map.mp hnew
      exact h.held m (Option.mem_toList.mp hm)

theorem Proven.released (h : l.Proven heap) : l.delivered.Proven heap ∧ l.lost.Proven heap :=
  ⟨⟨(fun _ hm => nomatch hm), h.jobs, h.cells, h.traffic⟩,
    ⟨(fun _ hm => nomatch hm), h.jobs, h.cells, h.traffic⟩⟩

/-- What is known of the queue is what is the case. -/
def Tracks (l : Ledger) : Prop := l.lapsed = true ↔ l.jobs = []

theorem tracks_post (message : MtMessage) : (l.post message).Tracks := by
  simp [Tracks, lapsed, Ledger.post, Event.lapse]

theorem tracks_cleared : l.cleared.Tracks := by
  simp [Tracks, lapsed, Ledger.cleared, Event.lapse]

theorem tracks_attempted : l.attempted.Tracks := by
  simp [Tracks, lapsed, Ledger.attempted, Event.lapse]

end Ledger

namespace SbdTransmitter

variable {past : List UInt8 → Memory} {w v : SbdTransmitter} {label : Label}

/-- The attempt has lapsed: the worker started it with an empty queue, or the queue was dropped, and
nothing has been posted since. -/
def lapsed (w : SbdTransmitter) : Bool := w.log.foldl Event.lapse false

/-- Every message taken, sent or given back is one that was posted, and the bytes sent are its
serialization. -/
def Genuine (heap : Heap) (w : SbdTransmitter) : Prop :=
  ∀ e ∈ w.log, e.Genuine heap w.posted

/-- No connection is made for an attempt that has lapsed. -/
def Provident (w : SbdTransmitter) (label : Label) : Prop := ¬ (w.Connects label ∧ w.lapsed = true)

instance (w : SbdTransmitter) (label : Label) : Decidable (w.Provident label) := by
  unfold Provident
  infer_instance

theorem lapsed_eq : w.lapsed = w.ledger.lapsed := by
  show w.log.foldl Event.lapse false = (w.log.filter Event.traffic).foldl Event.lapse false
  rw [List.foldl_filter]
  congr 1
  funext lapsed e
  cases e <;> rfl

theorem genuine_of_proven {heap : Heap} (h : w.ledger.Proven heap) : w.Genuine heap := by
  intro e he
  by_cases htraffic : e.traffic = true
  · exact h.traffic e (List.mem_filter.mpr ⟨he, htraffic⟩)
  · cases e <;> trivial

/-! ## Steps and runs -/

/-- The traffic tells the worker's and the handlers' view of the queue. -/
structure Tracked (w : SbdTransmitter) : Prop where
  resting : w.Resting
  tracks : w.state.attempting = true → w.ledger.Tracks

theorem tracked_step (hw : w.Tracked) (h : step past w label = some v) : v.Tracked := by
  refine ⟨step_resting hw.resting h, ?_⟩
  intro hattempting
  cases step_moved hw.resting h with
  | quiet hledger hstate =>
      rw [hledger]
      exact hw.tracks (hstate hattempting)
  | posted message hlabel hledger =>
      rw [hledger]
      exact Ledger.tracks_post message
  | dropped hlabel hledger =>
      rw [hledger]
      exact Ledger.tracks_cleared
  | attempted hledger =>
      rw [hledger]
      exact Ledger.tracks_attempted
  | taken _ _ hstate | returned _ hstate | delivered _ hstate | lost _ _ hstate =>
      rw [hstate] at hattempting
      cases hattempting

/-- Where the attempt has not lapsed, the connection finds a message in the queue. -/
theorem proven_step {heap : Heap} (hw : w.Tracked) (hproven : w.ledger.Proven heap)
    (hprovident : w.Provident label) (h : step past w label = some v) : v.ledger.Proven heap := by
  cases step_moved hw.resting h with
  | quiet hledger =>
      rw [hledger]
      exact hproven
  | posted message hlabel hledger =>
      rw [hledger]
      exact hproven.post message
  | dropped hlabel hledger =>
      rw [hledger]
      exact hproven.cleared
  | attempted hledger =>
      rw [hledger]
      exact hproven.attempted
  | taken hconnects hledger =>
      rw [hledger]
      apply hproven.taken
      intro hjobs
      have htracks := hw.tracks (by rw [hconnects.2.1]; rfl)
      exact hprovident ⟨hconnects, lapsed_eq.trans (htracks.mpr hjobs)⟩
  | returned hledger =>
      rw [hledger]
      exact hproven.returned
  | delivered hledger =>
      rw [hledger]
      exact hproven.released.1
  | lost hlabel hledger =>
      rw [hledger]
      exact hproven.released.2

/-- Nothing is struck off the record. -/
theorem traffic_subset (hresting : w.Resting) (h : step past w label = some v) :
    w.traffic ⊆ v.traffic := by
  have hledger : ∃ events, v.traffic = w.traffic ++ events := by
    cases step_moved hresting h with
    | quiet hledger => exact ⟨[], by rw [List.append_nil]; exact congrArg Ledger.traffic hledger⟩
    | delivered hledger => exact ⟨[], by rw [List.append_nil]; exact congrArg Ledger.traffic hledger⟩
    | lost _ hledger => exact ⟨[], by rw [List.append_nil]; exact congrArg Ledger.traffic hledger⟩
    | posted _ _ hledger => exact ⟨_, congrArg Ledger.traffic hledger⟩
    | dropped _ hledger => exact ⟨_, congrArg Ledger.traffic hledger⟩
    | attempted hledger => exact ⟨_, congrArg Ledger.traffic hledger⟩
    | taken _ hledger => exact ⟨_, congrArg Ledger.traffic hledger⟩
    | returned hledger => exact ⟨_, congrArg Ledger.traffic hledger⟩
  obtain ⟨events, heq⟩ := hledger
  rw [heq]
  exact List.subset_append_left _ _

/-- A connection that is made leads to `get`. -/
theorem connects_taken (hconnects : w.Connects label) (h : step past w label = some v) :
    v.ledger = w.ledger.taken := by
  obtain ⟨hhandler, hstate, hopen, hdone⟩ := hconnects
  cases label with
  | complete index result =>
      cases result with
      | done bytes beyond =>
          obtain ⟨op, hop, -, rfl⟩ := step_complete h
          have hkind : op.kind = .connect :=
            Option.some.inj ((handler_complete hop).symm.trans hhandler)
          have hguard : ¬ ((w.finish index).state ≠ .connecting
              ∨ (w.finish index).shutdown = true) := by
            rintro (hnot | hshut)
            · exact hnot hstate
            · exact absurd (hopen.symm.trans hshut) (by decide)
          rw [hkind]
          show ((w.finish index).handle .connecting _ _ (.done bytes beyond)).ledger = _
          rw [handle, if_neg hguard]
          exact (@taken_sending (w.finish index) hstate).ledger
      | _ => exact hdone.elim
  | _ => exact hdone.elim

theorem tracked_init (host port : String) (heap : Heap) : (init host port heap).Tracked := by
  refine ⟨?_, ?_⟩
  · intro hthread
    cases hthread
  · intro hattempting
    cases hattempting

theorem proven_init (host port : String) (heap : Heap) :
    (init host port heap).ledger.Proven heap :=
  ⟨fun _ hm => (nomatch hm), fun _ hm => (nomatch hm), fun _ => ⟨rfl, rfl⟩,
    fun _ he => (nomatch he)⟩

/-- Where `get` never found the queue empty, no connection was made for a lapsed attempt. -/
theorem provident_of_got {s : SbdTransmitter} {labels : List Label} (hs : s.Tracked)
    (h : (system past).Run (fun _ _ => True) s labels w)
    (hgot : ∀ m, Event.got m true ∉ w.traffic) : (system past).Run Provident s labels w := by
  -- from the front of the run: the record only grows
  induction h with
  | nil => exact .nil
  | @snoc t u ls l hrun _ hstep ih =>
      have ht : t.Tracked := hrun.invariant (fun _ _ _ hinv _ h => tracked_step hinv h) hs
      have hsubset := traffic_subset ht.resting hstep
      refine .snoc (ih fun m hm => hgot m (hsubset hm)) ?_ hstep
      rintro ⟨hconnects, hlapsed⟩
      have hjobs : t.messageQueue.jobs = [] :=
        (ht.tracks (by rw [hconnects.2.1]; rfl)).mp (lapsed_eq.symm.trans hlapsed)
      have htraffic : u.traffic = t.ledger.taken.traffic :=
        congrArg Ledger.traffic (connects_taken hconnects hstep)
      apply hgot default
      rw [htraffic]
      have hempty : t.ledger.jobs = [] := hjobs
      simp [Ledger.taken, hempty]

/-- **Provenance.** In every run, whatever steps it takes, the transmitter has taken, sent and given
back nothing but messages that were posted if and only if it never made a connection for an attempt
that had lapsed. -/
theorem genuine_iff {host port : String} {heap : Heap} {labels : List Label}
    (h : (system past).Run (fun _ _ => True) (init host port heap) labels w) :
    w.Genuine heap ↔ (system past).Run Provident (init host port heap) labels w := by
  constructor
  · intro hgenuine
    apply provident_of_got (tracked_init host port heap) h
    intro m hm
    have hidle : true = false := hgenuine _ (List.mem_filter.mp hm).1
    cases hidle
  · intro hrun
    have hinv := @System.Run.invariant _ _ _ _ _ _ _
      (fun w => w.Tracked ∧ w.ledger.Proven heap)
      (fun _ _ _ hw hprovident hstep =>
        ⟨tracked_step hw.1 hstep, proven_step hw.1 hw.2 hprovident hstep⟩)
      hrun ⟨tracked_init host port heap, proven_init host port heap⟩
    exact genuine_of_proven hinv.2

/-- The queue is dropped while the address is being resolved. -/
def droppedLabels : List Label :=
  [.start, .post (MtMessage.init 1), .workerBegin, .workerCheck, .dropMessages,
    .complete 0 (.done [] []), .complete 0 (.done [] [])]

/-- Then an empty message is sent, which nobody has posted. -/
theorem dropped_fabricates :
    ∃ w, (system fun _ _ => 0).Run (fun _ _ => True) (init "h" "p" Heap.empty) droppedLabels w
      ∧ .wrote default [1, 0, 0] ∈ w.log ∧ ¬ w.Genuine Heap.empty := by
  obtain ⟨w, hrun, hposted, hwrote⟩ := @System.exists_run_of_exec _ _ (system fun _ _ => 0)
    (fun _ _ => True) _ (init "h" "p" Heap.empty) droppedLabels
    (fun w => w.posted = [MtMessage.init 1] ∧ .wrote default [1, 0, 0] ∈ w.log) _
    (by decide +kernel)
  refine ⟨w, hrun, hwrote, ?_⟩
  intro hgenuine
  have hmem : (default : MtMessage) ∈ w.posted := (hgenuine _ hwrote).1
  rw [hposted] at hmem
  exact absurd hmem (by decide)

/-- The queue is dropped, and another message posted before the connection is made. -/
def repostedLabels : List Label :=
  [.start, .post (MtMessage.init 1), .workerBegin, .workerCheck, .dropMessages,
    .complete 0 (.done [] []), .post (MtMessage.init 2), .complete 0 (.done [] [])]

theorem genuine_sample :
    ∃ w, (system fun _ _ => 0).Run Provident (init "h" "p" Heap.empty) repostedLabels w
      ∧ .wrote (MtMessage.init 2) [1, 0, 0] ∈ w.log ∧ w.Genuine Heap.empty := by
  obtain ⟨w, hrun, hwrote⟩ := @System.exists_run_of_exec _ _ (system fun _ _ => 0) Provident _
    (init "h" "p" Heap.empty) repostedLabels
    (fun w => .wrote (MtMessage.init 2) [1, 0, 0] ∈ w.log) _ (by decide +kernel)
  exact ⟨w, hrun, hwrote, (genuine_iff (hrun.mono fun _ _ _ => trivial)).mpr hrun⟩

end SbdTransmitter

end Iridium
