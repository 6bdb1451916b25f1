import Iridium.SbdDirectIp.Encoder
import Iridium.Transmitter.Conservation

/-!
# From a request to the wire

What an application does with a transmitter: it makes messages with `Codec::factory` and posts them,
at any time, while the transmitter sends the ones before. The elements of all these messages live in
one heap, and each `serialize` rewrites those that it packs.

Nothing of that can be seen on the wire. What is sent is the packet of a request, however often it is
sent again, or the packet with nothing in it that a transmitter makes up; and apart from such empty
packets, those acknowledged are packets of the requests, each at most once and in their order
(`requests_delivered`).
-/

namespace Iridium

open ByteOrder SbdDirectIp

/-! ## Requests -/

/-- The arguments of `Codec::factory`. -/
structure Request where
  here : Nat
  out : MtMessage
  msgId : UInt32
  imei : List UInt8
  data : Memory
  size : Nat
  flags : MtMessageFlags
  priority : UInt16

namespace Request

def make (r : Request) (heap : Heap) : Except String Unit × MtMessage × Heap :=
  Codec.factory r.here heap r.out r.msgId r.imei (some r.data) r.size r.flags r.priority

/-- The packet of a request. -/
def packet (r : Request) : List UInt8 :=
  mtPacket (mtBody r.msgId r.imei (r.data.block 0 r.size) r.flags r.priority)

end Request

/-- A transmitter, and the requests whose messages have been posted. -/
structure Dispatcher where
  transmitter : SbdTransmitter
  requests : List Request := []

namespace Dispatcher

inductive Label where
  | request (r : Request)
  | transmitter (label : SbdTransmitter.Label)

/-- All messages come from the factory. Where it throws nothing is posted. -/
def step (past : List UInt8 → Memory) (d : Dispatcher) : Label → Option Dispatcher
  | .request r =>
    match r.make d.transmitter.heap with
    | (.error _, _) => some d
    | (.ok (), message, heap) =>
      some ⟨{ d.transmitter with heap := heap }.post message, d.requests ++ [r]⟩
  | .transmitter (.post _) => none
  | .transmitter label =>
    (d.transmitter.step past label).map fun w => { d with transmitter := w }

def system (past : List UInt8 → Memory) : System Dispatcher Label := ⟨step past⟩

def init (host port : String) (heap : Heap) : Dispatcher :=
  ⟨SbdTransmitter.init host port heap, []⟩

end Dispatcher

/-! ## The wire -/

/-- What has been written last, and what was written before each confirmation. -/
structure Wire where
  last : List UInt8 := []
  acknowledged : List (List UInt8) := []
  deriving DecidableEq, Repr

def Wire.note (wire : Wire) : Event → Wire
  | .wrote _ bytes => { wire with last := bytes }
  | .confirmed _ => { wire with acknowledged := wire.acknowledged ++ [wire.last] }
  | _ => wire

def Event.wrote? : Event → Option (List UInt8)
  | .wrote _ bytes => some bytes
  | _ => none

namespace Wire

/-- Without a write, every confirmation is for the packet written before. -/
theorem note_confirmed (wire : Wire) (events : List Event)
    (h : events.filterMap Event.wrote? = []) :
    events.foldl note wire = { wire with
      acknowledged := wire.acknowledged
        ++ (events.filterMap Event.confirmed?).map fun _ => wire.last } := by
  induction events generalizing wire with
  | nil => simp
  | cons event events ih =>
      cases event with
      | wrote message bytes => simp [Event.wrote?] at h
      | confirmed message =>
          rw [List.foldl_cons, ih _ (by simpa [Event.wrote?] using h)]
          simp [note, Event.confirmed?]
      | _ =>
          rw [List.foldl_cons, ih _ (by simpa [Event.wrote?, List.filterMap_cons] using h)]
          simp [note, Event.confirmed?, List.filterMap_cons]

/-- Without a confirmation, the last write counts. -/
theorem note_wrote (wire : Wire) (events : List Event)
    (h : events.filterMap Event.confirmed? = []) :
    events.foldl note wire
      = { wire with last := (events.filterMap Event.wrote?).getLastD wire.last } := by
  induction events generalizing wire with
  | nil => simp
  | cons event events ih =>
      cases event with
      | confirmed message => simp [Event.confirmed?] at h
      | wrote message bytes =>
          have hwrote : (Event.wrote message bytes :: events).filterMap Event.wrote?
              = bytes :: events.filterMap Event.wrote? := rfl
          rw [List.foldl_cons, ih _ (by simpa [Event.confirmed?] using h), hwrote,
            List.getLastD_cons]
          rfl
      | _ =>
          rw [List.foldl_cons, ih _ (by simpa [Event.confirmed?, List.filterMap_cons] using h)]
          simp [note, Event.wrote?, List.filterMap_cons]

end Wire

/-! ## Messages in a growing heap -/

namespace SbdDirectIp

/-- What has been allocated packs to the same as before. -/
structure Heap.Extends (heap heap' : Heap) : Prop where
  next : heap.next ≤ heap'.next
  alike : ∀ p < heap.next, (heap'.cells p).packed = (heap.cells p).packed
    ∧ (heap'.cells p).packedBytes = (heap.cells p).packedBytes

theorem Heap.Extends.refl (heap : Heap) : heap.Extends heap := ⟨le_rfl, fun _ _ => ⟨rfl, rfl⟩⟩

theorem Heap.extends_packAll (heap : Heap) (ps : List Pointer) : heap.Extends (heap.packAll ps) :=
  ⟨le_rfl, fun p _ => MtMessage.alike_packAll heap ps p⟩

namespace MtMessage

/-- The elements of the message have been allocated. -/
def Allocated (heap : Heap) (m : MtMessage) : Prop := ∀ p ∈ m.elements, p < heap.next

theorem allocated_default (heap : Heap) : Allocated heap default := nofun

variable {heap heap' : Heap} {m : MtMessage}

theorem Allocated.extends (hm : Allocated heap m) (h : heap.Extends heap') : Allocated heap' m :=
  fun p hp => Nat.lt_of_lt_of_le (hm p hp) h.next

theorem serialize_extends (hm : Allocated heap m) (h : heap.Extends heap') :
    (m.serialize heap').1 = (m.serialize heap).1 :=
  serialize_congr m fun p hp => h.alike p (hm p hp)

theorem serialize_default (heap : Heap) : ((default : MtMessage).serialize heap).1 = mtPacket [] :=
  rfl

end MtMessage

end SbdDirectIp

open MtMessage

/-- **A request that is accepted** makes a message of its own. -/
theorem Request.made {r : Request} {heap heap' : Heap} {m : MtMessage}
    (h : r.make heap = (.ok (), m, heap')) :
    heap.Extends heap' ∧ Allocated heap' m ∧ (m.serialize heap').1 = r.packet := by
  by_cases henc : Encodable r.imei r.size
  · obtain ⟨m', heap'', hmade, hm⟩ := @factory_makes r.here heap r.out r.msgId r.imei r.data r.size
      r.flags r.priority henc
    obtain ⟨rfl, rfl⟩ : m' = m ∧ heap'' = heap' := by
      have heq := hmade.symm.trans h
      rw [Prod.mk.injEq, Prod.mk.injEq] at heq
      exact heq.2
    refine ⟨⟨?_, ?_⟩, ?_, ?_⟩
    · rw [hm.next]
      exact Nat.le_add_right _ _
    · intro p hp
      rw [hm.older p hp]
      exact ⟨rfl, rfl⟩
    · intro p hp
      rw [hm.elements] at hp
      rw [hm.next]
      simp only [List.mem_cons, List.not_mem_nil, or_false] at hp
      rcases hp with rfl | rfl | rfl
      · exact Nat.lt_add_of_pos_right (by decide)
      · exact Nat.add_lt_add_left (by decide) _
      · exact Nat.add_lt_add_left (by decide) _
    · apply serialize_packet henc.1 _ hm.elements hm.headerCell hm.payloadCell hm.priorityCell
      rw [Memory.length_block]
      exact henc.2.2
  · obtain ⟨what, hthrown⟩ := @factory_throws r.here heap r.out r.msgId r.imei r.data r.size
      r.flags r.priority henc
    have heq := hthrown.symm.trans h
    rw [Prod.mk.injEq] at heq
    cases heq.1

/-! ## What a dispatcher sends -/

namespace SbdTransmitter

variable {w v : SbdTransmitter}

def wire (w : SbdTransmitter) : Wire := w.log.foldl Wire.note {}

theorem ledger_post (w : SbdTransmitter) (message : MtMessage) :
    (w.post message).ledger = w.ledger.post message := by
  simp [post, signal, ledger, posted, confirmed, held, traffic, JobUnitQueue.put, Ledger.post,
    Event.posted?, Event.confirmed?, Event.traffic]
  rfl

theorem wrote_of_traffic (events : List Event) :
    (events.filter Event.traffic).filterMap Event.wrote? = events.filterMap Event.wrote? := by
  rw [List.filterMap_filter]
  congr 1
  funext event
  cases event <;> rfl

/-- What the wire shows of a step. -/
theorem wire_step {traffic : List Event} {messages : List MtMessage} (hlog : w.log <+: v.log)
    (htraffic : v.traffic = w.traffic ++ traffic)
    (hconfirmed : v.confirmed = w.confirmed ++ messages) :
    (traffic.filterMap Event.wrote? = [] → v.wire = { w.wire with
      acknowledged := w.wire.acknowledged ++ messages.map fun _ => w.wire.last })
    ∧ (messages = [] → v.wire
      = { w.wire with last := (traffic.filterMap Event.wrote?).getLastD w.wire.last }) := by
  obtain ⟨events, hevents⟩ := hlog
  have htraffic' : events.filter Event.traffic = traffic := by
    rw [SbdTransmitter.traffic, SbdTransmitter.traffic, ← hevents, List.filter_append] at htraffic
    exact List.append_cancel_left htraffic
  have hconfirmed' : events.filterMap Event.confirmed? = messages := by
    rw [confirmed, confirmed, ← hevents, List.filterMap_append] at hconfirmed
    exact List.append_cancel_left hconfirmed
  have hwire : v.wire = events.foldl Wire.note w.wire := by
    rw [wire, wire, ← hevents, List.foldl_append]
  have hwrote := wrote_of_traffic events
  rw [htraffic'] at hwrote
  rw [hwire]
  constructor
  · intro hnone
    rw [Wire.note_confirmed _ _ (hwrote.symm.trans hnone), hconfirmed']
  · intro hnone
    rw [Wire.note_wrote _ _ (hconfirmed'.trans hnone), hwrote]

end SbdTransmitter

namespace Dispatcher

open SbdTransmitter (wire_step)

variable {past : List UInt8 → Memory} {d e : Dispatcher} {label : Label}

theorem step_transmitter {label : SbdTransmitter.Label}
    (h : step past d (.transmitter label) = some e) :
    (∀ m, label ≠ .post m)
      ∧ ∃ v, d.transmitter.step past label = some v ∧ e = ⟨v, d.requests⟩ := by
  cases label with
  | post message => cases h
  | _ =>
      simp only [step, Option.map_eq_some_iff] at h
      obtain ⟨v, hv, rfl⟩ := h
      exact ⟨by simp, v, hv, rfl⟩

/-- What is on record of a dispatcher is what was requested. -/
structure Faithful (d : Dispatcher) : Prop where
  resting : d.transmitter.Resting
  allocated : ∀ m ∈ d.transmitter.posted, Allocated d.transmitter.heap m
  carried : d.transmitter.posted.map (fun m => (m.serialize d.transmitter.heap).1)
    = d.requests.map Request.packet
  known : ∀ m ∈ d.transmitter.confirmed ++ d.transmitter.held.toList
    ++ d.transmitter.messageQueue.jobs, m = default ∨ m ∈ d.transmitter.posted
  wrote : ∀ m bytes, .wrote m bytes ∈ d.transmitter.traffic →
    bytes = mtPacket [] ∨ ∃ r ∈ d.requests, bytes = r.packet
  acknowledged : d.transmitter.wire.acknowledged
    = d.transmitter.confirmed.map fun m => (m.serialize d.transmitter.heap).1
  last : ∀ m ∈ d.transmitter.held,
    d.transmitter.wire.last = (m.serialize d.transmitter.heap).1

theorem faithful_init (host port : String) (heap : Heap) : (init host port heap).Faithful :=
  ⟨nofun, nofun, rfl, nofun, nofun, rfl, nofun⟩

/-- A message that is known has been allocated, and serializes to a packet of this kind. -/
theorem Faithful.packet (hd : d.Faithful) {m : MtMessage}
    (hm : m = default ∨ m ∈ d.transmitter.posted) :
    Allocated d.transmitter.heap m ∧ ((m.serialize d.transmitter.heap).1 = mtPacket []
      ∨ ∃ r ∈ d.requests, (m.serialize d.transmitter.heap).1 = r.packet) := by
  rcases hm with rfl | hm
  · exact ⟨allocated_default _, .inl (serialize_default _)⟩
  · have hmem := List.mem_map_of_mem (f := fun m => (m.serialize d.transmitter.heap).1) hm
    rw [hd.carried] at hmem
    obtain ⟨r, hr, heq⟩ := List.mem_map.mp hmem
    exact ⟨hd.allocated m hm, .inr ⟨r, hr, heq.symm⟩⟩

/-- What is left to show of a step that posts nothing. -/
theorem Faithful.moved (hd : d.Faithful) {v : SbdTransmitter} (hresting : v.Resting)
    (hextends : d.transmitter.heap.Extends v.heap) (hposted : v.posted = d.transmitter.posted)
    (hknown : ∀ m ∈ v.confirmed ++ v.held.toList ++ v.messageQueue.jobs,
      m = default ∨ m ∈ d.transmitter.posted)
    (hwrote : ∀ m bytes, .wrote m bytes ∈ v.traffic → .wrote m bytes ∈ d.transmitter.traffic
      ∨ (m = default ∨ m ∈ d.transmitter.posted)
        ∧ bytes = (m.serialize d.transmitter.heap).1)
    (hacknowledged : v.wire.acknowledged
      = v.confirmed.map fun m => (m.serialize d.transmitter.heap).1)
    (hlast : ∀ m ∈ v.held, v.wire.last = (m.serialize d.transmitter.heap).1) :
    Faithful ⟨v, d.requests⟩ := by
  -- what is known serializes to the same as before
  have hsame : ∀ m, m = default ∨ m ∈ d.transmitter.posted →
      (m.serialize v.heap).1 = (m.serialize d.transmitter.heap).1 :=
    fun m hm => serialize_extends (hd.packet hm).1 hextends
  refine ⟨hresting, ?_, ?_, ?_, ?_, ?_, ?_⟩
  · intro m hm
    rw [hposted] at hm
    exact (hd.allocated m hm).extends hextends
  · rw [hposted, ← hd.carried]
    apply List.map_congr_left
    intro m hm
    exact hsame m (.inr hm)
  · rw [hposted]
    exact hknown
  · intro m bytes hmem
    rcases hwrote m bytes hmem with hold | ⟨hm, rfl⟩
    · exact hd.wrote m bytes hold
    · exact (hd.packet hm).2
  · rw [hacknowledged]
    apply List.map_congr_left
    intro m hm
    apply (hsame m (hknown m _)).symm
    rw [List.append_assoc]
    exact List.mem_append_left _ hm
  · intro m hm
    rw [hlast m hm]
    apply (hsame m (hknown m _)).symm
    rw [Option.mem_def.mp hm]
    simp

theorem faithful_request (hd : d.Faithful) {r : Request} (h : step past d (.request r) = some e) :
    e.Faithful := by
  simp only [step] at h
  split at h
  · cases h
    exact hd
  · next message heap hmake =>
      cases h
      obtain ⟨hextends, hallocated, hbytes⟩ := Request.made hmake
      have hsame : ∀ m, m = default ∨ m ∈ d.transmitter.posted →
          (m.serialize heap).1 = (m.serialize d.transmitter.heap).1 :=
        fun m hm => serialize_extends (hd.packet hm).1 hextends
      have hledger := SbdTransmitter.ledger_post { d.transmitter with heap := heap } message
      have hposted : ({ d.transmitter with heap := heap }.post message).posted
          = d.transmitter.posted ++ [message] := congrArg (·.posted) hledger
      have hconfirmed : ({ d.transmitter with heap := heap }.post message).confirmed
          = d.transmitter.confirmed := congrArg (·.confirmed) hledger
      have htraffic : ({ d.transmitter with heap := heap }.post message).traffic
          = d.transmitter.traffic ++ [.posted message] := congrArg (·.traffic) hledger
      have hwire : ({ d.transmitter with heap := heap }.post message).wire
          = d.transmitter.wire := by
        simp [SbdTransmitter.post, SbdTransmitter.signal, SbdTransmitter.wire, Wire.note]
      refine ⟨hd.resting, ?_, ?_, ?_, ?_, ?_, ?_⟩
      · intro m hm
        rw [hposted] at hm
        rcases List.mem_append.mp hm with hm | hm
        · exact (hd.allocated m hm).extends hextends
        · rwa [List.mem_singleton.mp hm]
      · show ({ d.transmitter with heap := heap }.post message).posted.map
          (fun m : MtMessage => (m.serialize heap).1) = (d.requests ++ [r]).map Request.packet
        rw [hposted, List.map_append, List.map_append, ← hd.carried]
        congr 1
        · apply List.map_congr_left
          intro m hm
          exact hsame m (.inr hm)
        · simp [hbytes]
      · intro m hm
        rw [hposted]
        rw [hconfirmed] at hm
        have hm : m ∈ d.transmitter.confirmed ++ d.transmitter.held.toList
            ++ (d.transmitter.messageQueue.jobs ++ [message]) := hm
        rw [← List.append_assoc] at hm
        rcases List.mem_append.mp hm with hm | hm
        · exact (hd.known m hm).imp_right (List.mem_append_left _)
        · exact .inr (List.mem_append_right _ hm)
      · intro m bytes hm
        rw [htraffic] at hm
        rcases List.mem_append.mp hm with hm | hm
        · refine (hd.wrote m bytes hm).imp_right ?_
          rintro ⟨r', hr', hbytes'⟩
          exact ⟨r', List.mem_append_left _ hr', hbytes'⟩
        · cases List.mem_singleton.mp hm
      · rw [hwire, hconfirmed, hd.acknowledged]
        apply List.map_congr_left
        intro m hm
        apply (hsame m (hd.known m _)).symm
        rw [List.append_assoc]
        exact List.mem_append_left _ hm
      · intro m hm
        rw [hwire, hd.last m hm]
        apply (hsame m (hd.known m _)).symm
        have hheld : d.transmitter.held = some m := hm
        rw [hheld]
        simp

/-- The steps that write nothing and confirm nothing. -/
theorem Faithful.quiet (hd : d.Faithful) {v : SbdTransmitter} (hresting : v.Resting)
    (hlog : d.transmitter.log <+: v.log) {l : Ledger} {events : List Event} (hledger : v.ledger = l)
    (hheap : l.heap = d.transmitter.heap) (hposted : l.posted = d.transmitter.posted)
    (hconfirmed : l.confirmed = d.transmitter.confirmed)
    (htraffic : l.traffic = d.transmitter.traffic ++ events)
    (hnone : events.filterMap Event.wrote? = [])
    (hheld : l.held = d.transmitter.held ∨ l.held = none)
    (hjobs : l.jobs ⊆ d.transmitter.held.toList ++ d.transmitter.messageQueue.jobs) :
    Faithful ⟨v, d.requests⟩ := by
  subst hledger
  have hwire : v.wire = d.transmitter.wire := by
    have h := (@wire_step _ v events [] hlog htraffic
      (hconfirmed.trans (List.append_nil _).symm)).1 hnone
    rwa [List.map_nil, List.append_nil] at h
  have hconfirmed' : v.confirmed = d.transmitter.confirmed := hconfirmed
  have hheld' : v.held = d.transmitter.held ∨ v.held = none := hheld
  refine hd.moved hresting ?_ hposted ?_ ?_ ?_ ?_
  · have hheap' : v.heap = d.transmitter.heap := hheap
    rw [hheap']
    exact .refl _
  · intro m hm
    apply hd.known
    rw [List.append_assoc] at hm ⊢
    rw [hconfirmed'] at hm
    refine List.mem_append.mpr ((List.mem_append.mp hm).imp_right fun hm => ?_)
    rcases List.mem_append.mp hm with hm | hm
    · rcases hheld' with heq | heq <;> rw [heq] at hm
      · exact List.mem_append_left _ hm
      · cases hm
    · exact hjobs hm
  · intro m bytes hm
    have hm : Event.wrote m bytes ∈ d.transmitter.traffic ++ events := htraffic ▸ hm
    rcases List.mem_append.mp hm with hm | hm
    · exact .inl hm
    · have hwrote : bytes ∈ events.filterMap Event.wrote? :=
        List.mem_filterMap.mpr ⟨_, hm, rfl⟩
      rw [hnone] at hwrote
      cases hwrote
  · rw [hwire, hconfirmed']
    exact hd.acknowledged
  · intro m hm
    rw [hwire]
    rcases hheld' with heq | heq <;> rw [heq] at hm
    · exact hd.last m hm
    · cases hm

/-- The message held, which is confirmed, is the one that was written last. -/
theorem faithful_delivered (hd : d.Faithful) {v : SbdTransmitter} (hresting : v.Resting)
    (hlog : d.transmitter.log <+: v.log) (hledger : v.ledger = d.transmitter.ledger.delivered) :
    Faithful ⟨v, d.requests⟩ := by
  have htraffic : v.traffic = d.transmitter.traffic ++ [] :=
    (congrArg (·.traffic) hledger).trans (List.append_nil _).symm
  have hconfirmed : v.confirmed = d.transmitter.confirmed ++ d.transmitter.held.toList :=
    congrArg (·.confirmed) hledger
  have hheld : v.held = none := congrArg (·.held) hledger
  have hjobs : v.messageQueue.jobs = d.transmitter.messageQueue.jobs := congrArg (·.jobs) hledger
  have hheap : v.heap = d.transmitter.heap := congrArg (·.heap) hledger
  have hwire := (wire_step hlog htraffic hconfirmed).1 rfl
  refine hd.moved hresting (hheap ▸ .refl _) (congrArg (·.posted) hledger) ?_ ?_ ?_ ?_
  · intro m hm
    apply hd.known
    rwa [hconfirmed, hheld, hjobs, Option.toList_none, List.append_nil] at hm
  · intro m bytes hm
    rw [htraffic, List.append_nil] at hm
    exact .inl hm
  · rw [hwire, hconfirmed, List.map_append]
    dsimp only
    rw [hd.acknowledged]
    congr 1
    apply List.map_congr_left
    intro m hm
    exact hd.last m (Option.mem_toList.mp hm)
  · rw [hheld]
    exact nofun

/-- What is written is the first message of the queue, or a default-constructed one. -/
theorem faithful_taken (hd : d.Faithful) {v : SbdTransmitter} (hresting : v.Resting)
    (hlog : d.transmitter.log <+: v.log) (hledger : v.ledger = d.transmitter.ledger.taken) :
    Faithful ⟨v, d.requests⟩ := by
  have hqueue : ∀ m ∈ d.transmitter.messageQueue.jobs, m = default ∨ m ∈ d.transmitter.posted :=
    fun m hm => hd.known m (List.mem_append_right _ hm)
  have hfirst : d.transmitter.messageQueue.jobs.headD default = default
      ∨ d.transmitter.messageQueue.jobs.headD default ∈ d.transmitter.posted := by
    cases hjobs : d.transmitter.messageQueue.jobs with
    | nil => exact .inl rfl
    | cons message jobs => exact hqueue message (by rw [hjobs]; exact List.mem_cons_self)
  have hconfirmed : v.confirmed = d.transmitter.confirmed ++ [] :=
    (congrArg (·.confirmed) hledger).trans (List.append_nil _).symm
  have hjobs : v.messageQueue.jobs = d.transmitter.messageQueue.jobs.tail :=
    congrArg (·.jobs) hledger
  have hheld : v.held = some (d.transmitter.messageQueue.jobs.headD default) :=
    congrArg (·.held) hledger
  have htraffic : v.traffic = d.transmitter.traffic ++ [_, _] := congrArg (·.traffic) hledger
  have hheap : v.heap = (MtMessage.serialize _ d.transmitter.heap).2 := congrArg (·.heap) hledger
  have hwire := (wire_step hlog htraffic hconfirmed).2 rfl
  refine hd.moved hresting ?_ (congrArg (·.posted) hledger) ?_ ?_ ?_ ?_
  · rw [hheap, serialize_eq]
    exact Heap.extends_packAll _ _
  · intro m hm
    rw [hconfirmed, List.append_nil, hheld, hjobs] at hm
    rcases List.mem_append.mp hm with hm | hm
    · rcases List.mem_append.mp hm with hm | hm
      · apply hd.known
        rw [List.append_assoc]
        exact List.mem_append_left _ hm
      · rwa [List.mem_singleton.mp hm]
    · exact hqueue m (List.mem_of_mem_tail hm)
  · intro m bytes hm
    rw [htraffic] at hm
    rcases List.mem_append.mp hm with hm | hm
    · exact .inl hm
    · rcases List.mem_pair.mp hm with hgot | hwrote
      · cases hgot
      · cases hwrote
        exact .inr ⟨hfirst, rfl⟩
  · rw [hwire, hconfirmed, List.append_nil]
    exact hd.acknowledged
  · rw [hheld, hwire]
    rintro m ⟨⟩
    rfl

/-- Every step of a transmitter but a post. -/
theorem faithful_transmitter (hd : d.Faithful) {label : SbdTransmitter.Label} {v : SbdTransmitter}
    (hlabel : ∀ m, label ≠ .post m) (h : d.transmitter.step past label = some v) :
    Faithful ⟨v, d.requests⟩ := by
  have hresting := SbdTransmitter.step_resting hd.resting h
  have hlog := SbdTransmitter.log_step h
  have hjobs := List.subset_append_right d.transmitter.held.toList d.transmitter.messageQueue.jobs
  cases SbdTransmitter.step_moved hd.resting h with
  | quiet hledger =>
      exact hd.quiet hresting hlog hledger rfl rfl rfl (List.append_nil _).symm rfl (.inl rfl) hjobs
  | posted message hpost => exact absurd hpost (hlabel message)
  | dropped _ hledger =>
      exact hd.quiet hresting hlog hledger rfl rfl rfl rfl rfl (.inl rfl) (List.nil_subset _)
  | attempted hledger =>
      exact hd.quiet hresting hlog hledger rfl rfl rfl rfl rfl (.inl rfl) hjobs
  | returned hledger =>
      refine hd.quiet hresting hlog hledger rfl rfl rfl rfl ?_ (.inr rfl) (List.Subset.refl _)
      cases d.transmitter.ledger.held <;> rfl
  | lost _ hledger =>
      exact hd.quiet hresting hlog hledger rfl rfl rfl (List.append_nil _).symm rfl (.inr rfl) hjobs
  | delivered hledger => exact faithful_delivered hd hresting hlog hledger
  | taken _ hledger => exact faithful_taken hd hresting hlog hledger

theorem faithful_step (hd : d.Faithful) (h : step past d label = some e) : e.Faithful := by
  cases label with
  | request r => exact faithful_request hd h
  | transmitter label =>
      obtain ⟨hlabel, v, hv, rfl⟩ := step_transmitter h
      exact faithful_transmitter hd hlabel hv

theorem faithful_run {host port : String} {heap : Heap} {labels : List Label}
    (h : (system past).Run (fun _ _ => True) (init host port heap) labels d) : d.Faithful :=
  h.invariant (fun _ _ _ hd _ hstep => faithful_step hd hstep) (faithful_init host port heap)

/-! ## Requests and acknowledgements -/

/-- A condition on the steps of the transmitter alone. -/
def lift (allow : SbdTransmitter → SbdTransmitter.Label → Prop) (d : Dispatcher) : Label → Prop
  | .request _ => True
  | .transmitter label => allow d.transmitter label

/-- A dispatcher refines the outbox as its transmitter does. -/
theorem outbox_simulation {allow : SbdTransmitter → SbdTransmitter.Label → Prop}
    {allow' : Outbox MtMessage → Outbox.Op MtMessage → Prop}
    (hallow : ∀ w label op, allow w label → w.Warrants label op → ∀ o, allow' o op)
    (hpost : ∀ o m, allow' o (.post m)) :
    System.Simulation (system past) (lift allow) (Outbox.system MtMessage) allow'
      fun d o => d.transmitter.Represents o where
  step d label e o hrep hok hstep := by
    cases label with
    | request r =>
        simp only [system, step] at hstep
        split at hstep
        · cases hstep
          exact ⟨[], o, .nil, hrep⟩
        · next message heap hmake =>
            cases hstep
            have hshows : ({ d.transmitter with heap := heap }).ledger.Shows o :=
              ⟨hrep.shows.posted, hrep.shows.confirmed, hrep.shows.held, hrep.shows.jobs⟩
            obtain ⟨o', happly, hshows'⟩ := hshows.post message
            rw [← SbdTransmitter.ledger_post] at hshows'
            exact ⟨[.post message], o', .single (hpost o message) happly, hrep.resting, hshows'⟩
    | transmitter label =>
        obtain ⟨-, v, hv, rfl⟩ := step_transmitter hstep
        exact (SbdTransmitter.outbox_simulation hallow).step _ label _ o hrep hok hv

/-- Packets of items, without the empty ones, are packets of the genuine items. -/
theorem sublist_packets (heap : Heap) (items : List (Option MtMessage)) :
    (((items.map made).map fun m => (m.serialize heap).1).filter (· ≠ mtPacket [])).Sublist
      (items.reduceOption.map fun m => (m.serialize heap).1) := by
  induction items with
  | nil => exact List.Sublist.refl _
  | cons item items ih =>
      cases item with
      | none =>
          rw [List.reduceOption_cons_of_none, List.map_cons, List.map_cons,
            List.filter_cons_of_neg]
          · exact ih
          · have hmade : ((made none).serialize heap).1 = mtPacket [] := serialize_default heap
            simp [hmade]
      | some m =>
          rw [List.reduceOption_cons_of_some, List.map_cons, List.map_cons, List.map_cons,
            List.filter_cons]
          split
          · exact ih.cons_cons _
          · exact ih.cons _

/-- **From the requests to the wire and back.** In every run, with requests at any time and whatever
becomes of the transmitter, each packet that is written is the one of a request, or has nothing in
it; and apart from those with nothing in them, the packets acknowledged are packets of the requests,
each at most once and in their order. -/
theorem requests_delivered {host port : String} {heap : Heap} {labels : List Label}
    (h : (system past).Run (fun _ _ => True) (init host port heap) labels d) :
    (∀ m bytes, .wrote m bytes ∈ d.transmitter.log →
      bytes = mtPacket [] ∨ ∃ r ∈ d.requests, bytes = r.packet)
    ∧ (d.transmitter.wire.acknowledged.filter (· ≠ mtPacket [])).Sublist
      (d.requests.map Request.packet) := by
  have hd := faithful_run h
  refine ⟨fun m bytes hm => hd.wrote m bytes (List.mem_filter.mpr ⟨hm, rfl⟩), ?_⟩
  have hsim := @outbox_simulation past (fun _ _ => True) (fun _ _ => True)
    (fun _ _ _ _ _ _ => trivial) fun _ _ => trivial
  obtain ⟨ops, o, hops, hrep⟩ := hsim.run
    (h.mono fun d label _ => by cases label <;> trivial) (SbdTransmitter.represents_init host port heap)
  have hdelivered : o.delivered.reduceOption.Sublist d.transmitter.posted := by
    have hitems := Outbox.Run.sublist hops
    have hposted : d.transmitter.posted = o.posted := hrep.shows.posted
    rw [Outbox.items, List.append_assoc, List.reduceOption_append, ← hposted] at hitems
    exact (List.sublist_append_left _ _).trans hitems
  have hconfirmed : d.transmitter.confirmed = o.delivered.map made := hrep.shows.confirmed
  rw [hd.acknowledged, hconfirmed, ← hd.carried]
  exact (sublist_packets _ _).trans (hdelivered.map _)

theorem orderly_step (hd : d.transmitter.Orderly) (hok : lift SbdTransmitter.Undisturbed d label)
    (h : step past d label = some e) : e.transmitter.Orderly := by
  cases label with
  | request r =>
      simp only [step] at h
      split at h
      · cases h
        exact hd
      · next message heap hmake =>
          cases h
          have hgrown : ({ d.transmitter with heap := heap }).Orderly :=
            ⟨⟨hd.shutdown, hd.running, hd.idle, hd.kinds⟩, hd.full⟩
          exact @SbdTransmitter.orderly_step past _ _ (.post message) hgrown trivial rfl
  | transmitter label =>
      obtain ⟨-, v, hv, rfl⟩ := step_transmitter h
      exact SbdTransmitter.orderly_step hd hok hv

/-- **Exactly once, in order.** While the transmitter runs undisturbed, the packets requested are
those acknowledged, then the one that was written last if an answer to it is still to come, then
those of the queue. -/
theorem requests_conserved {host port : String} {heap : Heap} {labels : List Label}
    (h : (system past).Run (lift SbdTransmitter.Undisturbed) (init host port heap) labels d) :
    d.requests.map Request.packet = d.transmitter.wire.acknowledged
      ++ d.transmitter.held.toList.map (fun _ => d.transmitter.wire.last)
      ++ d.transmitter.messageQueue.jobs.map fun m => (m.serialize d.transmitter.heap).1 := by
  have hd := faithful_run (h.mono fun _ _ _ => trivial)
  have hrun : (system past).Run (lift fun w label => ¬ w.Loses label ∧ label ≠ .dropMessages
      ∧ ¬ w.Fabricates label) (init host port heap) labels d := by
    refine @System.Run.strengthen _ _ _ _ _ _ _ _ (fun d => d.transmitter.Orderly)
      (fun _ _ _ => orderly_step) ?_ h
      (SbdTransmitter.orderly_init host port heap)
    intro d label e hd hok hstep
    cases label with
    | request r => trivial
    | transmitter label =>
        obtain ⟨-, v, hv, rfl⟩ := step_transmitter hstep
        exact hd.warrants hok hv
  have hsim : System.Simulation (system past) (lift fun w label => ¬ w.Loses label
      ∧ label ≠ .dropMessages ∧ ¬ w.Fabricates label) (Outbox.system MtMessage)
      (fun o op => Outbox.Keeps o op ∧ Outbox.Honest o op)
      fun d o => d.transmitter.Represents o := by
    apply outbox_simulation
    · rintro w label op ⟨hlose, hdrop, hfab⟩ hwarrants o
      refine ⟨⟨?_, ?_⟩, ?_⟩ <;> rintro rfl
      · exact hlose hwarrants
      · exact hdrop hwarrants
      · exact hfab hwarrants
    · exact fun _ _ => ⟨⟨nofun, nofun⟩, nofun⟩
  obtain ⟨ops, o, hops, hrep⟩ := hsim.run hrun (SbdTransmitter.represents_init host port heap)
  have hposted : d.transmitter.posted = d.transmitter.confirmed ++ d.transmitter.held.toList
      ++ d.transmitter.messageQueue.jobs := by
    rw [show d.transmitter.posted = o.posted from hrep.shows.posted, hrep.messages,
      Outbox.Run.exact hops, List.map_map]
    exact (List.map_id _).symm
  have hlast : d.transmitter.held.toList.map (fun m => (m.serialize d.transmitter.heap).1)
      = d.transmitter.held.toList.map fun _ => d.transmitter.wire.last := by
    apply List.map_congr_left
    intro m hm
    exact (hd.last m (Option.mem_toList.mp hm)).symm
  rw [← hd.carried, hposted, List.map_append, List.map_append, hd.acknowledged, hlast]

/-- A request to one terminal, with a payload of three bytes. -/
def sampleRequest (msgId : UInt32) : Request where
  here := 0
  out := MtMessage.init 0
  msgId := msgId
  imei := List.replicate 15 0x31
  data := fun _ => 9
  size := 3
  flags := .ofRaw 0
  priority := 5

/-- Two requests, of which the first is sent twice. -/
def sampleSteps : List Label :=
  [.transmitter .start, .transmitter .workerBegin, .request (sampleRequest 7),
    .transmitter .workerCheck, .transmitter (.complete 0 (.done [] [])),
    .transmitter (.complete 0 (.done [] [])), .request (sampleRequest 8),
    .transmitter (.complete 0 (.failed "reset")), .transmitter (.complete 0 (.done [] [])),
    .transmitter .workerCheck, .transmitter (.complete 0 (.done [] [])),
    .transmitter (.complete 0 (.done [] [])), .transmitter (.complete 0 (.done [] [])),
    .transmitter (.complete 0 (.done ([1, 0, 28, 0x44, 0, 25] ++ List.replicate 25 0) []))]

instance (d : Dispatcher) : DecidablePred (lift SbdTransmitter.Undisturbed d)
  | .request _ => inferInstanceAs (Decidable True)
  | .transmitter _ => inferInstanceAs (Decidable (SbdTransmitter.Undisturbed _ _))

theorem requests_delivered_sample :
    ∃ d, (system fun _ _ => 0).Run (fun _ _ => True) (init "h" "p" Heap.empty) sampleSteps d
      ∧ d.transmitter.wire.acknowledged = [(sampleRequest 7).packet]
      ∧ (d.transmitter.wire.acknowledged.filter (· ≠ mtPacket [])).Sublist
        (d.requests.map Request.packet) := by
  obtain ⟨d, hrun, hacknowledged⟩ := @System.exists_run_of_exec _ _ (system fun _ _ => 0)
    (fun _ _ => True) _ (init "h" "p" Heap.empty) sampleSteps
    (fun d => d.transmitter.wire.acknowledged = [(sampleRequest 7).packet]) _ (by decide +kernel)
  exact ⟨d, hrun, hacknowledged, (requests_delivered hrun).2⟩

theorem requests_conserved_sample :
    ∃ d, (system fun _ _ => 0).Run (lift SbdTransmitter.Undisturbed) (init "h" "p" Heap.empty)
        sampleSteps d
      ∧ d.transmitter.wire.acknowledged = [(sampleRequest 7).packet]
      ∧ d.requests.map Request.packet = [(sampleRequest 7).packet]
        ++ d.transmitter.messageQueue.jobs.map fun m => (m.serialize d.transmitter.heap).1 := by
  obtain ⟨d, hrun, hacknowledged, hheld⟩ := @System.exists_run_of_exec _ _ (system fun _ _ => 0)
    (lift SbdTransmitter.Undisturbed) _ (init "h" "p" Heap.empty) sampleSteps
    (fun d => d.transmitter.wire.acknowledged = [(sampleRequest 7).packet]
      ∧ d.transmitter.held = none) _ (by decide +kernel)
  have hall := requests_conserved hrun
  rw [hacknowledged, hheld, Option.toList_none, List.map_nil, List.append_nil] at hall
  exact ⟨d, hrun, hacknowledged, hall⟩

end Dispatcher

end Iridium
