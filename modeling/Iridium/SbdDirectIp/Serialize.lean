import Iridium.SbdDirectIp.Codec

/-!
# Serialization

`packInto` appends to the buffer and rewrites its element: the length always, and the content
where it is out of range. `packed` and `packedBytes` are its two effects on their own. A packed
element packs to itself and to the same bytes (`packed_packed`, `packedBytes_packed`), so
serializing a message twice, or serializing its copies, which share the elements, yields the same
bytes (`serialize_copies`).
-/

namespace Iridium.SbdDirectIp

open ByteOrder

namespace InformationElement

/-- The element as `packInto` leaves it. -/
def packed (e : InformationElement) : InformationElement := (e.packInto []).1

/-- The bytes that `packInto` appends. -/
def packedBytes (e : InformationElement) : List UInt8 := (e.packInto []).2

end InformationElement

open InformationElement

/-! ## One element -/

theorem packPayload_eq (id : ElementId) (limit : UInt16) (self : IEContent PayloadDto)
    (raw : List UInt8) :
    packPayload id limit self raw
      = ((packPayload id limit self []).1, raw ++ (packPayload id limit self []).2) := by
  unfold packPayload basePackInto
  dsimp only
  split <;> simp

theorem packInto_eq (e : InformationElement) (raw : List UInt8) :
    e.packInto raw = (packed e, raw ++ packedBytes e) := by
  unfold packed packedBytes
  cases e with
  | moPayload e =>
      have h := packPayload_eq .moPayload (UInt16.ofNat IEMoPayload.maxPayloadLength) e raw
      simp only [packInto, IEMoPayload.packInto]
      rw [h]
  | mtPayload e =>
      have h := packPayload_eq .mtPayload (UInt16.ofNat IEMtPayload.maxPayloadLength) e raw
      simp only [packInto, IEMtPayload.packInto]
      rw [h]
  | moHeader e => simp [packInto, IEMoHeader.packInto, basePackInto]
  | moLocationInfo e => simp [packInto, IEMoLocationInfo.packInto, basePackInto]
  | moConfirmation e => simp [packInto, IEMoConfirmation.packInto, basePackInto]
  | mtHeader e => simp [packInto, IEMtHeader.packInto, basePackInto]
  | mtConfirmationMsg e => simp [packInto, IEMtConfirmationMsg.packInto, basePackInto]
  | mtMsgPriority e => simp [packInto, IEMtPriority.packInto, basePackInto]

theorem length_resize (bytes : List UInt8) (n : Nat) : (resize bytes n).length = n := by
  simp [resize]
  omega

/-- Packing a packed payload changes nothing: it has been cut to the limit already. -/
theorem packPayload_packed (id : ElementId) (limit : UInt16) (self : IEContent PayloadDto) :
    packPayload id limit (packPayload id limit self []).1 [] = packPayload id limit self [] := by
  by_cases hlong : limit < UInt16.ofNat self.content.payload.length
  · have hfirst : (packPayload id limit self []).1
        = { length := limit, content := ⟨resize self.content.payload limit.toNat⟩ } := by
      simp [packPayload, hlong]
    have hlen : UInt16.ofNat (resize self.content.payload limit.toNat).length = limit := by
      rw [length_resize, UInt16.ofNat_toNat]
    rw [hfirst]
    simp [packPayload, hlong, hlen]
  · simp [packPayload, hlong]

/-- The priority is in range after the first time. -/
theorem packPriority_packed (e : IEMtPriority) :
    IEMtPriority.packInto (IEMtPriority.packInto e []).1 [] = IEMtPriority.packInto e [] := by
  by_cases hrange : IEMtPriority.minPriority < e.content.priority
      ∨ e.content.priority < IEMtPriority.maxPriority
  · have hdefault : ¬ (IEMtPriority.minPriority < IEMtPriority.minPriority
        ∨ IEMtPriority.minPriority < IEMtPriority.maxPriority) := by decide
    simp only [IEMtPriority.packInto, if_pos hrange, if_neg hdefault]
  · simp only [IEMtPriority.packInto, if_neg hrange]

/-- **Packing a packed element changes nothing and yields the same bytes.** -/
theorem packInto_packed (e : InformationElement) :
    (packed e).packInto [] = (packed e, packedBytes e) := by
  unfold packed packedBytes
  cases e with
  | moPayload e =>
      have h := packPayload_packed .moPayload (UInt16.ofNat IEMoPayload.maxPayloadLength) e
      simp only [packInto, IEMoPayload.packInto]
      rw [h]
  | mtPayload e =>
      have h := packPayload_packed .mtPayload (UInt16.ofNat IEMtPayload.maxPayloadLength) e
      simp only [packInto, IEMtPayload.packInto]
      rw [h]
  | mtMsgPriority e =>
      simp only [packInto]
      rw [packPriority_packed]
  | moHeader e => rfl
  | moLocationInfo e => rfl
  | moConfirmation e => rfl
  | mtHeader e => rfl
  | mtConfirmationMsg e => rfl

@[simp] theorem packed_packed (e : InformationElement) : packed (packed e) = packed e := by
  rw [packed, packInto_packed]

@[simp] theorem packedBytes_packed (e : InformationElement) :
    packedBytes (packed e) = packedBytes e := by
  rw [packedBytes, packInto_packed]

/-! ## A whole message -/

/-- The heap with these elements packed. -/
def Heap.packAll (heap : Heap) (ps : List Pointer) : Heap :=
  { heap with cells := fun q => if q ∈ ps then packed (heap.cells q) else heap.cells q }

/-- The bytes these elements pack to. -/
def Heap.bytesOf (heap : Heap) (ps : List Pointer) : List UInt8 :=
  ps.flatMap fun p => packedBytes (heap.cells p)

/-- The running sum of their lengths. -/
def Heap.lengthOf (heap : Heap) (ps : List Pointer) : UInt16 :=
  (ps.map fun p => (packed (heap.cells p)).getLength + UInt16.ofNat headerSize).sum

/-- Heaps whose elements pack to the same. -/
def Heap.Alike (heap heap' : Heap) : Prop :=
  ∀ p, packed (heap.cells p) = packed (heap'.cells p)
    ∧ packedBytes (heap.cells p) = packedBytes (heap'.cells p)

namespace MtMessage

theorem cells_packAll (heap : Heap) (ps : List Pointer) (q : Pointer) :
    (heap.packAll ps).cells q = if q ∈ ps then packed (heap.cells q) else heap.cells q := rfl

/-- Packing one element first makes no difference to the others, nor to itself. -/
theorem packedBytes_set (heap : Heap) (p q : Pointer) :
    packedBytes ((heap.set p (packed (heap.cells p))).cells q) = packedBytes (heap.cells q)
      ∧ packed ((heap.set p (packed (heap.cells p))).cells q) = packed (heap.cells q) := by
  unfold Heap.set
  by_cases h : q = p
  · subst h
    simp
  · simp [Function.update_of_ne h]

theorem serializeLoop_eq (ps : List Pointer) (heap : Heap) (out : List UInt8) (length : UInt16) :
    serializeLoop ps heap out length
      = (out ++ heap.bytesOf ps, length + heap.lengthOf ps, heap.packAll ps) := by
  induction ps generalizing heap out length with
  | nil => simp [serializeLoop, Heap.bytesOf, Heap.lengthOf, Heap.packAll]
  | cons p ps ih =>
      rw [serializeLoop, packInto_eq]
      dsimp only
      rw [ih]
      -- what has been packed before packs to the same bytes again
      have hbytes : (heap.set p (packed (heap.cells p))).bytesOf ps = heap.bytesOf ps := by
        unfold Heap.bytesOf
        simp only [(packedBytes_set heap p _).1]
      have hlength : (heap.set p (packed (heap.cells p))).lengthOf ps = heap.lengthOf ps := by
        unfold Heap.lengthOf
        simp only [(packedBytes_set heap p _).2]
      have hheap : (heap.set p (packed (heap.cells p))).packAll ps = heap.packAll (p :: ps) := by
        unfold Heap.packAll Heap.set
        congr 1
        funext q
        by_cases hq : q = p
        · subst hq
          simp
        · simp [hq]
      rw [hbytes, hlength, hheap]
      simp [Heap.bytesOf, Heap.lengthOf, add_assoc]

theorem serialize_eq (m : MtMessage) (heap : Heap) :
    m.serialize heap
      = (sbdProtoNumber :: bytes16 (htons (heap.lengthOf m.elements)) ++ heap.bytesOf m.elements,
        heap.packAll m.elements) := by
  rw [serialize, serializeLoop_eq]
  simp

/-- Serializations one after the other, through the same heap. -/
def serializeAll : List MtMessage → Heap → List (List UInt8) × Heap
  | [], heap => ([], heap)
  | m :: ms, heap =>
    let (bytes, heap) := m.serialize heap
    let (rest, heap) := serializeAll ms heap
    (bytes :: rest, heap)

theorem alike_packAll (heap : Heap) (ps : List Pointer) : (heap.packAll ps).Alike heap := by
  intro p
  rw [cells_packAll]
  split
  · exact ⟨packed_packed _, packedBytes_packed _⟩
  · exact ⟨rfl, rfl⟩

/-- Only what the elements of a message pack to matters. -/
theorem serialize_congr (m : MtMessage) {heap heap' : Heap}
    (h : ∀ p ∈ m.elements, packed (heap.cells p) = packed (heap'.cells p)
      ∧ packedBytes (heap.cells p) = packedBytes (heap'.cells p)) :
    (m.serialize heap).1 = (m.serialize heap').1 := by
  have hbytes : heap.bytesOf m.elements = heap'.bytesOf m.elements := by
    unfold Heap.bytesOf
    apply List.flatMap_congr
    intro p hp
    exact (h p hp).2
  have hlength : heap.lengthOf m.elements = heap'.lengthOf m.elements := by
    unfold Heap.lengthOf
    congr 1
    apply List.map_congr_left
    intro p hp
    rw [(h p hp).1]
  rw [serialize_eq, serialize_eq, hbytes, hlength]

/-- A message serializes to the same bytes in such heaps. -/
theorem serialize_alike (m : MtMessage) {heap heap' : Heap} (h : heap.Alike heap') :
    (m.serialize heap).1 = (m.serialize heap').1 :=
  serialize_congr m fun p _ => h p

/-- Once packed, the elements give the same bytes again. -/
theorem serialize_packAll (m : MtMessage) (heap : Heap) :
    m.serialize (heap.packAll m.elements) = m.serialize heap := by
  have hbytes := serialize_alike m (alike_packAll heap m.elements)
  have hheap : (heap.packAll m.elements).packAll m.elements = heap.packAll m.elements := by
    unfold Heap.packAll
    congr 1
    funext q
    by_cases hq : q ∈ m.elements <;> simp [hq]
  refine Prod.ext hbytes ?_
  rw [serialize_eq, serialize_eq, hheap]

/-- **Retransmission**: a message and any number of copies that share its elements serialize to the
same bytes, one after the other. -/
theorem serialize_copies (m : MtMessage) (heap : Heap) (copies : List MtMessage)
    (h : ∀ c ∈ copies, c.elements = m.elements) :
    (serializeAll copies heap).1 = List.replicate copies.length (m.serialize heap).1 := by
  induction copies generalizing heap with
  | nil => rfl
  | cons c cs ih =>
      have hc := h c List.mem_cons_self
      have hcopy : c.serialize heap = m.serialize heap := by
        rw [serialize_eq, serialize_eq, hc]
      have hheap : (m.serialize heap).2 = heap.packAll m.elements := by rw [serialize_eq]
      have hrest := ih (heap.packAll m.elements) fun d hd => h d (List.mem_cons_of_mem _ hd)
      rw [serialize_packAll] at hrest
      simp only [serializeAll, hcopy, hheap, hrest, List.length_cons, List.replicate_succ]

end MtMessage

end Iridium.SbdDirectIp
