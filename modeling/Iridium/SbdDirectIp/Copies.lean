import Iridium.SbdDirectIp.Encoder

/-!
# Copies of a message

Copying a message copies its vector of elements, and its iterators as they are: those of the copy
still point into the vector of the original. So `serialize`, which walks over the vector, answers
for the copy, and the accessors, which go through the iterators, answer for whatever the original
holds by now (`reading_mtCopy`, `values_moCopy`).

`copies_faithful_iff` says when a copy keeps its values while the original is filled again.
-/

namespace Iridium.SbdDirectIp

open ReadM InformationElement

/-! ## Objects and copies -/

/-- The message objects of a type, each at its address. An object and its vector share it. -/
abbrev Objects (Message : Type) := Nat → Message

/-- Copy the object at the first address to the second: construction or assignment. -/
def copyTo {Message : Type} (objects : Objects Message) (copy : Nat × Nat) : Objects Message :=
  Function.update objects copy.2 (objects copy.1)

def copyAll {Message : Type} (copies : List (Nat × Nat)) (objects : Objects Message) :
    Objects Message :=
  copies.foldl copyTo objects

/-- The object at an address holds a copy of the one at `here`, directly or through others. -/
def IsCopy (here : Nat) (copies : List (Nat × Nat)) : Nat → Prop :=
  copyAll copies fun address => address = here

theorem copyAll_of_isCopy {Message : Type} {m : Message} (copies : List (Nat × Nat))
    (objects : Objects Message) (holds : Nat → Prop)
    (hholds : ∀ a, holds a → objects a = m) {address : Nat}
    (h : copyAll copies holds address) : copyAll copies objects address = m := by
  induction copies generalizing objects holds with
  | nil => exact hholds address h
  | cons c cs ih =>
      refine ih (copyTo objects c) (copyTo holds c) ?_ h
      intro a ha
      unfold copyTo at ha ⊢
      by_cases hac : a = c.2
      · subst hac
        rw [Function.update_self] at ha ⊢
        exact hholds _ ha
      · rw [Function.update_of_ne hac] at ha ⊢
        exact hholds a ha

/-- What is not copied to stays. -/
theorem copyAll_of_untouched {Message : Type} {copies : List (Nat × Nat)} {address : Nat}
    (h : ∀ c ∈ copies, c.2 ≠ address) (objects : Objects Message) :
    copyAll copies objects address = objects address := by
  induction copies generalizing objects with
  | nil => rfl
  | cons c cs ih =>
      have hrest := ih (fun d hd => h d (List.mem_cons_of_mem _ hd)) (copyTo objects c)
      refine hrest.trans ?_
      exact Function.update_of_ne (h c List.mem_cons_self).symm _ _

/-- When the original is filled again, a copy is still what it was. -/
theorem filled_again {Message : Type} {m m' : Message} {objects : Objects Message}
    {here there : Nat} {copies : List (Nat × Nat)} (hm : objects here = m) (hne : there ≠ here)
    (hcopy : IsCopy here copies there) :
    let after := Function.update (copyAll copies objects) here m'
    after there = m ∧ after here = m' := by
  intro after
  refine ⟨(Function.update_of_ne hne _ _).trans ?_, Function.update_self here _ _⟩
  apply copyAll_of_isCopy copies objects _ _ hcopy
  rintro a rfl
  exact hm

/-! ## Mobile terminated messages -/

/-- What the accessors and `serialize` of the object at an address say. -/
def MtMessage.values (here : Nat) (objects : Objects MtMessage) (heap : Heap) :
    Option (List UInt8) × Option (List UInt8) × List UInt8 :=
  ((objects here).imei here (fun v => (objects v).elements) heap,
    (objects here).payload here (fun v => (objects v).elements) heap,
    ((objects here).serialize heap).1)

section Mt

variable {here there : Nat} {objects : Objects MtMessage} {heap heap' heap'' : Heap}
  {m m' : MtMessage} {msgId msgId' : UInt32} {imei imei' payload payload' : List UInt8}
  {flags flags' : MtMessageFlags} {priority priority' : UInt16}

/-- The IMEI of a made message consists of digits, so its string is all of it. -/
theorem str_of_encodable {size : Nat} (h : Encodable imei size) :
    (IMEI.ofChars imei).str = imei := by
  have hslice : slice imei 0 15 = imei := slice_all h.1
  have hstr := str_ofChars imei 0
  rw [hslice] at hstr
  rw [hstr, List.takeWhile_eq_self_iff]
  intro c hc
  have hdigit := List.all_eq_true.mp h.2.1 c hc
  rw [decide_eq_true_eq]
  rintro rfl
  exact absurd hdigit (by decide)

/-- A made message answers with what it was made of. -/
theorem reading_made (h : Made here heap m heap' msgId imei payload flags priority)
    (vectors : Nat → List Pointer) :
    m.imei here vectors heap' = some (IMEI.ofChars imei).str
      ∧ m.payload here vectors heap' = some payload := by
  unfold MtMessage.imei MtMessage.payload
  simp [h.header, h.payloadPos, MtMessage.endPos, h.elements, Position.deref, h.headerCell,
    h.payloadCell]

/-- **A copy of it answers with what the original holds by now**, made anew or not. -/
theorem reading_mtCopy (h : Made here heap m heap' msgId imei payload flags priority)
    {old : Heap} (h' : Made here old m' heap'' msgId' imei' payload' flags' priority')
    (hne : there ≠ here) (vectors : Nat → List Pointer) (hvectors : vectors here = m'.elements) :
    m.imei there vectors heap'' = some (IMEI.ofChars imei').str
      ∧ m.payload there vectors heap'' = some payload' := by
  unfold MtMessage.imei MtMessage.payload
  simp [h.header, h.payloadPos, MtMessage.endPos, hne.symm, Position.deref, hvectors,
    h'.elements, h'.headerCell, h'.payloadCell]

/-- Its serialization stays. -/
theorem serialize_mtCopy (h : Made here heap m heap' msgId imei payload flags priority)
    (h' : Made here heap' m' heap'' msgId' imei' payload' flags' priority') :
    (m.serialize heap'').1 = (m.serialize heap').1 := by
  have hcells : ∀ p ∈ m.elements, heap''.cells p = heap'.cells p := by
    intro p hp
    apply h'.older
    rw [h.elements] at hp
    rw [h.next]
    simp only [List.mem_cons, List.not_mem_nil, or_false] at hp
    rcases hp with rfl | rfl | rfl
    · exact Nat.lt_add_of_pos_right (show 0 < 3 by decide)
    · exact Nat.add_lt_add_left (show 1 < 3 by decide) _
    · exact Nat.add_lt_add_left (show 2 < 3 by decide) _
  apply MtMessage.serialize_congr
  intro p hp
  rw [hcells p hp]
  exact ⟨rfl, rfl⟩

end Mt

/-- The arguments of `factory`. -/
structure FactoryArgs where
  msgId : UInt32
  imei : List UInt8
  data : Memory
  size : Nat
  flags : MtMessageFlags
  priority : UInt16

namespace FactoryArgs

def Encodable (a : FactoryArgs) : Prop := SbdDirectIp.Encodable a.imei a.size

def payload (a : FactoryArgs) : List UInt8 := a.data.block 0 a.size

def make (a : FactoryArgs) (here : Nat) (heap : Heap) (out : MtMessage) :
    Except String Unit × MtMessage × Heap :=
  Codec.factory here heap out a.msgId a.imei (some a.data) a.size a.flags a.priority

end FactoryArgs

/-- A message is made at `here` and copied, and the original is made again. The object at `there`
then has the values that the original had at first. -/
def MtCopyFaithful (here there : Nat) (objects : Objects MtMessage) (heap : Heap)
    (copies : List (Nat × Nat)) (a a' : FactoryArgs) : Prop :=
  let made := a.make here heap (objects here)
  let original := Function.update objects here made.2.1
  let copied := copyAll copies original
  let again := a'.make here made.2.2 (copied here)
  let after := Function.update copied here again.2.1
  MtMessage.values there after again.2.2 = MtMessage.values here original made.2.2

/-- It does, unless the second call succeeds with another IMEI or another payload. -/
theorem mtCopy_faithful_iff {here there : Nat} (objects : Objects MtMessage) (heap : Heap)
    {copies : List (Nat × Nat)} {a : FactoryArgs} (a' : FactoryArgs) (henc : a.Encodable)
    (hother : ∀ c ∈ copies, c.2 ≠ here) (hne : there ≠ here) (hcopy : IsCopy here copies there) :
    MtCopyFaithful here there objects heap copies a a'
      ↔ ¬ a'.Encodable ∨ a'.imei = a.imei ∧ a'.payload = a.payload := by
  let made := a.make here heap (objects here)
  let original := Function.update objects here made.2.1
  let copied := copyAll copies original
  let again := a'.make here made.2.2 (copied here)
  let after := Function.update copied here again.2.1
  show MtMessage.values there after again.2.2 = MtMessage.values here original made.2.2 ↔ _
  obtain ⟨m, heap', hmade, hm⟩ :=
    @factory_makes here heap (objects here) a.msgId a.imei a.data a.size a.flags a.priority henc
  have hmade' : made = (.ok (), m, heap') := hmade
  have horiginal : original here = m := by
    show Function.update objects here made.2.1 here = m
    rw [Function.update_self, hmade']
  have hcopied : copied here = m := (copyAll_of_untouched hother original).trans horiginal
  -- the copy is as the original was; the original is as it was made again
  obtain ⟨hthere, hhere⟩ := @filled_again _ _ again.2.1 _ _ _ _ horiginal hne hcopy
  have hold : MtMessage.values here original made.2.2
      = (some a.imei, some a.payload, (m.serialize heap').1) := by
    obtain ⟨himei, hpayload⟩ := reading_made hm fun v => (original v).elements
    rw [MtMessage.values, horiginal, hmade', himei, hpayload, str_of_encodable henc]
    rfl
  rw [hold, MtMessage.values, show after there = m from hthere]
  by_cases henc' : a'.Encodable
  · obtain ⟨m', heap'', hagain, hm'⟩ :=
      @factory_makes here heap' m a'.msgId a'.imei a'.data a'.size a'.flags a'.priority henc'
    have hagain' : again = (.ok (), m', heap'') := by
      show a'.make here made.2.2 (copied here) = _
      rw [hmade', hcopied]
      exact hagain
    have hvectors : (after here).elements = m'.elements := by
      rw [show after here = again.2.1 from hhere, hagain']
    obtain ⟨himei, hpayload⟩ := reading_mtCopy hm hm' hne
      (fun v => (after v).elements) hvectors
    rw [hagain', himei, hpayload, serialize_mtCopy hm hm', str_of_encodable henc']
    simp [henc', FactoryArgs.payload]
  · obtain ⟨what, hagain⟩ :=
      @factory_throws here heap' m a'.msgId a'.imei a'.data a'.size a'.flags a'.priority henc'
    -- what throws leaves the original alone
    have hagain' : again = (.error what, m, heap') := by
      show a'.make here made.2.2 (copied here) = _
      rw [hmade', hcopied]
      exact hagain
    have hvectors : (after here).elements = m.elements := by
      rw [show after here = again.2.1 from hhere, hagain']
    obtain ⟨himei, hpayload⟩ := reading_mtCopy hm hm hne
      (fun v => (after v).elements) hvectors
    rw [hagain', himei, hpayload, str_of_encodable henc]
    simp [henc', FactoryArgs.payload]

/-! ## Mobile originated messages -/

/-- What the accessors of the object at an address say. -/
def MoMessage.values (here : Nat) (objects : Objects MoMessage) :
    Option (List UInt8) × Option (List UInt8) :=
  ((objects here).imei here fun v => (objects v).elements,
    (objects here).payload here fun v => (objects v).elements)

/-- Where the first piece of a class is. -/
def slot (k : ElementId) (ps : List Piece) : Nat := ps.findIdx (·.kind == k)

theorem findId_eq_slot (k : ElementId) (ps : List Piece) :
    Codec.findId k (ps.map Piece.decode) = slot k ps := by
  rw [Codec.findId, List.findIdx_map, slot]
  congr 1
  funext p
  rw [Function.comp_apply, getId_decode]

/-- The second sequence has, where the first one has its first element of the class, another one
of that class with the same reading. -/
def SameSlot (k : ElementId) (reading : WireElement → List UInt8) (ps qs : List Piece) : Prop :=
  ∃ e q, first k (elementsOf ps) = some e ∧ qs[slot k ps]? = some q ∧ q.kind = k
    ∧ reading q.toWireElement = reading e

/-- An element object as a header, and as a payload. -/
def headerReading : InformationElement → Option (List UInt8)
  | .moHeader h => some h.content.imei.str
  | _ => none

@[inherit_doc headerReading]
def payloadReading : InformationElement → Option (List UInt8)
  | .moPayload p => some p.content.payload
  | _ => none

section Mo

variable {here there : Nat} {ps qs : List Piece}

theorem headerReading_decode (q : Piece) :
    headerReading q.decode = if q.kind = .moHeader then some q.toWireElement.imei else none := by
  by_cases hq : q.kind = .moHeader
  · have hdecode := Piece.decode_eq (p := q) (by rw [hq]; decide)
    rw [if_pos hq, hdecode, WireElement.decode, hq]
    simp [decodeContent, headerReading, str_ofChars, WireElement.imei]
  · rw [if_neg hq]
    have hid := getId_decode q
    cases hdecode : q.decode with
    | moHeader h =>
        rw [hdecode] at hid
        exact absurd hid.symm hq
    | _ => rfl

theorem payloadReading_decode (q : Piece) :
    payloadReading q.decode = if q.kind = .moPayload then some q.content else none := by
  by_cases hq : q.kind = .moPayload
  · have hdecode := Piece.decode_eq (p := q) (by rw [hq]; decide)
    rw [if_pos hq, hdecode, WireElement.decode, hq]
    simp [decodeContent, payloadReading]
  · rw [if_neg hq]
    have hid := getId_decode q
    cases hdecode : q.decode with
    | moPayload p =>
        rw [hdecode] at hid
        exact absurd hid.symm hq
    | _ => rfl

/-- **A copy answers with what is in the vector of the original by now**, at the places that the
original had found. -/
theorem values_moCopy {objects : Objects MoMessage} (hne : there ≠ here)
    (hthere : objects there = MoMessage.ofElements here (ps.map Piece.decode)) :
    MoMessage.values there objects
      = ((objects here).elements[slot .moHeader ps]?.bind headerReading,
        (objects here).elements[slot .moPayload ps]?.bind payloadReading) := by
  unfold MoMessage.values MoMessage.imei MoMessage.payload
  rw [hthere]
  simp only [MoMessage.ofElements, MoMessage.endPos, Position.mk.injEq, hne.symm, false_and,
    if_false, Position.deref, findId_eq_slot]
  refine Prod.ext ?_ ?_
  · cases (objects here).elements[slot .moHeader ps]? with
    | none => rfl
    | some e => cases e <;> rfl
  · cases (objects here).elements[slot .moPayload ps]? with
    | none => rfl
    | some e => cases e <;> rfl

theorem bind_headerReading {i : Nat} {bytes : List UInt8} :
    (qs.map Piece.decode)[i]?.bind headerReading = some bytes
      ↔ ∃ q, qs[i]? = some q ∧ q.kind = .moHeader ∧ q.toWireElement.imei = bytes := by
  rw [List.getElem?_map]
  cases qs[i]? with
  | none => simp
  | some q => simp [headerReading_decode]

theorem bind_payloadReading {i : Nat} {bytes : List UInt8} :
    (qs.map Piece.decode)[i]?.bind payloadReading = some bytes
      ↔ ∃ q, qs[i]? = some q ∧ q.kind = .moPayload ∧ q.content = bytes := by
  rw [List.getElem?_map]
  cases qs[i]? with
  | none => simp
  | some q => simp [payloadReading_decode]

end Mo

/-- A message is parsed at `here` and copied, and the original is parsed again, with a throw or
without. The object at `there` then has the values that the original had at first. -/
def MoCopyFaithful (here there : Nat) (objects : Objects MoMessage) (copies : List (Nat × Nat))
    (mem : Memory) (size : Nat) (mem' : Memory) (size' : Nat) : Prop :=
  let original := Function.update objects here
    ((Codec.parseMo here size (objects here)).result mem).2
  let copied := copyAll copies original
  let after := Function.update copied here
    ((Codec.parseMo here size' (copied here)).result mem').2
  MoMessage.values there after = MoMessage.values here original

/-- It does exactly when the second buffer is a sequence of elements that reads the same where the
first one had its header and its payload. -/
theorem moCopy_faithful_iff {here there : Nat} (objects : Objects MoMessage)
    {copies : List (Nat × Nat)} {mem mem' : Memory} {size size' : Nat} (hsize : size ≤ 65535)
    (hsize' : size' ≤ 65535) {ps qs : List Piece} {w : Option String}
    (hps : Parses mem size 0 ps none) (hqs : Parses mem' size' 0 qs w)
    (hok : ((Codec.parseMo here size (objects here)).result mem).1 = .ok ())
    (hne : there ≠ here) (hcopy : IsCopy here copies there) :
    MoCopyFaithful here there objects copies mem size mem' size'
      ↔ w = none ∧ SameSlot .moHeader WireElement.imei ps qs
        ∧ SameSlot .moPayload WireElement.content ps qs := by
  let original := Function.update objects here
    ((Codec.parseMo here size (objects here)).result mem).2
  let copied := copyAll copies original
  let after := Function.update copied here
    ((Codec.parseMo here size' (copied here)).result mem').2
  show MoMessage.values there after = MoMessage.values here original ↔ _
  have hmessage := parseMo_message hsize hps hok
  obtain ⟨-, hheader, hpayload⟩ := (parseMo_ok_iff hsize hps).mp hok
  have horiginal : original here = MoMessage.ofElements here (ps.map Piece.decode) :=
    (Function.update_self here _ _).trans hmessage
  obtain ⟨hthere, hhere⟩ := @filled_again _ _
    ((Codec.parseMo here size' (copied here)).result mem').2 _ _ _ _ horiginal hne hcopy
  obtain ⟨e, he, -, -⟩ := found (by decide) hheader
  obtain ⟨f, hf, -, -⟩ := found (by decide) hpayload
  have hold : MoMessage.values here original = (some e.imei, some f.content) := by
    rw [MoMessage.values, horiginal, imei_found _ hheader, payload_found _ hpayload, he, hf]
    rfl
  have hnew := @values_moCopy here there ps after hne hthere
  rw [show after here = _ from hhere] at hnew
  rw [hold, hnew, Prod.mk.injEq]
  by_cases hagain : ((Codec.parseMo here size' (copied here)).result mem').1 = .ok ()
  · obtain ⟨rfl, -, -⟩ := (parseMo_ok_iff hsize' hqs).mp hagain
    have helements := congrArg MoMessage.elements (parseMo_message hsize' hqs hagain)
    rw [helements]
    simp only [MoMessage.ofElements]
    rw [bind_headerReading, bind_payloadReading]
    constructor
    · rintro ⟨⟨q, hq, hk, hread⟩, ⟨r, hr, hk', hread'⟩⟩
      exact ⟨trivial, ⟨e, q, he, hq, hk, hread⟩, f, r, hf, hr, hk', hread'⟩
    · rintro ⟨-, ⟨e', q, he', hq, hk, hread⟩, f', r, hf', hr, hk', hread'⟩
      obtain rfl := Option.some.inj (he.symm.trans he')
      obtain rfl := Option.some.inj (hf.symm.trans hf')
      exact ⟨⟨q, hq, hk, hread⟩, r, hr, hk', hread'⟩
  · -- a parse that throws has cleared the elements that the copy points to
    rw [parseMo_thrown hsize' hqs hagain]
    refine iff_of_false (by simp) ?_
    rintro ⟨rfl, ⟨-, q, -, hq, hk, -⟩, -, r, -, hr, hk', -⟩
    exact hagain ((parseMo_ok_iff hsize' hqs).mpr
      ⟨rfl, ⟨q, List.mem_of_getElem? hq, hk⟩, r, List.mem_of_getElem? hr, hk'⟩)

/-! ## Both -/

/-- **When a copy keeps its values.** A copy of a mobile terminated message does while the original
is not made again from another IMEI or another payload; a copy of a mobile originated message,
while the original is not parsed again from a buffer that reads otherwise in the places of the
first one's header and payload, or does not parse. -/
theorem copies_faithful_iff (here there : Nat) (copies : List (Nat × Nat)) (hne : there ≠ here)
    (hcopy : IsCopy here copies there) :
    (∀ (objects : Objects MtMessage) (heap : Heap) (a a' : FactoryArgs), a.Encodable →
      (∀ c ∈ copies, c.2 ≠ here) →
      (MtCopyFaithful here there objects heap copies a a'
        ↔ ¬ a'.Encodable ∨ a'.imei = a.imei ∧ a'.payload = a.payload))
    ∧ ∀ (objects : Objects MoMessage) (buf buf' : List UInt8) (past past' : Memory) (ps qs : List Piece) (w : Option String),
      buf.length ≤ 65535 → buf'.length ≤ 65535 →
      Parses (Memory.ofBuffer buf past) buf.length 0 ps none →
      Parses (Memory.ofBuffer buf' past') buf'.length 0 qs w →
      ((Codec.parseMo here buf.length (objects here)).result (Memory.ofBuffer buf past)).1
        = .ok () →
      (MoCopyFaithful here there objects copies (Memory.ofBuffer buf past) buf.length
          (Memory.ofBuffer buf' past') buf'.length
        ↔ w = none ∧ SameSlot .moHeader WireElement.imei ps qs
          ∧ SameSlot .moPayload WireElement.content ps qs) := by
  constructor
  · intro objects heap a a' henc hother
    exact mtCopy_faithful_iff objects heap a' henc hother hne hcopy
  · intro objects buf buf' past past' ps qs w hsize hsize' hps hqs hok
    exact moCopy_faithful_iff objects hsize hsize' hps hqs hok hne hcopy

section Sample

/-- A header whose content consists of one byte, and a payload of one byte. -/
def samplePieces (b : UInt8) : List Piece :=
  [{ kind := .moHeader, content := List.replicate 28 b, surplus := [], length_surplus := rfl,
     range := by rw [List.length_replicate]; decide },
   { kind := .moPayload, content := [b], surplus := [], length_surplus := rfl,
     range := by rw [List.length_singleton]; decide }]

def sampleMemory (b : UInt8) : Memory := Memory.ofBuffer (bytesAll (samplePieces b)) fun _ => 0

def sampleArgs (b : UInt8) : FactoryArgs := ⟨7, List.replicate 15 b, fun _ => b, 2, .ofRaw 0, 1⟩

end Sample

/-- Copies of copies, and an original that is filled with the same again. -/
theorem copies_faithful_sample :
    MtCopyFaithful 0 2 (fun a => MtMessage.init a) Heap.empty [(0, 1), (1, 2)] (sampleArgs 0x31)
        (sampleArgs 0x31)
      ∧ MoCopyFaithful 0 2 (fun a => MoMessage.init a) [(0, 1), (1, 2)]
        (sampleMemory 0x31) (bytesAll (samplePieces 0x31)).length
        (sampleMemory 0x31) (bytesAll (samplePieces 0x31)).length := by
  have hother : ∀ c ∈ [(0, 1), (1, 2)], c.2 ≠ 0 := by decide
  have hcopy : IsCopy 0 [(0, 1), (1, 2)] 2 := by simp [IsCopy, copyAll, copyTo]
  constructor
  · refine ((copies_faithful_iff 0 2 _ (by decide) hcopy).1 _ _ _ _ ?_ hother).mpr
      (.inr ⟨rfl, rfl⟩)
    show Encodable _ _
    decide
  · have hparses := parses_bytesAll (samplePieces 0x31) fun _ => 0
    refine ((copies_faithful_iff 0 2 _ (by decide) hcopy).2 _ _ _ _ _ _ _ none (by decide)
      (by decide) hparses hparses ?_).mpr ⟨rfl, ?_, ?_⟩
    · exact (parseMo_ok_iff (by decide) hparses).mpr
        ⟨rfl, ⟨_, List.mem_cons_self, rfl⟩, _, List.mem_cons_of_mem _ List.mem_cons_self, rfl⟩
    · exact ⟨_, _, rfl, rfl, rfl, rfl⟩
    · exact ⟨_, _, rfl, rfl, rfl, rfl⟩

/-- The copy of a message takes over the IMEI that the original is made from next. -/
theorem copy_overwritten_sample :
    ¬ MtCopyFaithful 0 1 (fun a => MtMessage.init a) Heap.empty [(0, 1)] (sampleArgs 0x31)
        (sampleArgs 0x32)
      ∧ ¬ MoCopyFaithful 0 1 (fun a => MoMessage.init a) [(0, 1)]
        (sampleMemory 0x31) (bytesAll (samplePieces 0x31)).length
        (sampleMemory 0x32) (bytesAll (samplePieces 0x32)).length := by
  unfold MtCopyFaithful MoCopyFaithful
  constructor
  · decide +kernel
  · decide +kernel

end Iridium.SbdDirectIp
