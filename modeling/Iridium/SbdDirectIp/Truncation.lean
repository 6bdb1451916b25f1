import Iridium.SbdDirectIp.Parse

/-!
# Truncated messages

Do the parsers keep to the buffer? They do where no payload is cut: a payload class compares the
size that is left with the declared length of the content, and leaves out that two bytes of this
size are the length itself. So a last payload that lacks one or two bytes is accepted, together
with the bytes behind the buffer. `keepsToBuffer_iff` says that this is the only way out of the
buffer, for either parser, as long as no location is met (whose surplus is another way).
-/

namespace Iridium.SbdDirectIp

open ByteOrder ReadM Tlv

/-! ## The cut -/

/-- The buffer is whole elements and then a payload that lacks one or two of the bytes it
declares. -/
def EndsInCutPayload (buf : List UInt8) : Prop :=
  ∃ (es : List WireElement) (k : ElementId) (len : Nat) (content : List UInt8),
    (∀ e ∈ es, e.kind ≠ .moLocationInfo) ∧ k.isPayload = true ∧ len ≤ k.maxLength
    ∧ content.length < len ∧ len ≤ content.length + 2
    ∧ buf = wire es ++ k.value :: (beBytes 2 len ++ content)

/-- The bytes of a payload element. -/
def payloadOf : InformationElement → Option (List UInt8)
  | .moPayload e | .mtPayload e => some e.content.payload
  | _ => none

/-- No read leaves the buffer, and after a normal return the encoded sizes of the elements add up
to the buffer and their payloads are parts of it. -/
def KeepsToBuffer (buf : List UInt8) (log : List Access) (thrown : Except String Unit)
    (elements : List InformationElement) : Prop :=
  InBounds buf.length log
    ∧ (thrown = .ok () → (elements.map fun e => 3 + e.getLength.toNat).sum = buf.length
      ∧ ∀ bytes ∈ elements.filterMap payloadOf, bytes <:+: buf)

instance (buf : List UInt8) (log : List Access) (thrown : Except String Unit)
    (elements : List InformationElement) : Decidable (KeepsToBuffer buf log thrown elements) :=
  inferInstanceAs (Decidable (_ ∧ (_ → _ ∧ _)))

/-! ## Pieces that are not locations -/

section Plain

variable {ps : List Piece}

theorem span_of_plain {p : Piece} (h : p.kind ≠ .moLocationInfo) :
    3 + p.decode.getLength.toNat = p.span := by
  have hlt := p.toWireElement.bound
  have hlen : p.decode.getLength = UInt16.ofNat p.content.length :=
    getLength_decodeContent p.kind p.content.length (p.content ++ p.surplus)
  rw [hlen, UInt16.toNat_ofNat_of_lt' hlt, Piece.span, ElementId.surplus, if_neg h, Nat.add_zero]

theorem sum_getLength (hplain : ∀ p ∈ ps, p.kind ≠ .moLocationInfo) :
    ((ps.map Piece.decode).map fun e => 3 + e.getLength.toNat).sum = spanAll ps := by
  induction ps with
  | nil => rfl
  | cons p ps ih =>
      rw [List.map_cons, List.map_cons, List.sum_cons, spanAll_cons,
        span_of_plain (hplain p List.mem_cons_self),
        ih fun q hq => hplain q (List.mem_cons_of_mem _ hq)]

theorem bytesAll_eq_wire (hplain : ∀ p ∈ ps, p.kind ≠ .moLocationInfo) :
    bytesAll ps = wire (elementsOf ps) := by
  induction ps with
  | nil => rfl
  | cons p ps ih =>
      rw [bytesAll_cons, elementsOf_cons, wire_cons,
        Piece.bytes_eq_encode (hplain p List.mem_cons_self),
        ih fun q hq => hplain q (List.mem_cons_of_mem _ hq)]

/-- A payload read from a piece is the content of the piece. -/
theorem payloadOf_decode {p : Piece} {bytes : List UInt8} (h : payloadOf p.decode = some bytes) :
    bytes = p.content ++ p.surplus := by
  unfold Piece.decode decodeContent at h
  cases hk : p.kind <;> rw [hk] at h <;> simp_all [payloadOf]

theorem payload_infix {p : Piece} {bytes : List UInt8} (hp : p ∈ ps)
    (h : payloadOf p.decode = some bytes) : bytes <:+: bytesAll ps := by
  obtain ⟨pre, post, rfl⟩ := List.append_of_mem hp
  rw [payloadOf_decode h, bytesAll_append, bytesAll_cons]
  refine ⟨bytesAll pre ++ (p.kind.value :: beBytes 2 p.content.length), bytesAll post, ?_⟩
  simp [Piece.bytes, Frame.encode, WireElement.frame]

end Plain

/-! ## The cut and the walk -/

section Cut

variable {buf : List UInt8} {past : Memory} {ps : List Piece} {w : Option String}

/-- A walk that leaves the buffer does so in a cut payload. -/
theorem endsInCutPayload_of_parses (hplain : ∀ p ∈ ps, p.kind ≠ .moLocationInfo)
    (h : Parses (Memory.ofBuffer buf past) buf.length 0 ps w) (hgt : buf.length < spanAll ps) :
    EndsInCutPayload buf := by
  rcases List.eq_nil_or_concat ps with rfl | ⟨qs, p, rfl⟩
  · exact absurd hgt (Nat.not_lt_zero _)
  · rw [List.concat_eq_append] at hplain h hgt
    have hqs : ∀ q ∈ qs, q.kind ≠ .moLocationInfo := fun q hq =>
      hplain q (List.mem_append_left _ hq)
    have hp : p.kind ≠ .moLocationInfo :=
      hplain p (List.mem_append_right _ List.mem_cons_self)
    have hinit := h.init_le
    rw [spanAll_append, spanAll_cons, spanAll_nil] at hgt
    have hpay : p.kind.isPayload = true := by
      rw [← Bool.not_eq_false]
      intro hnot
      have hfull := Piece.need_eq_span hnot hp
      omega
    have hneed : p.need = 1 + max 2 p.content.length := by
      rw [Piece.need, ElementId.cover, if_pos hpay]
    have hspan : p.span = 3 + p.content.length := by
      rw [Piece.span, ElementId.surplus, if_neg hp, Nat.add_zero]
    obtain ⟨n, hn⟩ : ∃ n, buf.length = spanAll qs + (3 + n) :=
      ⟨buf.length - spanAll qs - 3, by omega⟩
    have hbytes : p.bytes = (p.kind.value :: beBytes 2 p.content.length) ++ p.content := by
      rw [Piece.bytes_eq_encode hp]
      rfl
    -- the buffer is a prefix of what the walk went over
    have hbuf : buf = (bytesAll (qs ++ [p])).take buf.length := by
      obtain ⟨m, hm⟩ := Nat.exists_eq_add_of_le hgt.le
      have hblock := h.block
      rw [spanAll_append, spanAll_cons, spanAll_nil, hm] at hblock
      rw [← hblock, Memory.take_block, Memory.block_ofBuffer_self]
    have hlen : (p.content.take n).length = n := by
      rw [List.length_take]
      omega
    refine ⟨elementsOf qs, p.kind, p.content.length, p.content.take n, ?_, hpay, p.range.2, ?_, ?_,
      ?_⟩
    · intro e he
      obtain ⟨q, hq, rfl⟩ := List.mem_map.mp he
      exact hqs q hq
    · omega
    · omega
    · rw [hbuf, hn, bytesAll_append, ← length_bytesAll, List.take_length_add_append,
        bytesAll_eq_wire hqs, bytesAll_cons, bytesAll_nil, List.append_nil, hbytes]
      congr 1
      have hthree : (p.kind.value :: beBytes 2 p.content.length).length = 3 := by simp
      rw [← hthree, List.take_length_add_append, List.cons_append]

/-- What the buffer holds before the element that is cut, and at its head. -/
theorem head_of_cut {es : List WireElement} {k : ElementId} {len : Nat} {content : List UInt8}
    (past : Memory) (hlen : len < 65536)
    (hbuf : buf = wire es ++ k.value :: (beBytes 2 len ++ content)) :
    (Memory.ofBuffer buf past).block 0 (wire es).length = wire es
      ∧ Memory.ofBuffer buf past (wire es).length = k.value
      ∧ Frame.lengthAt (Memory.ofBuffer buf past) (wire es).length = len := by
  have hfront : (Memory.ofBuffer buf past).block 0 (wire es).length = wire es := by
    have h := Memory.block_ofBuffer_mid [] (wire es) (k.value :: (beBytes 2 len ++ content)) past
    rwa [List.nil_append, List.length_nil, ← hbuf] at h
  have hfield : (Memory.ofBuffer buf past).block (wire es).length (1 + 2)
      = [k.value] ++ beBytes 2 len := by
    have h := Memory.block_ofBuffer_mid (wire es) ([k.value] ++ beBytes 2 len) content past
    have hshape : wire es ++ ([k.value] ++ beBytes 2 len ++ content) = buf := by
      rw [hbuf]
      rfl
    rw [hshape] at h
    simpa using h
  -- the three bytes at the head, one by one
  rw [Memory.block_add] at hfield
  obtain ⟨hid, hlength⟩ := List.append_inj hfield (by simp)
  refine ⟨hfront, ?_, ?_⟩
  · rw [Memory.block_one, List.singleton_inj] at hid
    exact hid
  · rw [Frame.lengthAt, hlength, beNat_beBytes]
    exact Nat.mod_eq_of_lt hlen

/-- A cut payload is accepted, and read with the bytes behind the buffer. -/
theorem parses_cutPayload (past : Memory) (hcut : EndsInCutPayload buf) :
    ∃ ps, Parses (Memory.ofBuffer buf past) buf.length 0 ps none ∧ buf.length < spanAll ps := by
  obtain ⟨es, k, len, content, hplain, hpay, hmax, hlt, hle, hbuf⟩ := hcut
  obtain ⟨qs, hqs, hbytes, -⟩ := exists_pieces hplain
  have hspan : spanAll qs = (wire es).length := by rw [← length_bytesAll, hbytes]
  have hlength : buf.length = spanAll qs + (3 + content.length) := by
    rw [hbuf, hspan]
    simp
    omega
  have hbound := k.maxLength_le
  obtain ⟨hfront, hk, hat⟩ := head_of_cut past (by omega) hbuf
  rw [← hspan] at hfront hk hat
  rw [← hbytes] at hfront
  have hrange : k.minLength ≤ Frame.lengthAt (Memory.ofBuffer buf past) (spanAll qs)
      ∧ Frame.lengthAt (Memory.ofBuffer buf past) (spanAll qs) ≤ k.maxLength := by
    rw [hat]
    refine ⟨?_, hmax⟩
    have hmin : k.minLength = 1 := by
      cases k <;> first | rfl | exact absurd hpay (by decide)
    omega
  have hpiece := Piece.at_ofMemory hrange hk
  have hkind : (Piece.ofMemory (Memory.ofBuffer buf past) (spanAll qs) k hrange).kind = k := rfl
  generalize Piece.ofMemory (Memory.ofBuffer buf past) (spanAll qs) k hrange = p at hpiece hkind
  have hcontent : p.content.length = len := by
    rw [← hpiece.fields.2.1]
    exact hat
  -- the guard lets a payload pass that is short of two bytes
  have hneed : p.need = 1 + max 2 len := by
    rw [Piece.need, ElementId.cover, hkind, if_pos hpay, hcontent]
  have hspan' : 3 + len ≤ p.span := by
    rw [Piece.span, hcontent]
    omega
  refine ⟨qs ++ [p], ?_, ?_⟩
  · apply parses_append hfront
    · omega
    · rw [Nat.zero_add]
      refine .step hpiece ?_ (.stop ?_)
      · omega
      · omega
  · rw [spanAll_append, spanAll_cons, spanAll_nil]
    omega

end Cut

/-! ## The parsers -/

/-- The argument for a parser that returns the elements of the loop. -/
theorem keepsToBuffer_of_loop {buf : List UInt8} {past : Memory} {log : List Access}
    {thrown : Except String Unit} {elements : List InformationElement}
    (hsize : buf.length ≤ 65535)
    (hlog : log = (Codec.parseLoop buf.length 0 []).log (Memory.ofBuffer buf past))
    (hok : ∀ ps w, Parses (Memory.ofBuffer buf past) buf.length 0 ps w → thrown = .ok () →
      w = none ∧ elements = ps.map Piece.decode)
    (hplain : ∀ a ∈ heads log, Memory.ofBuffer buf past a ≠ ElementId.moLocationInfo.value) :
    KeepsToBuffer buf log thrown elements ↔ ¬ EndsInCutPayload buf := by
  obtain ⟨ps, w, hparses, -, hheads, -⟩ :=
    @parseLoop_spec (Memory.ofBuffer buf past) _ hsize 0 []
  have hin := parseLoop_inBounds hsize hparses
  rw [← hlog] at hheads hin
  have hkind : ∀ p ∈ ps, p.kind ≠ .moLocationInfo := by
    intro p hp hloc
    obtain ⟨a, ha, hvalue⟩ := hparses.value_at_starts hp
    have hmem : a ∈ heads log := by
      rw [hheads]
      exact List.mem_append_left _ ha
    rw [hloc] at hvalue
    exact hplain a hmem hvalue
  constructor
  · rintro ⟨hbounds, -⟩ hcut
    obtain ⟨qs, hqs, hgt⟩ := parses_cutPayload past hcut
    obtain ⟨rfl, -⟩ := hparses.unique hqs
    have hle := hin.mp hbounds
    omega
  · intro hnot
    have hle : spanAll ps ≤ buf.length := by
      by_contra hgt
      exact hnot (endsInCutPayload_of_parses hkind hparses (by omega))
    refine ⟨hin.mpr hle, ?_⟩
    intro hthrown
    obtain ⟨rfl, rfl⟩ := hok ps w hparses hthrown
    have hbuf := bytesAll_of_parses hparses hle
    refine ⟨?_, ?_⟩
    · rw [sum_getLength hkind, ← length_bytesAll, hbuf]
    · intro bytes hbytes
      obtain ⟨e, he, hpayload⟩ := List.mem_filterMap.mp hbytes
      obtain ⟨p, hp, rfl⟩ := List.mem_map.mp he
      rw [← hbuf]
      exact payload_infix hp hpayload

/-- **Either parser keeps to the buffer exactly when the buffer does not end in a payload cut by
one or two bytes**, whatever lies behind the buffer, as long as no location is met. -/
theorem keepsToBuffer_iff (buf : List UInt8) (hsize : buf.length ≤ 65535) (past : Memory)
    (here : Nat) (mo : MoMessage) (confirm : MtConfirmMessage) :
    let mem := Memory.ofBuffer buf past
    let parseMo := Codec.parseMo here buf.length mo
    let parseMtConfirm := Codec.parseMtConfirm buf.length confirm
    ((∀ a ∈ heads (parseMo.log mem), mem a ≠ ElementId.moLocationInfo.value) →
      (KeepsToBuffer buf (parseMo.log mem) (parseMo.result mem).1 (parseMo.result mem).2.elements
        ↔ ¬ EndsInCutPayload buf))
    ∧ ((∀ a ∈ heads (parseMtConfirm.log mem), mem a ≠ ElementId.moLocationInfo.value) →
      (KeepsToBuffer buf (parseMtConfirm.log mem) (parseMtConfirm.result mem).1
        (parseMtConfirm.result mem).2.elements ↔ ¬ EndsInCutPayload buf)) := by
  intro mem parseMo parseMtConfirm
  refine ⟨?_, ?_⟩
  · intro hplain
    apply keepsToBuffer_of_loop hsize parseMo_log ?_ hplain
    intro ps w hparses hthrown
    refine ⟨((parseMo_ok_iff hsize hparses).mp hthrown).1, ?_⟩
    rw [parseMo_message hsize hparses hthrown]
    rfl
  · intro hplain
    apply keepsToBuffer_of_loop hsize parseMtConfirm_log ?_ hplain
    intro ps w hparses hthrown
    refine ⟨((parseMtConfirm_ok_iff hsize hparses).mp hthrown).1, ?_⟩
    rw [parseMtConfirm_message hsize hparses hthrown]
    rfl

section Sample

/-- A header, and a payload that declares three bytes and has two. -/
def sampleCut : List UInt8 := [1, 0, 28] ++ List.replicate 28 0x31 ++ [2, 0, 3, 7, 8]

/-- The same with all three bytes. -/
def sampleWhole : List UInt8 := sampleCut ++ [9]

end Sample

/-- The cut message is accepted, and the byte behind it becomes part of the payload. -/
theorem cut_accepted_sample :
    let mem := Memory.ofBuffer sampleCut fun _ => 99
    let parse := Codec.parseMo 0 sampleCut.length (MoMessage.init 0)
    (∀ a ∈ heads (parse.log mem), mem a ≠ ElementId.moLocationInfo.value)
      ∧ (parse.result mem).1 = .ok ()
      ∧ (parse.result mem).2.payload 0 (fun _ => []) = some [7, 8, 99]
      ∧ ¬ InBounds sampleCut.length (parse.log mem)
      ∧ ((parse.result mem).2.elements.map fun e => 3 + e.getLength.toNat).sum
        = sampleCut.length + 1 := by
  decide +kernel

theorem keepsToBuffer_sample : ¬ EndsInCutPayload sampleWhole :=
  ((keepsToBuffer_iff sampleWhole (by decide) (fun _ => 0) 0 (MoMessage.init 0)
    MtConfirmMessage.init).1 (by decide +kernel)).mp (by decide +kernel)

end Iridium.SbdDirectIp
