import Iridium.SbdDirectIp.Parse

/-!
# The confirmation grammar

A confirmation is read twice: by `messageCategory`, which steps by the declared lengths, and by
`parse`, which steps by what `unpack` returns. Where the scan ends with a confirmation, every
identifier the parser meets is the one of a confirmation element (`confirmations_of_scan`), and of
such an element both walks take the same 28 bytes. So the two together accept exactly the
concatenations of 28-byte blocks (`confirmation_grammar`).
-/

namespace Iridium.SbdDirectIp

open ByteOrder ReadM Tlv

/-- A confirmation element with its header. -/
def IsConfirmationBlock (b : List UInt8) : Prop := b.length = 28 ∧ b.take 3 = [0x44, 0x00, 0x19]

instance (b : List UInt8) : Decidable (IsConfirmationBlock b) :=
  inferInstanceAs (Decidable (_ ∧ _))

/-- A confirmation is the only element in its category. -/
theorem kind_of_idCategory {k : ElementId}
    (h : Codec.idCategory k.value = .mtConfirmMessage) : k = .mtConfirmationMsg := by
  cases k with
  | mtConfirmationMsg => rfl
  | moHeader | moPayload | moLocationInfo | moConfirmation => exact absurd h (by decide)
  | mtHeader | mtPayload | mtMsgPriority => exact absurd h (by decide)

/-! ## Elements and blocks -/

/-- The element with the fields of a block. -/
def ofBlock (b : List UInt8) (h : IsConfirmationBlock b) : WireElement where
  kind := .mtConfirmationMsg
  content := b.drop 3
  range := by
    have hlen : (b.drop 3).length = 25 := by rw [List.length_drop, h.1]
    rw [hlen]
    decide

theorem encode_ofBlock {b : List UInt8} (h : IsConfirmationBlock b) :
    (ofBlock b h).frame.encode = b := by
  have hlen : (b.drop 3).length = 25 := by rw [List.length_drop, h.1]
  have hfield : beBytes 2 25 = [0x00, 0x19] := by decide
  have hsplit := List.take_append_drop 3 b
  rw [h.2] at hsplit
  rw [Frame.encode]
  change ElementId.mtConfirmationMsg.value :: (beBytes 2 (b.drop 3).length ++ b.drop 3) = b
  rw [hlen, hfield]
  exact hsplit

theorem isConfirmationBlock_encode {e : WireElement} (h : e.kind = .mtConfirmationMsg) :
    IsConfirmationBlock e.frame.encode := by
  obtain ⟨k, content, range⟩ := e
  subst h
  have hlen : content.length = 25 := Nat.le_antisymm range.2 range.1
  have hfield : beBytes 2 25 = [0x00, 0x19] := by decide
  constructor
  · rw [Frame.length_encode, Frame.span]
    change 3 + content.length = 28
    rw [hlen]
  · rw [Frame.encode]
    change (ElementId.mtConfirmationMsg.value :: (beBytes 2 content.length ++ content)).take 3 = _
    rw [hlen, hfield]
    rfl

/-- Blocks one after the other are confirmation elements one after the other. -/
theorem exists_elements {blocks : List (List UInt8)} (h : ∀ b ∈ blocks, IsConfirmationBlock b) :
    ∃ es : List WireElement, es.map (fun e => e.frame.encode) = blocks
      ∧ wire es = blocks.flatten ∧ ∀ e ∈ es, e.kind = .mtConfirmationMsg := by
  induction blocks with
  | nil => exact ⟨[], rfl, rfl, by simp⟩
  | cons b bs ih =>
      obtain ⟨es, hmap, hwire, hkind⟩ := ih fun b' hb' => h b' (List.mem_cons_of_mem _ hb')
      have hb := h b List.mem_cons_self
      refine ⟨ofBlock b hb :: es, ?_, ?_, ?_⟩
      · rw [List.map_cons, encode_ofBlock, hmap]
      · rw [wire_cons, encode_ofBlock, hwire, List.flatten_cons]
      · intro e he
        rcases List.mem_cons.mp he with rfl | he
        · rfl
        · exact hkind e he

/-! ## The two walks -/

section Walks

variable {mem : Memory} {size pos : Nat} {ps : List Piece} {w : Option String}

/-- **Joint step of the walks**: if the scan from here ends with a confirmation, the parser meets
confirmation elements only. -/
theorem confirmations_of_scan (h : Parses mem size pos ps w) {category : EMessageCategory}
    (hscan : (Codec.categoryLoop size pos category).result mem = .mtConfirmMessage) :
    ∀ p ∈ ps, p.kind = .mtConfirmationMsg := by
  -- along the walk, with the scan at the same place
  induction h generalizing category with
  | stop | unknown | reject => simp
  | @step pos p ps w hat hneed _ ih =>
      have hthree := p.three_le_need
      obtain ⟨-, hid, hrest⟩ := Codec.categoryLoop_inv (by decide) (by omega) hscan
      rw [hat.fields.1] at hid
      have hk := kind_of_idCategory hid
      have hframe := Frame.eq_ofMemory (Piece.at_iff.mp hat).1
      have hspan : p.span = p.frame.span := by
        rw [Piece.span_eq_frame, hk]
        rfl
      rw [← hframe, ← hspan] at hrest
      intro q hq
      rcases List.mem_cons.mp hq with rfl | hq
      · exact hk
      · exact ih hrest q hq

end Walks

/-- A sequence of blocks is accepted, as the elements that the blocks are. -/
theorem blocks_accepted {buf : List UInt8} (past : Memory) {blocks : List (List UInt8)}
    (hne : blocks ≠ []) (hblocks : ∀ b ∈ blocks, IsConfirmationBlock b)
    (hbuf : buf = blocks.flatten) :
    ∃ ps : List Piece, (elementsOf ps).map (fun e => e.frame.encode) = blocks
      ∧ (∃ p qs, ps = p :: qs ∧ p.kind = .mtConfirmationMsg)
      ∧ Parses (Memory.ofBuffer buf past) buf.length 0 ps none
      ∧ (Codec.messageCategory buf.length).result (Memory.ofBuffer buf past)
        = .mtConfirmMessage := by
  obtain ⟨es, hmap, hwire, hkind⟩ := exists_elements hblocks
  have hplain : ∀ e ∈ es, e.kind ≠ .moLocationInfo := by
    intro e he
    rw [hkind e he]
    decide
  obtain ⟨ps, hps, hbytes, -⟩ := exists_pieces hplain
  have hes : es ≠ [] := by
    rintro rfl
    exact hne hmap.symm
  rw [hbuf, ← hwire]
  refine ⟨ps, by rw [hps, hmap], ?_, ?_, ?_⟩
  · cases ps with
    | nil => exact absurd hps.symm hes
    | cons p qs =>
        have hp : p.toWireElement ∈ es := by
          rw [← hps]
          exact List.mem_cons_self
        exact ⟨p, qs, rfl, hkind _ hp⟩
  · rw [← hbytes]
    exact parses_bytesAll ps past
  · refine (messageCategory_wire (by decide) es past).mpr ⟨hes, ?_⟩
    intro e he
    rw [hkind e he]
    decide

/-- What both walks accept is a sequence of blocks. -/
theorem blocks_of_accepted {buf : List UInt8} {past : Memory} {ps : List Piece}
    (hparses : Parses (Memory.ofBuffer buf past) buf.length 0 ps none)
    (hconfirm : ∃ p ∈ ps, p.kind = .mtConfirmationMsg)
    (hscan : (Codec.messageCategory buf.length).result (Memory.ofBuffer buf past)
      = .mtConfirmMessage) :
    ∃ blocks, blocks ≠ [] ∧ (∀ b ∈ blocks, IsConfirmationBlock b) ∧ buf = blocks.flatten := by
  have hkind := confirmations_of_scan hparses hscan
  have hplain : ∀ p ∈ ps, p.kind ≠ .moLocationInfo := by
    intro p hp
    rw [hkind p hp]
    decide
  have hneed : ∀ p ∈ ps, p.need = p.span := by
    intro p hp
    apply Piece.need_eq_span
    · rw [hkind p hp]
      rfl
    · exact hplain p hp
  have hle := hparses.spanAll_le (Nat.zero_le _) hneed
  rw [Nat.zero_add] at hle
  refine ⟨ps.map Piece.bytes, ?_, ?_, ?_⟩
  · obtain ⟨p, hp, -⟩ := hconfirm
    intro hnil
    rw [List.map_eq_nil_iff] at hnil
    rw [hnil] at hp
    exact List.not_mem_nil hp
  · intro b hb
    obtain ⟨p, hp, rfl⟩ := List.mem_map.mp hb
    rw [Piece.bytes_eq_encode (hplain p hp)]
    exact isConfirmationBlock_encode (hkind p hp)
  · rw [← bytesAll_of_parses hparses hle, bytesAll, List.flatMap_def]

/-- A field of an element, taken from its encoding. -/
theorem slice_encode (e : WireElement) (off n : Nat) :
    slice e.frame.encode (3 + off) n = slice e.content off n := by
  have hdrop : e.frame.encode.drop 3 = e.content := by
    rw [Frame.encode, ← List.cons_append]
    exact List.drop_left' (by simp)
  rw [slice, slice, ← List.drop_drop, hdrop]

/-- **The scan and the parser together accept exactly the sequences of confirmation blocks**, and
what the accessors then return are the fields of the first block. -/
theorem confirmation_grammar (buf : List UInt8) (hsize : buf.length ≤ 65535) (past : Memory)
    (out : MtConfirmMessage) :
    let mem := Memory.ofBuffer buf past
    let parsed := (Codec.parseMtConfirm buf.length out).result mem
    (((Codec.messageCategory buf.length).result mem = .mtConfirmMessage ∧ parsed.1 = .ok ())
      ↔ ∃ blocks, blocks ≠ [] ∧ (∀ b ∈ blocks, IsConfirmationBlock b) ∧ buf = blocks.flatten)
    ∧ ∀ b bs, (∀ c ∈ b :: bs, IsConfirmationBlock c) → buf = (b :: bs).flatten →
      parsed.2.messageId = some (be32 (slice b 3 4))
      ∧ parsed.2.imei = some ((slice b 7 15).takeWhile (· ≠ 0))
      ∧ parsed.2.autoRef = some (be32 (slice b 22 4))
      ∧ parsed.2.status = some (be16 (slice b 26 2)).toInt16 := by
  intro mem parsed
  refine ⟨⟨?_, ?_⟩, ?_⟩
  · rintro ⟨hscan, hok⟩
    obtain ⟨ps, w, hparses, -, -, -⟩ := @parseLoop_spec mem _ hsize 0 []
    obtain ⟨rfl, hconfirm⟩ := (parseMtConfirm_ok_iff hsize hparses).mp hok
    exact blocks_of_accepted hparses hconfirm hscan
  · rintro ⟨blocks, hne, hblocks, hbuf⟩
    obtain ⟨ps, -, ⟨p, qs, rfl, hp⟩, hparses, hscan⟩ := blocks_accepted past hne hblocks hbuf
    exact ⟨hscan, (parseMtConfirm_ok_iff hsize hparses).mpr ⟨rfl, p, List.mem_cons_self, hp⟩⟩
  · intro b bs hblocks hbuf
    obtain ⟨ps, hmap, ⟨p, qs, rfl, hp⟩, hparses, -⟩ :=
      blocks_accepted past (List.cons_ne_nil b bs) hblocks hbuf
    have hconfirm : ∃ q ∈ p :: qs, q.kind = .mtConfirmationMsg := ⟨p, List.mem_cons_self, hp⟩
    have hok : parsed.1 = .ok () := (parseMtConfirm_ok_iff hsize hparses).mpr ⟨rfl, hconfirm⟩
    have hmessage := parseMtConfirm_message hsize hparses hok
    obtain ⟨e, hfirst, hid, himei, href, hstatus⟩ := confirmation_found hconfirm
    -- the element found is the first one, whose encoding is the first block
    have hb : p.frame.encode = b := (List.cons.inj hmap).1
    have he : p.toWireElement = e := by
      rw [elementsOf_cons, first, List.find?_cons_of_pos (by simpa using hp)] at hfirst
      exact Option.some.inj hfirst
    rw [hmessage, hid, himei, href, hstatus, ← he, ← hb]
    refine ⟨?_, ?_, ?_, ?_⟩
    · rw [← slice_encode]
    · rw [WireElement.imei, ← slice_encode]
    · rw [← slice_encode]
    · rw [← slice_encode]

/-- A block that answers message 7 with status -5. -/
def sampleBlock : List UInt8 :=
  [0x44, 0, 25, 0, 0, 0, 7] ++ List.replicate 15 0x30 ++ [0, 0, 0, 9, 0xff, 0xfb]

theorem confirmation_grammar_sample :
    ((Codec.parseMtConfirm sampleBlock.length MtConfirmMessage.init).result
      (Memory.ofBuffer sampleBlock fun _ => 0)).2.status = some (-5) := by
  have hfields := (confirmation_grammar sampleBlock (by decide) (fun _ => 0)
    MtConfirmMessage.init).2 sampleBlock [] (by decide) (by decide)
  rw [hfields.2.2.2]
  decide

end Iridium.SbdDirectIp
