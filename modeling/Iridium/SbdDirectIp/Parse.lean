import Iridium.SbdDirectIp.Category

/-!
# The parsers on a walk

Either `parse` is the loop followed by a search for the elements that the message needs. Stated
for the pieces that the walk takes: when a parser returns normally (`parseMo_ok_iff`,
`parseMtConfirm_ok_iff`), which message it then leaves (`parseMo_message`,
`parseMtConfirm_message`), and what the accessors of that message say (`imei_found`,
`payload_found`, `confirmation_found`). The search adds no read to those of the loop.
-/

namespace Iridium.SbdDirectIp

open ByteOrder ReadM Tlv

/-! ## The first element of a class -/

namespace WireElement

/-- The element object, of a class that reads no surplus. -/
def decode (e : WireElement) : InformationElement :=
  decodeContent e.kind e.content.length e.content

/-- The fifteen IMEI characters of a header or of a confirmation, up to the first NUL. -/
def imei (e : WireElement) : List UInt8 := (slice e.content 4 15).takeWhile (· ≠ 0)

end WireElement

/-- The first element of a class. -/
def first (k : ElementId) (es : List WireElement) : Option WireElement :=
  es.find? (·.kind == k)

theorem first_isSome {k : ElementId} {es : List WireElement} :
    (first k es).isSome ↔ ∃ e ∈ es, e.kind = k := by
  simp [first]

theorem kind_of_first {k : ElementId} {es : List WireElement} {e : WireElement}
    (h : first k es = some e) : e.kind = k := by
  simpa using List.find?_some h

/-- The elements of pieces. -/
def elementsOf (ps : List Piece) : List WireElement := ps.map Piece.toWireElement

@[simp] theorem elementsOf_nil : elementsOf [] = [] := rfl

@[simp] theorem elementsOf_cons (p : Piece) (ps : List Piece) :
    elementsOf (p :: ps) = p.toWireElement :: elementsOf ps := rfl

theorem exists_kind_elementsOf {k : ElementId} {ps : List Piece} :
    (∃ e ∈ elementsOf ps, e.kind = k) ↔ ∃ p ∈ ps, p.kind = k := by
  simp [elementsOf]

theorem getId_decode (p : Piece) : p.decode.getId = p.kind :=
  getId_decodeContent p.kind p.content.length (p.content ++ p.surplus)

/-- A class without surplus decodes its content and nothing else. -/
theorem Piece.decode_eq {p : Piece} (h : p.kind ≠ .moLocationInfo) :
    p.decode = p.toWireElement.decode := by
  rw [Piece.decode, WireElement.decode, Piece.surplus_eq_nil h, List.append_nil]

/-- `std::find_if` finds the first piece of the class. -/
theorem find_decode (k : ElementId) (hk : k ≠ .moLocationInfo) (ps : List Piece) :
    (ps.map Piece.decode).find? (·.getId == k)
      = (first k (elementsOf ps)).map WireElement.decode := by
  induction ps with
  | nil => rfl
  | cons p ps ih =>
      rw [List.map_cons, elementsOf_cons, first, List.find?_cons, List.find?_cons, getId_decode]
      by_cases hp : p.kind = k
      · have hdec : p.decode = p.toWireElement.decode := Piece.decode_eq (hp ▸ hk)
        simp [hp, hdec]
      · have hne : (p.kind == k) = false := by simpa using hp
        rw [hne]
        exact ih

theorem findId_eq_length_iff (k : ElementId) (ps : List Piece) :
    Codec.findId k (ps.map Piece.decode) = ps.length ↔ ¬ ∃ p ∈ ps, p.kind = k := by
  have h := @List.findIdx_eq_length _ (fun e => e.getId == k) (ps.map Piece.decode)
  rw [List.length_map] at h
  rw [Codec.findId, h]
  simp [getId_decode]

/-- What the search of the parsers designates, when there is something to find. -/
theorem found {k : ElementId} (hk : k ≠ .moLocationInfo) {ps : List Piece}
    (h : ∃ p ∈ ps, p.kind = k) :
    ∃ e, first k (elementsOf ps) = some e ∧ e.kind = k
      ∧ (ps.map Piece.decode)[Codec.findId k (ps.map Piece.decode)]? = some e.decode := by
  obtain ⟨p, hp, hpk⟩ := h
  have hsome : (first k (elementsOf ps)).isSome :=
    first_isSome.mpr ⟨p.toWireElement, List.mem_map_of_mem hp, hpk⟩
  obtain ⟨e, he⟩ := Option.isSome_iff_exists.mp hsome
  have hfind := find_decode k hk ps
  rw [List.find?_eq_getElem?_findIdx, he] at hfind
  exact ⟨e, he, kind_of_first he, hfind⟩

/-! ## The IMEI of a decoded element -/

theorem takeWhile_padded (cs : List UInt8) (n : Nat) :
    (cs ++ List.replicate n 0).takeWhile (· ≠ 0) = cs.takeWhile (· ≠ 0) := by
  induction cs with
  | nil => cases n <;> simp [List.replicate_succ]
  | cons c cs ih =>
      rw [List.cons_append, List.takeWhile_cons, List.takeWhile_cons, ih]

/-- The array holds the characters and a NUL behind them, so the string ends with them. -/
theorem str_ofChars (content : List UInt8) (off : Nat) :
    (IMEI.ofChars (slice content off 15)).str = (slice content off 15).takeWhile (· ≠ 0) := by
  have htake : (slice content off 15).take 15 = slice content off 15 := by
    rw [slice, List.take_take, Nat.min_self]
  unfold IMEI.str IMEI.ofChars List.rightpad
  simp only [htake]
  exact takeWhile_padded _ _

/-! ## Buffers that are sequences of elements -/

/-- The walk of a buffer that is written as pieces takes them, to the end of the buffer. -/
theorem parses_bytesAll (ps : List Piece) (past : Memory) :
    Parses (Memory.ofBuffer (bytesAll ps) past) (bytesAll ps).length 0 ps none := by
  have hblock : (Memory.ofBuffer (bytesAll ps) past).block 0 (spanAll ps) = bytesAll ps := by
    rw [← length_bytesAll]
    exact Memory.block_ofBuffer_self _ past
  have hend : Parses (Memory.ofBuffer (bytesAll ps) past) (bytesAll ps).length
      (0 + spanAll ps) [] none := by
    apply Parses.stop
    rw [length_bytesAll, Nat.zero_add]
  have h := parses_append hblock (by rw [length_bytesAll, Nat.zero_add]) hend
  rwa [List.append_nil] at h

/-- The loop stays inside it exactly when it takes no more than there is. -/
theorem parseLoop_inBounds {mem : Memory} {size : Nat} {ps : List Piece} {w : Option String}
    (hsize : size ≤ 65535) (h : Parses mem size 0 ps w) :
    InBounds size ((Codec.parseLoop size 0 []).log mem) ↔ spanAll ps ≤ size := by
  obtain ⟨qs, w', hparses, -, -, hin⟩ := @parseLoop_spec mem size hsize 0 []
  obtain ⟨rfl, rfl⟩ := h.unique hparses
  rw [hin, Nat.zero_add]
  constructor
  · intro hle
    by_cases hnil : ps = []
    · rw [hnil]
      exact Nat.zero_le _
    · exact hle hnil
  · intro hle _
    exact hle

/-- A walk to the end that stays inside the buffer spells the buffer. -/
theorem bytesAll_of_parses {buf : List UInt8} {past : Memory} {ps : List Piece}
    (h : Parses (Memory.ofBuffer buf past) buf.length 0 ps none) (hle : spanAll ps ≤ buf.length) :
    bytesAll ps = buf := by
  have hge := h.size_le
  have hspan : spanAll ps = buf.length := by omega
  rw [← h.block, hspan, Memory.block_ofBuffer_self]

/-- The bytes of elements one after the other. -/
def wire (es : List WireElement) : List UInt8 := encodeAll (es.map WireElement.frame)

@[simp] theorem wire_nil : wire [] = [] := rfl

@[simp] theorem wire_cons (e : WireElement) (es : List WireElement) :
    wire (e :: es) = e.frame.encode ++ wire es := by
  simp [wire]

/-- Elements without a location are pieces as they stand. -/
theorem exists_pieces {es : List WireElement} (h : ∀ e ∈ es, e.kind ≠ .moLocationInfo) :
    ∃ ps : List Piece, elementsOf ps = es
      ∧ bytesAll ps = wire es
      ∧ ps.map Piece.decode = es.map WireElement.decode := by
  induction es with
  | nil => exact ⟨[], rfl, rfl, rfl⟩
  | cons e es ih =>
      obtain ⟨ps, hps, hbytes, hdecode⟩ := ih fun e he => h e (List.mem_cons_of_mem _ he)
      have hk := h e List.mem_cons_self
      have hsurplus : ([] : List UInt8).length = e.kind.surplus := by
        rw [ElementId.surplus, if_neg hk]
        rfl
      refine ⟨⟨e, [], hsurplus⟩ :: ps, ?_, ?_, ?_⟩
      · rw [elementsOf_cons, hps]
      · rw [bytesAll_cons, hbytes, wire_cons, Piece.bytes, List.append_nil]
      · rw [List.map_cons, List.map_cons, hdecode]
        exact congrArg (· :: _) (Piece.decode_eq hk)

/-- **The scan finds a category in a sequence of elements exactly when all belong to it.** -/
theorem messageCategory_wire {category : EMessageCategory} (hne : category ≠ .unknownMessage)
    (es : List WireElement) (past : Memory) :
    (Codec.messageCategory (wire es).length).result (Memory.ofBuffer (wire es) past) = category
      ↔ es ≠ [] ∧ ∀ e ∈ es, Codec.idCategory e.kind.value = category := by
  rw [wire, Codec.messageCategory_encodeAll, Codec.categoryOf_eq_iff hne]
  simp [WireElement.frame]

/-! ## Mobile originated messages -/

section Mo

variable {mem : Memory} {here size : Nat} {out : MoMessage} {ps : List Piece} {w : Option String}

theorem parseMo_log :
    (Codec.parseMo here size out).log mem = (Codec.parseLoop size 0 []).log mem := by
  rw [Codec.parseMo, log_bind]
  cases (Codec.parseLoop size 0 []).result mem with
  | error what => simp
  | ok elements =>
      dsimp only
      split
      · simp
      · split <;> simp

/-- The loop is the walk, so any walk that the buffer has is the one it takes. -/
theorem parseLoop_result (hsize : size ≤ 65535) (h : Parses mem size 0 ps w) :
    (Codec.parseLoop size 0 []).result mem = outcome [] ps w := by
  obtain ⟨qs, w', hparses, hresult, -, -⟩ := @parseLoop_spec mem size hsize 0 []
  obtain ⟨rfl, rfl⟩ := h.unique hparses
  exact hresult

theorem parseMo_ok_iff (hsize : size ≤ 65535) (h : Parses mem size 0 ps w) :
    ((Codec.parseMo here size out).result mem).1 = .ok ()
      ↔ w = none ∧ (∃ p ∈ ps, p.kind = .moHeader) ∧ ∃ p ∈ ps, p.kind = .moPayload := by
  rw [Codec.parseMo, result_bind, parseLoop_result hsize h]
  cases w with
  | some what => simp [outcome]
  | none =>
      have hheader := findId_eq_length_iff .moHeader ps
      have hpayload := findId_eq_length_iff .moPayload ps
      by_cases hh : ∃ p ∈ ps, p.kind = .moHeader
      · have hfound := mt hheader.mp (not_not_intro hh)
        by_cases hp : ∃ p ∈ ps, p.kind = .moPayload
        · have hfound' := mt hpayload.mp (not_not_intro hp)
          simp [outcome, MoMessage.endPos, hfound, hfound', hh, hp]
        · have hnone := hpayload.mpr hp
          simp [outcome, MoMessage.endPos, hfound, hnone, hp]
      · have hnone := hheader.mpr hh
        simp [outcome, MoMessage.endPos, hnone, hh]

/-- The message that a parse without a throw leaves. -/
def MoMessage.ofElements (here : Nat) (elements : List InformationElement) : MoMessage where
  elements := elements
  header := ⟨here, Codec.findId .moHeader elements⟩
  payloadPos := ⟨here, Codec.findId .moPayload elements⟩
  location := ⟨here, Codec.findId .moLocationInfo elements⟩

theorem parseMo_message (hsize : size ≤ 65535) (h : Parses mem size 0 ps w)
    (hok : ((Codec.parseMo here size out).result mem).1 = .ok ()) :
    ((Codec.parseMo here size out).result mem).2
      = MoMessage.ofElements here (ps.map Piece.decode) := by
  obtain ⟨rfl, hheader, hpayload⟩ := (parseMo_ok_iff hsize h).mp hok
  have hh := mt (findId_eq_length_iff .moHeader ps).mp (not_not_intro hheader)
  have hp := mt (findId_eq_length_iff .moPayload ps).mp (not_not_intro hpayload)
  rw [Codec.parseMo, result_bind, parseLoop_result hsize h]
  simp [outcome, MoMessage.endPos, hh, hp, MoMessage.ofElements]

/-- A throw leaves no element. -/
theorem parseMo_thrown (hsize : size ≤ 65535) (h : Parses mem size 0 ps w)
    (hthrown : ((Codec.parseMo here size out).result mem).1 ≠ .ok ()) :
    ((Codec.parseMo here size out).result mem).2.elements = [] := by
  rw [Codec.parseMo, result_bind, parseLoop_result hsize h] at hthrown ⊢
  cases w with
  | some what => rfl
  | none =>
      by_cases hh : Codec.findId .moHeader (ps.map Piece.decode) = ps.length
      · simp [outcome, MoMessage.endPos, hh]
      · by_cases hp : Codec.findId .moPayload (ps.map Piece.decode) = ps.length
        · simp [outcome, MoMessage.endPos, hh, hp]
        · simp [outcome, MoMessage.endPos, hh, hp] at hthrown

/-- `imei()` of it is the IMEI of the first header. -/
theorem imei_found (vectors : Nat → List InformationElement)
    (hheader : ∃ p ∈ ps, p.kind = .moHeader) :
    (MoMessage.ofElements here (ps.map Piece.decode)).imei here vectors
      = (first .moHeader (elementsOf ps)).map WireElement.imei := by
  have hne := mt (findId_eq_length_iff .moHeader ps).mp (not_not_intro hheader)
  obtain ⟨e, he, hk, hget⟩ := found (by decide) hheader
  unfold MoMessage.imei MoMessage.ofElements
  simp [MoMessage.endPos, hne, Position.deref, hget, he, WireElement.decode, decodeContent, hk,
    str_ofChars, WireElement.imei]

/-- `payload()` of it is the content of the first payload. -/
theorem payload_found (vectors : Nat → List InformationElement)
    (hpayload : ∃ p ∈ ps, p.kind = .moPayload) :
    (MoMessage.ofElements here (ps.map Piece.decode)).payload here vectors
      = (first .moPayload (elementsOf ps)).map WireElement.content := by
  have hne := mt (findId_eq_length_iff .moPayload ps).mp (not_not_intro hpayload)
  obtain ⟨e, he, hk, hget⟩ := found (by decide) hpayload
  unfold MoMessage.payload MoMessage.ofElements
  simp [MoMessage.endPos, hne, Position.deref, hget, he, WireElement.decode, decodeContent, hk]

end Mo

/-! ## Confirmations -/

section Confirm

variable {mem : Memory} {size : Nat} {out : MtConfirmMessage} {ps : List Piece}
  {w : Option String}

theorem parseMtConfirm_log :
    (Codec.parseMtConfirm size out).log mem = (Codec.parseLoop size 0 []).log mem := by
  rw [Codec.parseMtConfirm, log_bind]
  cases (Codec.parseLoop size 0 []).result mem with
  | error what => simp
  | ok elements =>
      dsimp only
      split <;> simp

theorem parseMtConfirm_ok_iff (hsize : size ≤ 65535) (h : Parses mem size 0 ps w) :
    ((Codec.parseMtConfirm size out).result mem).1 = .ok ()
      ↔ w = none ∧ ∃ p ∈ ps, p.kind = .mtConfirmationMsg := by
  rw [Codec.parseMtConfirm, result_bind, parseLoop_result hsize h]
  cases w with
  | some what => simp [outcome]
  | none =>
      have hconfirm := findId_eq_length_iff .mtConfirmationMsg ps
      by_cases hc : ∃ p ∈ ps, p.kind = .mtConfirmationMsg
      · have hfound := mt hconfirm.mp (not_not_intro hc)
        simp [outcome, hfound, hc]
      · have hnone := hconfirm.mpr hc
        simp [outcome, hnone, hc]

/-- The message that a parse without a throw leaves. -/
def MtConfirmMessage.ofElements (elements : List InformationElement) : MtConfirmMessage where
  elements := elements
  confirmation := Codec.findId .mtConfirmationMsg elements

theorem parseMtConfirm_message (hsize : size ≤ 65535) (h : Parses mem size 0 ps w)
    (hok : ((Codec.parseMtConfirm size out).result mem).1 = .ok ()) :
    ((Codec.parseMtConfirm size out).result mem).2
      = MtConfirmMessage.ofElements (ps.map Piece.decode) := by
  obtain ⟨rfl, hconfirm⟩ := (parseMtConfirm_ok_iff hsize h).mp hok
  have hne := mt (findId_eq_length_iff .mtConfirmationMsg ps).mp (not_not_intro hconfirm)
  rw [Codec.parseMtConfirm, result_bind, parseLoop_result hsize h]
  simp [outcome, hne, MtConfirmMessage.ofElements]

/-- The four fields of the first confirmation element, as its accessors return them. -/
theorem confirmation_found (hconfirm : ∃ p ∈ ps, p.kind = .mtConfirmationMsg) :
    ∃ e, first .mtConfirmationMsg (elementsOf ps) = some e
      ∧ (MtConfirmMessage.ofElements (ps.map Piece.decode)).messageId
        = some (be32 (slice e.content 0 4))
      ∧ (MtConfirmMessage.ofElements (ps.map Piece.decode)).imei = some e.imei
      ∧ (MtConfirmMessage.ofElements (ps.map Piece.decode)).autoRef
        = some (be32 (slice e.content 19 4))
      ∧ (MtConfirmMessage.ofElements (ps.map Piece.decode)).status
        = some (be16 (slice e.content 23 2)).toInt16 := by
  have hne := mt (findId_eq_length_iff .mtConfirmationMsg ps).mp (not_not_intro hconfirm)
  obtain ⟨e, he, hk, hget⟩ := found (by decide) hconfirm
  have haccess : ∀ {α : Type} (default : α) (field : IEMtConfirmationMsgDto → α),
      (MtConfirmMessage.ofElements (ps.map Piece.decode)).access default field
        = some (field {
            uniqueClientMsgId := be32 (slice e.content 0 4)
            imei := IMEI.ofChars (slice e.content 4 15)
            autoIdRef := be32 (slice e.content 19 4)
            msgStatus := (be16 (slice e.content 23 2)).toInt16 }) := by
    intro α default field
    unfold MtConfirmMessage.access MtConfirmMessage.ofElements
    simp [hne, hget, WireElement.decode, decodeContent, hk]
  refine ⟨e, he, haccess _ _, ?_, haccess _ _, haccess _ _⟩
  rw [MtConfirmMessage.imei, haccess, str_ofChars, WireElement.imei]

end Confirm

end Iridium.SbdDirectIp
