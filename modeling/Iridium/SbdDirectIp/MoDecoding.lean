import Iridium.SbdDirectIp.Parse

/-!
# Decoding a mobile originated message

A sequence of headers, payloads and confirmations, in any order, is decoded completely and exactly
(`parse_complete`). Locations spoil that: the code takes three bytes more for a location than the
format gives it, so it frames what follows differently. With locations in between, the parser
returns what it returns without them only where those bytes are *also* a sequence of elements with
the wider locations (`locations_transparent_iff`).
-/

namespace Iridium.SbdDirectIp

open ByteOrder ReadM Tlv

/-! ## Without locations -/

/-- The classes of a mobile originated message other than the location. -/
def ElementId.IsPlainMo (k : ElementId) : Prop := k = .moHeader ∨ k = .moPayload ∨ k = .moConfirmation

instance (k : ElementId) : Decidable k.IsPlainMo := inferInstanceAs (Decidable (_ ∨ _ ∨ _))

theorem ElementId.IsPlainMo.ne_location {k : ElementId} (h : k.IsPlainMo) :
    k ≠ .moLocationInfo := by
  rcases h with rfl | rfl | rfl <;> decide

theorem ElementId.IsPlainMo.idCategory {k : ElementId} (h : k.IsPlainMo) :
    Codec.idCategory k.value = .moMessage := by
  rcases h with rfl | rfl | rfl <;> decide

/-- **The parser of mobile originated messages is complete and exact** on headers, payloads and
confirmations in any order and number. -/
theorem parse_complete (es : List WireElement) (hkind : ∀ e ∈ es, e.kind.IsPlainMo)
    (hsize : (wire es).length ≤ 65535) (past : Memory) (here : Nat)
    (vectors : Nat → List InformationElement) (out : MoMessage) :
    let mem := Memory.ofBuffer (wire es) past
    let parsed := (Codec.parseMo here (wire es).length out).result mem
    (es ≠ [] → (Codec.messageCategory (wire es).length).result mem = .moMessage)
    ∧ (parsed.1 = .ok () ↔ (∃ e ∈ es, e.kind = .moHeader) ∧ ∃ e ∈ es, e.kind = .moPayload)
    ∧ (parsed.1 = .ok () → parsed.2.elements = es.map WireElement.decode
      ∧ (∃ h, first .moHeader es = some h ∧ parsed.2.imei here vectors = some h.imei)
      ∧ ∃ p, first .moPayload es = some p ∧ parsed.2.payload here vectors = some p.content) := by
  intro mem parsed
  obtain ⟨ps, hps, hbytes, hdecode⟩ := exists_pieces fun e he => (hkind e he).ne_location
  have hparses : Parses mem (wire es).length 0 ps none := by
    have h := parses_bytesAll ps past
    rwa [hbytes] at h
  have hiff : parsed.1 = .ok () ↔
      (∃ e ∈ es, e.kind = .moHeader) ∧ ∃ e ∈ es, e.kind = .moPayload := by
    have h := @parseMo_ok_iff mem here _ out ps none hsize hparses
    rwa [eq_self, true_and, ← exists_kind_elementsOf, ← exists_kind_elementsOf, hps] at h
  refine ⟨?_, hiff, ?_⟩
  · intro hne
    exact (messageCategory_wire (by decide) es past).mpr
      ⟨hne, fun e he => (hkind e he).idCategory⟩
  intro hok
  obtain ⟨-, hheader, hpayload⟩ := (parseMo_ok_iff hsize hparses).mp hok
  have hmessage := parseMo_message hsize hparses hok
  refine ⟨?_, ?_, ?_⟩
  · rw [hmessage, MoMessage.ofElements, hdecode]
  · obtain ⟨h, hfirst, -, -⟩ := found (by decide) hheader
    rw [hps] at hfirst
    refine ⟨h, hfirst, ?_⟩
    rw [hmessage, imei_found vectors hheader, hps, hfirst, Option.map_some]
  · obtain ⟨p, hfirst, -, -⟩ := found (by decide) hpayload
    rw [hps] at hfirst
    refine ⟨p, hfirst, ?_⟩
    rw [hmessage, payload_found vectors hpayload, hps, hfirst, Option.map_some]

section Sample

/-- A header with the IMEI `300000000000000`, a payload `7`, a confirmation and a location. -/
def sampleHeader : WireElement :=
  ⟨.moHeader, [0, 0, 0, 1, 0x33] ++ List.replicate 14 0x30 ++ List.replicate 9 0, by decide⟩

def samplePayload : WireElement := ⟨.moPayload, [7], by decide⟩

def sampleConfirmation : WireElement := ⟨.moConfirmation, [1], by decide⟩

def sampleLocation : WireElement := ⟨.moLocationInfo, List.replicate 11 0, by decide⟩

end Sample

/-- The parser accepts a payload, a confirmation and a header, in this order. -/
theorem parse_complete_sample :
    let es := [samplePayload, sampleConfirmation, sampleHeader]
    ((Codec.parseMo 0 (wire es).length (MoMessage.init 0)).result
      (Memory.ofBuffer (wire es) fun _ => 0)).1 = .ok () :=
  (parse_complete [samplePayload, sampleConfirmation, sampleHeader] (by decide) (by decide)
    (fun _ => 0) 0 (fun _ => []) (MoMessage.init 0)).2.1.mpr (by decide)

/-! ## With locations -/

/-- What is left of a sequence without its locations. -/
def withoutLocations (es : List WireElement) : List WireElement :=
  es.filter (·.kind != .moLocationInfo)

/-- The bytes of the sequence, with three bytes more to every location, can be read as a sequence
of elements too, one with as many locations, with the same IMEI in its first header and the same
content in its first payload. -/
def ReadsWide (es : List WireElement) : Prop :=
  ∃ ps : List Piece, bytesAll ps = wire es
    ∧ (elementsOf ps).countP (·.kind == .moLocationInfo) = es.countP (·.kind == .moLocationInfo)
    ∧ (first .moHeader (elementsOf ps)).map WireElement.imei
      = (first .moHeader es).map WireElement.imei
    ∧ (first .moPayload (elementsOf ps)).map WireElement.content
      = (first .moPayload es).map WireElement.content

/-- The locations do not change which header and which payload come first. -/
theorem first_withoutLocations {k : ElementId} (hk : k ≠ .moLocationInfo) (es : List WireElement) :
    first k (withoutLocations es) = first k es := by
  unfold first withoutLocations
  rw [List.find?_filter]
  congr 1
  funext e
  by_cases he : e.kind = k
  · simp [he, hk]
  · simp [he]

theorem exists_kind_of_first {α : Type} {k : ElementId} {ps : List Piece} {es : List WireElement}
    {field : WireElement → α}
    (h : (first k (elementsOf ps)).map field = (first k es).map field)
    (hes : (first k es).isSome) : ∃ p ∈ ps, p.kind = k := by
  rw [← exists_kind_elementsOf, ← first_isSome]
  have hsome := congrArg Option.isSome h
  rw [Option.isSome_map, Option.isSome_map] at hsome
  rw [hsome]
  exact hes

theorem length_wire_withoutLocations (es : List WireElement) :
    (wire (withoutLocations es)).length ≤ (wire es).length := by
  unfold wire encodeAll
  rw [List.length_flatMap, List.length_flatMap]
  apply List.Sublist.sum_le_sum
  · exact (List.filter_sublist.map _).map _
  · intro n _
    exact Nat.zero_le n

theorem countP_decode (ps : List Piece) :
    (ps.map Piece.decode).countP (·.getId == .moLocationInfo)
      = (elementsOf ps).countP (·.kind == .moLocationInfo) := by
  rw [elementsOf, List.countP_map, List.countP_map]
  congr 1
  funext p
  simp [getId_decode]

/-- **Locations are transparent to the parser exactly where the bytes also read as elements with
wider locations**, whatever sequence the parser accepts without them and wherever they stand. -/
theorem locations_transparent_iff (es : List WireElement) (hsize : (wire es).length ≤ 65535)
    (past past' : Memory) (here : Nat) (vectors : Nat → List InformationElement)
    (out out' : MoMessage) :
    let base := (Codec.parseMo here (wire (withoutLocations es)).length out).result
      (Memory.ofBuffer (wire (withoutLocations es)) past)
    let run := Codec.parseMo here (wire es).length out'
    let mem := Memory.ofBuffer (wire es) past'
    let parsed := run.result mem
    base.1 = .ok () →
    ((parsed.1 = .ok () ∧ parsed.2.imei here vectors = base.2.imei here vectors
      ∧ parsed.2.payload here vectors = base.2.payload here vectors
      ∧ parsed.2.elements.countP (·.getId == .moLocationInfo)
        = es.countP (·.kind == .moLocationInfo)
      ∧ InBounds (wire es).length (run.log mem)) ↔ ReadsWide es) := by
  intro base run mem parsed hbase
  have hplain : ∀ e ∈ withoutLocations es, e.kind ≠ .moLocationInfo := by
    intro e he
    simpa using (List.mem_filter.mp he).2
  obtain ⟨qs, hqs, hbytes, -⟩ := exists_pieces hplain
  have hbaseSize : (wire (withoutLocations es)).length ≤ 65535 :=
    (length_wire_withoutLocations es).trans hsize
  have hwalk : Parses (Memory.ofBuffer (wire (withoutLocations es)) past)
      (wire (withoutLocations es)).length 0 qs none := by
    have h := parses_bytesAll qs past
    rwa [hbytes] at h
  obtain ⟨-, hheader, hpayload⟩ := (parseMo_ok_iff hbaseSize hwalk).mp hbase
  have hmessage := parseMo_message hbaseSize hwalk hbase
  have himei : base.2.imei here vectors = (first .moHeader es).map WireElement.imei := by
    rw [hmessage, imei_found vectors hheader, hqs, first_withoutLocations (by decide)]
  have hcontent : base.2.payload here vectors
      = (first .moPayload es).map WireElement.content := by
    rw [hmessage, payload_found vectors hpayload, hqs, first_withoutLocations (by decide)]
  rw [himei, hcontent]
  constructor
  · -- a walk to the end, inside the buffer, is another reading of the same bytes
    rintro ⟨hok, himei', hcontent', hcount, hin⟩
    obtain ⟨ps, w, hparses, -, -, -⟩ := @parseLoop_spec mem _ hsize 0 []
    obtain ⟨rfl, hheader', hpayload'⟩ := (parseMo_ok_iff hsize hparses).mp hok
    have hmessage' := parseMo_message hsize hparses hok
    have hle : spanAll ps ≤ (wire es).length := by
      have hlog := hin
      rw [parseMo_log] at hlog
      exact (parseLoop_inBounds hsize hparses).mp hlog
    rw [hmessage'] at himei' hcontent' hcount
    rw [imei_found vectors hheader'] at himei'
    rw [payload_found vectors hpayload'] at hcontent'
    rw [MoMessage.ofElements, countP_decode] at hcount
    exact ⟨ps, bytesAll_of_parses hparses hle, hcount, himei', hcontent'⟩
  · rintro ⟨ps, hbytes', hcount, himei', hcontent'⟩
    have hparses : Parses mem (wire es).length 0 ps none := by
      have h := parses_bytesAll ps past'
      rwa [hbytes'] at h
    have hheader' : ∃ p ∈ ps, p.kind = .moHeader := by
      apply exists_kind_of_first himei'
      rw [← first_withoutLocations (by decide) es, first_isSome, ← hqs, exists_kind_elementsOf]
      exact hheader
    have hpayload' : ∃ p ∈ ps, p.kind = .moPayload := by
      apply exists_kind_of_first hcontent'
      rw [← first_withoutLocations (by decide) es, first_isSome, ← hqs, exists_kind_elementsOf]
      exact hpayload
    have hok : parsed.1 = .ok () :=
      (parseMo_ok_iff hsize hparses).mpr ⟨rfl, hheader', hpayload'⟩
    have hmessage' := parseMo_message hsize hparses hok
    refine ⟨hok, ?_, ?_, ?_, ?_⟩
    · rw [hmessage', imei_found vectors hheader', himei']
    · rw [hmessage', payload_found vectors hpayload', hcontent']
    · rw [hmessage', MoMessage.ofElements, countP_decode, hcount]
    · rw [parseMo_log, parseLoop_inBounds hsize hparses, ← hbytes', length_bytesAll]

/-- A location in the middle of an accepted message spoils it: the parser takes the first three
bytes of the payload element for a part of the location. -/
theorem location_spoils_sample :
    let es := [sampleHeader, sampleLocation, samplePayload]
    let parse (es : List WireElement) := (Codec.parseMo 0 (wire es).length (MoMessage.init 0)).result
      (Memory.ofBuffer (wire es) fun _ => 0)
    (parse (withoutLocations es)).1 = .ok ()
      ∧ (parse es).1 = .error "unknown information element" := by
  decide +kernel

/-- Where the content of a payload spells a confirmation, the location in front of it does no
harm. -/
theorem locations_transparent_sample :
    ReadsWide [sampleHeader, samplePayload, sampleLocation,
      ⟨.moPayload, [5, 0, 1, 1], by decide⟩] :=
  (locations_transparent_iff _ (by decide) (fun _ => 0) (fun _ => 0) 0 (fun _ => [])
    (MoMessage.init 0) (MoMessage.init 0) (by decide +kernel)).mp (by decide +kernel)

end Iridium.SbdDirectIp
