import Iridium.SbdDirectIp.Unpack

/-!
# The walk of the parse loop

`parseLoop` steps through a buffer by what `unpack` returns. What it takes at a position is a
`Piece`: an element of one of the eight classes with a content of admissible length, and the
surplus bytes behind it. `Parses` is the loop as a relation: the pieces it takes from a position
on, and how it ends, with `none` at the end of the buffer and with a text where it throws.

`parseLoop_spec` says that the loop is `Parses`, with its result, its reads and the positions
where it looks for an identifier. `parses_append` goes the other way: a buffer that is written as
pieces is walked piece by piece. Together with `Parses.unique` they turn every question about the
parsers into one about lists of pieces.
-/

namespace Iridium.SbdDirectIp

open ByteOrder ReadM Tlv

/-! ## Identifiers -/

namespace ElementId

theorem value_inj {j k : ElementId} (h : j.value = k.value) : j = k := by
  cases j <;> cases k <;> first | rfl | exact absurd h (by decide)

end ElementId

theorem getId_create (k : ElementId) : (InformationElement.create k).getId = k := by
  cases k <;> rfl

theorem ieFactory_value (k : ElementId) :
    Codec.ieFactory k.value = some (InformationElement.create k) := by
  cases k <;> rfl

theorem ieFactory_none {id : UInt8} (h : ∀ k : ElementId, id ≠ k.value) :
    Codec.ieFactory id = none := by
  unfold Codec.ieFactory
  rw [if_neg (h _), if_neg (h _), if_neg (h _), if_neg (h _), if_neg (h _), if_neg (h _),
    if_neg (h _), if_neg (h _)]

/-! ## Elements and pieces -/

/-- An element as the format has it: a class and a content of admissible length. -/
structure WireElement where
  kind : ElementId
  content : List UInt8
  range : kind.minLength ≤ content.length ∧ content.length ≤ kind.maxLength
  deriving DecidableEq, Repr

namespace WireElement

theorem bound (e : WireElement) : e.content.length < 65536 := by
  have := e.range.2
  have := e.kind.maxLength_le
  omega

def frame (e : WireElement) : Frame := ⟨e.kind.value, e.content, e.bound⟩

end WireElement

/-- What the loop takes at a position: an element and the surplus bytes behind it. -/
structure Piece extends WireElement where
  surplus : List UInt8
  length_surplus : surplus.length = kind.surplus

namespace Piece

/-- The bytes the loop steps over. -/
def bytes (p : Piece) : List UInt8 := p.frame.encode ++ p.surplus

def span (p : Piece) : Nat := 3 + p.content.length + p.kind.surplus

/-- The bytes, from the identifier on, that have to lie inside the buffer. -/
def need (p : Piece) : Nat := 1 + p.kind.cover p.content.length

/-- The element object. -/
def decode (p : Piece) : InformationElement :=
  decodeContent p.kind p.content.length (p.content ++ p.surplus)

@[simp] theorem length_bytes (p : Piece) : p.bytes.length = p.span := by
  rw [bytes, List.length_append, Frame.length_encode, p.length_surplus]
  rfl

theorem three_le_need (p : Piece) : 3 ≤ p.need := by
  have := p.kind.two_le_cover p.content.length
  rw [need]
  omega

theorem need_le_span (p : Piece) : p.need ≤ p.span := by
  have := p.kind.cover_le p.content.length
  rw [need, span]
  omega

theorem span_eq_frame (p : Piece) : p.span = p.frame.span + p.kind.surplus := rfl

/-- A class of fixed length without surplus asks for every byte. -/
theorem need_eq_span {p : Piece} (hpayload : p.kind.isPayload = false)
    (hloc : p.kind ≠ .moLocationInfo) : p.need = p.span := by
  unfold need span ElementId.cover ElementId.surplus
  rw [hpayload, if_neg hloc]
  simp only [Bool.false_eq_true, if_false]
  omega

theorem surplus_eq_nil {p : Piece} (h : p.kind ≠ .moLocationInfo) : p.surplus = [] := by
  have hlen := p.length_surplus
  rw [ElementId.surplus, if_neg h] at hlen
  exact List.eq_nil_of_length_eq_zero hlen

theorem bytes_eq_encode {p : Piece} (h : p.kind ≠ .moLocationInfo) :
    p.bytes = p.frame.encode := by
  rw [bytes, surplus_eq_nil h, List.append_nil]

theorem span_lt (p : Piece) : p.span < 65536 := by
  have := p.range.2
  have := p.kind.maxLength_le
  have := p.kind.surplus_le
  rw [span]
  omega

/-- The piece at a position whose class is `k`. -/
def ofMemory (mem : Memory) (pos : Nat) (k : ElementId)
    (h : k.minLength ≤ Frame.lengthAt mem pos ∧ Frame.lengthAt mem pos ≤ k.maxLength) : Piece where
  kind := k
  content := mem.block (pos + 3) (Frame.lengthAt mem pos)
  surplus := mem.block (pos + 3 + Frame.lengthAt mem pos) k.surplus
  range := by simpa using h
  length_surplus := by simp

/-- The bytes of a piece are at a position. -/
def At (p : Piece) (mem : Memory) (pos : Nat) : Prop := mem.block pos p.span = p.bytes

theorem at_iff {p : Piece} {mem : Memory} {pos : Nat} :
    p.At mem pos ↔ mem.block pos p.frame.span = p.frame.encode
      ∧ mem.block (pos + p.frame.span) p.kind.surplus = p.surplus := by
  rw [At, span_eq_frame, Memory.block_add, bytes]
  constructor
  · intro h
    exact List.append_inj h (by simp)
  · rintro ⟨hframe, hsurplus⟩
    rw [hframe, hsurplus]

theorem at_ofMemory {mem : Memory} {pos : Nat} {k : ElementId}
    (h : k.minLength ≤ Frame.lengthAt mem pos ∧ Frame.lengthAt mem pos ≤ k.maxLength)
    (hk : mem pos = k.value) : (ofMemory mem pos k h).At mem pos := by
  have hframe : (ofMemory mem pos k h).frame = Frame.ofMemory mem pos := by
    rw [WireElement.frame, Frame.ofMemory]
    simp only [ofMemory, hk]
  have hspan : (Frame.ofMemory mem pos).span = 3 + Frame.lengthAt mem pos := by
    rw [Frame.span, Frame.length_ofMemory]
  rw [at_iff, hframe]
  refine ⟨Frame.block_ofMemory mem pos, ?_⟩
  rw [hspan, ← Nat.add_assoc]
  rfl

/-- What the bytes of a piece say at a position: its class, its declared length, and what `unpack`
makes of the rest. -/
theorem At.fields {p : Piece} {mem : Memory} {pos : Nat} (h : p.At mem pos) :
    mem pos = p.kind.value ∧ declared mem (pos + 1) = p.content.length
      ∧ mem.block (pos + 1 + 2) (p.content.length + p.kind.surplus) = p.content ++ p.surplus := by
  obtain ⟨hframe, hsurplus⟩ := at_iff.mp h
  obtain ⟨hid, hlen, hcontent⟩ := Frame.fields_of_block hframe
  refine ⟨hid, ?_, ?_⟩
  · rw [declared, hlen, Frame.beNat_length]
    rfl
  · have hpos : pos + p.frame.span = pos + 1 + 2 + p.content.length := by
      rw [Frame.span]
      change pos + (3 + p.content.length) = _
      omega
    rw [Memory.block_add, ← hpos, hsurplus]
    congr 1

/-- A position holds the bytes of one piece at most. -/
theorem At.unique {p q : Piece} {mem : Memory} {pos : Nat} (hp : p.At mem pos)
    (hq : q.At mem pos) : p = q := by
  obtain ⟨hpk, hpl, hpc⟩ := hp.fields
  obtain ⟨hqk, hql, hqc⟩ := hq.fields
  have hkind : p.kind = q.kind := ElementId.value_inj (hpk.symm.trans hqk)
  have hlen : p.content.length = q.content.length := hpl.symm.trans hql
  rw [hkind, hlen, hqc] at hpc
  obtain ⟨hcontent, hsurplus⟩ := List.append_inj hpc hlen.symm
  obtain ⟨⟨k, c, hr⟩, s, hs⟩ := p
  obtain ⟨⟨k', c', hr'⟩, s', hs'⟩ := q
  simp only at hkind hcontent hsurplus
  subst hkind hcontent hsurplus
  rfl

end Piece

/-- Pieces one after the other. -/
def bytesAll (ps : List Piece) : List UInt8 := ps.flatMap Piece.bytes

/-- How many bytes they take. -/
def spanAll (ps : List Piece) : Nat := (ps.map Piece.span).sum

/-- Where each of them starts, the first one at `pos`. -/
def starts : Nat → List Piece → List Nat
  | _, [] => []
  | pos, p :: ps => pos :: starts (pos + p.span) ps

@[simp] theorem bytesAll_nil : bytesAll [] = [] := rfl

@[simp] theorem bytesAll_cons (p : Piece) (ps : List Piece) :
    bytesAll (p :: ps) = p.bytes ++ bytesAll ps := by
  simp [bytesAll]

@[simp] theorem bytesAll_append (ps qs : List Piece) :
    bytesAll (ps ++ qs) = bytesAll ps ++ bytesAll qs := by
  simp [bytesAll]

@[simp] theorem spanAll_nil : spanAll [] = 0 := rfl

@[simp] theorem spanAll_cons (p : Piece) (ps : List Piece) :
    spanAll (p :: ps) = p.span + spanAll ps := by
  simp [spanAll]

@[simp] theorem spanAll_append (ps qs : List Piece) :
    spanAll (ps ++ qs) = spanAll ps + spanAll qs := by
  simp [spanAll]

@[simp] theorem length_bytesAll (ps : List Piece) : (bytesAll ps).length = spanAll ps := by
  induction ps with
  | nil => rfl
  | cons p ps ih => simp [ih]

/-! ## The walk -/

/-- From `pos` on, the loop takes these pieces and ends in this way. -/
inductive Parses (mem : Memory) (size : Nat) : Nat → List Piece → Option String → Prop where
  | stop {pos : Nat} : size ≤ pos → Parses mem size pos [] none
  | unknown {pos : Nat} : pos < size → (∀ k : ElementId, mem pos ≠ k.value) →
      Parses mem size pos [] (some "unknown information element")
  | reject {pos : Nat} {k : ElementId} : pos < size → mem pos = k.value →
      ¬ k.Accepts (declared mem (pos + 1)) (size - (pos + 1)) →
      Parses mem size pos [] (some "information element parse error")
  | step {pos : Nat} {p : Piece} {ps : List Piece} {w : Option String} : p.At mem pos →
      pos + p.need ≤ size → Parses mem size (pos + p.span) ps w → Parses mem size pos (p :: ps) w

/-- The piece at a position satisfies what `unpack` asks for. -/
theorem Piece.At.accepts {p : Piece} {mem : Memory} {pos size : Nat} (h : p.At mem pos)
    (hneed : pos + p.need ≤ size) :
    p.kind.Accepts (declared mem (pos + 1)) (size - (pos + 1)) := by
  obtain ⟨-, hlen, -⟩ := h.fields
  have hthree := p.three_le_need
  rw [Piece.need] at hneed
  rw [hlen]
  exact ⟨p.range.1, p.range.2, by omega⟩

namespace Parses

variable {mem : Memory} {size pos : Nat} {p : Piece} {ps qs : List Piece} {w w' : Option String}

theorem unique (h : Parses mem size pos ps w) (h' : Parses mem size pos qs w') :
    ps = qs ∧ w = w' := by
  -- both walks stand at the same byte, and it leaves one way to go on
  induction h generalizing qs w' with
  | stop hle =>
      cases h' with
      | stop => exact ⟨rfl, rfl⟩
      | unknown hlt => omega
      | reject hlt => omega
      | @step _ p _ _ _ hneed => have := p.three_le_need; omega
  | unknown hlt hnone =>
      cases h' with
      | stop => omega
      | unknown => exact ⟨rfl, rfl⟩
      | reject _ hk => exact absurd hk (hnone _)
      | step hat => exact absurd hat.fields.1 (hnone _)
  | reject hlt hk hrej =>
      cases h' with
      | stop => omega
      | unknown _ hnone => exact absurd hk (hnone _)
      | reject => exact ⟨rfl, rfl⟩
      | step hat hneed =>
          have hkind := ElementId.value_inj (hk.symm.trans hat.fields.1)
          exact absurd (hkind ▸ hat.accepts hneed) hrej
  | @step _ p _ _ hat hneed _ ih =>
      cases h' with
      | stop => have := p.three_le_need; omega
      | unknown _ hnone => exact absurd hat.fields.1 (hnone _)
      | reject _ hk hrej =>
          have hkind := ElementId.value_inj (hk.symm.trans hat.fields.1)
          exact absurd (hkind ▸ hat.accepts hneed) hrej
      | step hat' _ hrest =>
          obtain rfl := hat.unique hat'
          obtain ⟨rfl, rfl⟩ := ih hrest
          exact ⟨rfl, rfl⟩

/-- A walk starts each of its pieces where the identifier of its class is. -/
theorem value_at_starts (h : Parses mem size pos ps w) (hp : p ∈ ps) :
    ∃ s ∈ starts pos ps, mem s = p.kind.value := by
  induction h with
  | stop | unknown | reject => exact absurd hp List.not_mem_nil
  | step hat _ _ ih =>
      rcases List.mem_cons.mp hp with rfl | hp'
      · exact ⟨_, List.mem_cons_self, hat.fields.1⟩
      · obtain ⟨s, hs, hid⟩ := ih hp'
        exact ⟨s, List.mem_cons_of_mem _ hs, hid⟩

/-- The bytes walked over are the bytes of the pieces. -/
theorem block (h : Parses mem size pos ps w) : mem.block pos (spanAll ps) = bytesAll ps := by
  induction h with
  | stop | unknown | reject => rfl
  | step hat _ _ ih => rw [spanAll_cons, Memory.block_add, bytesAll_cons, hat, ih]

/-- A walk that reaches the end leaves no byte of the buffer. -/
theorem size_le (h : Parses mem size pos ps none) : size ≤ pos + spanAll ps := by
  generalize hw : (none : Option String) = w at h
  induction h with
  | stop hle => exact hle
  | unknown | reject => cases hw
  | step _ _ _ ih => have := ih hw; rw [spanAll_cons]; omega

/-- A walk over pieces of which every byte is asked for stays inside the buffer. -/
theorem spanAll_le (h : Parses mem size pos ps w) (hpos : pos ≤ size)
    (hneed : ∀ p ∈ ps, p.need = p.span) : pos + spanAll ps ≤ size := by
  induction h with
  | stop | unknown | reject => exact hpos
  | @step pos p ps w _ hle _ ih =>
      have hp := hneed p List.mem_cons_self
      have hrest := ih (by omega) fun q hq => hneed q (List.mem_cons_of_mem _ hq)
      rw [spanAll_cons]
      omega

/-- All pieces but the last one lie inside the buffer. -/
theorem init_le (h : Parses mem size pos (ps ++ [p]) w) : pos + spanAll ps + p.need ≤ size := by
  generalize hl : ps ++ [p] = l at h
  induction h generalizing ps with
  | stop | unknown | reject => simp at hl
  | step hat hneed hrest ih =>
      cases ps with
      | nil =>
          simp only [List.nil_append, List.cons.injEq] at hl
          obtain ⟨rfl, rfl⟩ := hl
          simpa using hneed
      | cons q qs =>
          simp only [List.cons_append, List.cons.injEq] at hl
          obtain ⟨rfl, rfl⟩ := hl
          have := ih rfl
          rw [spanAll_cons]
          omega

end Parses

/-- **A buffer written as pieces is walked piece by piece**, and the walk goes on behind them. -/
theorem parses_append {mem : Memory} {size pos : Nat} {ps qs : List Piece} {w : Option String}
    (hblock : mem.block pos (spanAll ps) = bytesAll ps) (hsize : pos + spanAll ps ≤ size)
    (hrest : Parses mem size (pos + spanAll ps) qs w) : Parses mem size pos (ps ++ qs) w := by
  induction ps generalizing pos with
  | nil => simpa using hrest
  | cons p ps ih =>
      rw [spanAll_cons, Memory.block_add, bytesAll_cons] at hblock
      rw [spanAll_cons] at hsize hrest
      obtain ⟨hat, hblock'⟩ := List.append_inj hblock (by simp)
      have hneed := p.need_le_span
      refine .step hat (by omega) (ih hblock' (by omega) ?_)
      rwa [Nat.add_assoc]

/-! ## The loop is the walk -/

/-- What the loop returns when it takes these pieces, after `elements`, and ends in this way. -/
def outcome (elements : List InformationElement) (ps : List Piece) :
    Option String → Except String (List InformationElement)
  | none => .ok (elements ++ ps.map Piece.decode)
  | some what => .error what

@[simp] theorem outcome_cons (elements : List InformationElement) (p : Piece) (ps : List Piece)
    (w : Option String) :
    outcome (elements ++ [p.decode]) ps w = outcome elements (p :: ps) w := by
  cases w <;> simp [outcome]

section Loop

variable {mem : Memory} {size pos : Nat} (elements : List InformationElement)

/-- One turn on an identifier that no class has. -/
theorem parseLoop_unknown (hlt : pos < size) (hnone : ∀ k : ElementId, mem pos ≠ k.value) :
    (Codec.parseLoop size pos elements).result mem = .error "unknown information element"
      ∧ (Codec.parseLoop size pos elements).log mem = [⟨pos, 1, true⟩] := by
  rw [Codec.parseLoop, dif_pos hlt]
  simp [ieFactory_none hnone]

/-- One turn on an element that `unpack` rejects. -/
theorem parseLoop_reject {k : ElementId} (hlt : pos < size) (hsize : size ≤ 65535)
    (hk : mem pos = k.value) (hrej : ¬ k.Accepts (declared mem (pos + 1)) (size - (pos + 1))) :
    (Codec.parseLoop size pos elements).result mem = .error "information element parse error"
      ∧ heads ((Codec.parseLoop size pos elements).log mem) = [pos]
      ∧ InBounds size ((Codec.parseLoop size pos elements).log mem) := by
  have hn : (UInt16.ofNat (size - (pos + 1))).toNat = size - (pos + 1) :=
    UInt16.toNat_ofNat_of_lt' (by show _ < 65536; omega)
  rw [← hn] at hrej
  obtain ⟨e, stop, hread, hstop⟩ := unpack_rejects (getId_create k) hrej
  have hfactory : Codec.ieFactory (mem pos) = some (InformationElement.create k) := by
    rw [hk, ieFactory_value]
  rw [Codec.parseLoop, dif_pos hlt]
  refine ⟨?_, ?_, ?_⟩
  · simp [hfactory, hread.result]
  · simp [hfactory, hread.result, hread.heads]
  · rw [hn] at hstop
    simp [hfactory, hread.result, hread.inBounds]
    omega

/-- One turn on an element that `unpack` accepts. -/
theorem parseLoop_accept {p : Piece} (hsize : size ≤ 65535) (hat : p.At mem pos)
    (hneed : pos + p.need ≤ size) :
    (Codec.parseLoop size pos elements).result mem
        = (Codec.parseLoop size (pos + p.span) (elements ++ [p.decode])).result mem
      ∧ heads ((Codec.parseLoop size pos elements).log mem)
        = pos :: heads ((Codec.parseLoop size (pos + p.span) (elements ++ [p.decode])).log mem)
      ∧ (InBounds size ((Codec.parseLoop size pos elements).log mem) ↔ pos + p.span ≤ size
        ∧ InBounds size
          ((Codec.parseLoop size (pos + p.span) (elements ++ [p.decode])).log mem)) := by
  have hthree := p.three_le_need
  have hlt : pos < size := by omega
  have hn : (UInt16.ofNat (size - (pos + 1))).toNat = size - (pos + 1) :=
    UInt16.toNat_ofNat_of_lt' (by show _ < 65536; omega)
  obtain ⟨hk, hlen, hcontent⟩ := hat.fields
  have hacc := hat.accepts hneed
  rw [← hn] at hacc
  have hread := unpack_accepts (getId_create p.kind) hacc
  rw [hlen, hcontent] at hread
  have hspan := p.span_lt
  have hoffset : (UInt16.ofNat (2 + p.content.length + p.kind.surplus)).toNat
      = 2 + p.content.length + p.kind.surplus :=
    UInt16.toNat_ofNat_of_lt' (by rw [Piece.span] at hspan; show _ < 65536; omega)
  generalize UInt16.ofNat (2 + p.content.length + p.kind.surplus) = offset at hread hoffset
  have hne : offset ≠ 0 := by
    rintro rfl
    rw [UInt16.toNat_zero] at hoffset
    omega
  have hnext : pos + 1 + offset.toNat = pos + p.span := by
    rw [hoffset, Piece.span]; omega
  have hstop : pos + 1 + (2 + p.content.length + p.kind.surplus) = pos + p.span := by
    rw [Piece.span]; omega
  rw [hstop] at hread
  have hfactory : Codec.ieFactory (mem pos) = some (InformationElement.create p.kind) := by
    rw [hk, ieFactory_value]
  rw [Codec.parseLoop, dif_pos hlt]
  refine ⟨?_, ?_, ?_⟩
  · simp [hfactory, hread.result, hne, hnext, Piece.decode]
  · simp [hfactory, hread.result, hread.heads, hne, hnext, Piece.decode]
  · simp [hfactory, hread.result, hread.inBounds, hne, hnext, Piece.decode]
    omega

end Loop

/-- **The loop is the walk**: its result, the positions where it looks for an identifier, and when
it keeps to the buffer. -/
theorem parseLoop_spec {mem : Memory} {size : Nat} (hsize : size ≤ 65535) (pos : Nat)
    (elements : List InformationElement) :
    ∃ ps w, Parses mem size pos ps w
      ∧ (Codec.parseLoop size pos elements).result mem = outcome elements ps w
      ∧ heads ((Codec.parseLoop size pos elements).log mem)
        = starts pos ps ++ (if w.isSome then [pos + spanAll ps] else [])
      ∧ (InBounds size ((Codec.parseLoop size pos elements).log mem) ↔
        (ps ≠ [] → pos + spanAll ps ≤ size)) := by
  -- the loop always advances, so by induction on what is left of the buffer
  induction hm : size - pos using Nat.strongRecOn generalizing pos elements with
  | ind m ih =>
    by_cases hlt : pos < size
    · by_cases hknown : ∃ k : ElementId, mem pos = k.value
      · obtain ⟨k, hk⟩ := hknown
        by_cases hacc : k.Accepts (declared mem (pos + 1)) (size - (pos + 1))
        · -- an accepted element, and the rest of the walk by induction
          have hrange : k.minLength ≤ Frame.lengthAt mem pos
              ∧ Frame.lengthAt mem pos ≤ k.maxLength := ⟨hacc.1, hacc.2.1⟩
          have hat := Piece.at_ofMemory hrange hk
          generalize hp : Piece.ofMemory mem pos k hrange = p at hat
          have hneed : pos + p.need ≤ size := by
            have hcover := hacc.2.2
            have htwo := k.two_le_cover (declared mem (pos + 1))
            have hlen := hat.fields.2.1
            have hkind : p.kind = k := by rw [← hp]; rfl
            rw [Piece.need, hkind, ← hlen]
            omega
          have hthree := p.three_le_need
          have hspan := p.need_le_span
          obtain ⟨ps, w, hrun, hres, hheads, hin⟩ :=
            ih (size - (pos + p.span)) (by omega) (pos + p.span) (elements ++ [p.decode]) rfl
          obtain ⟨hres', hheads', hin'⟩ := parseLoop_accept elements hsize hat hneed
          refine ⟨p :: ps, w, .step hat hneed hrun, ?_, ?_, ?_⟩
          · rw [hres', hres, outcome_cons]
          · rw [hheads', hheads, starts, spanAll_cons, Nat.add_assoc, List.cons_append]
          · rw [hin', hin, spanAll_cons]
            by_cases hnil : ps = []
            · subst hnil; simp
            · simp only [ne_eq, hnil, not_false_eq_true, forall_const, reduceCtorEq]
              omega
        · obtain ⟨hres, hheads, hin⟩ :=
            parseLoop_reject elements hlt hsize hk hacc
          exact ⟨[], _, .reject hlt hk hacc, hres, by simpa [starts] using hheads,
            by simpa using hin⟩
      · have hnone : ∀ k : ElementId, mem pos ≠ k.value := fun k hk => hknown ⟨k, hk⟩
        obtain ⟨hres, hlog⟩ := parseLoop_unknown elements hlt hnone
        refine ⟨[], _, .unknown hlt hnone, hres, ?_, ?_⟩
        · rw [hlog]; rfl
        · rw [hlog]; simp; omega
    · refine ⟨[], none, .stop (by omega), ?_, ?_, ?_⟩
      all_goals rw [Codec.parseLoop, dif_neg hlt]
      · simp [outcome]
      · rfl
      · simp

end Iridium.SbdDirectIp
