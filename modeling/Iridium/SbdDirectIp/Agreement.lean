import Iridium.SbdDirectIp.Parse

/-!
# Do the guard and the parser see the same elements?

A session asks `messageCategory` whether a packet is a mobile originated message and then has
`parse` read it. The scan steps by the declared lengths, from frame start to frame start
(`frameStarts`); the parser steps by what `unpack` returns, which for a location is three bytes
more. As long as no location comes before the last frame the two walk together; after one they
never meet at the next frame (`starts_eq_iff`).
-/

namespace Iridium.SbdDirectIp

open ReadM Tlv Codec

/-! ## The framing by declared lengths -/

/-- Where the frames start, from a position to the end of the buffer. -/
def frameStarts (mem : Memory) (size pos : Nat) : List Nat :=
  if _h : pos < size then pos :: frameStarts mem size (pos + (Frame.ofMemory mem pos).span)
  else []
termination_by size - pos
decreasing_by
  have := (Frame.ofMemory mem pos).three_le_span
  omega

section Framing

variable {mem : Memory} {size pos : Nat}

theorem frameStarts_of_lt (h : pos < size) :
    frameStarts mem size pos
      = pos :: frameStarts mem size (pos + (Frame.ofMemory mem pos).span) := by
  rw [frameStarts, dif_pos h]

theorem frameStarts_of_le (h : size ≤ pos) : frameStarts mem size pos = [] := by
  rw [frameStarts, dif_neg (by omega)]

theorem le_of_mem_frameStarts {t : Nat} (h : t ∈ frameStarts mem size pos) : pos ≤ t := by
  induction hm : size - pos using Nat.strongRecOn generalizing pos with
  | ind m ih =>
    by_cases hlt : pos < size
    · have hspan := (Frame.ofMemory mem pos).three_le_span
      rw [frameStarts_of_lt hlt] at h
      rcases List.mem_cons.mp h with rfl | hrest
      · exact le_rfl
      · have hle := ih (size - (pos + (Frame.ofMemory mem pos).span)) (by omega) hrest rfl
        omega
    · rw [frameStarts_of_le (by omega)] at h
      exact absurd h List.not_mem_nil

/-- No frame starts inside another one. -/
theorem frameStarts_apart {s t : Nat} (hs : s ∈ frameStarts mem size pos)
    (ht : t ∈ frameStarts mem size pos) (hlt : s < t) :
    s + (Frame.ofMemory mem s).span ≤ t := by
  induction hm : size - pos using Nat.strongRecOn generalizing pos with
  | ind m ih =>
    by_cases hpos : pos < size
    · have hspan := (Frame.ofMemory mem pos).three_le_span
      rw [frameStarts_of_lt hpos] at hs ht
      rcases List.mem_cons.mp hs with rfl | hs'
      · rcases List.mem_cons.mp ht with rfl | ht'
        · omega
        · exact le_of_mem_frameStarts ht'
      · rcases List.mem_cons.mp ht with rfl | ht'
        · have hle := le_of_mem_frameStarts hs'
          omega
        · exact ih (size - (pos + (Frame.ofMemory mem pos).span)) (by omega) hs' ht' rfl
    · rw [frameStarts_of_le (by omega)] at hs
      exact absurd hs List.not_mem_nil

end Framing

/-! ## What the scan visits -/

section Scan

variable {mem : Memory} {size pos : Nat} {category : EMessageCategory}

/-- One turn of the scan opens one frame. -/
theorem categoryLoop_heads (hlt : pos < size) {next : EMessageCategory}
    (hnext : nextCategory category (mem pos) = some next) :
    heads ((categoryLoop size pos category).log mem)
      = pos :: heads
        ((categoryLoop size (pos + (Frame.ofMemory mem pos).span) next).log mem) := by
  rw [categoryLoop_log_step hlt hnext]
  rfl

/-- **A scan that finds a category visits every frame**, and each belongs to the category. -/
theorem categoryLoop_visits {found : EMessageCategory} (hne : found ≠ .unknownMessage)
    (h : (categoryLoop size pos category).result mem = found) :
    heads ((categoryLoop size pos category).log mem) = frameStarts mem size pos
      ∧ ∀ s ∈ frameStarts mem size pos, idCategory (mem s) = found := by
  induction hm : size - pos using Nat.strongRecOn generalizing pos category with
  | ind m ih =>
    by_cases hlt : pos < size
    · have hspan := (Frame.ofMemory mem pos).three_le_span
      -- a scan that ended well has not given up at this frame
      obtain ⟨hnext, hid, hrest⟩ := categoryLoop_inv hne hlt h
      obtain ⟨hheads, hall⟩ :=
        ih (size - (pos + (Frame.ofMemory mem pos).span)) (by omega) hrest rfl
      rw [frameStarts_of_lt hlt, categoryLoop_heads hlt hnext, hheads]
      refine ⟨rfl, ?_⟩
      intro s hs
      rcases List.mem_cons.mp hs with rfl | hs'
      · exact hid
      · exact hall s hs'
    · rw [frameStarts_of_le (by omega), categoryLoop, dif_neg hlt]
      exact ⟨rfl, fun s hs => absurd hs List.not_mem_nil⟩

end Scan

/-! ## What the parser visits -/

/-- The declared length of a piece is that of its frame. -/
theorem span_ofMemory {p : Piece} {mem : Memory} {pos : Nat} (h : p.At mem pos) :
    (Frame.ofMemory mem pos).span = 3 + p.content.length := by
  rw [Frame.span, Frame.length_ofMemory]
  exact congrArg (3 + ·) h.fields.2.1

/-- **The walk of the parser is the framing exactly when no location comes before the last
frame.** -/
theorem starts_eq_iff {mem : Memory} {size pos : Nat} {ps : List Piece}
    (h : Parses mem size pos ps none) :
    starts pos ps = frameStarts mem size pos
      ↔ ∀ s ∈ (frameStarts mem size pos).dropLast, mem s ≠ ElementId.moLocationInfo.value := by
  generalize hw : (none : Option String) = w at h
  -- over the steps of the walk; a location makes it leave the framing
  induction h with
  | stop hle => simp [starts, frameStarts_of_le hle]
  | unknown | reject => cases hw
  | @step pos p ps w hat hneed hrest ih =>
      have hthree := p.three_le_need
      have hid := hat.fields.1
      have hframe := span_ofMemory hat
      rw [starts, frameStarts_of_lt (by omega), hframe, List.cons.injEq]
      simp only [true_and]
      by_cases hloc : p.kind = .moLocationInfo
      · -- the parser steps three bytes further than the frame
        have hspan : p.span = 3 + p.content.length + 3 := by
          rw [Piece.span, hloc]
          rfl
        by_cases hlast : size ≤ pos + (3 + p.content.length)
        · have hps : ps = [] := by
            cases hrest with
            | stop => rfl
            | step _ hneed' => have := Piece.three_le_need ‹_›; omega
            | unknown | reject => cases hw
          simp [frameStarts_of_le hlast, hps, starts]
        · rw [frameStarts_of_lt (show pos + (3 + p.content.length) < size by omega)]
          refine iff_of_false ?_ ?_
          · intro heq
            cases ps with
            | nil => simp [starts] at heq
            | cons q qs =>
                simp only [starts, List.cons.injEq] at heq
                omega
          · intro hall
            refine hall pos ?_ (hid.trans (congrArg ElementId.value hloc))
            simp
      · have hspan : p.span = 3 + p.content.length := by
          rw [Piece.span, ElementId.surplus, if_neg hloc, Nat.add_zero]
        have hne : mem pos ≠ ElementId.moLocationInfo.value := by
          rw [hid]
          exact fun heq => hloc (ElementId.value_inj heq)
        rw [hspan] at ih ⊢
        rw [ih hw]
        cases hL : frameStarts mem size (pos + (3 + p.content.length)) with
        | nil => simp
        | cons s l => simp [hne]

/-! ## Guard and parser -/

/-- The offsets at which a computation looks for an identifier, each with what it finds there. -/
def visited {α : Type} (m : ReadM α) (mem : Memory) : List (Nat × UInt8) :=
  (heads (m.log mem)).map fun s => (s, mem s)

theorem visited_eq_iff {α β : Type} {m : ReadM α} {m' : ReadM β} {mem : Memory} :
    visited m mem = visited m' mem ↔ heads (m.log mem) = heads (m'.log mem) := by
  apply List.map_inj_right
  intro s t h
  exact congrArg Prod.fst h

/-- The guard and the parser see the same elements: they visit the same identifiers, every element
of the message has one of a mobile originated message, and no element is read from inside a frame
that the guard has seen. -/
structure SameElements (mem : Memory) (size here : Nat) (out : MoMessage) : Prop where
  visited : visited (messageCategory size) mem = visited (parseMo here size out) mem
  isMoElem : ∀ e ∈ ((parseMo here size out).result mem).2.elements, isMoElem e.getId.value
  apart : ∀ s ∈ heads ((messageCategory size).log mem),
    ∀ t ∈ heads ((parseMo here size out).log mem), s < t → s + (Frame.ofMemory mem s).span ≤ t

/-- **The guard and the parser agree exactly when no location comes before the last frame.** -/
theorem sameElements_iff (buf : List UInt8) (past : Memory) (here : Nat) (out : MoMessage)
    (hsize : buf.length ≤ 65535)
    (hcategory : (messageCategory buf.length).result (Memory.ofBuffer buf past) = .moMessage)
    (hok : ((parseMo here buf.length out).result (Memory.ofBuffer buf past)).1 = .ok ()) :
    let mem := Memory.ofBuffer buf past
    SameElements mem buf.length here out
      ↔ ∀ s ∈ (frameStarts mem buf.length 0).dropLast,
        mem s ≠ ElementId.moLocationInfo.value := by
  intro mem
  obtain ⟨hscan, hall⟩ := categoryLoop_visits (by decide) hcategory
  obtain ⟨ps, w, hparses, -, hheads, -⟩ := @parseLoop_spec mem buf.length hsize 0 []
  obtain ⟨rfl, -, -⟩ := (parseMo_ok_iff hsize hparses).mp hok
  have hmessage := parseMo_message hsize hparses hok
  have hparse : heads ((parseMo here buf.length out).log mem) = starts 0 ps := by
    rw [parseMo_log, hheads]
    simp
  have hscan' : heads ((messageCategory buf.length).log mem) = frameStarts mem buf.length 0 :=
    hscan
  rw [← starts_eq_iff hparses]
  constructor
  · intro h
    have hvisited := visited_eq_iff.mp h.visited
    rw [hscan', hparse] at hvisited
    exact hvisited.symm
  · intro heq
    refine ⟨visited_eq_iff.mpr ?_, ?_, ?_⟩
    · rw [hscan', hparse, heq]
    · intro e he
      rw [hmessage] at he
      obtain ⟨p, hp, rfl⟩ := List.mem_map.mp he
      obtain ⟨s, hs, hid⟩ := hparses.value_at_starts hp
      have hmo := hall s (heq ▸ hs)
      rw [getId_decode, ← hid]
      by_contra hnot
      unfold idCategory at hmo
      rw [if_neg hnot] at hmo
      split at hmo
      · split at hmo <;> cases hmo
      · cases hmo
    · intro s hs t ht hlt
      rw [hscan'] at hs
      rw [hparse, heq] at ht
      exact frameStarts_apart hs ht hlt

/-- A header and a payload, and these bytes behind them. -/
def mixedBuffer (rest : List UInt8) : List UInt8 :=
  [0x01, 0x00, 0x1C] ++ List.replicate 28 0x31 ++ [0x02, 0x00, 0x01, 0x05] ++ rest

/-- With a location at the end they agree. -/
theorem sameElements_sample :
    let buf := mixedBuffer ([0x03, 0x00, 0x0B] ++ List.replicate 11 0)
    SameElements (Memory.ofBuffer buf fun _ => 0) buf.length 0 (MoMessage.init 0) := by
  intro buf
  refine (sameElements_iff buf (fun _ => 0) 0 (MoMessage.init 0) (by decide) (by decide +kernel)
    (by decide +kernel)).mpr ?_
  decide +kernel

/-- Behind a location, the content of a payload is read as a mobile terminated element. -/
theorem smuggled_sample :
    let buf := mixedBuffer ([0x03, 0x00, 0x0B] ++ List.replicate 11 0
      ++ [0x02, 0x00, 0x04, 0x42, 0x00, 0x01, 0x07])
    let mem := Memory.ofBuffer buf fun _ => 0
    (messageCategory buf.length).result mem = .moMessage
      ∧ ((parseMo 0 buf.length (MoMessage.init 0)).result mem).1 = .ok ()
      ∧ ¬ SameElements mem buf.length 0 (MoMessage.init 0) := by
  intro buf mem
  refine ⟨by decide +kernel, by decide +kernel, ?_⟩
  intro h
  have hids : ∃ e ∈ ((parseMo 0 buf.length (MoMessage.init 0)).result mem).2.elements,
      e.getId = .mtPayload := by decide +kernel
  obtain ⟨e, he, hid⟩ := hids
  have hmo := h.isMoElem e he
  rw [hid] at hmo
  exact absurd hmo (by decide)

end Iridium.SbdDirectIp
