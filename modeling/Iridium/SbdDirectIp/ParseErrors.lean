import Iridium.SbdDirectIp.Parse

/-!
# What a parse that throws leaves

Each throw of either `parse` resets the message by hand. The two in the loop reset everything. The
ones behind it clear the elements and leave the positions that the searches have just stored, so
they designate an end that is no longer there: the accessors dereference it.

`parse_empties_iff` says when a thrown parse leaves the empty message.
-/

namespace Iridium.SbdDirectIp

open ReadM Tlv

/-- The empty message: every position is the end, and the accessors say so. -/
structure MoMessage.Emptied (here : Nat) (m : MoMessage) : Prop where
  elements : m.elements = []
  header : m.header = m.endPos here
  payloadPos : m.payloadPos = m.endPos here
  location : m.location = m.endPos here
  imei : ∀ vectors, m.imei here vectors = some []
  payload : ∀ vectors, m.payload here vectors = some []

@[inherit_doc MoMessage.Emptied]
structure MtConfirmMessage.Emptied (m : MtConfirmMessage) : Prop where
  elements : m.elements = []
  confirmation : m.confirmation = m.elements.length
  imei : m.imei = some []
  messageId : m.messageId = some 0
  autoRef : m.autoRef = some 0
  status : m.status = some (-32767)

/-- The buffer is a sequence of elements, at least one, that the loop takes to its end. -/
def Walkable (mem : Memory) (size : Nat) : Prop := ∃ ps, ps ≠ [] ∧ Parses mem size 0 ps none

theorem emptied_cleared (here : Nat) :
    MoMessage.Emptied here ⟨[], ⟨here, 0⟩, ⟨here, 0⟩, ⟨here, 0⟩⟩ :=
  ⟨rfl, rfl, rfl, rfl, fun _ => if_pos rfl, fun _ => if_pos rfl⟩

theorem emptied_cleared_confirm : MtConfirmMessage.Emptied ⟨[], 0⟩ :=
  ⟨rfl, rfl, rfl, rfl, rfl, rfl⟩

section Thrown

variable {mem : Memory} {here size : Nat} {ps : List Piece} {what : String}

theorem walkable_iff (h : Parses mem size 0 ps none) : Walkable mem size ↔ ps ≠ [] := by
  constructor
  · rintro ⟨qs, hqs, hparses⟩
    obtain ⟨rfl, -⟩ := h.unique hparses
    exact hqs
  · intro hps
    exact ⟨ps, hps, h⟩

theorem not_walkable (h : Parses mem size 0 ps (some what)) : ¬ Walkable mem size := by
  rintro ⟨qs, -, hparses⟩
  obtain ⟨-, hend⟩ := h.unique hparses
  exact absurd hend nofun

/-- Behind the loop, what was not found stays at the end that the elements had. -/
theorem parseMo_unfound (hsize : size ≤ 65535) (h : Parses mem size 0 ps none)
    (out : MoMessage) (hthrown : ((Codec.parseMo here size out).result mem).1 = .error what) :
    ((Codec.parseMo here size out).result mem).2
        = { MoMessage.ofElements here (ps.map Piece.decode) with elements := [] }
      ∧ (Codec.findId .moHeader (ps.map Piece.decode) = ps.length
        ∨ Codec.findId .moPayload (ps.map Piece.decode) = ps.length) := by
  rw [Codec.parseMo, result_bind, parseLoop_result hsize h] at hthrown ⊢
  by_cases hheader : Codec.findId .moHeader (ps.map Piece.decode) = ps.length
  · simp [outcome, MoMessage.endPos, MoMessage.ofElements, hheader]
  · by_cases hpayload : Codec.findId .moPayload (ps.map Piece.decode) = ps.length
    · simp [outcome, MoMessage.endPos, MoMessage.ofElements, hheader, hpayload]
    · simp [outcome, MoMessage.endPos, hheader, hpayload] at hthrown

theorem parseMo_empties_iff (hsize : size ≤ 65535) (out : MoMessage)
    (hthrown : ((Codec.parseMo here size out).result mem).1 = .error what) :
    ((Codec.parseMo here size out).result mem).2.Emptied here ↔ ¬ Walkable mem size := by
  obtain ⟨ps, w, hparses, -⟩ := @parseLoop_spec mem size hsize 0 []
  cases w with
  | some what' =>
      have hreset : ((Codec.parseMo here size out).result mem).2
          = ⟨[], ⟨here, 0⟩, ⟨here, 0⟩, ⟨here, 0⟩⟩ := by
        rw [Codec.parseMo, result_bind, parseLoop_result hsize hparses]
        rfl
      rw [hreset]
      exact iff_of_true (emptied_cleared here) (not_walkable hparses)
  | none =>
      obtain ⟨hleft, hunfound⟩ := parseMo_unfound hsize hparses out hthrown
      rw [hleft, walkable_iff hparses, not_not]
      constructor
      · intro hempty
        have hheader := congrArg Position.idx hempty.header
        have hpayload := congrArg Position.idx hempty.payloadPos
        apply List.eq_nil_of_length_eq_zero
        rcases hunfound with h | h
        · exact h.symm.trans hheader
        · exact h.symm.trans hpayload
      · intro hnil
        rw [hnil]
        exact emptied_cleared here

theorem parseMtConfirm_unfound (hsize : size ≤ 65535) (h : Parses mem size 0 ps none)
    (out : MtConfirmMessage)
    (hthrown : ((Codec.parseMtConfirm size out).result mem).1 = .error what) :
    ((Codec.parseMtConfirm size out).result mem).2 = ⟨[], ps.length⟩ := by
  rw [Codec.parseMtConfirm, result_bind, parseLoop_result hsize h] at hthrown ⊢
  by_cases hfound : Codec.findId .mtConfirmationMsg (ps.map Piece.decode) = ps.length
  · simp [outcome, hfound]
  · simp [outcome, hfound] at hthrown

theorem parseMtConfirm_empties_iff (hsize : size ≤ 65535) (out : MtConfirmMessage)
    (hthrown : ((Codec.parseMtConfirm size out).result mem).1 = .error what) :
    ((Codec.parseMtConfirm size out).result mem).2.Emptied ↔ ¬ Walkable mem size := by
  obtain ⟨ps, w, hparses, -⟩ := @parseLoop_spec mem size hsize 0 []
  cases w with
  | some what' =>
      have hreset : ((Codec.parseMtConfirm size out).result mem).2 = ⟨[], 0⟩ := by
        rw [Codec.parseMtConfirm, result_bind, parseLoop_result hsize hparses]
        rfl
      rw [hreset]
      exact iff_of_true emptied_cleared_confirm (not_walkable hparses)
  | none =>
      rw [parseMtConfirm_unfound hsize hparses out hthrown, walkable_iff hparses, not_not]
      constructor
      · intro hempty
        exact List.eq_nil_of_length_eq_zero hempty.confirmation
      · intro hnil
        rw [hnil]
        exact emptied_cleared_confirm

end Thrown

/-- **A parse that throws leaves the empty message exactly when it throws in the loop**, or on an
empty buffer: not on a buffer that is a sequence of elements, of which a needed one is missing. -/
theorem parse_empties_iff (buf : List UInt8) (past : Memory) (hsize : buf.length ≤ 65535) :
    let mem := Memory.ofBuffer buf past
    (∀ here out what, ((Codec.parseMo here buf.length out).result mem).1 = .error what →
      (((Codec.parseMo here buf.length out).result mem).2.Emptied here
        ↔ ¬ Walkable mem buf.length))
    ∧ ∀ out what, ((Codec.parseMtConfirm buf.length out).result mem).1 = .error what →
      (((Codec.parseMtConfirm buf.length out).result mem).2.Emptied
        ↔ ¬ Walkable mem buf.length) := by
  intro mem
  constructor
  · intro here out what hthrown
    exact parseMo_empties_iff hsize out hthrown
  · intro out what hthrown
    exact parseMtConfirm_empties_iff hsize out hthrown

/-- What a packet with a header and a payload has left in a message. -/
def earlierMo : MoMessage :=
  let buf := [0x01, 0x00, 0x1C] ++ List.replicate 28 0x31 ++ [0x02, 0x00, 0x01, 0x05]
  ((Codec.parseMo 0 buf.length (MoMessage.init 0)).result (Memory.ofBuffer buf fun _ => 0)).2

/-- What a confirmation has left in another. -/
def earlierConfirm : MtConfirmMessage :=
  let buf := [0x44, 0x00, 0x19] ++ List.replicate 25 0x31
  ((Codec.parseMtConfirm buf.length MtConfirmMessage.init).result
    (Memory.ofBuffer buf fun _ => 0)).2

/-- On an unknown identifier behind an element that is accepted, both overloads leave the empty
message, whatever was in it. -/
theorem parse_empties_sample :
    let mem := Memory.ofBuffer [0x05, 0x00, 0x01, 0x07, 0xFF] fun _ => 0
    earlierMo.elements.length = 2 ∧ earlierMo.payload 0 (fun _ => []) = some [0x05]
      ∧ earlierConfirm.elements.length = 1 ∧ earlierConfirm.status = some 0x3131
      ∧ ((Codec.parseMo 0 5 earlierMo).result mem).2.Emptied 0
      ∧ ((Codec.parseMtConfirm 5 earlierConfirm).result mem).2.Emptied := by
  intro mem
  have hlength : ElementId.moConfirmation.minLength ≤ Frame.lengthAt mem 0
      ∧ Frame.lengthAt mem 0 ≤ ElementId.moConfirmation.maxLength := by decide
  have hunknown : Parses mem 5 4 [] (some "unknown information element") :=
    .unknown (by decide) fun k => by cases k <;> decide
  have hwalk : ¬ Walkable mem 5 :=
    not_walkable (.step (Piece.at_ofMemory hlength (by decide)) (show 4 ≤ 5 by decide) hunknown)
  obtain ⟨hmo, hconfirm⟩ :=
    parse_empties_iff [0x05, 0x00, 0x01, 0x07, 0xFF] (fun _ => 0) (by decide)
  refine ⟨by decide +kernel, by decide +kernel, by decide +kernel, by decide +kernel, ?_, ?_⟩
  · exact (hmo 0 earlierMo "unknown information element" (by decide +kernel)).mpr hwalk
  · exact (hconfirm earlierConfirm "unknown information element" (by decide +kernel)).mpr hwalk

/-- On a lone `05 00 01 07` neither does: the accessors dereference a stale position. -/
theorem parse_stale_sample :
    let mem := Memory.ofBuffer [0x05, 0x00, 0x01, 0x07] fun _ => 0
    let mo := (Codec.parseMo 0 4 (MoMessage.init 0)).result mem
    let confirm := (Codec.parseMtConfirm 4 MtConfirmMessage.init).result mem
    mo.1 = .error "no header found" ∧ mo.2.imei 0 (fun _ => []) = none ∧ ¬ mo.2.Emptied 0
      ∧ confirm.1 = .error "no MT confirmation found" ∧ confirm.2.status = none
      ∧ ¬ confirm.2.Emptied := by
  intro mem mo confirm
  have himei : mo.2.imei 0 (fun _ => []) = none := by decide +kernel
  have hstatus : confirm.2.status = none := by decide +kernel
  refine ⟨by decide +kernel, himei, ?_, by decide +kernel, hstatus, ?_⟩
  · intro hempty
    exact absurd (himei.symm.trans (hempty.imei _)) nofun
  · intro hempty
    exact absurd (hstatus.symm.trans hempty.status) nofun

end Iridium.SbdDirectIp
