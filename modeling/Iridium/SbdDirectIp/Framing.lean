import Iridium.SbdDirectIp.Category

/-!
# Badly framed buffers

The scan of `messageCategory` tests its position at the top of the loop and nowhere else. A frame
that the end of the buffer cuts is therefore taken by its identifier alone: the length field is
read wherever it lies, and the position it leads to ends the loop with the category found so far.
Only an identifier that spoils the scan, before the cut or at it, leads to `unknownMessage`
(`categoryLoop_cut_iff`).
-/

namespace Iridium.SbdDirectIp

open ByteOrder ReadM Tlv

namespace Codec

variable {mem : Memory} {size pos : Nat} {category : EMessageCategory}

/-! ## What the scan reads -/

theorem categoryLoop_log_stop (hle : size ≤ pos) :
    (categoryLoop size pos category).log mem = [] := by
  rw [categoryLoop, dif_neg (by omega)]
  rfl

theorem categoryLoop_log_spoilt (hlt : pos < size) (h : nextCategory category (mem pos) = none) :
    (categoryLoop size pos category).log mem = [⟨pos, 1, true⟩] := by
  rw [categoryLoop, dif_pos hlt]
  simp [h]

/-- One turn over a frame in the buffer reads inside it. -/
theorem categoryLoop_inBounds_step (hfit : pos + (Frame.ofMemory mem pos).span ≤ size)
    {next : EMessageCategory} (h : nextCategory category (mem pos) = some next) :
    InBounds size ((categoryLoop size pos category).log mem)
      ↔ InBounds size
        ((categoryLoop size (pos + (Frame.ofMemory mem pos).span) next).log mem) := by
  have hspan := (Frame.ofMemory mem pos).three_le_span
  rw [categoryLoop_log_step (by omega) h, InBounds.cons_iff, InBounds.cons_iff]
  constructor
  · rintro ⟨-, -, hrest⟩
    exact hrest
  · intro hrest
    refine ⟨?_, ?_, hrest⟩ <;> dsimp only <;> omega

/-- A spoilt scan rejects, and has read inside the buffer. -/
theorem categoryLoop_spoilt (hlt : pos < size) (h : nextCategory category (mem pos) = none) :
    InBounds size ((categoryLoop size pos category).log mem)
      ∧ (categoryLoop size pos category).result mem = .unknownMessage := by
  constructor
  · rw [categoryLoop_log_spoilt hlt h, InBounds.cons_iff]
    exact ⟨hlt, InBounds.nil size⟩
  · rw [categoryLoop_step hlt, h]

/-! ## Over frames -/

/-- The first frame of a sequence in memory is the one that its position opens. -/
theorem ofMemory_of_encodeAll {f : Frame} {bs : List UInt8}
    (h : mem.block pos (f.encode ++ bs).length = f.encode ++ bs) :
    f = Frame.ofMemory mem pos ∧ mem.block (pos + f.span) bs.length = bs := by
  rw [List.length_append, Frame.length_encode, Memory.block_add] at h
  obtain ⟨hf, hbs⟩ := List.append_inj h (by simp)
  exact ⟨Frame.eq_ofMemory hf, hbs⟩

/-- Over a buffer of frames the scan reads inside it. -/
theorem categoryLoop_framed (frames : List Frame)
    (hblock : mem.block pos (encodeAll frames).length = encodeAll frames)
    (hsize : size = pos + (encodeAll frames).length) :
    InBounds size ((categoryLoop size pos category).log mem) := by
  induction frames generalizing pos category with
  | nil =>
      rw [categoryLoop_log_stop (by simp [hsize])]
      exact InBounds.nil size
  | cons f fs ih =>
      rw [encodeAll_cons] at hblock hsize
      obtain ⟨hf, hfs⟩ := ofMemory_of_encodeAll hblock
      rw [List.length_append, Frame.length_encode] at hsize
      have hspan := f.three_le_span
      cases h : nextCategory category (mem pos) with
      | none => exact (categoryLoop_spoilt (by omega) h).1
      | some next =>
          rw [categoryLoop_inBounds_step (by rw [← hf]; omega) h, ← hf]
          exact ih hfs (by omega)

/-- A scan that has found `category` goes on over these identifiers: they belong to one category,
and to that one. -/
def Accepts (category : EMessageCategory) (ids : List UInt8) : Prop :=
  ∃ c, c ≠ .unknownMessage ∧ (category = .unknownMessage ∨ category = c)
    ∧ ∀ id ∈ ids, idCategory id = c

theorem nextCategory_ne_unknown {id : UInt8} {next : EMessageCategory}
    (h : nextCategory category id = some next) : next ≠ .unknownMessage := by
  rw [nextCategory_eq] at h
  split at h
  · next hcond =>
      cases h
      exact hcond.1
  · cases h

theorem not_accepts_of_spoilt {id : UInt8} (h : nextCategory category id = none)
    (ids : List UInt8) : ¬ Accepts category (id :: ids) := by
  rintro ⟨c, hne, hopen, hall⟩
  have hid : idCategory id = c := hall id List.mem_cons_self
  rw [nextCategory_eq, if_pos ⟨hid ▸ hne, hid ▸ hopen⟩] at h
  cases h

theorem accepts_cons_iff {id : UInt8} {next : EMessageCategory}
    (h : nextCategory category id = some next) (ids : List UInt8) :
    Accepts category (id :: ids) ↔ Accepts next ids := by
  rw [nextCategory_eq] at h
  split at h
  · next hcond =>
      cases h
      constructor
      · rintro ⟨c, hne, -, hall⟩
        rw [List.forall_mem_cons] at hall
        exact ⟨c, hne, .inr hall.1, hall.2⟩
      · rintro ⟨c, hne, hopen | hopen, hall⟩
        · exact absurd hopen hcond.1
        · subst hopen
          exact ⟨_, hne, hcond.2, List.forall_mem_cons.mpr ⟨rfl, hall⟩⟩
  · cases h

/-- At a cut frame: an identifier that is accepted leads out of the buffer, and to a category. -/
theorem categoryLoop_at_cut {rest : List UInt8} (hcut : Cut rest)
    (hblock : mem.block pos rest.length = rest) (hsize : size = pos + rest.length)
    {next : EMessageCategory} (h : nextCategory category (mem pos) = some next) :
    ¬ (InBounds size ((categoryLoop size pos category).log mem)
      ∧ (categoryLoop size pos category).result mem = .unknownMessage) := by
  rintro ⟨hbounds, hresult⟩
  have hpos := List.length_pos_iff.mpr hcut.ne_nil
  rw [categoryLoop_log_step (by omega) h, InBounds.cons_iff, InBounds.cons_iff] at hbounds
  have hheader : pos + 1 + 2 ≤ size := hbounds.2.1
  have hshort := hcut.short hblock (by omega)
  rw [categoryLoop_step (by omega), h] at hresult
  simp only [categoryLoop_stop (show size ≤ pos + (Frame.ofMemory mem pos).span by omega)]
    at hresult
  exact nextCategory_ne_unknown h hresult

/-- **Behind whole frames, a cut one is rejected exactly when an identifier spoils the scan.** -/
theorem categoryLoop_cut_iff {rest : List UInt8} (hcut : Cut rest) (frames : List Frame)
    (hblock : mem.block pos (encodeAll frames ++ rest).length = encodeAll frames ++ rest)
    (hsize : size = pos + (encodeAll frames ++ rest).length) :
    (InBounds size ((categoryLoop size pos category).log mem)
        ∧ (categoryLoop size pos category).result mem = .unknownMessage)
      ↔ ¬ Accepts category (frames.map Frame.id ++ rest.take 1) := by
  induction frames generalizing pos category with
  | nil =>
      rw [encodeAll_nil, List.nil_append] at hblock hsize
      obtain ⟨id, tail, rfl⟩ := List.exists_cons_of_ne_nil hcut.ne_nil
      have hid : mem pos = id := by
        rw [List.length_cons, Nat.add_comm, Memory.block_add, Memory.block_one] at hblock
        exact (List.cons.inj hblock).1
      rw [List.map_nil, List.nil_append, List.take_succ_cons, List.take_zero]
      cases h : nextCategory category (mem pos) with
      | none =>
          rw [hid] at h
          refine iff_of_true (categoryLoop_spoilt ?_ (hid ▸ h)) (not_accepts_of_spoilt h [])
          rw [hsize, List.length_cons]; omega
      | some next =>
          refine iff_of_false (categoryLoop_at_cut hcut hblock hsize h) ?_
          rw [hid] at h
          rw [not_not, accepts_cons_iff h]
          exact ⟨next, nextCategory_ne_unknown h, .inr rfl, by simp⟩
  | cons f fs ih =>
      rw [encodeAll_cons, List.append_assoc] at hblock hsize
      obtain ⟨hf, hfs⟩ := ofMemory_of_encodeAll hblock
      rw [List.length_append, Frame.length_encode] at hsize
      have hspan := f.three_le_span
      have hid : mem pos = f.id := by rw [hf]; rfl
      rw [List.map_cons, List.cons_append]
      cases h : nextCategory category (mem pos) with
      | none =>
          refine iff_of_true (categoryLoop_spoilt (by omega) h) ?_
          exact not_accepts_of_spoilt (hid ▸ h) _
      | some next =>
          rw [categoryLoop_inBounds_step (by rw [← hf]; omega) h, categoryLoop_step (by omega), h,
            ← hf, accepts_cons_iff (hid ▸ h)]
          exact ih hfs (by omega)

/-! ## Any buffer -/

/-- The buffer ends in a frame that is cut, and all identifiers up to it belong to one category. -/
def EndsInCut (buf : List UInt8) : Prop :=
  ∃ frames rest, encodeAll frames ++ rest = buf ∧ Cut rest
    ∧ ∃ c, c ≠ .unknownMessage ∧ ∀ id ∈ frames.map Frame.id ++ rest.take 1, idCategory id = c

/-- Badly framed buffers are rejected safely: nothing behind the buffer is read, and what is no
sequence of frames has no category. -/
def RejectsBadFraming (buf : List UInt8) (past : Memory) : Prop :=
  InBounds buf.length ((messageCategory buf.length).log (Memory.ofBuffer buf past))
    ∧ ((¬ ∃ frames, encodeAll frames = buf) →
      (messageCategory buf.length).result (Memory.ofBuffer buf past) = .unknownMessage)

/-- **A badly framed buffer is rejected, unless it ends in a cut frame of the one category that all
its identifiers belong to.** -/
theorem rejectsBadFraming_iff (buf : List UInt8) (past : Memory) :
    RejectsBadFraming buf past ↔ ¬ EndsInCut buf := by
  -- whatever way the buffer is split in frames and a cut one, the scan decides on that split
  have hsplit : ∀ frames rest, encodeAll frames ++ rest = buf → Cut rest →
      (RejectsBadFraming buf past
        ↔ ¬ Accepts .unknownMessage (frames.map Frame.id ++ rest.take 1)) := by
    rintro frames rest rfl hcut
    rw [← categoryLoop_cut_iff hcut frames (Memory.block_ofBuffer_self _ past)
      (Nat.zero_add _).symm]
    exact and_congr_right' (forall_prop_of_true (hcut.not_framed frames))
  constructor
  · rintro hrejects ⟨frames, rest, hbuf, hcut, c, hne, hall⟩
    exact (hsplit frames rest hbuf hcut).mp hrejects ⟨c, hne, .inl rfl, hall⟩
  · intro hwhole
    obtain ⟨frames, rest, hbuf, rfl | hcut⟩ := exists_frames_or_cut buf
    · rw [List.append_nil] at hbuf
      subst hbuf
      refine ⟨?_, fun hnot => absurd ⟨frames, rfl⟩ hnot⟩
      exact categoryLoop_framed frames (Memory.block_ofBuffer_self _ past) (Nat.zero_add _).symm
    · rw [hsplit frames rest hbuf hcut]
      rintro ⟨c, hne, -, hall⟩
      exact hwhole ⟨frames, rest, hbuf, hcut, c, hne, hall⟩

/-- A lone `01` makes the scan read a length field behind the buffer. `01 00 05`, which declares five
bytes that are not there, is a mobile originated message. -/
theorem rejectsBadFraming_sample :
    (⟨1, 2, false⟩ : Access) ∈ (messageCategory 1).log (Memory.ofBuffer [0x01] fun _ => 0)
      ∧ (¬ RejectsBadFraming [0x01] fun _ => 0)
      ∧ (messageCategory 3).result (Memory.ofBuffer [0x01, 0x00, 0x05] fun _ => 0) = .moMessage
      ∧ ¬ RejectsBadFraming [0x01, 0x00, 0x05] fun _ => 0 := by
  have hread : (⟨1, 2, false⟩ : Access)
      ∈ (messageCategory 1).log (Memory.ofBuffer [0x01] fun _ => 0) := by decide +kernel
  have hfound : (messageCategory 3).result (Memory.ofBuffer [0x01, 0x00, 0x05] fun _ => 0)
      = .moMessage := by decide +kernel
  refine ⟨hread, ?_, hfound, ?_⟩
  · rintro ⟨hbounds, -⟩
    exact absurd (hbounds _ hread) (by decide)
  · rintro ⟨-, hrejects⟩
    have hcut : Cut [0x01, 0x00, 0x05] := by
      show ([] : List UInt8).length < beNat [0x00, 0x05]
      decide
    exact absurd (hfound.symm.trans (hrejects (hcut.not_framed []))) nofun

end Codec

end Iridium.SbdDirectIp
