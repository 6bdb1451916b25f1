import Iridium.Lib.Memory

/-!
# Identifier, length, content

The framing of many binary formats: an identifier byte, a two-byte big-endian length, and that
many content bytes. A `Frame` carries the bound that makes its length writable, so every frame
can be encoded.

Every position of a memory opens exactly one frame, `Frame.ofMemory`, whatever the bytes are:
the bytes at the position are the encoding of that frame (`block_ofMemory`) and of no other
(`eq_ofMemory`). A scanner of frames is therefore a function of `ofMemory` at its position, and
what is known of the bytes (`block`) turns into what is known of the frame and back.

`decode` is the reference reader of a whole buffer. It accepts exactly the concatenations of
frames (`decode_eq_some_iff`), so a buffer is one in at most one way (`encodeAll_inj`). Any other
buffer is a concatenation of frames and a cut one behind them (`exists_frames_or_cut`).
-/

namespace Tlv

open ByteOrder

structure Frame where
  id : UInt8
  content : List UInt8
  bound : content.length < 65536
  deriving DecidableEq, Repr

namespace Frame

/-- How many bytes a frame takes. -/
def span (f : Frame) : Nat := 3 + f.content.length

def encode (f : Frame) : List UInt8 := f.id :: (beBytes 2 f.content.length ++ f.content)

@[simp] theorem length_encode (f : Frame) : f.encode.length = f.span := by
  simp [encode, span]; omega

theorem three_le_span (f : Frame) : 3 ≤ f.span := by simp [span]

theorem beNat_length (f : Frame) : beNat (beBytes 2 f.content.length) = f.content.length := by
  rw [beNat_beBytes]
  exact Nat.mod_eq_of_lt f.bound

/-! ### The frame at a position -/

/-- The length field at a position that opens a frame. -/
def lengthAt (mem : Memory) (pos : Nat) : Nat := beNat (mem.block (pos + 1) 2)

theorem lengthAt_lt (mem : Memory) (pos : Nat) : lengthAt mem pos < 65536 := by
  simpa [lengthAt] using beNat_lt (mem.block (pos + 1) 2)

/-- The frame that a position opens. -/
def ofMemory (mem : Memory) (pos : Nat) : Frame where
  id := mem pos
  content := mem.block (pos + 3) (lengthAt mem pos)
  bound := by simpa using lengthAt_lt mem pos

@[simp] theorem length_ofMemory (mem : Memory) (pos : Nat) :
    (ofMemory mem pos).content.length = lengthAt mem pos := by
  simp [ofMemory]

theorem block_length_field (mem : Memory) (pos : Nat) :
    beBytes 2 (lengthAt mem pos) = mem.block (pos + 1) 2 := by
  have h := beBytes_beNat (mem.block (pos + 1) 2)
  rwa [Memory.length_block] at h

theorem block_ofMemory (mem : Memory) (pos : Nat) :
    mem.block pos (ofMemory mem pos).span = (ofMemory mem pos).encode := by
  have hspan : (ofMemory mem pos).span = 1 + (2 + lengthAt mem pos) := by
    rw [span, length_ofMemory]; omega
  rw [hspan, Memory.block_add, Memory.block_add, Memory.block_one, encode, length_ofMemory,
    block_length_field]
  rfl

/-- What the encoding of a frame at a position says of the bytes there. -/
theorem fields_of_block {mem : Memory} {pos : Nat} {f : Frame}
    (h : mem.block pos f.span = f.encode) :
    mem pos = f.id ∧ mem.block (pos + 1) 2 = beBytes 2 f.content.length
      ∧ mem.block (pos + 3) f.content.length = f.content := by
  have hspan : f.span = 1 + (2 + f.content.length) := by rw [span]; omega
  rw [hspan, Memory.block_add, Memory.block_add, Memory.block_one, encode,
    List.singleton_append, List.cons.injEq] at h
  obtain ⟨hid, hrest⟩ := h
  obtain ⟨hlen, hcontent⟩ := List.append_inj hrest (by simp)
  exact ⟨hid, hlen, hcontent⟩

theorem eq_ofMemory {mem : Memory} {pos : Nat} {f : Frame}
    (h : mem.block pos f.span = f.encode) : f = ofMemory mem pos := by
  obtain ⟨hid, hlen, hcontent⟩ := fields_of_block h
  have hn : lengthAt mem pos = f.content.length := by rw [lengthAt, hlen, beNat_length]
  obtain ⟨id, content, bound⟩ := f
  simp only [ofMemory, Frame.mk.injEq]
  exact ⟨hid.symm, by rw [hn, hcontent]⟩

end Frame

/-! ## Sequences of frames -/

/-- Frames one after the other. -/
def encodeAll (frames : List Frame) : List UInt8 := frames.flatMap Frame.encode

@[simp] theorem encodeAll_nil : encodeAll [] = [] := rfl

@[simp] theorem encodeAll_cons (f : Frame) (fs : List Frame) :
    encodeAll (f :: fs) = f.encode ++ encodeAll fs := by
  simp [encodeAll]

theorem length_take_lt (hi lo : UInt8) (rest : List UInt8) :
    (rest.take (beNat [hi, lo])).length < 65536 := by
  have h : beNat [hi, lo] < 65536 := by simpa using beNat_lt [hi, lo]
  rw [List.length_take]
  omega

/-- The reference reader: the frames that a buffer is the concatenation of. -/
def decode : List UInt8 → Option (List Frame)
  | [] => some []
  | id :: hi :: lo :: rest =>
    if beNat [hi, lo] ≤ rest.length then
      (decode (rest.drop (beNat [hi, lo]))).map
        (⟨id, rest.take (beNat [hi, lo]), length_take_lt hi lo rest⟩ :: ·)
    else none
  | _ => none
termination_by bs => bs.length
decreasing_by simp only [List.length_drop, List.length_cons]; omega

theorem decode_encode_append (f : Frame) (rest : List UInt8) :
    decode (f.encode ++ rest) = (decode rest).map (f :: ·) := by
  obtain ⟨hi, lo, hlen⟩ : ∃ hi lo, beBytes 2 f.content.length = [hi, lo] :=
    List.length_eq_two.mp (length_beBytes 2 f.content.length)
  have hn : beNat [hi, lo] = f.content.length := by rw [← hlen, f.beNat_length]
  have henc : f.encode ++ rest = f.id :: hi :: lo :: (f.content ++ rest) := by
    simp [Frame.encode, hlen]
  have hframe : (⟨f.id, (f.content ++ rest).take (beNat [hi, lo]),
      length_take_lt hi lo (f.content ++ rest)⟩ : Frame) = f := by
    obtain ⟨id, content, bound⟩ := f
    simp only [Frame.mk.injEq, true_and]
    rw [hn, List.take_left' rfl]
  rw [henc, decode, if_pos (by rw [hn]; simp), hframe, hn, List.drop_left' rfl]

theorem decode_encodeAll (frames : List Frame) : decode (encodeAll frames) = some frames := by
  induction frames with
  | nil => simp [decode]
  | cons f fs ih => rw [encodeAll_cons, decode_encode_append, ih, Option.map_some]

/-- What `decode` accepts is the concatenation of what it returns. -/
theorem encodeAll_of_decode {bs : List UInt8} {frames : List Frame}
    (h : decode bs = some frames) : encodeAll frames = bs := by
  induction bs using decode.induct generalizing frames with
  | case1 =>
      rw [decode, Option.some.injEq] at h
      subst h; rfl
  | case2 id hi lo rest hle ih =>
      rw [decode, if_pos hle] at h
      obtain ⟨fs, hfs, rfl⟩ := Option.map_eq_some_iff.mp h
      have hlen : (rest.take (beNat [hi, lo])).length = beNat [hi, lo] := by
        simp only [List.length_take]; omega
      have hfield : beBytes 2 (beNat [hi, lo]) = [hi, lo] := beBytes_beNat [hi, lo]
      have hrest : rest.take (beNat [hi, lo]) ++ encodeAll fs = rest := by
        rw [ih hfs, List.take_append_drop]
      simp only [encodeAll_cons, Frame.encode]
      rw [hlen, hfield]
      simpa using hrest
  | case3 id hi lo rest hlt =>
      rw [decode, if_neg hlt] at h
      cases h
  | case4 bs hnil hcons =>
      rw [decode] at h
      · cases h
      · exact hnil
      · exact hcons

/-- **The reference reader accepts exactly the concatenations of frames.** -/
theorem decode_eq_some_iff {bs : List UInt8} {frames : List Frame} :
    decode bs = some frames ↔ encodeAll frames = bs :=
  ⟨encodeAll_of_decode, fun h => h ▸ decode_encodeAll frames⟩

theorem encodeAll_inj {fs gs : List Frame} (h : encodeAll fs = encodeAll gs) : fs = gs := by
  have hf := decode_encodeAll fs
  rw [h, decode_encodeAll] at hf
  exact (Option.some.inj hf).symm

/-! ## Cut frames -/

/-- A frame that the end of the buffer cuts: in its header or in its content. -/
def Cut : List UInt8 → Prop
  | [] => False
  | _ :: hi :: lo :: rest => rest.length < beNat [hi, lo]
  | _ => True

theorem Cut.ne_nil {bs : List UInt8} (h : Cut bs) : bs ≠ [] := by
  rintro rfl
  exact h

/-- **Every buffer is a sequence of frames, with a cut one behind them or not.** -/
theorem exists_frames_or_cut (bs : List UInt8) :
    ∃ frames rest, encodeAll frames ++ rest = bs ∧ (rest = [] ∨ Cut rest) := by
  induction bs using decode.induct with
  | case1 => exact ⟨[], [], rfl, .inl rfl⟩
  | case2 id hi lo rest hle ih =>
      obtain ⟨frames, tail, htail, hcut⟩ := ih
      have hlen : (rest.take (beNat [hi, lo])).length = beNat [hi, lo] := by
        simp only [List.length_take]; omega
      have hfield : beBytes 2 (beNat [hi, lo]) = [hi, lo] := beBytes_beNat [hi, lo]
      refine ⟨⟨id, rest.take (beNat [hi, lo]), length_take_lt hi lo rest⟩ :: frames, tail, ?_, hcut⟩
      rw [encodeAll_cons, List.append_assoc, htail]
      simp only [Frame.encode]
      rw [hlen, hfield]
      simp
  | case3 id hi lo rest hlt => exact ⟨[], _, rfl, .inr (by simpa [Cut] using hlt)⟩
  | case4 bs hnil hcons =>
      refine ⟨[], bs, rfl, .inr ?_⟩
      match bs with
      | [] => exact hnil rfl
      | [_] | [_, _] => trivial
      | id :: hi :: lo :: rest => exact absurd rfl (hcons id hi lo rest)

theorem Cut.decode_eq_none {bs : List UInt8} (h : Cut bs) : decode bs = none := by
  match bs with
  | [] => exact absurd rfl h.ne_nil
  | [_] | [_, _] => rw [decode] <;> simp
  | id :: hi :: lo :: rest =>
      rw [Cut] at h
      rw [decode, if_neg (by omega)]

theorem decode_encodeAll_append (frames : List Frame) (rest : List UInt8) :
    decode (encodeAll frames ++ rest) = (decode rest).map (frames ++ ·) := by
  induction frames with
  | nil => simp
  | cons f fs ih =>
      rw [encodeAll_cons, List.append_assoc, decode_encode_append, ih, Option.map_map]
      rfl

/-- A buffer with a cut frame at its end is no sequence of frames. -/
theorem Cut.not_framed {rest : List UInt8} (h : Cut rest) (frames : List Frame) :
    ¬ ∃ gs, encodeAll gs = encodeAll frames ++ rest := by
  rintro ⟨gs, hgs⟩
  have hdecode := decode_encodeAll gs
  rw [hgs, decode_encodeAll_append, h.decode_eq_none] at hdecode
  exact absurd hdecode nofun

/-- The frame that the position of a cut one opens ends behind the buffer, unless it is the header
that does. -/
theorem Cut.short {mem : Memory} {pos : Nat} {bs : List UInt8} (h : Cut bs)
    (hblock : mem.block pos bs.length = bs) (hlen : 3 ≤ bs.length) :
    bs.length < (Frame.ofMemory mem pos).span := by
  match bs with
  | [] | [_] | [_, _] => simp at hlen
  | id :: hi :: lo :: rest =>
      rw [Cut] at h
      have hsplit : (id :: hi :: lo :: rest).length = 1 + (2 + rest.length) := by
        simp only [List.length_cons]; omega
      rw [hsplit, Memory.block_add, Memory.block_add, Memory.block_one,
        List.singleton_append, List.cons.injEq] at hblock
      have hrest : mem.block (pos + 1) 2 ++ mem.block (pos + 1 + 2) rest.length
          = [hi, lo] ++ rest := hblock.2
      have hfield : mem.block (pos + 1) 2 = [hi, lo] := (List.append_inj hrest (by simp)).1
      rw [Frame.span, Frame.length_ofMemory, Frame.lengthAt, hfield, hsplit]
      omega

end Tlv
