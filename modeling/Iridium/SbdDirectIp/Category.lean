import Iridium.SbdDirectIp.Walk

/-!
# What `messageCategory` computes

The scan steps from frame to frame by the declared lengths, and of each frame it uses the
identifier only: it is a fold of `nextCategory` over identifiers (`categoryLoop_step`). Every
identifier belongs to one category, `idCategory`, and the fold yields a category other than
`unknownMessage` exactly when there is an identifier and all of them belong to it
(`categoryOf_eq_iff`). So the scan of a sequence of frames depends on the set of its identifiers
only (`messageCategory_frames`).
-/

namespace Iridium.SbdDirectIp

open ByteOrder ReadM Tlv

namespace Codec

/-- The category an identifier belongs to. -/
def idCategory (id : UInt8) : EMessageCategory :=
  if isMoElem id then .moMessage
  else if isMtElem id then
    if isMtConfirm id then .mtConfirmMessage else .mtMessage
  else .unknownMessage

/-- The scan over a sequence of identifiers. -/
def categoryOf : EMessageCategory → List UInt8 → EMessageCategory
  | category, [] => category
  | category, id :: ids =>
    match nextCategory category id with
    | none => .unknownMessage
    | some category => categoryOf category ids

/-- One identifier either opens its own category, or keeps it, or spoils the scan. -/
theorem nextCategory_eq (category : EMessageCategory) (id : UInt8) :
    nextCategory category id =
      if idCategory id ≠ .unknownMessage
          ∧ (category = .unknownMessage ∨ category = idCategory id) then
        some (idCategory id)
      else none := by
  unfold nextCategory idCategory
  by_cases hmo : isMoElem id
  · cases category <;> simp [hmo]
  · by_cases hmt : isMtElem id
    · by_cases hconfirm : isMtConfirm id <;> cases category <;> simp [hmo, hmt, hconfirm]
    · simp [hmo, hmt]

/-- Once a category is found, the scan keeps it or gives up. -/
theorem categoryOf_found {category : EMessageCategory} (hne : category ≠ .unknownMessage)
    (ids : List UInt8) :
    categoryOf category ids =
      if ∀ id ∈ ids, idCategory id = category then category else .unknownMessage := by
  induction ids with
  | nil => simp [categoryOf]
  | cons id ids ih =>
      rw [categoryOf, nextCategory_eq]
      by_cases hid : idCategory id = category
      · rw [hid, if_pos ⟨hne, .inr rfl⟩]
        simp only [ih, List.forall_mem_cons, hid, true_and]
      · have hspoilt : ¬ (idCategory id ≠ .unknownMessage
            ∧ (category = .unknownMessage ∨ category = idCategory id)) := by
          rintro ⟨-, h | h⟩
          · exact hne h
          · exact hid h.symm
        rw [if_neg hspoilt]
        simp [hid]

/-- **A category is found exactly when every identifier belongs to it.** -/
theorem categoryOf_eq_iff {category : EMessageCategory} (hne : category ≠ .unknownMessage)
    (ids : List UInt8) :
    categoryOf .unknownMessage ids = category
      ↔ ids ≠ [] ∧ ∀ id ∈ ids, idCategory id = category := by
  cases ids with
  | nil => simpa [categoryOf] using hne.symm
  | cons id ids =>
      rw [categoryOf, nextCategory_eq]
      by_cases hknown : idCategory id = .unknownMessage
      · simp [hknown, hne.symm]
      · simp only [ne_eq, hknown, not_false_eq_true, true_or, and_self, ↓reduceIte,
          categoryOf_found hknown, reduceCtorEq, List.forall_mem_cons, true_and]
        constructor
        · intro h
          split at h
          · next hall => exact ⟨h, fun i hi => (hall i hi).trans h⟩
          · exact absurd h.symm hne
        · rintro ⟨rfl, hall⟩
          rw [if_pos hall]

/-! ## The scan of a memory -/

variable {mem : Memory} {size pos : Nat} {category : EMessageCategory}

/-- The length field leads to the end of its frame. -/
theorem behind_frame (mem : Memory) (pos : Nat) :
    pos + 1 + 2 + (htons (load16 (mem.block (pos + 1) 2))).toNat
      = pos + (Frame.ofMemory mem pos).span := by
  have hlen : (htons (load16 (mem.block (pos + 1) 2))).toNat = Frame.lengthAt mem pos := by
    rw [ntohs_block, toNat_be16_block]
    rfl
  rw [hlen, Frame.span, Frame.length_ofMemory]
  omega

/-- One turn: the identifier decides, and the declared length leads to the next frame. -/
theorem categoryLoop_step (hlt : pos < size) :
    (categoryLoop size pos category).result mem =
      match nextCategory category (mem pos) with
      | none => .unknownMessage
      | some next =>
        (categoryLoop size (pos + (Frame.ofMemory mem pos).span) next).result mem := by
  rw [categoryLoop, dif_pos hlt]
  cases hnext : nextCategory category (mem pos) with
  | none => simp [hnext]
  | some next => simp [hnext, behind_frame]

/-- What such a turn reads: the identifier and the length field. -/
theorem categoryLoop_log_step (hlt : pos < size) {next : EMessageCategory}
    (h : nextCategory category (mem pos) = some next) :
    (categoryLoop size pos category).log mem
      = ⟨pos, 1, true⟩ :: ⟨pos + 1, 2, false⟩ ::
        (categoryLoop size (pos + (Frame.ofMemory mem pos).span) next).log mem := by
  rw [categoryLoop, dif_pos hlt]
  simp [h, behind_frame]

theorem categoryLoop_stop (hle : size ≤ pos) :
    (categoryLoop size pos category).result mem = category := by
  rw [categoryLoop, dif_neg (by omega)]
  rfl

/-- Over frames that fill the buffer, the scan is the fold over their identifiers. -/
theorem categoryLoop_encodeAll (frames : List Frame)
    (hblock : mem.block pos (encodeAll frames).length = encodeAll frames)
    (hsize : size = pos + (encodeAll frames).length) :
    (categoryLoop size pos category).result mem = categoryOf category (frames.map Frame.id) := by
  -- the category found so far changes on the way, so it is general in the induction
  induction frames generalizing pos category with
  | nil => exact categoryLoop_stop (by simp [hsize])
  | cons f fs ih =>
      rw [encodeAll_cons, List.length_append, Frame.length_encode, Memory.block_add] at hblock
      rw [encodeAll_cons, List.length_append, Frame.length_encode] at hsize
      obtain ⟨hf, hfs⟩ := List.append_inj hblock (by simp)
      have hspan := f.three_le_span
      rw [categoryLoop_step (by omega), ← Frame.eq_ofMemory hf, (Frame.fields_of_block hf).1,
        List.map_cons, categoryOf]
      cases nextCategory category f.id with
      | none => rfl
      | some next => exact ih hfs (by omega)

theorem messageCategory_encodeAll (frames : List Frame) (past : Memory) :
    (messageCategory (encodeAll frames).length).result (Memory.ofBuffer (encodeAll frames) past)
      = categoryOf .unknownMessage (frames.map Frame.id) :=
  categoryLoop_encodeAll frames (Memory.block_ofBuffer_self _ past) (by simp)

/-- Once a category is found, the scan of any memory keeps it or gives up. -/
theorem categoryLoop_found (hne : category ≠ .unknownMessage) :
    (categoryLoop size pos category).result mem = category
      ∨ (categoryLoop size pos category).result mem = .unknownMessage := by
  induction hm : size - pos using Nat.strongRecOn generalizing pos with
  | ind m ih =>
    by_cases hlt : pos < size
    · have hspan := (Frame.ofMemory mem pos).three_le_span
      rw [categoryLoop_step hlt, nextCategory_eq]
      split
      · exact .inr rfl
      · next next hnext =>
          split at hnext
          · next hcond =>
              obtain ⟨-, h | h⟩ := hcond
              · -- nothing but the category found so far may follow
                exact absurd h hne
              · cases hnext
                rw [← h]
                exact ih _ (by omega) rfl
          · cases hnext
    · exact .inl (categoryLoop_stop (by omega))

/-- What a scan that ends with a category says of the identifier it stands at. -/
theorem categoryLoop_inv {found : EMessageCategory} (hne : found ≠ .unknownMessage)
    (hlt : pos < size) (h : (categoryLoop size pos category).result mem = found) :
    nextCategory category (mem pos) = some found ∧ idCategory (mem pos) = found
      ∧ (categoryLoop size (pos + (Frame.ofMemory mem pos).span) found).result mem = found := by
  rw [categoryLoop_step hlt] at h
  cases hnext : nextCategory category (mem pos) with
  | none =>
      rw [hnext] at h
      exact absurd h.symm hne
  | some next =>
      rw [hnext] at h
      rw [nextCategory_eq] at hnext
      split at hnext
      · next hcond =>
          cases hnext
          rcases @categoryLoop_found mem size (pos + (Frame.ofMemory mem pos).span) _ hcond.1
            with hkept | hlost
          · have hid : idCategory (mem pos) = found := hkept.symm.trans h
            rw [hid] at h
            exact ⟨congrArg some hid, hid, h⟩
          · exact absurd (h.symm.trans hlost) hne
      · cases hnext

/-! ## The scan of a sequence of frames -/

/-- The identifiers of a category. -/
def identifiers : EMessageCategory → List UInt8
  | .moMessage => [0x01, 0x02, 0x03, 0x04, 0x05]
  | .mtMessage => [0x41, 0x42, 0x43, 0x46]
  | .mtConfirmMessage => [0x44]
  | .unknownMessage => []

theorem idCategory_eq_iff {category : EMessageCategory} (hne : category ≠ .unknownMessage)
    (id : UInt8) : idCategory id = category ↔ id ∈ identifiers category := by
  have hall : ∀ n : Fin 256, idCategory (UInt8.ofFin n) = category
      ↔ UInt8.ofFin n ∈ identifiers category := by
    cases category with
    | unknownMessage => exact absurd rfl hne
    | moMessage | mtMessage | mtConfirmMessage => decide +kernel
  exact hall id.toFin

/-- There is a frame, and all of them have one of these identifiers. -/
def AllAmong (ids : List UInt8) (frames : List Frame) : Prop :=
  frames ≠ [] ∧ ∀ f ∈ frames, f.id ∈ ids

/-- The category of the frames one after the other. -/
def categoryOfFrames (frames : List Frame) (past : Memory) : EMessageCategory :=
  (messageCategory (encodeAll frames).length).result (Memory.ofBuffer (encodeAll frames) past)

theorem categoryOfFrames_eq_iff {category : EMessageCategory} (hne : category ≠ .unknownMessage)
    (frames : List Frame) (past : Memory) :
    categoryOfFrames frames past = category ↔ AllAmong (identifiers category) frames := by
  rw [categoryOfFrames, messageCategory_encodeAll, categoryOf_eq_iff hne, AllAmong]
  simp only [ne_eq, List.map_eq_nil_iff, List.forall_mem_map, idCategory_eq_iff hne]

/-- Only the set of the identifiers matters. -/
theorem allAmong_congr {frames frames' : List Frame}
    (h : ∀ id, (∃ f ∈ frames, f.id = id) ↔ ∃ f ∈ frames', f.id = id) (ids : List UInt8) :
    AllAmong ids frames' ↔ AllAmong ids frames := by
  have hhalf : ∀ fs gs : List Frame, (∀ id, (∃ f ∈ fs, f.id = id) ↔ ∃ f ∈ gs, f.id = id) →
      AllAmong ids gs → AllAmong ids fs := by
    rintro fs gs hids ⟨hne, hall⟩
    obtain ⟨g, hg⟩ := List.exists_mem_of_ne_nil gs hne
    obtain ⟨f, hf, -⟩ := (hids g.id).mpr ⟨g, hg, rfl⟩
    refine ⟨List.ne_nil_of_mem hf, ?_⟩
    intro f' hf'
    obtain ⟨g', hg', heq⟩ := (hids f'.id).mp ⟨f', hf', rfl⟩
    rw [← heq]
    exact hall g' hg'
  exact ⟨hhalf frames frames' h, hhalf frames' frames fun id => (h id).symm⟩

/-- **Classification.** The category of a sequence of frames is the one whose identifiers all of
them have; there is none for the empty sequence and for a mixture. So it depends on the set of the
identifiers only. -/
theorem messageCategory_frames (frames : List Frame) (past : Memory) :
    (categoryOfFrames frames past = .moMessage
        ↔ AllAmong [0x01, 0x02, 0x03, 0x04, 0x05] frames)
      ∧ (categoryOfFrames frames past = .mtMessage ↔ AllAmong [0x41, 0x42, 0x43, 0x46] frames)
      ∧ (categoryOfFrames frames past = .mtConfirmMessage ↔ AllAmong [0x44] frames)
      ∧ (categoryOfFrames frames past = .unknownMessage
        ↔ ¬ (AllAmong [0x01, 0x02, 0x03, 0x04, 0x05] frames
          ∨ AllAmong [0x41, 0x42, 0x43, 0x46] frames ∨ AllAmong [0x44] frames))
      ∧ ∀ frames' past', (∀ id, (∃ f ∈ frames, f.id = id) ↔ ∃ f ∈ frames', f.id = id) →
        categoryOfFrames frames' past' = categoryOfFrames frames past := by
  have hmo := @categoryOfFrames_eq_iff .moMessage (by decide) frames past
  have hmt := @categoryOfFrames_eq_iff .mtMessage (by decide) frames past
  have hconfirm := @categoryOfFrames_eq_iff .mtConfirmMessage (by decide) frames past
  refine ⟨hmo, hmt, hconfirm, ?_, ?_⟩
  · have hrest : categoryOfFrames frames past = .unknownMessage
        ↔ ¬ (categoryOfFrames frames past = .moMessage ∨ categoryOfFrames frames past = .mtMessage
          ∨ categoryOfFrames frames past = .mtConfirmMessage) := by
      cases categoryOfFrames frames past <;> simp
    rw [hrest, hmo, hmt, hconfirm]
    rfl
  · intro frames' past' hids
    have hsame : ∀ c : EMessageCategory, c ≠ .unknownMessage →
        (categoryOfFrames frames' past' = c ↔ categoryOfFrames frames past = c) := by
      intro c hc
      rw [categoryOfFrames_eq_iff hc, categoryOfFrames_eq_iff hc]
      exact allAmong_congr hids _
    by_cases hunknown : categoryOfFrames frames past = .unknownMessage
    · by_contra hother
      have hne : categoryOfFrames frames' past' ≠ .unknownMessage :=
        fun h => hother (h.trans hunknown.symm)
      exact hne (((hsame _ hne).mp rfl).symm.trans hunknown)
    · exact (hsame _ hunknown).mpr rfl

end Codec

end Iridium.SbdDirectIp
