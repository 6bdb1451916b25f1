import Iridium.SbdDirectIp.RoundTrip
import Iridium.SbdDirectIp.Encoder

/-!
# The two classes that do not go through unchanged

`IEMtHeader` swaps the word of the disposition flags when it packs and copies it as it is when it
unpacks, so the six flag bits come back among the reserved ones (`ofRaw_swapped`): a header
survives exactly without flags (`mtHeader_restored_iff`).

`IEMoLocationInfo` packs three bytes more than it declares, and swaps the radius as a 16-bit number
(`packedBytes_location`): no location is encoded as the format wants it
(`location_never_consistent`).
-/

namespace Iridium.SbdDirectIp

open ByteOrder ReadM InformationElement

/-! ## Headers of mobile terminated messages -/

/-- Big-endian bytes loaded as they are. -/
theorem toNat_load16_beBytes {w : Nat} (h : w < 256) :
    (load16 (beBytes 2 w)).toNat = w <<< 8 := by
  have hlow : w % 256 = w := Nat.mod_eq_of_lt h
  have hhigh : w / 256 = 0 := Nat.div_eq_of_lt h
  have hload : leNat (beBytes 2 w) = 256 * w := by
    simp [beBytes, leBytes, leNat, hlow, hhigh]
  rw [load16, hload, UInt16.toNat_ofNat_of_lt' (by show _ < 65536; omega), Nat.shiftLeft_eq]
  omega

/-- **The flags come back among the reserved bits.** -/
theorem ofRaw_swapped (flags : MtMessageFlags) :
    MtMessageFlags.ofRaw (load16 (beBytes 2 (flagWord flags)))
      = { reserved := Fin.ofNat 1024 (4 * flagWord flags) } := by
  have hlt := flagWord_lt flags
  have hword := toNat_load16_beBytes (show flagWord flags < 256 by omega)
  have hreserved : flagWord flags <<< 8 >>> 6 = 4 * flagWord flags := by
    rw [Nat.shiftLeft_eq, Nat.shiftRight_eq_div_pow]
    omega
  unfold MtMessageFlags.ofRaw
  rw [hword, hreserved]
  simp [Nat.testBit_shiftLeft]

/-- None of the five flags is set. -/
def MtMessageFlags.Clear (flags : MtMessageFlags) : Prop :=
  flags.flushMtQueue = false ∧ flags.sendRingAlert = false ∧ flags.updateSsdLocation = false
    ∧ flags.highPriority = false ∧ flags.assignMtmsh = false

instance (flags : MtMessageFlags) : Decidable flags.Clear :=
  inferInstanceAs (Decidable (_ ∧ _))

/-- The two agree in each of the five flags. -/
def MtMessageFlags.SameFlags (flags flags' : MtMessageFlags) : Prop :=
  flags.flushMtQueue = flags'.flushMtQueue ∧ flags.sendRingAlert = flags'.sendRingAlert
    ∧ flags.updateSsdLocation = flags'.updateSsdLocation
    ∧ flags.highPriority = flags'.highPriority ∧ flags.assignMtmsh = flags'.assignMtmsh

theorem flagWord_clear {flags : MtMessageFlags} (h : flags.Clear) : flagWord flags = 0 := by
  obtain ⟨h0, h1, h3, h4, h5⟩ := h
  simp [flagWord, h0, h1, h3, h4, h5]

/-- The content bytes of a header. -/
def mtHeaderContent (e : IEMtHeader) : List UInt8 :=
  beBytes 4 e.content.uniqueClientMsgId.toNat ++ e.content.imei.chars
    ++ beBytes 2 (flagWord e.content.dispositionFlags)

theorem length_mtHeaderContent (e : IEMtHeader) : (mtHeaderContent e).length = 21 := by
  simp [mtHeaderContent, e.content.imei.length_chars]

theorem packedBytes_mtHeader (e : IEMtHeader) :
    packedBytes (.mtHeader e) = ElementId.mtHeader.value :: (beBytes 2 21 ++ mtHeaderContent e) := by
  simp [packedBytes, packInto, IEMtHeader.packInto, basePackInto, bytes16_htons, bytes32_htonl,
    toNat_get, mtHeaderContent, IEMtHeader.elementLength]

/-- What `unpack` makes of it. -/
def swappedHeader (e : IEMtHeader) : IEMtHeader where
  length := 21
  content := {
    uniqueClientMsgId := e.content.uniqueClientMsgId
    imei := IMEI.ofChars e.content.imei.chars
    dispositionFlags := {
      reserved := ⟨4 * flagWord e.content.dispositionFlags % 1024, Nat.mod_lt _ (by decide)⟩ } }

theorem decode_mtHeaderContent (e : IEMtHeader) :
    decodeContent .mtHeader 21 (mtHeaderContent e) = .mtHeader (swappedHeader e) := by
  have hlen := e.content.imei.length_chars
  simp (disch := simp [hlen]) only [decodeContent, mtHeaderContent, slice_append_left,
    slice_append_end, slice_all, be32_beBytes, ofRaw_swapped]
  rfl

/-- `unpack` of a packed header, in any surroundings. -/
theorem unpack_mtHeader (e self : IEMtHeader) (raw : List UInt8) (following : Memory)
    {size : UInt16} (hsize : 23 ≤ size.toNat) :
    ((InformationElement.mtHeader self).unpack (raw.length + 1) size).result
        (Memory.ofBuffer ((InformationElement.mtHeader e).packInto raw).2 following)
      = (.mtHeader (swappedHeader e), 23) := by
  have hlen := length_mtHeaderContent e
  obtain ⟨hdeclared, hblock⟩ := block_packed raw (mtHeaderContent e) ElementId.mtHeader.value
    (show 21 < 65536 by omega) following
  rw [hlen] at hblock
  rw [packInto_eq, packedBytes_mtHeader]
  have hacc : ElementId.mtHeader.Accepts
      (declared (Memory.ofBuffer (raw ++ ElementId.mtHeader.value
        :: (beBytes 2 21 ++ mtHeaderContent e)) following) (raw.length + 1)) size.toNat :=
    ElementId.accepts_fixed rfl rfl rfl ⟨hdeclared, hsize⟩
  have hread := (@unpack_accepts (.mtHeader self) .mtHeader rfl _ _ _ hacc).result
  rw [hdeclared] at hread
  rw [hread]
  show (decodeContent .mtHeader 21 (Memory.block _ (raw.length + 1 + 2) 21), _) = _
  rw [hblock, decode_mtHeaderContent]
  rfl

/-- `unpack` restores the header that was packed, and it packs to the same bytes again. -/
def MtHeaderRestored (e self : IEMtHeader) (raw : List UInt8) (following : Memory)
    (size : UInt16) : Prop :=
  let packed := ((InformationElement.mtHeader e).packInto raw).2
  ∃ d : IEMtHeader,
    ((InformationElement.mtHeader self).unpack (raw.length + 1) size).result
        (Memory.ofBuffer packed following) = (.mtHeader d, 23)
      ∧ d.content.uniqueClientMsgId = e.content.uniqueClientMsgId
      ∧ d.content.imei.chars = e.content.imei.chars
      ∧ d.content.dispositionFlags.SameFlags e.content.dispositionFlags
      ∧ ((InformationElement.mtHeader d).packInto raw).2 = packed

/-- **A header comes back exactly when none of its flags is set.** -/
theorem mtHeader_restored_iff (e self : IEMtHeader) (raw : List UInt8) (following : Memory)
    (size : UInt16) (hsize : 23 ≤ size.toNat) :
    MtHeaderRestored e self raw following size ↔ e.content.dispositionFlags.Clear := by
  have hresult := unpack_mtHeader e self raw following hsize
  constructor
  · rintro ⟨d, hd, -, -, ⟨h0, h1, h3, h4, h5⟩, -⟩
    obtain rfl : swappedHeader e = d :=
      InformationElement.mtHeader.inj (congrArg Prod.fst (hresult.symm.trans hd))
    exact ⟨h0.symm, h1.symm, h3.symm, h4.symm, h5.symm⟩
  · intro hclear
    refine ⟨swappedHeader e, hresult, rfl, IMEI.chars_ofChars e.content.imei.length_chars, ?_, ?_⟩
    · obtain ⟨h0, h1, h3, h4, h5⟩ := hclear
      exact ⟨h0.symm, h1.symm, h3.symm, h4.symm, h5.symm⟩
    · have hcontent : mtHeaderContent (swappedHeader e) = mtHeaderContent e := by
        have hswapped : flagWord (swappedHeader e).content.dispositionFlags = 0 := rfl
        have hword := flagWord_clear hclear
        have hchars : (swappedHeader e).content.imei.chars = e.content.imei.chars :=
          IMEI.chars_ofChars e.content.imei.length_chars
        rw [mtHeaderContent, mtHeaderContent, hswapped, hword, hchars]
        rfl
      rw [packInto_eq, packInto_eq, packedBytes_mtHeader, packedBytes_mtHeader, hcontent]

/-- Without flags it does. -/
theorem mtHeader_restored_sample :
    MtHeaderRestored { content := { uniqueClientMsgId := 7 } } { content := {} } [] (fun _ => 0)
      23 :=
  (mtHeader_restored_iff _ _ _ _ _ (by decide)).mpr (by decide)

/-- A ring alert does not survive. -/
theorem mtHeader_lost_sample :
    ¬ MtHeaderRestored { content := { dispositionFlags := { sendRingAlert := true } } }
      { content := {} } [] (fun _ => 0) 23 := by
  rintro ⟨d, hd, -, -, ⟨-, hring, -⟩, -⟩
  have hresult := unpack_mtHeader { content := { dispositionFlags := { sendRingAlert := true } } }
    { content := {} } [] (fun _ => 0) (show 23 ≤ UInt16.toNat 23 by decide)
  obtain rfl := InformationElement.mtHeader.inj (congrArg Prod.fst (hresult.symm.trans hd))
  exact absurd hring (by decide)

/-! ## Locations -/

/-- The content bytes of a location: the flags as wide as an `unsigned int`, and the radius cut to
its low 16 bits, big-endian, with two zero bytes behind. -/
def locationContent (e : IEMoLocationInfo) : List UInt8 :=
  bytes32 e.content.flags ++ [e.content.latitude] ++ beBytes 2 e.content.latitudeMinutes.toNat
    ++ [e.content.longitude] ++ beBytes 2 e.content.longitudeMinutes.toNat
    ++ (beBytes 2 (e.content.cepRadius.toNat % 65536) ++ [0, 0])

theorem length_locationContent (e : IEMoLocationInfo) : (locationContent e).length = 14 := by
  simp [locationContent]

theorem bytes32_htons (x : UInt16) : bytes32 (htons x).toUInt32 = beBytes 2 x.toNat ++ [0, 0] := by
  have hlt := (htons x).toNat_lt
  have hhigh : (htons x).toNat / 256 / 256 = 0 := by omega
  rw [← bytes16_htons]
  simp [bytes32, bytes16, leBytes, hhigh]

/-- **A location packs to three bytes more than it declares.** -/
theorem packedBytes_location (e : IEMoLocationInfo) :
    packedBytes (.moLocationInfo e)
      = ElementId.moLocationInfo.value :: (beBytes 2 11 ++ locationContent e) := by
  have hradius : e.content.cepRadius.toUInt16.toNat = e.content.cepRadius.toNat % 65536 := rfl
  simp [packedBytes, packInto, IEMoLocationInfo.packInto, basePackInto, bytes16_htons,
    bytes32_htons, locationContent, IEMoLocationInfo.elementLength, hradius]

theorem be32_radius (x : UInt32) :
    be32 (beBytes 2 (x.toNat % 65536) ++ [0, 0]) = UInt32.ofNat (x.toNat % 65536 * 65536) := by
  have hlow : beNat (beBytes 2 (x.toNat % 65536) ++ [0, 0]) = x.toNat % 65536 * 65536 := by
    simp [beNat, beBytes, leBytes, leNat]
    omega
  rw [be32, hlow]

/-- `unpack` of a packed location, in any surroundings: everything but the radius comes back. -/
theorem unpack_location (e self : IEMoLocationInfo) (raw : List UInt8) (following : Memory)
    {size : UInt16} (hsize : 13 ≤ size.toNat) :
    ((InformationElement.moLocationInfo self).unpack (raw.length + 1) size).result
        (Memory.ofBuffer ((InformationElement.moLocationInfo e).packInto raw).2 following)
      = (.moLocationInfo { length := 11, content := { e.content with
          cepRadius := UInt32.ofNat (e.content.cepRadius.toNat % 65536 * 65536) } }, 16) := by
  have hlen := length_locationContent e
  obtain ⟨hdeclared, hblock⟩ := block_packed raw (locationContent e)
    ElementId.moLocationInfo.value (show 11 < 65536 by omega) following
  rw [hlen] at hblock
  rw [packInto_eq, packedBytes_location]
  have hacc : ElementId.moLocationInfo.Accepts
      (declared (Memory.ofBuffer (raw ++ ElementId.moLocationInfo.value
        :: (beBytes 2 11 ++ locationContent e)) following) (raw.length + 1)) size.toNat :=
    ElementId.accepts_fixed rfl rfl rfl ⟨hdeclared, hsize⟩
  have hread := (@unpack_accepts (.moLocationInfo self) .moLocationInfo rfl _ _ _ hacc).result
  rw [hdeclared] at hread
  rw [hread]
  show (decodeContent .moLocationInfo 11 (Memory.block _ (raw.length + 1 + 2) 14), _) = _
  have hlatitude : (locationContent e).getD 4 0 = e.content.latitude := by
    simp [locationContent]
  have hlongitude : (locationContent e).getD 7 0 = e.content.longitude := by
    simp [locationContent]
  rw [hblock, decodeContent, hlatitude, hlongitude, locationContent]
  simp (disch := simp) only [slice_append_left, slice_append_end, slice_all, load32_bytes32,
    be16_beBytes, be32_radius]
  rfl

theorem length_packInto_location (e : IEMoLocationInfo) (raw : List UInt8) :
    ((InformationElement.moLocationInfo e).packInto raw).2.length = raw.length + 17 := by
  rw [packInto_eq, packedBytes_location]
  simp [length_locationContent]

/-- The encoding of a location that the format wants: 11 content bytes, the radius big-endian in
the last four, and an `unpack` that restores the element from them. -/
def LocationConsistent (e : IEMoLocationInfo) (raw : List UInt8) (following : Memory) : Prop :=
  let packed := ((InformationElement.moLocationInfo e).packInto raw).2
  ∃ content : List UInt8, content.length = 11
    ∧ packed = raw ++ ElementId.moLocationInfo.value :: (beBytes 2 11 ++ content)
    ∧ slice content 7 4 = beBytes 4 e.content.cepRadius.toNat
    ∧ ∀ (self : IEMoLocationInfo) (size : UInt16), 13 ≤ size.toNat →
      ((InformationElement.moLocationInfo self).unpack (raw.length + 1) size).result
          (Memory.ofBuffer packed following)
        = (.moLocationInfo { length := 11, content := e.content }, 13)

/-- **No location is encoded in that way.** -/
theorem location_never_consistent (e : IEMoLocationInfo) (raw : List UInt8)
    (following : Memory) : ¬ LocationConsistent e raw following := by
  rintro ⟨content, hlen, hpacked, -, -⟩
  have hlength := congrArg List.length hpacked
  rw [length_packInto_location] at hlength
  simp [hlen] at hlength

theorem location_oversized_sample :
    ¬ LocationConsistent { content := { latitude := 45, cepRadius := 5 } } [] fun _ => 0 := by
  rintro ⟨content, hlen, hpacked, -, -⟩
  have hlength := congrArg List.length hpacked
  rw [length_packInto_location] at hlength
  simp [hlen] at hlength

end Iridium.SbdDirectIp
