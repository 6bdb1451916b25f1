import Iridium.SbdDirectIp.Category
import Iridium.SessionSegmentation

/-!
# One header per connection

A message length of zero also stands for "no header yet". So a session whose header declares zero
bytes looks for a header again, in the bytes behind the first one, as soon as another read brings
enough of them. `headerOffsets` records where in its stream a session decodes a header;
`oneHeader_iff` says when that is its first three bytes, once.
-/

namespace Iridium

open ByteOrder SbdDirectIp

namespace IncomingSbdSession

variable (past : List UInt8 → Memory) (here : Nat)

/-- The offset in the stream at which a read makes the session decode a header, if it does: the
session holds the last bytes of the `total` received before. -/
def headerOffset (total : Nat) (self : IncomingSbdSession) (read : ReadOutcome) : List Nat :=
  match read.result with
  | .error _ => []
  | .ok bytes =>
    if MessageHeader.size ≤ (self.inBuf ++ bytes).length ∧ self.messageLength = 0 then
      [total - self.inBuf.length]
    else []

/-- How many bytes have been received with a read. -/
def totalAfter (total : Nat) (read : ReadOutcome) : Nat :=
  match read.result with
  | .error _ => total
  | .ok bytes => total + bytes.length

/-- Where a session decodes a header, over the outcomes of its reads. -/
def headerOffsets : Nat → IncomingSbdSession → List ReadOutcome → List Nat
  | _, _, [] => []
  | total, self, read :: reads =>
    headerOffset total self read ++
      match (onRead past here self read).1 with
      | none => []
      | some next => headerOffsets (totalAfter total read) next reads

/-! ## A session that has its header -/

theorem takeMessage_some {expired : Bool} {self next : IncomingSbdSession}
    (h : (takeMessage past here expired self).1 = some next) : next = self := by
  unfold takeMessage at h
  split at h
  · exact (Option.some.inj h).symm
  · dsimp only at h
    split at h
    · cases h
    · split at h
      · cases h
      · cases h

theorem onRead_known {self next : IncomingSbdSession} {read : ReadOutcome}
    (hknown : self.messageLength ≠ 0) (h : (onRead past here self read).1 = some next) :
    next.messageLength = self.messageLength := by
  unfold onRead at h
  split at h
  · cases h
  · dsimp only at h
    rw [if_neg (fun hcond => hknown hcond.2)] at h
    rw [takeMessage_some past here h]

/-- With a length that is not zero, it decodes no other one. -/
theorem headerOffsets_known {self : IncomingSbdSession} (hknown : self.messageLength ≠ 0)
    (total : Nat) (reads : List ReadOutcome) :
    headerOffsets past here total self reads = [] := by
  induction reads generalizing total self with
  | nil => rfl
  | cons read reads ih =>
      have hnone : headerOffset total self read = [] := by
        unfold headerOffset
        split
        · rfl
        · rw [if_neg fun hcond => hknown hcond.2]
      rw [headerOffsets, hnone, List.nil_append]
      cases hread : (onRead past here self read).1 with
      | none => rfl
      | some next =>
          have hnext := onRead_known past here hknown hread
          exact ih (hnext ▸ hknown) _

/-! ## A session that waits for a header -/

theorem headerOffset_short {b c : List UInt8} (hshort : (b ++ c).length < 3) (total : Nat) :
    headerOffset total { inBuf := b } ⟨false, .ok c⟩ = [] := by
  unfold headerOffset
  dsimp only
  rw [if_neg fun hcond => absurd hcond.1 (by simpa [MessageHeader.size] using hshort)]

theorem headerOffset_decodes {b c : List UInt8} (hlen : 3 ≤ (b ++ c).length) (total : Nat) :
    headerOffset total { inBuf := b } ⟨false, .ok c⟩ = [total - b.length] := by
  unfold headerOffset
  dsimp only
  rw [if_pos ⟨hlen, rfl⟩]

/-- Reads that do not complete a header add to the buffer. -/
theorem run_short (pre : List (List UInt8)) (reads : List ReadOutcome) (total : Nat)
    {b : List UInt8} (hshort : (b ++ pre.flatten).length < 3) :
    run past here { inBuf := b } (pre.map (fun c => ⟨false, .ok c⟩) ++ reads)
        = run past here { inBuf := b ++ pre.flatten } reads
      ∧ headerOffsets past here total { inBuf := b }
          (pre.map (fun c => ⟨false, .ok c⟩) ++ reads)
        = headerOffsets past here (total + pre.flatten.length) { inBuf := b ++ pre.flatten }
          reads := by
  induction pre generalizing b total with
  | nil => simp
  | cons c cs ih =>
      rw [List.flatten_cons, ← List.append_assoc] at hshort ⊢
      have hfirst : (b ++ c).length < 3 := by
        rw [List.length_append] at hshort
        omega
      obtain ⟨hrun, hoffsets⟩ := ih (total + c.length) hshort
      rw [List.map_cons, List.cons_append]
      constructor
      · rw [run, onRead_short past here hfirst]
        exact hrun
      · rw [headerOffsets, onRead_short past here hfirst, headerOffset_short hfirst,
          List.nil_append, List.length_append, ← Nat.add_assoc]
        exact hoffsets

theorem streamReads_append (eof : String) (pre post : List (List UInt8)) :
    streamReads eof (pre ++ post)
      = pre.map (fun c => ⟨false, .ok c⟩) ++ streamReads eof post := by
  simp [streamReads]

/-- A stream that ends before a header does. -/
theorem ends_short (eof : String) (chunks : List (List UInt8)) (total : Nat) {b : List UInt8}
    (hshort : (b ++ chunks.flatten).length < 3) :
    run past here { inBuf := b } (streamReads eof chunks) = [.onError eof]
      ∧ headerOffsets past here total { inBuf := b } (streamReads eof chunks) = [] :=
  run_short past here chunks [⟨false, .error eof⟩] total hshort

/-- With enough bytes and another read, it decodes a header. -/
theorem headerOffsets_ne_nil (eof : String) {chunks : List (List UInt8)} (hne : chunks ≠ [])
    (total : Nat) {b : List UInt8} (hlen : 3 ≤ (b ++ chunks.flatten).length) :
    headerOffsets past here total { inBuf := b } (streamReads eof chunks) ≠ [] := by
  induction chunks generalizing b total with
  | nil => exact absurd rfl hne
  | cons c cs ih =>
      rw [List.flatten_cons, ← List.append_assoc] at hlen
      rw [streamReads, List.map_cons, List.cons_append, headerOffsets]
      -- it is decoded with this read, or with a later one
      by_cases hfirst : 3 ≤ (b ++ c).length
      · rw [headerOffset_decodes hfirst]
        exact List.cons_ne_nil _ _
      · rw [onRead_short past here (by omega)]
        have hcs : cs ≠ [] := by
          rintro rfl
          rw [List.flatten_nil, List.append_nil] at hlen
          exact hfirst hlen
        intro hnil
        exact ih hcs _ hlen (List.append_eq_nil_iff.mp hnil).2

/-- The read that completes the header of a stream. -/
theorem exists_completing {chunks : List (List UInt8)} (hlen : 3 ≤ chunks.flatten.length) :
    ∃ pre c post, chunks = pre ++ c :: post ∧ pre.flatten.length < 3
      ∧ 3 ≤ (pre.flatten ++ c).length := by
  suffices hsplit : ∀ (chunks : List (List UInt8)) (n : Nat), 0 < n → n ≤ chunks.flatten.length →
      ∃ pre c post, chunks = pre ++ c :: post ∧ pre.flatten.length < n
        ∧ n ≤ (pre.flatten ++ c).length by
    exact hsplit chunks 3 (by omega) hlen
  -- general in the number of bytes, which shrinks from chunk to chunk
  intro chunks
  induction chunks with
  | nil =>
      intro n hpos hle
      rw [List.flatten_nil, List.length_nil] at hle
      omega
  | cons c cs ih =>
      intro n hpos hle
      rw [List.flatten_cons, List.length_append] at hle
      by_cases hc : n ≤ c.length
      · exact ⟨[], c, cs, rfl, hpos, hc⟩
      · obtain ⟨pre, d, post, rfl, hpre, hd⟩ := ih (n - c.length) (by omega) (by omega)
        refine ⟨c :: pre, d, post, rfl, ?_, ?_⟩
        · rw [List.flatten_cons, List.length_append]
          omega
        · rw [List.flatten_cons, List.append_assoc, List.length_append]
          omega

/-! ## Whole sessions -/

/-- Nothing is no message. -/
theorem judge_nil : ∃ what, judge past here [] = .onError what := by
  have hcategory : (Codec.messageCategory ([] : List UInt8).length).result
      (Memory.ofBuffer [] (past [])) = .unknownMessage := by
    rw [Codec.messageCategory, List.length_nil]
    exact Codec.categoryLoop_stop (Nat.le_refl 0)
  unfold judge
  dsimp only
  rw [hcategory]
  exact ⟨_, rfl⟩

/-- A stream whose first header is a good one and declares no bytes, with enough bytes behind it
for another header and another read after the one that completes it. -/
def Redecoded (s : List UInt8) (chunks : List (List UInt8)) : Prop :=
  s.headD 0 = 1 ∧ lengthField s = 0 ∧ 6 ≤ s.length ∧ 3 ≤ chunks.dropLast.flatten.length

instance (s : List UInt8) (chunks : List (List UInt8)) : Decidable (Redecoded s chunks) :=
  inferInstanceAs (Decidable (_ ∧ _))

section Completed

variable {eof : String} {pre post : List (List UInt8)} {c : List UInt8}

/-- What a session decodes and signals from the read on that completes its header. -/
theorem from_header (hpre : pre.flatten.length < 3) (hlen : 3 ≤ (pre.flatten ++ c).length) :
    let r := pre.flatten ++ c
    let reads := streamReads eof (pre ++ c :: post)
    (r.headD 0 ≠ 1 →
      headerOffsets past here 0 {} reads = [0] ∧ ∃ what, run past here {} reads = [.onError what])
    ∧ (r.headD 0 = 1 → lengthField r ≠ 0 → headerOffsets past here 0 {} reads = [0])
    ∧ (r.headD 0 = 1 → lengthField r = 0 →
      headerOffsets past here 0 {} reads = 0 :: headerOffsets past here r.length
          { inBuf := r.drop 3 } (streamReads eof post)
        ∧ run past here {} reads = run past here { inBuf := r.drop 3 } (streamReads eof post)) := by
  intro r reads
  have hreads : reads = pre.map (fun c => ⟨false, .ok c⟩)
      ++ (⟨false, .ok c⟩ :: streamReads eof post) := streamReads_append eof pre (c :: post)
  obtain ⟨hrun, hoffsets⟩ := run_short past here pre (⟨false, .ok c⟩ :: streamReads eof post) 0
    (b := []) (by simpa using hpre)
  rw [List.nil_append, ← hreads] at hrun hoffsets
  have hdecodes := headerOffset_decodes hlen (0 + pre.flatten.length)
  rw [Nat.zero_add, Nat.sub_self] at hdecodes
  rw [Nat.zero_add, headerOffsets, hdecodes, onRead_header past here hlen] at hoffsets
  rw [run, onRead_header past here hlen] at hrun
  refine ⟨?_, ?_, ?_⟩
  · intro hproto
    rw [if_pos hproto] at hrun hoffsets
    exact ⟨hoffsets, _, hrun⟩
  · intro hproto hne
    rw [if_neg (not_not_intro hproto)] at hoffsets
    rw [hoffsets]
    cases hnext : (takeMessage past here false (received r)).1 with
    | none => rfl
    | some next =>
        have hknown : next.messageLength ≠ 0 := by
          rw [takeMessage_some past here hnext, received_of_long hlen]
          exact be16_ne_zero hlen hne
        show [0] ++ headerOffsets past here _ next _ = [0]
        rw [headerOffsets_known past here hknown, List.append_nil]
  · intro hproto hzero
    have hreceived : received r = { inBuf := r.drop 3 } := by
      have hlength : be16 (slice r 1 2) = 0 := by
        apply UInt16.toNat_inj.mp
        rw [be16_lengthField hlen, hzero]
        rfl
      rw [received_of_long hlen, hlength]
    rw [if_neg (not_not_intro hproto)] at hrun hoffsets
    have htake : takeMessage past here false (received r) = (some (received r), []) :=
      takeMessage_reads_on past here (.inl (by rw [hreceived]))
    have htotal : totalAfter pre.flatten.length ⟨false, .ok c⟩ = r.length :=
      List.length_append.symm
    rw [htake, hreceived] at hrun hoffsets
    rw [htotal] at hoffsets
    exact ⟨hoffsets, hrun⟩

end Completed

/-- One header per connection: it is the first three bytes, and a message can only be made of the
bytes that it declares. None is when it declares none, and in any case whether there is one is a
matter of the stream and not of its segmentation. -/
structure OneHeader (eof : String) (s : List UInt8) (chunks : List (List UInt8)) : Prop where
  decoded : headerOffsets past here 0 {} (streamReads eof chunks) = []
    ∨ headerOffsets past here 0 {} (streamReads eof chunks) = [0]
  message : ∀ m, .onMessage m ∈ run past here {} (streamReads eof chunks)
    ↔ firstEvent past here eof s = .onMessage m
  zero : 3 ≤ s.length → lengthField s = 0 →
    ∀ m, .onMessage m ∉ run past here {} (streamReads eof chunks)

section Sessions

variable {past here} {eof : String} {s : List UInt8} {chunks : List (List UInt8)}

/-- A session that ends with an error, on a stream for which that is right. -/
theorem oneHeader_of_error {what what' : String}
    (hoffsets : headerOffsets past here 0 {} (streamReads eof chunks) = []
      ∨ headerOffsets past here 0 {} (streamReads eof chunks) = [0])
    (hrun : run past here {} (streamReads eof chunks) = [.onError what])
    (hfirst : firstEvent past here eof s = .onError what') :
    OneHeader past here eof s chunks := by
  refine ⟨hoffsets, ?_, ?_⟩
  · intro m
    rw [hrun, hfirst]
    simp
  · intro _ _ m
    rw [hrun]
    simp

/-- There is another read exactly when the header was complete before the last one. -/
theorem dropLast_completed {pre post : List (List UInt8)} {c : List UInt8}
    (hpre : pre.flatten.length < 3) (hlen : 3 ≤ (pre.flatten ++ c).length) :
    3 ≤ (pre ++ c :: post).dropLast.flatten.length ↔ post ≠ [] := by
  cases post with
  | nil =>
      rw [List.dropLast_concat]
      exact iff_of_false (by omega) (not_not_intro rfl)
  | cons d ds =>
      rw [List.dropLast_append_cons, List.dropLast_cons_cons]
      refine iff_of_true ?_ (List.cons_ne_nil d ds)
      rw [List.flatten_append, List.flatten_cons, ← List.append_assoc, List.length_append]
      omega

end Sessions

/-! ## From the read that completes the header -/

section Completed

variable {eof : String} {pre post : List (List UInt8)} {c : List UInt8}

/-- The header of the stream is the one that the read completes. -/
theorem completed_header (hlen : 3 ≤ (pre.flatten ++ c).length) :
    (pre ++ c :: post).flatten.headD 0 = (pre.flatten ++ c).headD 0
      ∧ lengthField (pre ++ c :: post).flatten = lengthField (pre.flatten ++ c) := by
  have hstream : (pre ++ c :: post).flatten = (pre.flatten ++ c) ++ post.flatten := by simp
  rw [hstream]
  exact ⟨headD_append hlen, lengthField_append hlen⟩

theorem completed_not_short (hlen : 3 ≤ (pre.flatten ++ c).length) :
    ¬ (pre ++ c :: post).flatten.length < 3 := by
  rw [List.length_append] at hlen
  simp only [List.flatten_append, List.flatten_cons, List.length_append]
  omega

theorem oneHeader_of_bad (hpre : pre.flatten.length < 3) (hlen : 3 ≤ (pre.flatten ++ c).length)
    (hproto : (pre.flatten ++ c).headD 0 ≠ 1) :
    OneHeader past here eof (pre ++ c :: post).flatten (pre ++ c :: post) := by
  obtain ⟨hhead, -⟩ := @completed_header pre post c hlen
  obtain ⟨hoffsets, what, hrun⟩ := (@from_header past here eof pre post c hpre hlen).1 hproto
  have hfirst : ∃ what', firstEvent past here eof (pre ++ c :: post).flatten = .onError what' := by
    rw [firstEvent, if_neg (completed_not_short hlen), hhead, if_pos hproto]
    exact ⟨_, rfl⟩
  obtain ⟨what', hfirst⟩ := hfirst
  exact oneHeader_of_error (.inr hoffsets) hrun hfirst

theorem oneHeader_of_nonzero (hpre : pre.flatten.length < 3)
    (hlen : 3 ≤ (pre.flatten ++ c).length) (hproto : (pre.flatten ++ c).headD 0 = 1)
    (hne : lengthField (pre.flatten ++ c) ≠ 0) :
    OneHeader past here eof (pre ++ c :: post).flatten (pre ++ c :: post) := by
  obtain ⟨-, hfield⟩ := @completed_header pre post c hlen
  have hoffsets := (@from_header past here eof pre post c hpre hlen).2.1 hproto hne
  have hnonzero : Nonzero (pre ++ c :: post).flatten := fun _ => hfield ▸ hne
  refine ⟨.inr hoffsets, ?_, ?_⟩
  · intro m
    rw [onMessage_mem_run, head?_run_of_stream past here eof hnonzero _ rfl, Option.some.injEq]
  · intro _ hzero
    exact absurd (hfield ▸ hzero) hne

/-- Behind a header that declares no bytes, the session goes on as if nothing had been received
before. -/
theorem oneHeader_iff_of_zero (hpre : pre.flatten.length < 3)
    (hlen : 3 ≤ (pre.flatten ++ c).length) (hproto : (pre.flatten ++ c).headD 0 = 1)
    (hzero : lengthField (pre.flatten ++ c) = 0) :
    OneHeader past here eof (pre ++ c :: post).flatten (pre ++ c :: post)
      ↔ ¬ (6 ≤ (pre ++ c :: post).flatten.length ∧ post ≠ []) := by
  obtain ⟨hhead, hfield⟩ := @completed_header pre post c hlen
  obtain ⟨hoffsets, hrun⟩ := (@from_header past here eof pre post c hpre hlen).2.2 hproto hzero
  have hrest : (pre ++ c :: post).flatten.length
      = 3 + ((pre.flatten ++ c).drop 3 ++ post.flatten).length := by
    have hstream : (pre ++ c :: post).flatten = (pre.flatten ++ c) ++ post.flatten := by simp
    rw [hstream, List.length_append, @List.length_append _ (List.drop _ _), List.length_drop]
    omega
  by_cases hmore : 6 ≤ (pre ++ c :: post).flatten.length ∧ post ≠ []
  · -- the session decodes another header
    refine iff_of_false ?_ (not_not_intro hmore)
    intro h
    have hagain := headerOffsets_ne_nil past here eof hmore.2 (pre.flatten ++ c).length
      (b := (pre.flatten ++ c).drop 3) (by omega)
    rcases h.decoded with hnone | hone
    · rw [hoffsets] at hnone
      exact absurd hnone (List.cons_ne_nil _ _)
    · rw [hoffsets, List.cons.injEq] at hone
      exact hagain hone.2
  · refine iff_of_true ?_ hmore
    -- there is not enough behind the header, or no read to look at it
    have hends : run past here { inBuf := (pre.flatten ++ c).drop 3 } (streamReads eof post)
          = [.onError eof]
        ∧ headerOffsets past here (pre.flatten ++ c).length
            { inBuf := (pre.flatten ++ c).drop 3 } (streamReads eof post) = [] := by
      by_cases hlast : post = []
      · subst hlast
        exact ⟨rfl, rfl⟩
      · have hlong : ¬ 6 ≤ (pre ++ c :: post).flatten.length := fun h => hmore ⟨h, hlast⟩
        exact ends_short past here eof post _ (by omega)
    obtain ⟨what, hnil⟩ := judge_nil past here
    have hfirst : firstEvent past here eof (pre ++ c :: post).flatten = .onError what := by
      rw [firstEvent, if_neg (completed_not_short hlen), hhead, if_neg (not_not_intro hproto),
        hfield, hzero, if_neg (by omega)]
      exact hnil
    refine oneHeader_of_error (.inr ?_) (hrun.trans hends.1) hfirst
    rw [hoffsets, hends.2]

end Completed

/-- **A connection has one header, in whatever pieces its stream arrives, exactly when the session
does not get to decode another one behind a header that declares no bytes.** -/
theorem oneHeader_iff (eof : String) (chunks : List (List UInt8)) :
    OneHeader past here eof chunks.flatten chunks ↔ ¬ Redecoded chunks.flatten chunks := by
  by_cases hshort : chunks.flatten.length < 3
  · obtain ⟨hrun, hoffsets⟩ := ends_short past here eof chunks 0 (b := []) hshort
    have hfirst : firstEvent past here eof chunks.flatten = .onError eof := by
      rw [firstEvent, if_pos hshort]
    refine iff_of_true (oneHeader_of_error (.inl hoffsets) hrun hfirst) ?_
    rintro ⟨-, -, hlong, -⟩
    omega
  · obtain ⟨pre, c, post, rfl, hpre, hlen⟩ := exists_completing (Nat.le_of_not_lt hshort)
    obtain ⟨hhead, hfield⟩ := @completed_header pre post c hlen
    rw [Redecoded, hhead, hfield, dropLast_completed hpre hlen]
    by_cases hproto : (pre.flatten ++ c).headD 0 = 1
    · by_cases hzero : lengthField (pre.flatten ++ c) = 0
      · rw [oneHeader_iff_of_zero past here hpre hlen hproto hzero]
        apply not_congr
        exact ⟨fun h => ⟨hproto, hzero, h⟩, fun h => h.2.2⟩
      · refine iff_of_true (oneHeader_of_nonzero past here hpre hlen hproto hzero) ?_
        rintro ⟨-, hnone, -⟩
        exact hzero hnone
    · refine iff_of_true (oneHeader_of_bad past here hpre hlen hproto) ?_
      rintro ⟨hone, -⟩
      exact hproto hone

/-- A header that declares no bytes, and a packet with a header and a payload behind it. -/
def sampleEmpty : List UInt8 := [1, 0, 0]

@[inherit_doc sampleEmpty]
def samplePacket : List UInt8 := [1, 0, 35, 1, 0, 28] ++ List.replicate 28 0x30 ++ [2, 0, 1, 7]

/-- In two reads the second header is decoded too, and a message is handed over; in one read it is
not. -/
theorem redecoded_sample :
    ¬ OneHeader (fun _ _ => 0) 0 "End of file" (sampleEmpty ++ samplePacket)
        [sampleEmpty, samplePacket]
      ∧ headerOffsets (fun _ _ => 0) 0 0 {}
          (streamReads "End of file" [sampleEmpty, samplePacket]) = [0, 3]
      ∧ (run (fun _ _ => 0) 0 {} (streamReads "End of file" [sampleEmpty, samplePacket])).any
          ReceiverEvent.isMessage = true
      ∧ (run (fun _ _ => 0) 0 {} (streamReads "End of file" [sampleEmpty ++ samplePacket])).any
          ReceiverEvent.isMessage = false := by
  have hoffsets : headerOffsets (fun _ _ => 0) 0 0 {}
      (streamReads "End of file" [sampleEmpty, samplePacket]) = [0, 3] := by decide +kernel
  refine ⟨?_, hoffsets, by decide +kernel, by decide +kernel⟩
  intro h
  rcases h.decoded with hnone | hone
  · exact absurd (hoffsets.symm.trans hnone) (by decide)
  · exact absurd (hoffsets.symm.trans hone) (by decide)

end IncomingSbdSession

end Iridium
