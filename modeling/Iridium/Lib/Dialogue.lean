import Iridium.Lib.Serial

/-!
# Following a script

A program that talks to a device over a port sends some messages in a fixed order, and stops early
when something goes wrong. `Follows m script done` says so: whatever the device does, what `m` sends
is the beginning of the script, and all of it when the result is `done`.

The rules take a program apart at its binds. A step that is done goes on to the rest of the script;
behind one that is not, nothing more is sent (`Follows.bind`).
-/

namespace Serial

variable {α β : Type}

/-- What is sent is the beginning of the script, and all of it when the result is one of `done`. -/
def Follows (m : SerialM α) (script : List (List UInt8)) (done : α → Prop) : Prop :=
  ∀ p : Port, ∃ out, (m.after p).sent = p.sent ++ out ∧ out <+: script
    ∧ (done (m.result p) → out = script)

/-- Nothing is sent, and the result is not one of `done`. -/
def Quits (m : SerialM α) (done : α → Prop) : Prop :=
  ∀ p : Port, (m.after p).sent = p.sent ∧ ¬ done (m.result p)

theorem quits_pure {done : α → Prop} {a : α} (h : ¬ done a) : Quits (pure a) done :=
  fun _ => ⟨rfl, h⟩

theorem Quits.follows {m : SerialM α} {done : α → Prop} (h : Quits m done)
    (script : List (List UInt8)) : Follows m script done := by
  intro p
  obtain ⟨hsent, hnot⟩ := h p
  exact ⟨[], by rw [hsent, List.append_nil], List.nil_prefix, fun hdone => absurd hdone hnot⟩

namespace Follows

variable {m : SerialM α} {f : α → SerialM β} {script rest : List (List UInt8)}
  {done : α → Prop} {done' : β → Prop}

theorem pure (a : α) (done : α → Prop) : Follows (Pure.pure a) [] done :=
  fun p => ⟨[], (List.append_nil p.sent).symm, List.nil_prefix, fun _ => rfl⟩

/-- The rule of consequence. -/
theorem mono {done₀ : α → Prop} (h : Follows m script done) (hdone : ∀ a, done₀ a → done a) :
    Follows m script done₀ := by
  intro p
  obtain ⟨out, hsent, hprefix, hall⟩ := h p
  exact ⟨out, hsent, hprefix, fun hd => hall (hdone _ hd)⟩

/-- **The rule for a bind**, where something is known of every result. -/
theorem bind_of {post : α → Prop} (hm : Follows m script done) (hpost : ∀ p, post (m.result p))
    (hgo : ∀ a, post a → done a → Follows (f a) rest done')
    (hstop : ∀ a, post a → ¬ done a → Quits (f a) done') :
    Follows (m >>= f) (script ++ rest) done' := by
  intro p
  obtain ⟨out, hsent, hprefix, hall⟩ := hm p
  by_cases hdone : done (m.result p)
  · obtain ⟨out', hsent', hprefix', hall'⟩ := hgo _ (hpost p) hdone (m.after p)
    refine ⟨out ++ out', ?_, ?_, ?_⟩
    · show ((f (m.result p)).after (m.after p)).sent = _
      rw [hsent', hsent, List.append_assoc]
    · rw [hall hdone]
      exact (List.prefix_append_right_inj script).mpr hprefix'
    · intro hd
      rw [hall hdone, hall' hd]
  · obtain ⟨hsent', hnot⟩ := hstop _ (hpost p) hdone (m.after p)
    refine ⟨out, ?_, hprefix.trans (List.prefix_append script rest), fun hd => absurd hd hnot⟩
    show ((f (m.result p)).after (m.after p)).sent = _
    rw [hsent', hsent]

theorem bind (hm : Follows m script done) (hgo : ∀ a, done a → Follows (f a) rest done')
    (hstop : ∀ a, ¬ done a → Quits (f a) done') : Follows (m >>= f) (script ++ rest) done' := by
  exact @bind_of _ _ _ _ _ _ _ _ (fun _ => True) hm (fun _ => trivial) (fun a _ => hgo a)
    fun a _ => hstop a

/-- Nothing is sent behind the step. -/
theorem bind_silent (hm : Follows m script done) (hgo : ∀ a, done a → Follows (f a) [] done')
    (hstop : ∀ a, ¬ done a → Quits (f a) done') : Follows (m >>= f) script done' := by
  have h := hm.bind hgo hstop
  rwa [List.append_nil] at h

/-- Nothing is sent before. -/
theorem silent_bind (hm : Follows m [] fun _ => True) (hgo : ∀ a, Follows (f a) rest done') :
    Follows (m >>= f) rest done' := by
  have h := hm.bind (fun a _ => hgo a) fun a hnot => absurd trivial hnot
  rwa [List.nil_append] at h

end Follows

/-! ## The port -/

theorem follows_write (bytes : List UInt8) : Follows (write bytes) [bytes] (· = true) := by
  intro p
  simp only [write, SerialM.after, SerialM.result]
  cases p.refuses p.sent.length with
  | true => exact ⟨[], (List.append_nil p.sent).symm, List.nil_prefix, fun h => absurd h Bool.false_ne_true⟩
  | false => exact ⟨[bytes], rfl, List.prefix_rfl, fun _ => rfl⟩

theorem follows_readUntil (delim buf : List UInt8) :
    Follows (readUntil delim buf) [] fun _ => True :=
  fun p => ⟨[], (List.append_nil p.sent).symm, List.nil_prefix, fun _ => rfl⟩

theorem follows_readExact (n : Nat) : Follows (readExact n) [] fun _ => True := by
  intro p
  refine ⟨[], ?_, List.nil_prefix, fun _ => rfl⟩
  simp only [readExact, SerialM.after]
  split <;> exact (List.append_nil p.sent).symm

/-! ## Replies -/

/-- The chunks that a read takes which has `buf` already: the delimiter comes with the last one. -/
structure Brings (delim buf : List UInt8) (chunks : List (List UInt8)) : Prop where
  found : delim <:+: buf ++ chunks.flatten
  last : chunks ≠ [] → ¬ delim <:+: buf ++ chunks.dropLast.flatten

section Gather

variable {delim delim' buf : List UInt8} {chunks : List (List UInt8)}

theorem Brings.gather_eq (h : Brings delim buf chunks) (rest : List (List UInt8)) :
    gather delim buf (chunks ++ rest) = (buf ++ chunks.flatten, rest) := by
  induction chunks generalizing buf with
  | nil =>
      have hfound := h.found
      rw [List.flatten_nil, List.append_nil] at hfound
      rw [List.nil_append, gather_found hfound, List.flatten_nil, List.append_nil]
  | cons c cs ih =>
      have hnot : ¬ delim <:+: buf :=
        fun hin => h.last (List.cons_ne_nil c cs) (hin.trans (List.prefix_append ..).isInfix)
      have hrest : Brings delim (buf ++ c) cs := by
        refine ⟨?_, fun hne => ?_⟩
        · simpa [List.append_assoc] using h.found
        · have hlast := h.last (List.cons_ne_nil c cs)
          rwa [List.dropLast_cons_of_ne_nil hne, List.flatten_cons, ← List.append_assoc] at hlast
      rw [List.cons_append, gather, if_neg hnot, ih hrest, List.flatten_cons, List.append_assoc]

/-- A read may stop on the way, at a delimiter that is part of its own. -/
theorem gather_stage (hpart : ∀ x, delim <:+: x → delim' <:+: x) (buf : List UInt8)
    (chunks : List (List UInt8)) :
    gather delim (gather delim' buf chunks).1 (gather delim' buf chunks).2
      = gather delim buf chunks := by
  induction chunks generalizing buf with
  | nil => rfl
  | cons c cs ih =>
      by_cases hfound : delim' <:+: buf
      · rw [gather_found hfound]
      · rw [gather, if_neg hfound, ih, gather, if_neg fun h => hfound (hpart buf h)]

/-- What cannot begin the delimiter may be taken out of the buffer. -/
theorem gather_skip {front : List UInt8} (hskip : ∀ x, delim <:+: front ++ x → delim <:+: x)
    (buf : List UInt8) (chunks : List (List UInt8)) :
    (gather delim (front ++ buf) chunks).2 = (gather delim buf chunks).2 := by
  induction chunks generalizing buf with
  | nil => rfl
  | cons c cs ih =>
      by_cases hfound : delim <:+: buf
      · have hfound' : delim <:+: front ++ buf := hfound.trans (List.suffix_append front buf).isInfix
        rw [gather_found hfound, gather_found hfound']
      · rw [gather, if_neg fun h => hfound (hskip buf h), gather, if_neg hfound, List.append_assoc]
        exact ih (buf ++ c)

theorem incoming_readUntil (p : Port) :
    ((readUntil delim buf).after p).incoming = (gather delim buf p.incoming).2 := rfl

end Gather

end Serial
