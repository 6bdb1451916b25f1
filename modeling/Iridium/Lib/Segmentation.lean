import Mathlib.Data.List.Basic

/-!
# Stream consumers and segmentation

A consumer reads a stream in chunks: each read either moves it to another state or ends it with a
verdict, and the end of the stream ends it in any case. It does not depend on the segmentation when
its state is related to the bytes received so far and its verdict is a function of them that later
bytes do not change. `Tracks` is that as a simulation, from some first bytes on, and `Tracks.run`
draws the conclusion.
-/

/-- A reader of a stream of `α`, with states `σ` and verdicts `β`. -/
structure Consumer (α σ β : Type) where
  read : σ → List α → σ ⊕ β
  eof : σ → β

namespace Consumer

variable {α σ β : Type}

/-- Read the chunks one after the other, and then the end of the stream. -/
def run (m : Consumer α σ β) : σ → List (List α) → β
  | s, [] => m.eof s
  | s, c :: cs =>
    match m.read s c with
    | .inl s' => m.run s' cs
    | .inr b => b

/-- From the first bytes `base` of a stream on, the state is related to the bytes received, for as
long as they have no verdict, and the consumer ends with the verdict as soon as they have one. At
the end of a stream without a verdict it ends with `last`. -/
structure Tracks (m : Consumer α σ β) (stream base : List α) (rel : List α → σ → Prop)
    (verdict : List α → Option β) (last : β) : Prop where
  read : ∀ r c s, base <+: r → (r ++ c) <+: stream → verdict r = none → rel r s →
    (verdict (r ++ c) = none ∧ ∃ s', m.read s c = .inl s' ∧ rel (r ++ c) s')
      ∨ ∃ b, verdict (r ++ c) = some b ∧ m.read s c = .inr b
  eof : ∀ s, verdict stream = none → rel stream s → m.eof s = last
  stable : ∀ r c b, base <+: r → (r ++ c) <+: stream → verdict r = some b →
    verdict (r ++ c) = some b

namespace Tracks

variable {m : Consumer α σ β} {stream base : List α} {rel : List α → σ → Prop}
  {verdict : List α → Option β} {last : β}

/-- **The run from a tracked state depends on the stream only.** -/
theorem run (h : Tracks m stream base rel verdict last) (chunks : List (List α)) (r : List α)
    (s : σ) (hbase : base <+: r) (hstream : r ++ chunks.flatten = stream)
    (hopen : verdict r = none) (hrel : rel r s) :
    m.run s chunks = (verdict stream).getD last := by
  -- general in the bytes received so far, which take over what is read
  induction chunks generalizing r s with
  | nil =>
      rw [List.flatten_nil, List.append_nil] at hstream
      subst hstream
      rw [Consumer.run, hopen, Option.getD_none, h.eof s hopen hrel]
  | cons c cs ih =>
      rw [List.flatten_cons, ← List.append_assoc] at hstream
      have hprefix : (r ++ c) <+: stream := ⟨cs.flatten, hstream⟩
      have hbase' : base <+: r ++ c := hbase.trans (List.prefix_append r c)
      rw [Consumer.run]
      rcases h.read r c s hbase hprefix hopen hrel with ⟨hnone, s', hread, hrel'⟩ | ⟨b, hsome, hread⟩
      · rw [hread]
        exact ih (r ++ c) s' hbase' hstream hnone hrel'
      · have hfull := h.stable (r ++ c) cs.flatten b hbase' (hstream ▸ List.prefix_rfl) hsome
        rw [hstream] at hfull
        rw [hread, hfull, Option.getD_some]

end Tracks

end Consumer
