import Mathlib.Data.List.Basic

/-!
# Transition systems

A system is a partial step function: the state that a label leads to, where the label is enabled.
`Run` is a run all of whose steps are allowed by a condition on the state before the step and the
label; with no condition it is any run.

Two rules carry an argument from one step to whole runs: `Run.invariant` for a predicate that
every allowed step preserves, and `Simulation.run` for a relation to another system, where one
step is matched by any number of steps. With `Run.observed` the two runs are also seen to do the
same. Under an invariant, `Run.countP_le` bounds the steps of some kind by a measure, and
`Run.foldl_eq` reads a part of the last state off the labels.

`withHistory` lets a value go along that the steps do not look at, for what is to be said of a run
and not of its last state.
-/

/-- A labelled transition system with at most one successor for every label. -/
structure System (σ α : Type) where
  step : σ → α → Option σ

namespace System

variable {σ α τ β : Type}

/-- A run from one state to another, of steps that are allowed. -/
inductive Run (sys : System σ α) (allow : σ → α → Prop) (s : σ) : List α → σ → Prop where
  | nil : Run sys allow s [] s
  | snoc {t u : σ} {ls : List α} {l : α} : Run sys allow s ls t → allow t l →
      sys.step t l = some u → Run sys allow s (ls ++ [l]) u

namespace Run

variable {sys : System σ α} {allow allow' : σ → α → Prop} {s t u : σ} {ls ks : List α}

theorem trans (h : Run sys allow s ls t) (h' : Run sys allow t ks u) :
    Run sys allow s (ls ++ ks) u := by
  induction h' with
  | nil => rwa [List.append_nil]
  | snoc _ hallow hstep ih =>
      rw [← List.append_assoc]
      exact .snoc ih hallow hstep

theorem single {l : α} (hallow : allow s l) (hstep : sys.step s l = some u) :
    Run sys allow s [l] u :=
  .snoc .nil hallow hstep

theorem mono (hallow : ∀ t l, allow t l → allow' t l) (h : Run sys allow s ls t) :
    Run sys allow' s ls t := by
  induction h with
  | nil => exact .nil
  | snoc _ hok hnext ih => exact .snoc ih (hallow _ _ hok) hnext

/-- A step is known by its label, so labels lead to one state. -/
theorem unique (h : Run sys allow s ls t) (h' : Run sys allow' s ls u) : t = u := by
  induction h generalizing u with
  | nil =>
      generalize hnil : ([] : List α) = ks at h'
      cases h' with
      | nil => rfl
      | snoc => exact absurd hnil (by simp)
  | @snoc t v ls l _ _ hnext ih =>
      generalize hks : ls ++ [l] = ks at h'
      cases h' with
      | nil => exact absurd hks (by simp)
      | @snoc t' _ ls' l' hrun' _ hnext' =>
          obtain ⟨rfl, hl⟩ := List.append_inj' hks rfl
          obtain rfl := List.singleton_inj.mp hl
          rw [ih hrun', hnext'] at hnext
          exact (Option.some.inj hnext).symm

/-- The beginning of a run. -/
theorem of_prefix (h : Run sys allow s ls t) (hks : ks <+: ls)
    (h' : Run sys allow' s ks u) : Run sys allow s ks u := by
  induction h with
  | nil =>
      obtain rfl := List.prefix_nil.mp hks
      rw [← (Run.nil : Run sys allow s [] s).unique h']
      exact .nil
  | @snoc t v ls l hrun hallow hnext ih =>
      rcases List.prefix_concat_iff.mp hks with rfl | hks
      · have hrun' := Run.snoc hrun hallow hnext
        rwa [← Run.unique hrun' h']
      · exact ih hks

/-- Labels lead to one state, so what is allowed in one run and in another is so in both ways. -/
theorem both (h : Run sys allow s ls t) (h' : Run sys allow' s ls u) :
    Run sys (fun s l => allow s l ∧ allow' s l) s ls t := by
  induction h generalizing u with
  | nil => exact .nil
  | @snoc t v ls l hrun hallow hnext ih =>
      generalize hks : ls ++ [l] = ks at h'
      cases h' with
      | nil => exact absurd hks (by simp)
      | @snoc t' _ ls' l' hrun' hallow' hnext' =>
          obtain ⟨rfl, hl⟩ := List.append_inj' hks rfl
          obtain rfl := List.singleton_inj.mp hl
          obtain rfl := hrun.unique hrun'
          exact .snoc (ih hrun') ⟨hallow, hallow'⟩ hnext

/-- **The invariant rule**: what every allowed step preserves holds along the run. -/
theorem invariant {inv : σ → Prop} (hstep : ∀ t l u, inv t → allow t l → sys.step t l = some u →
    inv u) (h : Run sys allow s ls t) (hinit : inv s) : inv t := by
  induction h with
  | nil => exact hinit
  | snoc _ hallow hnext ih => exact hstep _ _ _ ih hallow hnext

/-- **The variant rule**: where a measure falls at every step that is counted and does not rise at
another, it bounds how many of them a run takes. -/
theorem countP_le {inv : σ → Prop} {counted : α → Prop} [DecidablePred counted] {measure : σ → Nat}
    (hinv : ∀ t l u, inv t → allow t l → sys.step t l = some u → inv u)
    (hstep : ∀ t l u, inv t → allow t l → sys.step t l = some u →
      measure u + (if counted l then 1 else 0) ≤ measure t)
    (h : Run sys allow s ls t) (hinit : inv s) : ls.countP (counted ·) + measure t ≤ measure s := by
  induction h with
  | nil => simp
  | snoc hrun hallow hnext ih =>
      have hless := hstep _ _ _ (hrun.invariant hinv hinit) hallow hnext
      rw [List.countP_append, List.countP_singleton]
      simp only [decide_eq_true_eq]
      omega

/-- A part of the state that every step changes as its label says is known from the labels. -/
theorem foldl_eq {inv : σ → Prop} {γ : Type} {part : σ → γ} {change : γ → α → γ}
    (hinv : ∀ t l u, inv t → allow t l → sys.step t l = some u → inv u)
    (hstep : ∀ t l u, inv t → allow t l → sys.step t l = some u → part u = change (part t) l)
    (h : Run sys allow s ls t) (hinit : inv s) : part t = ls.foldl change (part s) := by
  induction h with
  | nil => rfl
  | snoc hrun hallow hnext ih =>
      rw [hstep _ _ _ (hrun.invariant hinv hinit) hallow hnext, ih, List.foldl_append]
      rfl

/-- Under an invariant, an allowed step may be known to meet another condition. -/
theorem strengthen {inv : σ → Prop} (hstep : ∀ t l u, inv t → allow t l →
    sys.step t l = some u → inv u)
    (hallow : ∀ t l u, inv t → allow t l → sys.step t l = some u → allow' t l)
    (h : Run sys allow s ls t) (hinit : inv s) : Run sys allow' s ls t := by
  induction h with
  | nil => exact .nil
  | snoc hrun hok hnext ih =>
      exact .snoc ih (hallow _ _ _ (hrun.invariant hstep hinit) hok hnext) hnext

/-- A condition on steps that says when they preserve a predicate holds along a run exactly when
the predicate does, in every state on the way. -/
theorem always_iff {inv : σ → Prop} (hinit : inv s) (hstep : ∀ t l u, inv t →
    sys.step t l = some u → (inv u ↔ allow t l)) (h : Run sys (fun _ _ => True) s ls t) :
    (∀ ks u, ks <+: ls → Run sys (fun _ _ => True) s ks u → inv u) ↔ Run sys allow s ls t := by
  constructor
  · intro halways
    induction h with
    | nil => exact .nil
    | @snoc t u ls l hrun _ hnext ih =>
        have hlast := halways _ u List.prefix_rfl (.snoc hrun trivial hnext)
        have hbefore := halways _ t (List.prefix_append ls [l]) hrun
        refine .snoc (ih fun ks u hks => ?_) ((hstep t l u hbefore hnext).mp hlast) hnext
        exact halways ks u (hks.trans (List.prefix_append ls [l]))
  · intro hrun ks u hks hsome
    exact (hrun.of_prefix hks hsome).invariant (fun t l u ht hallow hnext =>
      (hstep t l u ht hnext).mpr hallow) hinit

end Run

/-- The state that some labels lead to, where every step is allowed and enabled. -/
def exec (sys : System σ α) (allow : σ → α → Prop) [∀ s l, Decidable (allow s l)] (s : σ) :
    List α → Option σ
  | [] => some s
  | l :: ls => if allow s l then (sys.step s l).bind fun t => exec sys allow t ls else none

theorem run_of_exec {sys : System σ α} {allow : σ → α → Prop} [∀ s l, Decidable (allow s l)]
    {s t : σ} {ls : List α} (h : sys.exec allow s ls = some t) : sys.Run allow s ls t := by
  induction ls generalizing s with
  | nil =>
      cases h
      exact .nil
  | cons l ls ih =>
      rw [exec] at h
      split at h
      · rename_i hallow
        obtain ⟨u, hstep, hrest⟩ := Option.bind_eq_some_iff.mp h
        exact (Run.single hallow hstep).trans (ih hrest)
      · cases h

/-- A run to a state of some kind, found by running. -/
theorem exists_run_of_exec {sys : System σ α} {allow : σ → α → Prop}
    [∀ s l, Decidable (allow s l)] {s : σ} {ls : List α} {p : σ → Prop} [DecidablePred p]
    (h : (sys.exec allow s ls).any (fun t => decide (p t)) = true) :
    ∃ t, sys.Run allow s ls t ∧ p t := by
  obtain ⟨t, hexec, ht⟩ := (Option.any_eq_true _ _).mp h
  exact ⟨t, run_of_exec hexec, of_decide_eq_true ht⟩

/-- A relation under which every allowed step of `sys` is matched by allowed steps of `abs`. -/
structure Simulation (sys : System σ α) (allow : σ → α → Prop) (abs : System τ β)
    (allow' : τ → β → Prop) (rel : σ → τ → Prop) : Prop where
  step : ∀ s l s' t, rel s t → allow s l → sys.step s l = some s' →
    ∃ ks t', abs.Run allow' t ks t' ∧ rel s' t'

/-- **Every run is matched by a run.** -/
theorem Simulation.run {sys : System σ α} {allow : σ → α → Prop} {abs : System τ β}
    {allow' : τ → β → Prop} {rel : σ → τ → Prop} (sim : Simulation sys allow abs allow' rel)
    {s s' : σ} {ls : List α} (h : sys.Run allow s ls s') {t : τ} (hrel : rel s t) :
    ∃ ks t', abs.Run allow' t ks t' ∧ rel s' t' := by
  -- the run of the other system is built up along this one
  induction h with
  | nil => exact ⟨[], t, .nil, hrel⟩
  | snoc _ hallow hstep ih =>
      obtain ⟨ks, t', hrun, hrel'⟩ := ih
      obtain ⟨ks', t'', hrun', hrel''⟩ := sim.step _ _ _ _ hrel' hallow hstep
      exact ⟨ks ++ ks', t'', hrun.trans hrun', hrel''⟩

/-- **Every run is matched by one with the same observations**, where the steps that match a step
are observed as it is. -/
theorem Run.observed {γ : Type} {sys : System σ α} {allow : σ → α → Prop} {abs : System τ β}
    {allow' : τ → β → Prop} {rel : σ → τ → Prop} (obs : α → Option γ) (obs' : β → Option γ)
    (hstep : ∀ s l s' t, rel s t → allow s l → sys.step s l = some s' →
      ∃ ks t', abs.Run allow' t ks t' ∧ ks.filterMap obs' = (obs l).toList ∧ rel s' t')
    {s s' : σ} {ls : List α} (h : sys.Run allow s ls s') {t : τ} (hrel : rel s t) :
    ∃ ks t', abs.Run allow' t ks t' ∧ ks.filterMap obs' = ls.filterMap obs ∧ rel s' t' := by
  induction h with
  | nil => exact ⟨[], t, .nil, rfl, hrel⟩
  | @snoc _ _ ls l _ hallow hnext ih =>
      obtain ⟨ks, t', hrun, hobs, hrel'⟩ := ih
      obtain ⟨ks', t'', hrun', hobs', hrel''⟩ := hstep _ _ _ _ hrel' hallow hnext
      refine ⟨ks ++ ks', t'', hrun.trans hrun', ?_, hrel''⟩
      rw [List.filterMap_append, List.filterMap_append, hobs, hobs', List.filterMap_cons]
      cases obs l <;> rfl

/-! ## Histories -/

section History

variable {η : Type} (sys : System σ α) (observe : σ → α → σ → η → η)

/-- The system with a value that goes along: what becomes of it at a step. -/
def withHistory : System (σ × η) α where
  step s l := (sys.step s.1 l).map fun t => (t, observe s.1 l t s.2)

variable {sys observe}

theorem withHistory_step {s t : σ × η} {l : α} (h : (sys.withHistory observe).step s l = some t) :
    sys.step s.1 l = some t.1 ∧ t.2 = observe s.1 l t.1 s.2 := by
  obtain ⟨u, hstep, rfl⟩ := Option.map_eq_some_iff.mp h
  exact ⟨hstep, rfl⟩

/-- **Every run has its history.** -/
theorem Run.withHistory {allow : σ → α → Prop} {s t : σ} {ls : List α}
    (h : sys.Run allow s ls t) (e : η) :
    ∃ e', (sys.withHistory observe).Run (fun s l => allow s.1 l) (s, e) ls (t, e') := by
  induction h with
  | nil => exact ⟨e, .nil⟩
  | @snoc t u ls l _ hallow hnext ih =>
      obtain ⟨e', hrun⟩ := ih
      refine ⟨observe t l u e', .snoc hrun hallow ?_⟩
      exact Option.map_eq_some_iff.mpr ⟨u, hnext, rfl⟩

end History

end System
