import Iridium.SbdReceiver

/-!
# The accept loop

The handler of an accept initiates the next one, whether or not the acceptor is still open. While it
is open there is always an accept waiting on it (`hears`). But one whose result was obtained before
`stop` and is delivered after it keeps the loop alive (`Stale`): the next accept is then refused at
once, and the one after it too, until `start` opens the acceptor again and there are two loops.

`accepting_single_iff` says that this is the only way for the loop to go wrong, and `drains_iff` that
it decides whether the event loop can come to its end after `stop`, while the receiver exists.
-/

namespace Iridium.SbdReceiver

variable {past : List UInt8 → Memory} {here : Nat} {w v : SbdReceiver} {label : Label}
  {labels : List Label}

/-! ## The loop by itself -/

/-- What the accepts of a receiver depend on. -/
structure Loop where
  acceptorOpen : Bool
  sentinel : Bool
  alive : Bool
  accepts : List PendingAccept
  dangling : Nat

def loop (w : SbdReceiver) : Loop :=
  ⟨w.acceptorOpen, w.sentinel, w.alive, w.accepts, w.dangling⟩

namespace Loop

def opened (l : Loop) : Loop :=
  { l with acceptorOpen := true, sentinel := true, accepts := l.accepts ++ [.waiting] }

def closed (l : Loop) : Loop :=
  { l with acceptorOpen := false, sentinel := false, accepts := l.accepts.map PendingAccept.cancel }

def finished (l : Loop) (index : Nat) : Loop := { l with accepts := l.accepts.eraseIdx index }

def rearmed (l : Loop) : Loop :=
  { l with accepts := l.accepts ++ [if l.acceptorOpen then .waiting else .refused] }

end Loop

/-- An accept that was cancelled completes otherwise than with `operation_aborted`. -/
def Stale (w : SbdReceiver) : Label → Prop
  | .accepted index result => w.accepts[index]? = some .cancelled ∧ result ≠ .aborted
  | _ => False

instance (w : SbdReceiver) (label : Label) : Decidable (w.Stale label) :=
  match label with
  | .accepted _ _ => inferInstanceAs (Decidable (_ ∧ _))
  | .start _ | .stop _ _ | .destroy _ | .read _ _ => inferInstanceAs (Decidable False)

/-- On an acceptor that is not open nothing waits. -/
def Closes (w : SbdReceiver) : Prop := w.acceptorOpen = false → .waiting ∉ w.accepts

theorem map_cancel {accepts : List PendingAccept} (h : .waiting ∉ accepts) :
    accepts.map PendingAccept.cancel = accepts := by
  refine (List.map_congr_left fun a ha => ?_).trans (List.map_id accepts)
  cases a with
  | waiting => exact absurd ha h
  | _ => rfl

/-- What a step does to the loop. The receiver is there unless it is `destroyed` before the step. -/
inductive Moved (w : SbdReceiver) (label : Label) (v : SbdReceiver) : Prop where
  | kept (hloop : v.loop = w.loop) (hfresh : ¬ w.Stale label)
  | opened (calls : StartCalls) (hlabel : label = .start calls) (hclosed : w.acceptorOpen = false)
      (halive : w.alive = true) (hloop : v.loop = w.loop.opened)
  | closed (hopen : w.acceptorOpen = true) (hfresh : ¬ w.Stale label) (hloop : v.loop = w.loop.closed)
  | destroyed (closing : Option String) (hlabel : label = .destroy closing)
      (hloop : v.loop = { (if w.acceptorOpen then w.loop.closed else w.loop) with alive := false })
  | aborted (index : Nat) (hlabel : label = .accepted index .aborted)
      (haccept : w.accepts[index]? = some .cancelled) (hloop : v.loop = w.loop.finished index)
  | rearmed (index : Nat) (result : AcceptResult) (hlabel : label = .accepted index result)
      (hresult : result ≠ .aborted) (a : PendingAccept) (haccept : w.accepts[index]? = some a)
      (halive : w.alive = true) (hloop : v.loop = (w.loop.finished index).rearmed)
  | dangled (index : Nat) (result : AcceptResult) (hlabel : label = .accepted index result)
      (hresult : result ≠ .aborted) (a : PendingAccept) (haccept : w.accepts[index]? = some a)
      (hgone : w.alive = false)
      (hloop : v.loop = { w.loop.finished index with dangling := w.dangling + 1 })

theorem step_moved (hw : w.Closes) (h : step past here w label = some v) : Moved w label v := by
  cases label with
  | start calls =>
      simp only [step] at h
      split at h
      · next halive =>
          cases h
          rcases start_cases w calls with ⟨_, heq⟩ | ⟨hclosed, _, heq⟩ | ⟨hclosed, heq⟩ <;> rw [heq]
          · exact .kept rfl id
          · refine .kept ?_ id
            show Loop.mk false w.sentinel w.alive (w.accepts.map PendingAccept.cancel) _ = w.loop
            rw [map_cancel (hw hclosed), ← hclosed]
            rfl
          · exact .opened calls rfl hclosed halive rfl
      · cases h
  | stop woexcept closing =>
      simp only [step] at h
      split at h
      · cases h
        rcases stop_cases w woexcept closing with ⟨-, heq⟩ | ⟨hopen, _, heq⟩ <;> rw [heq]
        · exact .kept rfl id
        · exact .closed hopen id rfl
      · cases h
  | destroy closing =>
      simp only [step] at h
      split at h
      · cases h
        apply Moved.destroyed closing rfl
        rw [destroy]
        rcases stop_cases w true closing with ⟨hclosed, heq⟩ | ⟨hopen, _, heq⟩ <;> rw [heq]
        · rw [if_neg (by simp [hclosed])]
          rfl
        · rw [if_pos hopen]
          rfl
      · cases h
  | accepted index result =>
      obtain ⟨a, ha, hallows, rfl⟩ := step_accepted h
      rcases @onAccept_cases past here (w.finish index) result with
        ⟨rfl, heq⟩ | ⟨hresult, hgone, heq⟩ | ⟨hresult, halive, sessions, -, heq⟩ <;> rw [heq]
      · cases a with
        | cancelled => exact .aborted index rfl ha rfl
        | waiting => cases hallows
        | refused => cases hallows
      · exact .dangled index result rfl hresult a ha hgone rfl
      · exact .rearmed index result rfl hresult a ha halive rfl
  | read i result =>
      obtain ⟨sessions, -, rfl⟩ := step_read h
      exact .kept rfl id

/-! ## An accept that completes -/

section Accepts

variable {accepts : List PendingAccept} {index : Nat} {a b : PendingAccept}

theorem count_eraseIdx (h : accepts[index]? = some b) :
    accepts.count a = (accepts.eraseIdx index).count a + if b = a then 1 else 0 := by
  obtain ⟨hlt, hget⟩ := List.getElem?_eq_some_iff.mp h
  have hperm := (List.getElem_cons_eraseIdx_perm hlt).count_eq a
  rw [← hperm, hget, List.count_cons]
  simp

/-- The others stay. -/
theorem mem_eraseIdx (h : accepts[index]? = some b) (hne : b ≠ a) :
    a ∈ accepts.eraseIdx index ↔ a ∈ accepts := by
  have hcount := @count_eraseIdx accepts index a b h
  rw [if_neg hne, Nat.add_zero] at hcount
  rw [← List.count_pos_iff, ← List.count_pos_iff, hcount]

end Accepts

theorem notMem_map_cancel (accepts : List PendingAccept) :
    .waiting ∉ accepts.map PendingAccept.cancel := by
  intro hmem
  obtain ⟨a, -, ha⟩ := List.mem_map.mp hmem
  cases a <;> cases ha

theorem refused_mem_map_cancel {accepts : List PendingAccept} :
    .refused ∈ accepts.map PendingAccept.cancel ↔ .refused ∈ accepts := by
  rw [List.mem_map]
  constructor
  · rintro ⟨a, hmem, ha⟩
    cases a <;> first | exact hmem | cases ha
  · intro hmem
    exact ⟨.refused, hmem, rfl⟩

/-! ## The receiver is never deaf -/

/-- An accept is waiting as long as the acceptor is open, and only then. -/
structure Hearing (l : Loop) : Prop where
  waiting : l.acceptorOpen = true → .waiting ∈ l.accepts
  closes : l.acceptorOpen = false → .waiting ∉ l.accepts
  alive : l.acceptorOpen = true → l.alive = true
  sentinel : l.sentinel = l.acceptorOpen

theorem hearing_step (hw : Hearing w.loop) (h : step past here w label = some v) :
    Hearing v.loop := by
  cases step_moved hw.closes h with
  | kept hloop =>
      rw [hloop]
      exact hw
  | opened _ _ _ halive hloop =>
      rw [hloop]
      refine ⟨fun _ => ?_, nofun, fun _ => halive, rfl⟩
      exact List.mem_append_right _ (List.mem_singleton.mpr rfl)
  | closed _ _ hloop =>
      rw [hloop]
      exact ⟨nofun, fun _ => notMem_map_cancel _, nofun, rfl⟩
  | destroyed _ _ hloop =>
      rw [hloop]
      cases hopen : w.acceptorOpen with
      | true => exact ⟨nofun, fun _ => notMem_map_cancel _, nofun, rfl⟩
      | false =>
          refine ⟨fun htrue => ?_, fun _ => hw.closes hopen, fun htrue => ?_, hw.sentinel⟩
          · exact absurd (hopen.symm.trans htrue) nofun
          · exact absurd (hopen.symm.trans htrue) nofun
  | aborted index _ haccept hloop =>
      rw [hloop]
      have hsame := @mem_eraseIdx _ index .waiting _ haccept nofun
      exact ⟨fun hopen => hsame.mpr (hw.waiting hopen), fun hclosed hmem =>
        hw.closes hclosed (hsame.mp hmem), hw.alive, hw.sentinel⟩
  | rearmed index result _ _ a haccept halive hloop =>
      rw [hloop]
      refine ⟨?_, ?_, fun _ => halive, hw.sentinel⟩
      · intro hopen
        have hnew : w.acceptorOpen = true := hopen
        show .waiting ∈ w.accepts.eraseIdx index ++ [if w.acceptorOpen then _ else _]
        rw [if_pos hnew]
        exact List.mem_append_right _ (List.mem_singleton.mpr rfl)
      · intro hclosed hmem
        have hnew : ¬ w.acceptorOpen = true := by
          show ¬ (w.loop.finished index).rearmed.acceptorOpen = true
          rw [hclosed]
          decide
        change .waiting ∈ w.accepts.eraseIdx index ++ [if w.acceptorOpen then _ else _] at hmem
        rw [if_neg hnew, List.mem_append, List.mem_singleton] at hmem
        rcases hmem with hold | hrefused
        · exact hw.closes hclosed (List.mem_of_mem_eraseIdx hold)
        · cases hrefused
  | dangled index result _ _ a haccept hgone hloop =>
      rw [hloop]
      have hclosed : w.acceptorOpen = false := by
        rw [← Bool.not_eq_true]
        intro hopen
        exact absurd (hgone.symm.trans (hw.alive hopen)) nofun
      refine ⟨fun hopen => absurd (hclosed.symm.trans hopen) nofun, fun _ hmem => ?_,
        fun hopen => absurd (hclosed.symm.trans hopen) nofun, hw.sentinel⟩
      exact hw.closes hclosed (List.mem_of_mem_eraseIdx hmem)

theorem hearing_init : Hearing ({} : SbdReceiver).loop :=
  ⟨nofun, fun _ => List.not_mem_nil, nofun, rfl⟩

/-- **A receiver is never deaf.** In every run, as long as the acceptor is open an accept waits on it
and the event loop is kept going, and after `stop` neither is the case. -/
theorem hears (h : (system past here).Run (fun _ _ => True) {} labels w) : Hearing w.loop :=
  @System.Run.invariant _ _ _ _ _ _ _ (fun w => Hearing w.loop)
    (fun _ _ _ hw _ hstep => hearing_step hw hstep) h hearing_init

/-! ## One loop -/

/-- There is one accept when the acceptor is open and none that waits when it is not, none has been
refused, and no handler has used a receiver that was gone. -/
structure Loop.Single (l : Loop) : Prop where
  waiting : l.accepts.count .waiting = if l.acceptorOpen then 1 else 0
  refused : .refused ∉ l.accepts
  dangling : l.dangling = 0

/-- A step that is not stale keeps the loop single. -/
theorem single_step (hhearing : Hearing w.loop) (hw : w.loop.Single) (hfresh : ¬ w.Stale label)
    (h : step past here w label = some v) : v.loop.Single := by
  cases step_moved hhearing.closes h with
  | kept hloop =>
      rw [hloop]
      exact hw
  | opened _ _ hclosed _ hloop =>
      rw [hloop]
      have hcount : w.accepts.count .waiting = 0 := List.count_eq_zero.mpr (hhearing.closes hclosed)
      refine ⟨?_, ?_, hw.dangling⟩
      · show (w.accepts ++ [PendingAccept.waiting]).count .waiting = 1
        rw [List.count_append, hcount]
        rfl
      · intro hmem
        rcases List.mem_append.mp hmem with hold | hnew
        · exact hw.refused hold
        · cases List.mem_singleton.mp hnew
  | closed _ _ hloop =>
      rw [hloop]
      refine ⟨List.count_eq_zero.mpr (notMem_map_cancel _), ?_, hw.dangling⟩
      intro hmem
      exact hw.refused (refused_mem_map_cancel.mp hmem)
  | destroyed _ _ hloop =>
      rw [hloop]
      by_cases hopen : w.acceptorOpen = true
      · rw [if_pos hopen]
        refine ⟨List.count_eq_zero.mpr (notMem_map_cancel _), ?_, hw.dangling⟩
        intro hmem
        exact hw.refused (refused_mem_map_cancel.mp hmem)
      · rw [if_neg hopen]
        exact ⟨hw.waiting, hw.refused, hw.dangling⟩
  | aborted index _ haccept hloop =>
      rw [hloop]
      have hcount := @count_eraseIdx _ index .waiting _ haccept
      refine ⟨?_, fun hmem => hw.refused (List.mem_of_mem_eraseIdx hmem), hw.dangling⟩
      exact hcount.symm.trans hw.waiting
  | rearmed index result hlabel hresult a haccept _ hloop =>
      rw [hloop]
      -- what completes is the one that was waiting, so the acceptor is open
      have hwaiting : a = .waiting := by
        cases a with
        | waiting => rfl
        | cancelled => exact absurd ⟨haccept, hresult⟩ (hlabel ▸ hfresh)
        | refused => exact absurd (List.mem_of_getElem? haccept) hw.refused
      subst hwaiting
      have hopen : w.acceptorOpen = true := by
        by_contra hclosed
        exact hhearing.closes (Bool.not_eq_true _ ▸ hclosed) (List.mem_of_getElem? haccept)
      have hcount := @count_eraseIdx _ index .waiting _ haccept
      have hone := hw.waiting
      change w.accepts.count .waiting = if w.acceptorOpen then 1 else 0 at hone
      rw [if_pos rfl, hone, if_pos hopen] at hcount
      refine ⟨?_, ?_, hw.dangling⟩
      · show (w.accepts.eraseIdx index ++ [if w.acceptorOpen then _ else _]).count _
          = if w.acceptorOpen then 1 else 0
        rw [if_pos hopen, if_pos hopen, List.count_append, List.count_singleton_self]
        omega
      · intro hmem
        change _ ∈ w.accepts.eraseIdx index ++ [if w.acceptorOpen then _ else _] at hmem
        rw [if_pos hopen] at hmem
        rcases List.mem_append.mp hmem with hold | hnew
        · exact hw.refused (List.mem_of_mem_eraseIdx hold)
        · cases List.mem_singleton.mp hnew
  | dangled index result hlabel hresult a haccept hgone hloop =>
      -- nothing waits and nothing was refused, so it is one that was cancelled
      cases a with
      | waiting =>
          have hclosed : w.acceptorOpen = false := by
            rw [← Bool.not_eq_true]
            intro hopen
            exact absurd (hgone.symm.trans (hhearing.alive hopen)) nofun
          exact absurd (List.mem_of_getElem? haccept) (hhearing.closes hclosed)
      | cancelled => exact absurd ⟨haccept, hresult⟩ (hlabel ▸ hfresh)
      | refused => exact absurd (List.mem_of_getElem? haccept) hw.refused

/-- A stale one does not: the loop is doubled, refused or dangling. -/
theorem not_single_of_stale (hhearing : Hearing w.loop) (hw : w.loop.Single) (hstale : w.Stale label)
    (h : step past here w label = some v) : ¬ v.loop.Single := by
  intro hv
  cases step_moved hhearing.closes h with
  | kept _ hfresh => exact hfresh hstale
  | opened _ hlabel => rw [hlabel] at hstale; exact hstale
  | closed _ hfresh => exact hfresh hstale
  | destroyed _ hlabel => rw [hlabel] at hstale; exact hstale
  | aborted _ hlabel =>
      rw [hlabel] at hstale
      exact hstale.2 rfl
  | rearmed index result hlabel hresult a haccept _ hloop =>
      rw [hlabel] at hstale
      have hcount := @count_eraseIdx _ index .waiting _ hstale.1
      rw [if_neg nofun, Nat.add_zero] at hcount
      rw [hloop] at hv
      by_cases hopen : w.acceptorOpen = true
      · have htwo := hv.waiting
        have hone := hw.waiting
        change w.accepts.count .waiting = if w.acceptorOpen then 1 else 0 at hone
        change (w.accepts.eraseIdx index ++ [if w.acceptorOpen then _ else _]).count _
          = if w.acceptorOpen then 1 else 0 at htwo
        rw [if_pos hopen] at hone
        rw [if_pos hopen, if_pos hopen, List.count_append, List.count_singleton_self] at htwo
        omega
      · apply hv.refused
        show _ ∈ w.accepts.eraseIdx index ++ [if w.acceptorOpen then _ else _]
        rw [if_neg hopen]
        exact List.mem_append_right _ (List.mem_singleton.mpr rfl)
  | dangled _ _ _ _ _ _ _ hloop =>
      rw [hloop] at hv
      exact absurd hv.dangling (Nat.succ_ne_zero _)

/-- **The accept loop stays a single one exactly as long as no stale result comes in.** -/
theorem accepting_single_iff (h : (system past here).Run (fun _ _ => True) {} labels w) :
    (∀ ls u, ls <+: labels → (system past here).Run (fun _ _ => True) {} ls u → u.loop.Single)
      ↔ (system past here).Run (fun w label => ¬ w.Stale label) {} labels w := by
  have hiff := @System.Run.always_iff _ _ (system past here) (fun w label => ¬ w.Stale label) {} w
    labels (fun w => Hearing w.loop ∧ w.loop.Single) ⟨hearing_init, rfl, List.not_mem_nil, rfl⟩
    (by
      intro t l u ht hstep
      constructor
      · intro hu hstale
        exact not_single_of_stale ht.1 ht.2 hstale hstep hu.2
      · intro hfresh
        exact ⟨hearing_step ht.1 hstep, single_step ht.1 ht.2 hfresh hstep⟩) h
  rw [← hiff]
  constructor
  · intro hsingle ls u hls hrun
    exact ⟨hears hrun, hsingle ls u hls hrun⟩
  · intro hsingle ls u hls hrun
    exact (hsingle ls u hls hrun).2

/-! ## After `stop` -/

/-- A step of a receiver that is neither started nor given up. -/
def Winding (_ : SbdReceiver) : Label → Prop
  | .start _ | .destroy _ => False
  | .stop _ _ | .accepted _ _ | .read _ _ => True

/-- The acceptor is closed, and the loop goes on all the same. -/
structure Spinning (l : Loop) : Prop where
  closed : l.acceptorOpen = false
  alive : l.alive = true
  refused : .refused ∈ l.accepts

/-- The next accept is refused too. -/
theorem spinning_step (hw : Spinning w.loop) (hhearing : Hearing w.loop)
    (hwinding : w.Winding label) (h : step past here w label = some v) : Spinning v.loop := by
  cases step_moved hhearing.closes h with
  | kept hloop =>
      rw [hloop]
      exact hw
  | opened _ hlabel =>
      rw [hlabel] at hwinding
      exact hwinding.elim
  | closed hopen => exact absurd (hw.closed.symm.trans hopen) nofun
  | destroyed _ hlabel =>
      rw [hlabel] at hwinding
      exact hwinding.elim
  | aborted index _ haccept hloop =>
      rw [hloop]
      exact ⟨hw.closed, hw.alive, (@mem_eraseIdx _ index .refused _ haccept nofun).mpr hw.refused⟩
  | rearmed index result _ _ a haccept _ hloop =>
      rw [hloop]
      refine ⟨hw.closed, hw.alive, ?_⟩
      show _ ∈ w.accepts.eraseIdx index ++ [if w.acceptorOpen then _ else _]
      have hclosed : ¬ w.acceptorOpen = true := by
        intro hopen
        exact absurd (hw.closed.symm.trans hopen) nofun
      rw [if_neg hclosed]
      exact List.mem_append_right _ (List.mem_singleton.mpr rfl)
  | dangled _ _ _ _ _ _ hgone => exact absurd (hw.alive.symm.trans hgone) nofun

/-- The handlers of accepts that were cancelled are called one after the other. -/
theorem run_aborting (n : Nat) (w : SbdReceiver) (h : w.accepts = List.replicate n .cancelled) :
    ∃ ls v, (system past here).Run Winding w ls v ∧ v.accepts = [] := by
  induction n generalizing w with
  | zero => exact ⟨[], w, .nil, h⟩
  | succ n ih =>
      have hstep : (system past here).step w (.accepted 0 .aborted) = some (w.finish 0) := by
        show step past here w (.accepted 0 .aborted) = some (w.finish 0)
        simp [step, h, List.replicate_succ, PendingAccept.allows, onAccept]
      have hrest : (w.finish 0).accepts = List.replicate n .cancelled := by
        show w.accepts.eraseIdx 0 = _
        rw [h, List.replicate_succ, List.eraseIdx_cons_zero]
      obtain ⟨ls, v, hrun, hv⟩ := ih _ hrest
      exact ⟨_, v, (System.Run.single trivial hstep).trans hrun, hv⟩

/-- **Whether the accepts come to an end after `stop`** is decided by what has been refused: if
nothing has, they can all complete; and a handler that has called `doAccept` on the closed acceptor
is followed by another one for ever, as long as the receiver is neither started again nor
destroyed. -/
theorem drains_iff (h : (system past here).Run (fun _ _ => True) {} labels w)
    (hclosed : w.acceptorOpen = false) (halive : w.alive = true) :
    (∃ ls v, (system past here).Run Winding w ls v ∧ v.accepts = []) ↔ .refused ∉ w.accepts := by
  constructor
  · rintro ⟨ls, v, hrun, hempty⟩ hrefused
    have hspinning := @System.Run.invariant _ _ _ _ _ _ _
      (fun w => Spinning w.loop ∧ Hearing w.loop)
      (fun _ _ _ hw hwinding hstep =>
        ⟨spinning_step hw.1 hw.2 hwinding hstep, hearing_step hw.2 hstep⟩)
      hrun ⟨⟨hclosed, halive, hrefused⟩, hears h⟩
    have hmem : PendingAccept.refused ∈ v.accepts := hspinning.1.refused
    rw [hempty] at hmem
    cases hmem
  · intro hrefused
    apply run_aborting w.accepts.length
    apply List.eq_replicate_of_mem
    intro a ha
    cases a with
    | cancelled => rfl
    | waiting => exact absurd ha ((hears h).closes hclosed)
    | refused => exact absurd ha hrefused

/-- A connection is accepted, and its handler is called after `stop`; or the accept is aborted. -/
def lateLabels : List Label := [.start {}, .stop false none, .accepted 0 .connected]

def promptLabels : List Label := [.start {}, .accepted 0 .connected, .stop false none]

theorem hears_sample :
    ∃ w, (system (fun _ _ => 0) 0).Run (fun _ _ => True) {} (lateLabels ++ [.start {}]) w
      ∧ Hearing w.loop ∧ w.accepts = [.refused, .waiting] := by
  obtain ⟨w, hrun, haccepts⟩ := @System.exists_run_of_exec _ _ (system (fun _ _ => 0) 0)
    (fun _ _ => True) _ {} (lateLabels ++ [.start {}])
    (fun w => w.accepts = [.refused, .waiting]) _ (by decide +kernel)
  exact ⟨w, hrun, hears hrun, haccepts⟩

theorem accepting_single_sample :
    ∃ w, (system (fun _ _ => 0) 0).Run (fun w label => ¬ w.Stale label) {} promptLabels w
      ∧ ∀ ls u, ls <+: promptLabels → (system (fun _ _ => 0) 0).Run (fun _ _ => True) {} ls u →
        u.loop.Single := by
  obtain ⟨w, hrun, -⟩ := @System.exists_run_of_exec _ _ (system (fun _ _ => 0) 0)
    (fun w label => ¬ w.Stale label) _ {} promptLabels (fun _ => True) _ (by decide +kernel)
  exact ⟨w, hrun, (accepting_single_iff (hrun.mono fun _ _ _ => trivial)).mpr hrun⟩

/-- The event loop does not come to its end. -/
theorem drains_sample :
    ∃ w, (system (fun _ _ => 0) 0).Run (fun _ _ => True) {} lateLabels w
      ∧ ¬ ∃ ls v, (system (fun _ _ => 0) 0).Run Winding w ls v ∧ v.accepts = [] := by
  obtain ⟨w, hrun, hclosed, halive, haccepts⟩ := @System.exists_run_of_exec _ _
    (system (fun _ _ => 0) 0) (fun _ _ => True) _ {} lateLabels
    (fun w => w.acceptorOpen = false ∧ w.alive = true ∧ w.accepts = [.refused]) _
    (by decide +kernel)
  refine ⟨w, hrun, ?_⟩
  rw [drains_iff hrun hclosed halive, haccepts]
  decide

end Iridium.SbdReceiver
