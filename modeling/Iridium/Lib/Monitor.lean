import Iridium.Lib.Transition
import Mathlib.Data.Fintype.Basic

/-!
# Monitors

An object that threads share, with one mutex and one condition variable. An operation is a sequence
of statements in possession of the mutex; it may wait on the way, which releases the mutex, and it
needs the mutex again to go on. Waiting may end by a notification, by a timeout, or for no reason.

There are two views of it. In `fine` the threads take turns at every statement. In `atomic` what an
operation does from taking the mutex to releasing it is one step. No thread can tell them apart: each
run of the former is matched by one of the latter with the same events, which are the calls, the
results, the notifications and the ends of waiting (`linearizable`).
-/

/-- What a statement comes to. -/
inductive Outcome (Local Ret : Type) where
  | next (l : Local)
  | wait (l : Local)
  | done (r : Ret)
  deriving DecidableEq, Repr

/-- The operations of a monitor. A thread is at a `Local`; `length` says that what it does in
possession of the mutex comes to an end. -/
structure Monitor (Op Local Ret S : Type) where
  enter : Op → Local
  /-- One statement. -/
  exec : Local → S → Outcome Local Ret × S
  /-- Where a thread goes on that has waited; `true` after a timeout. -/
  resume : Local → Bool → Local
  length : Local → Nat
  length_next : ∀ l s l' s', exec l s = (.next l', s') → length l' < length l

namespace Monitor

/-- Where a thread is: in no operation, about to take the mutex, in possession of it, about to
release it with a result, about to return the result, or waiting. -/
inductive Phase (Local Ret : Type) where
  | outside
  | blocked (l : Local)
  | inside (l : Local)
  | leaving (r : Ret)
  | left (r : Ret)
  | waiting (l : Local)
  deriving DecidableEq, Repr

variable {ι Op Local Ret S : Type}

/-- Neither `inside` nor `leaving`. -/
def Phase.Free : Phase Local Ret → Prop
  | .inside _ | .leaving _ => False
  | .outside | .blocked _ | .left _ | .waiting _ => True

def Phase.Waits : Phase Local Ret → Prop
  | .waiting _ => True
  | .outside | .blocked _ | .inside _ | .leaving _ | .left _ => False

instance : DecidablePred (Phase.Waits : Phase Local Ret → Prop)
  | .waiting _ => inferInstanceAs (Decidable True)
  | .outside | .blocked _ | .inside _ | .leaving _ | .left _ => inferInstanceAs (Decidable False)

/-- The place in an operation of a thread that has the mutex or is about to take it. -/
def Phase.place? : Phase Local Ret → Option Local
  | .blocked l | .inside l => some l
  | .outside | .leaving _ | .left _ | .waiting _ => none

/-- The object and its threads. -/
structure Shared (ι Local Ret S : Type) where
  value : S
  phase : ι → Phase Local Ret

/-- With the mutex. -/
structure Locked (ι Local Ret S : Type) extends Shared ι Local Ret S where
  owner : Option ι := none

/-- What can be seen of a run from outside. -/
inductive Event (ι Op Ret : Type) where
  | call (t : ι) (op : Op)
  /-- The wait of a thread ends without a notification. -/
  | wake (t : ι) (timedOut : Bool)
  /-- A thread notifies one that waits; none only when none waits. -/
  | notify (t : ι) (target : Option ι)
  | ret (t : ι) (r : Ret)
  deriving DecidableEq, Repr

inductive FineLabel (ι Op Ret : Type) where
  | event (e : Event ι Op Ret)
  | acquire (t : ι)
  | exec (t : ι)
  | release (t : ι)
  deriving DecidableEq, Repr

inductive AtomicLabel (ι Op Ret : Type) where
  | event (e : Event ι Op Ret)
  | whole (t : ι)
  deriving DecidableEq, Repr

def FineLabel.event? : FineLabel ι Op Ret → Option (Event ι Op Ret)
  | .event e => some e
  | .acquire _ | .exec _ | .release _ => none

def AtomicLabel.event? : AtomicLabel ι Op Ret → Option (Event ι Op Ret)
  | .event e => some e
  | .whole _ => none

section Steps

variable [DecidableEq ι]

def Shared.set (c : Shared ι Local Ret S) (t : ι) (phase : Phase Local Ret) :
    Shared ι Local Ret S :=
  { c with phase := Function.update c.phase t phase }

/-- In the beginning no thread is in an operation. -/
def Shared.start (value : S) : Shared ι Local Ret S := ⟨value, fun _ => .outside⟩

variable [Fintype ι] [DecidableEq Ret] (m : Monitor Op Local Ret S)

/-- What an event does does not depend on the mutex. -/
def event (c : Shared ι Local Ret S) : Event ι Op Ret → Option (Shared ι Local Ret S)
  | .call t op =>
    match c.phase t with
    | .outside => some (c.set t (.blocked (m.enter op)))
    | _ => none
  | .wake t timedOut =>
    match c.phase t with
    | .waiting l => some (c.set t (.blocked (m.resume l timedOut)))
    | _ => none
  | .notify t (some target) =>
    match c.phase t, c.phase target with
    | .outside, .waiting l => some (c.set target (.blocked (m.resume l false)))
    | _, _ => none
  | .notify t none =>
    match c.phase t with
    | .outside => if ∀ u, ¬ (c.phase u).Waits then some c else none
    | _ => none
  | .ret t r =>
    match c.phase t with
    | .left r' => if r = r' then some (c.set t .outside) else none
    | _ => none

/-- One statement at a time. -/
def fine : System (Locked ι Local Ret S) (FineLabel ι Op Ret) where
  step c
    | .event e => (m.event c.toShared e).map fun d => { c with toShared := d }
    | .acquire t =>
      match c.phase t, c.owner with
      | .blocked l, none => some ⟨c.set t (.inside l), some t⟩
      | _, _ => none
    | .exec t =>
      match c.phase t with
      | .inside l =>
        match m.exec l c.value with
        | (.next l', s) => some ⟨{ c.set t (.inside l') with value := s }, c.owner⟩
        | (.wait l', s) => some ⟨{ c.set t (.waiting l') with value := s }, none⟩
        | (.done r, s) => some ⟨{ c.set t (.leaving r) with value := s }, c.owner⟩
      | _ => none
    | .release t =>
      match c.phase t with
      | .leaving r => some ⟨c.set t (.left r), none⟩
      | _ => none

/-- What an operation does in possession of the mutex is one step. -/
def atomic (whole : Local → S → Outcome Local Ret × S) :
    System (Shared ι Local Ret S) (AtomicLabel ι Op Ret) where
  step c
    | .event e => m.event c e
    | .whole t =>
      match c.phase t with
      | .blocked l =>
        match whole l c.value with
        | (.next _, _) => none
        | (.wait l', s) => some { c.set t (.waiting l') with value := s }
        | (.done r, s) => some { c.set t (.left r) with value := s }
      | _ => none

/-! ## What a step does -/

inductive Notice (c : Shared ι Local Ret S) : Event ι Op Ret → Shared ι Local Ret S → Prop where
  | call (t : ι) (op : Op) (houtside : c.phase t = .outside) :
      Notice c (.call t op) (c.set t (.blocked (m.enter op)))
  | wake (t : ι) (timedOut : Bool) (l : Local) (hwaiting : c.phase t = .waiting l) :
      Notice c (.wake t timedOut) (c.set t (.blocked (m.resume l timedOut)))
  | notify (t target : ι) (l : Local) (houtside : c.phase t = .outside)
      (hwaiting : c.phase target = .waiting l) :
      Notice c (.notify t (some target)) (c.set target (.blocked (m.resume l false)))
  | nobody (t : ι) (houtside : c.phase t = .outside) (hnone : ∀ u, ¬ (c.phase u).Waits) :
      Notice c (.notify t none) c
  | ret (t : ι) (r : Ret) (hleft : c.phase t = .left r) :
      Notice c (.ret t r) (c.set t .outside)

theorem event_iff {c d : Shared ι Local Ret S} {e : Event ι Op Ret} :
    m.event c e = some d ↔ Notice m c e d := by
  constructor
  · intro h
    cases e with
    | call t op =>
        simp only [event] at h
        split at h
        · next houtside =>
            cases h
            exact .call t op houtside
        · cases h
    | wake t timedOut =>
        simp only [event] at h
        split at h
        · next l hwaiting =>
            cases h
            exact .wake t timedOut l hwaiting
        · cases h
    | notify t target =>
        cases target with
        | some target =>
            simp only [event] at h
            split at h
            · next l houtside hwaiting =>
                cases h
                exact .notify t target l houtside hwaiting
            · cases h
        | none =>
            simp only [event] at h
            split at h
            · next houtside =>
                split at h
                · next hnone =>
                    cases h
                    exact .nobody t houtside hnone
                · cases h
            · cases h
    | ret t r =>
        simp only [event] at h
        split at h
        · next r' hleft =>
            split at h
            · next hr =>
                cases h
                rw [← hr] at hleft
                exact .ret t r hleft
            · cases h
        · cases h
  · intro h
    cases h with
    | call t op houtside => simp only [event, houtside]
    | wake t timedOut l hwaiting => simp only [event, hwaiting]
    | notify t target l houtside hwaiting => simp only [event, houtside, hwaiting]
    | nobody t houtside hnone => simp only [event, houtside, if_pos hnone]
    | ret t r hleft => simp only [event, hleft, if_true]

inductive Effect (c : Locked ι Local Ret S) : FineLabel ι Op Ret → Locked ι Local Ret S → Prop where
  | event (e : Event ι Op Ret) (d : Shared ι Local Ret S) (hnotice : Notice m c.toShared e d) :
      Effect c (.event e) ⟨d, c.owner⟩
  | acquire (t : ι) (l : Local) (hblocked : c.phase t = .blocked l) (hnone : c.owner = none) :
      Effect c (.acquire t) ⟨c.set t (.inside l), some t⟩
  | next (t : ι) (l l' : Local) (s : S) (hinside : c.phase t = .inside l)
      (hexec : m.exec l c.value = (.next l', s)) :
      Effect c (.exec t) ⟨{ c.set t (.inside l') with value := s }, c.owner⟩
  | wait (t : ι) (l l' : Local) (s : S) (hinside : c.phase t = .inside l)
      (hexec : m.exec l c.value = (.wait l', s)) :
      Effect c (.exec t) ⟨{ c.set t (.waiting l') with value := s }, none⟩
  | done (t : ι) (l : Local) (r : Ret) (s : S) (hinside : c.phase t = .inside l)
      (hexec : m.exec l c.value = (.done r, s)) :
      Effect c (.exec t) ⟨{ c.set t (.leaving r) with value := s }, c.owner⟩
  | release (t : ι) (r : Ret) (hleaving : c.phase t = .leaving r) :
      Effect c (.release t) ⟨c.set t (.left r), none⟩

theorem fine_step {c d : Locked ι Local Ret S} {label : FineLabel ι Op Ret}
    (h : m.fine.step c label = some d) : Effect m c label d := by
  cases label with
  | event e =>
      obtain ⟨d, hevent, rfl⟩ := Option.map_eq_some_iff.mp h
      exact .event e d ((m.event_iff).mp hevent)
  | acquire t =>
      simp only [fine] at h
      split at h
      · next l hblocked hnone =>
          cases h
          exact .acquire t l hblocked hnone
      · cases h
  | exec t =>
      simp only [fine] at h
      split at h
      · next l hinside =>
          split at h
          · next l' s hexec =>
              cases h
              exact .next t l l' s hinside hexec
          · next l' s hexec =>
              cases h
              exact .wait t l l' s hinside hexec
          · next r s hexec =>
              cases h
              exact .done t l r s hinside hexec
      · cases h
  | release t =>
      simp only [fine] at h
      split at h
      · next r hleaving =>
          cases h
          exact .release t r hleaving
      · cases h

end Steps

/-! ## Sections -/

section Whole

variable (m : Monitor Op Local Ret S)

/-- At most so many statements. -/
def execMany : Nat → Local → S → Outcome Local Ret × S
  | 0, l, s => (.next l, s)
  | n + 1, l, s =>
    match m.exec l s with
    | (.next l', s') => execMany n l' s'
    | (.wait l', s') => (.wait l', s')
    | (.done r, s') => (.done r, s')

/-- All that is done in possession of the mutex, from a place on. -/
def whole (l : Local) (s : S) : Outcome Local Ret × S := m.execMany (m.length l + 1) l s

variable {m}

theorem execMany_next {l l' : Local} {s s' : S} (h : m.exec l s = (.next l', s')) (n : Nat) :
    m.execMany (n + 1) l s = m.execMany n l' s' := by
  simp only [execMany, h]

/-- With enough statements it makes no difference how many. -/
theorem execMany_eq {n k : Nat} {l : Local} {s : S} (hn : m.length l < n) (hk : m.length l < k) :
    m.execMany n l s = m.execMany k l s := by
  induction n generalizing k l s with
  | zero => omega
  | succ n ih =>
      obtain ⟨k, rfl⟩ : ∃ k', k = k' + 1 := ⟨k - 1, by omega⟩
      rcases hexec : m.exec l s with ⟨l' | l' | r, s'⟩
      · have hless := m.length_next l s l' s' hexec
        rw [execMany_next hexec, execMany_next hexec]
        exact ih (by omega) (by omega)
      · simp only [execMany, hexec]
      · simp only [execMany, hexec]

theorem whole_next {l l' : Local} {s s' : S} (h : m.exec l s = (.next l', s')) :
    m.whole l s = m.whole l' s' := by
  have hless := m.length_next l s l' s' h
  rw [whole, execMany_next h]
  exact execMany_eq hless (Nat.lt_succ_self _)

theorem whole_wait {l l' : Local} {s s' : S} (h : m.exec l s = (.wait l', s')) :
    m.whole l s = (.wait l', s') := by
  simp only [whole, execMany, h]

theorem whole_done {l : Local} {r : Ret} {s s' : S} (h : m.exec l s = (.done r, s')) :
    m.whole l s = (.done r, s') := by
  simp only [whole, execMany, h]

end Whole

/-! ## The two views -/

/-- What the owner of the mutex has done so far of what is one step in the other view. -/
def Owner (m : Monitor Op Local Ret S) (value : S) (a : S) :
    Phase Local Ret → Phase Local Ret → Prop
  | .inside l, .blocked l₀ => m.whole l value = m.whole l₀ a
  | .leaving r, .left r' => r = r' ∧ value = a
  | _, _ => False

/-- The two views of the same object. -/
structure Views (m : Monitor Op Local Ret S) (c : Locked ι Local Ret S)
    (a : Shared ι Local Ret S) : Prop where
  free : ∀ t, (a.phase t).Free
  others : ∀ t, c.owner ≠ some t → c.phase t = a.phase t
  value : c.owner = none → c.value = a.value
  owner : ∀ t, c.owner = some t → Owner m c.value a.value (c.phase t) (a.phase t)

theorem views_start (m : Monitor Op Local Ret S) (value : S) :
    Views m ⟨Shared.start value, none⟩ (Shared.start value : Shared ι Local Ret S) where
  free _ := trivial
  others _ _ := rfl
  value _ := rfl
  owner _ h := nomatch h

namespace Views

variable {m : Monitor Op Local Ret S} {c : Locked ι Local Ret S} {a : Shared ι Local Ret S} {t : ι}

theorem not_owner (hv : Views m c a) (hfree : (c.phase t).Free) : c.owner ≠ some t := by
  intro howner
  have h := hv.owner t howner
  cases hphase : c.phase t with
  | inside l => exact (hphase ▸ hfree).elim
  | leaving r => exact (hphase ▸ hfree).elim
  | _ =>
      rw [hphase] at h
      exact h.elim

theorem phase_eq (hv : Views m c a) (hfree : (c.phase t).Free) : a.phase t = c.phase t :=
  (hv.others t (hv.not_owner hfree)).symm

theorem waits_iff (hv : Views m c a) : (c.phase t).Waits ↔ (a.phase t).Waits := by
  by_cases howner : c.owner = some t
  · have h := hv.owner t howner
    cases hphase : c.phase t <;> cases hphase' : a.phase t <;> rw [hphase, hphase'] at h
    case inside.blocked => exact Iff.rfl
    case leaving.left => exact Iff.rfl
    all_goals exact h.elim
  · rw [hv.others t howner]

/-- Only the owner is inside. -/
theorem owner_of_not_free (hv : Views m c a) (hnot : ¬ (c.phase t).Free) : c.owner = some t := by
  by_contra howner
  rw [hv.others t howner] at hnot
  exact hnot (hv.free t)

theorem inside (hv : Views m c a) {l : Local} (hphase : c.phase t = .inside l) :
    c.owner = some t ∧ ∃ l₀, a.phase t = .blocked l₀ ∧ m.whole l c.value = m.whole l₀ a.value := by
  have howner : c.owner = some t := hv.owner_of_not_free (by rw [hphase]; exact id)
  have h := hv.owner t howner
  rw [hphase] at h
  refine ⟨howner, ?_⟩
  cases hphase' : a.phase t with
  | blocked l₀ =>
      rw [hphase'] at h
      exact ⟨l₀, rfl, h⟩
  | _ =>
      rw [hphase'] at h
      exact h.elim

theorem leaving (hv : Views m c a) {r : Ret} (hphase : c.phase t = .leaving r) :
    c.owner = some t ∧ a.phase t = .left r ∧ c.value = a.value := by
  have howner : c.owner = some t := hv.owner_of_not_free (by rw [hphase]; exact id)
  have h := hv.owner t howner
  rw [hphase] at h
  refine ⟨howner, ?_⟩
  cases hphase' : a.phase t with
  | left r' =>
      rw [hphase'] at h
      obtain ⟨rfl, hvalue⟩ := h
      exact ⟨rfl, hvalue⟩
  | _ =>
      rw [hphase'] at h
      exact h.elim

end Views

section Linearizable

variable [DecidableEq ι] {m : Monitor Op Local Ret S} {c : Locked ι Local Ret S}
  {a : Shared ι Local Ret S} {t : ι}

/-- A step of a thread that has not the mutex. -/
theorem Views.set (hv : Views m c a) (hfree : (c.phase t).Free) {phase : Phase Local Ret}
    (hphase : phase.Free) : Views m ⟨c.set t phase, c.owner⟩ (a.set t phase) where
  free u := by
    by_cases hu : u = t
    · subst hu
      simpa [Shared.set] using hphase
    · simpa [Shared.set, hu] using hv.free u
  others u hu := by
    by_cases hut : u = t
    · subst hut
      simp [Shared.set]
    · simpa [Shared.set, hut] using hv.others u hu
  value := hv.value
  owner u hu := by
    have hut : u ≠ t := by
      rintro rfl
      exact hv.not_owner hfree hu
    simpa [Shared.set, hut] using hv.owner u hu

/-- A step of a thread that takes the mutex, or has it. -/
theorem Views.own (hv : Views m c a) (howner : c.owner = none ∨ c.owner = some t)
    {phase phase' : Phase Local Ret} {value value' : S} (hphase : phase'.Free)
    (hown : Owner m value value' phase phase') :
    Views m ⟨{ c.set t phase with value := value }, some t⟩
      { a.set t phase' with value := value' } where
  free u := by
    by_cases hu : u = t
    · subst hu
      simpa [Shared.set] using hphase
    · simpa [Shared.set, hu] using hv.free u
  others u hu := by
    have hut : u ≠ t := by
      rintro rfl
      exact hu rfl
    have hnot : c.owner ≠ some u := by
      rcases howner with hnone | hsome
      · simp [hnone]
      · simpa [hsome] using hut.symm
    simpa [Shared.set, hut] using hv.others u hnot
  value h := nomatch h
  owner u hu := by
    obtain rfl := Option.some.inj hu
    simpa [Shared.set] using hown

/-- A step of the owner, which releases the mutex. -/
theorem Views.disown (hv : Views m c a) (howner : c.owner = some t) {phase : Phase Local Ret}
    (hphase : phase.Free) (value : S) :
    Views m ⟨{ c.set t phase with value := value }, none⟩
      { a.set t phase with value := value } where
  free u := by
    by_cases hu : u = t
    · subst hu
      simpa [Shared.set] using hphase
    · simpa [Shared.set, hu] using hv.free u
  others u _ := by
    by_cases hut : u = t
    · subst hut
      simp [Shared.set]
    · have hnot : c.owner ≠ some u := by simpa [howner] using fun h : t = u => hut h.symm
      simpa [Shared.set, hut] using hv.others u hnot
  value _ := rfl
  owner _ h := nomatch h

theorem Shared.set_self {phase : Phase Local Ret} (h : a.phase t = phase) : a.set t phase = a := by
  rw [← h, Shared.set, Function.update_eq_self]

variable [Fintype ι] [DecidableEq Ret] {whole : Local → S → Outcome Local Ret × S}

/-- An event looks the same in both views. -/
theorem Views.event (hv : Views m c a) {e : Event ι Op Ret} {d : Shared ι Local Ret S}
    (h : Notice m c.toShared e d) : ∃ d', m.event a e = some d' ∧ Views m ⟨d, c.owner⟩ d' := by
  -- whoever calls, returns or waits has not the mutex
  have hset : ∀ t phase phase', c.phase t = phase → phase.Free → phase'.Free →
      a.phase t = phase ∧ Views m ⟨c.set t phase', c.owner⟩ (a.set t phase') := by
    rintro t phase phase' rfl hfree hphase
    exact ⟨hv.phase_eq hfree, hv.set hfree hphase⟩
  cases h with
  | call t op houtside =>
      obtain ⟨houtside', hviews⟩ := hset t .outside (.blocked (m.enter op)) houtside trivial trivial
      exact ⟨_, m.event_iff.mpr (.call t op houtside'), hviews⟩
  | wake t timedOut l hwaiting =>
      obtain ⟨hwaiting', hviews⟩ :=
        hset t (.waiting l) (.blocked (m.resume l timedOut)) hwaiting trivial trivial
      exact ⟨_, m.event_iff.mpr (.wake t timedOut l hwaiting'), hviews⟩
  | notify t target l houtside hwaiting =>
      obtain ⟨houtside', -⟩ := hset t .outside .outside houtside trivial trivial
      obtain ⟨hwaiting', hviews⟩ :=
        hset target (.waiting l) (.blocked (m.resume l false)) hwaiting trivial trivial
      exact ⟨_, m.event_iff.mpr (.notify t target l houtside' hwaiting'), hviews⟩
  | nobody t houtside hnone =>
      obtain ⟨houtside', -⟩ := hset t .outside .outside houtside trivial trivial
      have hnone' : ∀ u, ¬ (a.phase u).Waits := fun u hu => hnone u (hv.waits_iff.mpr hu)
      exact ⟨a, m.event_iff.mpr (.nobody t houtside' hnone'), hv⟩
  | ret t r hleft =>
      obtain ⟨hleft', hviews⟩ := hset t (.left r) .outside hleft trivial trivial
      exact ⟨_, m.event_iff.mpr (.ret t r hleft'), hviews⟩

/-- A step is matched by an event, by nothing, or by the whole of what the owner of the mutex has
done. -/
theorem Views.step (hv : Views m c a) (hwhole : ∀ l s, m.whole l s = whole l s)
    {label : FineLabel ι Op Ret} {d : Locked ι Local Ret S} (h : Effect m c label d) :
    ∃ ks a', (m.atomic whole).Run (fun _ _ => True) a ks a'
      ∧ ks.filterMap AtomicLabel.event? = label.event?.toList ∧ Views m d a' := by
  cases h with
  | event e d hnotice =>
      obtain ⟨a', hevent, hviews⟩ := hv.event hnotice
      exact ⟨[.event e], a', .single trivial hevent, rfl, hviews⟩
  | acquire t l hblocked hnone =>
      have hphase := (hv.others t (by simp [hnone])).symm.trans hblocked
      have hviews := @Views.own _ _ _ _ _ _ m c a t hv (.inl hnone) (.inside l) (.blocked l)
        c.value a.value trivial (by rw [hv.value hnone]; rfl)
      rw [Shared.set_self hphase] at hviews
      exact ⟨[], a, .nil, rfl, hviews⟩
  | next t l l' s hinside hexec =>
      obtain ⟨howner, l₀, hblocked, hsame⟩ := hv.inside hinside
      rw [whole_next hexec] at hsame
      have hviews := @Views.own _ _ _ _ _ _ m c a t hv (.inr howner) (.inside l') (.blocked l₀)
        s a.value trivial hsame
      rw [Shared.set_self hblocked] at hviews
      rw [howner]
      exact ⟨[], a, .nil, rfl, hviews⟩
  | wait t l l' s hinside hexec =>
      obtain ⟨howner, l₀, hblocked, hsame⟩ := hv.inside hinside
      rw [whole_wait hexec, hwhole] at hsame
      have hfree : (Phase.waiting l' : Phase Local Ret).Free := trivial
      refine ⟨[.whole t], { a.set t (.waiting l') with value := s }, .single trivial ?_, rfl,
        hv.disown howner hfree s⟩
      simp only [atomic, hblocked, ← hsame]
  | done t l r s hinside hexec =>
      obtain ⟨howner, l₀, hblocked, hsame⟩ := hv.inside hinside
      rw [whole_done hexec, hwhole] at hsame
      refine ⟨[.whole t], { a.set t (.left r) with value := s }, .single trivial ?_, rfl, ?_⟩
      · simp only [atomic, hblocked, ← hsame]
      · rw [howner]
        exact hv.own (.inr howner) trivial ⟨rfl, rfl⟩
  | release t r hleaving =>
      obtain ⟨howner, hleft, hvalue⟩ := hv.leaving hleaving
      have hfree : (Phase.left r : Phase Local Ret).Free := trivial
      have hviews := hv.disown howner hfree a.value
      rw [Shared.set_self hleft] at hviews
      refine ⟨[], a, .nil, rfl, ?_⟩
      simpa [Shared.set, hvalue] using hviews

/-- **Nobody can tell the two views apart.** -/
theorem linearizable (hwhole : ∀ l s, m.whole l s = whole l s) {value : S}
    {ls : List (FineLabel ι Op Ret)}
    (h : m.fine.Run (fun _ _ => True) ⟨Shared.start value, none⟩ ls c) :
    ∃ ks a, (m.atomic whole).Run (fun _ _ => True) (Shared.start value) ks a
      ∧ ks.filterMap AtomicLabel.event? = ls.filterMap FineLabel.event? ∧ Views m c a := by
  have hstep : ∀ (c : Locked ι Local Ret S) label d (a : Shared ι Local Ret S), Views m c a → True →
      m.fine.step c label = some d → ∃ ks a', (m.atomic whole).Run (fun _ _ => True) a ks a'
        ∧ ks.filterMap AtomicLabel.event? = label.event?.toList ∧ Views m d a' :=
    fun _ _ _ _ hv _ h => Views.step hv hwhole (m.fine_step h)
  exact h.observed FineLabel.event? AtomicLabel.event? hstep (views_start m value)

end Linearizable

end Monitor
