import Iridium.JobUnitQueue
import Iridium.Lib.Monitor

/-!
# The job queue and its threads

`JobUnitQueue` with its lock and its condition variable, statement by statement. Elsewhere every
operation of it is one step. No thread can see the difference, whatever the others do meanwhile
(`operations_atomic`).

`put` does not notify, `post` of a transmitter does so after it. A job that comes in between these
two finds the worker awake, or wakes it (`no_lost_wakeup`).
-/

namespace Iridium.JobUnitQueue

open Monitor

variable {Job : Type}

/-- The operations that take the mutex. -/
inductive Op (Job : Type) where
  | put (job : Job)
  | get
  | unget (job : Job)
  | waitFor
  | clear
  | size
  deriving DecidableEq, Repr

/-- What they return. -/
inductive Ret (Job : Type) where
  | unit
  | job (job : Job)
  | timedOut (b : Bool)
  | size (n : Nat)
  deriving DecidableEq, Repr

/-- The next statement. `front` and `pop` are those in the branch of `get`; `woken` is behind the
wait. -/
inductive Place (Job : Type) where
  | put (job : Job)
  | get
  | front
  | pop (job : Job)
  | unget (job : Job)
  | waitFor
  | woken (timedOut : Bool)
  | clear
  | size
  deriving DecidableEq, Repr

def Op.place : Op Job → Place Job
  | .put job => .put job
  | .get => .get
  | .unget job => .unget job
  | .waitFor => .waitFor
  | .clear => .clear
  | .size => .size

section Statements

variable [Inhabited Job]

def exec : Place Job → JobUnitQueue Job → Outcome (Place Job) (Ret Job) × JobUnitQueue Job
  | .put job, q => (.done .unit, ⟨q.jobs ++ [job]⟩)
  | .get, q => if q.jobs ≠ [] then (.next .front, q) else (.done (.job default), q)
  | .front, q => (.next (.pop (q.jobs.headD default)), q)
  | .pop job, q => (.done (.job job), ⟨q.jobs.tail⟩)
  | .unget job, q => (.done .unit, ⟨job :: q.jobs⟩)
  | .waitFor, q => if q.jobs ≠ [] then (.done (.timedOut false), q) else (.wait .waitFor, q)
  | .woken timedOut, q => (.done (.timedOut timedOut), q)
  | .clear, _ => (.done .unit, ⟨[]⟩)
  | .size, q => (.done (.size q.jobs.length), q)

theorem exec_next {l l' : Place Job} {q q' : JobUnitQueue Job} (h : exec l q = (.next l', q')) :
    q' = q ∧ (l = .get ∧ l' = .front ∨ ∃ job, l = .front ∧ l' = .pop job) := by
  cases l with
  | get =>
      simp only [exec] at h
      split at h
      · cases h
        exact ⟨rfl, .inl ⟨rfl, rfl⟩⟩
      · cases h
  | front =>
      cases h
      exact ⟨rfl, .inr ⟨_, rfl, rfl⟩⟩
  | waitFor =>
      simp only [exec] at h
      split at h <;> cases h
  | _ => cases h

theorem exec_wait {l l' : Place Job} {q q' : JobUnitQueue Job} (h : exec l q = (.wait l', q')) :
    l = .waitFor ∧ q' = q ∧ q.jobs = [] := by
  cases l with
  | waitFor =>
      simp only [exec] at h
      split at h
      · cases h
      · next hempty =>
          cases h
          exact ⟨rfl, rfl, not_not.mp hempty⟩
  | get =>
      simp only [exec] at h
      split at h <;> cases h
  | _ => cases h

/-- How many statements may follow. -/
def Place.length : Place Job → Nat
  | .get => 2
  | .front => 1
  | .put _ | .pop _ | .unget _ | .waitFor | .woken _ | .clear | .size => 0

def monitor : Monitor (Op Job) (Place Job) (Ret Job) (JobUnitQueue Job) where
  enter := Op.place
  exec := exec
  resume _ timedOut := .woken timedOut
  length := Place.length
  length_next l q l' q' h := by
    obtain ⟨-, ⟨rfl, rfl⟩ | ⟨job, rfl, rfl⟩⟩ := exec_next h
    · exact Nat.lt_succ_self 1
    · exact Nat.zero_lt_one

/-- An operation as one step, or what is left of it. -/
def operation : Place Job → JobUnitQueue Job → Outcome (Place Job) (Ret Job) × JobUnitQueue Job
  | .put job, q => (.done .unit, q.put job)
  | .get, q => (.done (.job q.get.1), q.get.2)
  | .front, q => (.done (.job (q.jobs.headD default)), ⟨q.jobs.tail⟩)
  | .pop job, q => (.done (.job job), ⟨q.jobs.tail⟩)
  | .unget job, q => (.done .unit, q.unget job)
  | .waitFor, q =>
    match q.waitFor with
    | some b => (.done (.timedOut b), q)
    | none => (.wait .waitFor, q)
  | .woken timedOut, q => (.done (.timedOut timedOut), q)
  | .clear, q => (.done .unit, q.clear)
  | .size, q => (.done (.size q.jobs.length), q)

theorem whole_pop (job : Job) (q : JobUnitQueue Job) :
    monitor.whole (.pop job) q = (.done (.job job), ⟨q.jobs.tail⟩) := whole_done rfl

theorem whole_front (q : JobUnitQueue Job) :
    monitor.whole .front q = (.done (.job (q.jobs.headD default)), ⟨q.jobs.tail⟩) := by
  have hnext : monitor.exec .front q = (.next (.pop (q.jobs.headD default)), q) := rfl
  rw [whole_next hnext, whole_pop]

theorem whole_get (q : JobUnitQueue Job) :
    monitor.whole .get q = (.done (.job q.get.1), q.get.2) := by
  obtain ⟨jobs⟩ := q
  cases jobs with
  | nil => exact whole_done rfl
  | cons job jobs =>
      have hnext : monitor.exec .get ⟨job :: jobs⟩ = (.next .front, ⟨job :: jobs⟩) := rfl
      rw [whole_next hnext, whole_front]
      rfl

theorem whole_waitFor (q : JobUnitQueue Job) :
    monitor.whole .waitFor q = operation .waitFor q := by
  obtain ⟨jobs⟩ := q
  cases jobs with
  | nil => exact whole_wait rfl
  | cons job jobs => exact whole_done rfl

theorem whole_eq (l : Place Job) (q : JobUnitQueue Job) : monitor.whole l q = operation l q := by
  cases l with
  | get => exact whole_get q
  | front => exact whole_front q
  | waitFor => exact whole_waitFor q
  | put job => exact whole_done rfl
  | pop job => exact whole_pop job q
  | unget job => exact whole_done rfl
  | woken timedOut => exact whole_done rfl
  | clear => exact whole_done rfl
  | size => exact whole_done rfl

end Statements

variable {ι : Type}

/-- No jobs, and no thread in an operation. -/
def idle : Locked ι (Place Job) (Ret Job) (JobUnitQueue Job) := ⟨Shared.start ⟨[]⟩, none⟩

section Atomic

variable [DecidableEq ι] [Fintype ι] [DecidableEq Job] [Inhabited Job]

/-- **Each operation of the queue is one step**, for all that its threads can see: their calls, their
results, and when they wait. -/
theorem operations_atomic {ls : List (FineLabel ι (Op Job) (Ret Job))}
    {c : Locked ι (Place Job) (Ret Job) (JobUnitQueue Job)}
    (h : monitor.fine.Run (fun _ _ => True) idle ls c) :
    ∃ ks a, (monitor.atomic operation).Run (fun _ _ => True) (Shared.start ⟨[]⟩) ks a
      ∧ ks.filterMap AtomicLabel.event? = ls.filterMap FineLabel.event?
      ∧ (c.owner = none → c.value = a.value)
      ∧ ∀ t, c.owner ≠ some t → c.phase t = a.phase t := by
  obtain ⟨ks, a, hrun, hevents, hviews⟩ := linearizable whole_eq h
  exact ⟨ks, a, hrun, hevents, hviews.value, hviews.others⟩

/-- One thread puts a job while another is in the middle of `get`. -/
def overlapping : List (FineLabel Bool (Op Nat) (Ret Nat)) :=
  [.event (.call true (.put 5)), .acquire true, .exec true, .release true,
    .event (.ret true .unit), .event (.call false .get), .acquire false, .exec false, .exec false,
    .event (.call true (.put 6)), .exec false, .release false, .acquire true,
    .event (.ret false (.job 5)), .exec true]

example :
    ∃ c : Locked Bool (Place Nat) (Ret Nat) (JobUnitQueue Nat),
      monitor.fine.Run (fun _ _ => True) idle overlapping c
      ∧ c.value = ⟨[6]⟩
      ∧ ∃ ks a, (monitor.atomic operation).Run (fun _ _ => True) (Shared.start ⟨[]⟩) ks a
        ∧ ks.filterMap AtomicLabel.event? = overlapping.filterMap FineLabel.event?
        ∧ a.phase false = .outside := by
  obtain ⟨c, hrun, hvalue, howner, hphase⟩ := @System.exists_run_of_exec
    (Locked Bool (Place Nat) (Ret Nat) (JobUnitQueue Nat)) _ monitor.fine (fun _ _ => True) _
    idle overlapping
    (fun c => c.value = ⟨[6]⟩ ∧ c.owner ≠ some false ∧ c.phase false = .outside) _
    (by decide +kernel)
  obtain ⟨ks, a, hrun', hevents, -, hothers⟩ := operations_atomic hrun
  exact ⟨c, hrun, hvalue, ks, a, hrun', hevents, (hothers false howner).symm.trans hphase⟩

end Atomic

/-! ## Wake-ups -/

/-- About to wait, or waiting. -/
def Dozes (phase : Phase (Place Job) (Ret Job)) : Prop :=
  phase.place? = some .waitFor ∨ phase.Waits

instance [DecidableEq Job] (phase : Phase (Place Job) (Ret Job)) : Decidable (Dozes phase) :=
  inferInstanceAs (Decidable (_ ∨ _))

/-- About to put a job back. -/
def Ungets (phase : Phase (Place Job) (Ret Job)) : Prop :=
  phase.place?.any (fun | .unget _ => true | _ => false) = true

instance (phase : Phase (Place Job) (Ret Job)) : Decidable (Ungets phase) :=
  inferInstanceAs (Decidable (_ = true))

theorem ungets_of_place {phase : Phase (Place Job) (Ret Job)} {job : Job}
    (h : phase.place? = some (.unget job)) : Ungets phase := by
  rw [Ungets, h]
  rfl

/-- How a transmitter uses its queue. What `post` does besides `put` is to notify; only the worker
waits, and no job is put back while it does. -/
def Used (worker : ι) (s : Locked ι (Place Job) (Ret Job) (JobUnitQueue Job) × (ι → Bool)) :
    FineLabel ι (Op Job) (Ret Job) → Prop
  | .event (.call t op) => s.2 t = false ∧
    match op with
    | .waitFor => t = worker ∧ ∀ u, ¬ Ungets (s.1.phase u)
    | .unget _ => ¬ Dozes (s.1.phase worker)
    | _ => True
  | _ => True

instance [DecidableEq ι] [Fintype ι] [DecidableEq Job] (worker : ι)
    (s : Locked ι (Place Job) (Ret Job) (JobUnitQueue Job) × (ι → Bool)) :
    DecidablePred (Used worker s)
  | .event (.call _ op) =>
    match op with
    | .waitFor => inferInstanceAs (Decidable (_ ∧ _ ∧ _))
    | .unget _ => inferInstanceAs (Decidable (_ ∧ ¬ _))
    | .put _ | .get | .clear | .size => inferInstanceAs (Decidable (_ ∧ True))
  | .event (.wake _ _) | .event (.notify _ _) | .event (.ret _ _) => inferInstanceAs (Decidable True)
  | .acquire _ | .exec _ | .release _ => inferInstanceAs (Decidable True)

/-- Has put its job, and has still to notify. -/
def Owes (s : Locked ι (Place Job) (Ret Job) (JobUnitQueue Job) × (ι → Bool)) (t : ι) : Prop :=
  s.2 t = true ∧ ∀ job, (s.1.phase t).place? ≠ some (.put job)

/-- What holds while the queue is used so. -/
structure Awake (worker : ι)
    (s : Locked ι (Place Job) (Ret Job) (JobUnitQueue Job) × (ι → Bool)) : Prop where
  posts : ∀ t job, (s.1.phase t).place? = some (.put job) → s.2 t = true
  dozes : ∀ t, Dozes (s.1.phase t) → t = worker
  ungets : ∀ t job, (s.1.phase t).place? = some (.unget job) → ¬ Dozes (s.1.phase worker)
  awake : (s.1.phase worker).Waits → s.1.value.jobs ≠ [] → ∃ t, Owes s t

theorem awake_idle (worker : ι) : Awake worker ((idle, fun _ => false) :
    Locked ι (Place Job) (Ret Job) (JobUnitQueue Job) × (ι → Bool)) where
  posts := nofun
  dozes _ h := by rcases h with h | h <;> cases h
  ungets := nofun
  awake h := h.elim

variable {worker : ι} {s s' : Locked ι (Place Job) (Ret Job) (JobUnitQueue Job) × (ι → Bool)}

/-- What the last statement of an operation does to the queue. -/
theorem Awake.done [Inhabited Job] (hs : Awake worker s) {t : ι} {l : Place Job} {r : Ret Job}
    {q : JobUnitQueue Job} (hinside : s.1.phase t = .inside l)
    (hexec : exec l s.1.value = (.done r, q)) (hwaits : (s.1.phase worker).Waits)
    (hjobs : q.jobs ≠ []) : s.1.value.jobs ≠ [] ∨ s.2 t = true := by
  have hplace : (s.1.phase t).place? = some l := by rw [hinside]; rfl
  cases l with
  | put job => exact .inr (hs.posts t job hplace)
  | unget job => exact absurd (.inr hwaits) (hs.ungets t job hplace)
  | pop job =>
      cases hexec
      refine .inl fun h => hjobs ?_
      rw [h, List.tail_nil]
  | get =>
      simp only [exec] at hexec
      split at hexec
      · cases hexec
      · cases hexec
        exact .inl hjobs
  | waitFor =>
      simp only [exec] at hexec
      split at hexec
      · cases hexec
        exact .inl hjobs
      · cases hexec
  | clear =>
      cases hexec
      exact absurd rfl hjobs
  | front => cases hexec
  | woken timedOut =>
      cases hexec
      exact .inl hjobs
  | size =>
      cases hexec
      exact .inl hjobs

section WakeUps

variable [DecidableEq ι]

/-- The threads that have called `put` and have not notified since, after a step. -/
def posted : FineLabel ι (Op Job) (Ret Job) → (ι → Bool) → ι → Bool
  | .event (.call t (.put _)), posts => Function.update posts t true
  | .event (.notify t _), posts => Function.update posts t false
  | _, posts => posts

/-- The queue with its threads, and the ones of them that are posting. -/
def system [Fintype ι] [DecidableEq Job] [Inhabited Job] :
    System (Locked ι (Place Job) (Ret Job) (JobUnitQueue Job) × (ι → Bool))
      (FineLabel ι (Op Job) (Ret Job)) :=
  monitor.fine.withHistory fun _ label _ => posted label

/-- A step of one thread that is not about to put a job, put one back or wait, after it. -/
theorem Awake.set (hs : Awake worker s) {t : ι} {phase : Phase (Place Job) (Ret Job)}
    {value : JobUnitQueue Job} {owner : Option ι}
    (hplace : ∀ l, phase.place? = some l → (s.1.phase t).place? = some l
      ∨ ((∀ job, l ≠ .put job) ∧ (∀ job, l ≠ .unget job) ∧ l ≠ .waitFor))
    (hwaits : ¬ phase.Waits)
    (hvalue : (s.1.phase worker).Waits → value.jobs ≠ [] →
      s.1.value.jobs ≠ [] ∨ s.2 t = true ∧ ∀ job, phase.place? ≠ some (.put job)) :
    Awake worker (⟨{ s.1.set t phase with value := value }, owner⟩, s.2) := by
  have hphase : ∀ u l, (Function.update s.1.phase t phase u).place? = some l →
      (s.1.phase u).place? = some l
        ∨ ((∀ job, l ≠ .put job) ∧ (∀ job, l ≠ .unget job) ∧ l ≠ .waitFor) := by
    intro u l h
    by_cases hu : u = t
    · subst hu
      rw [Function.update_self] at h
      exact hplace l h
    · rw [Function.update_of_ne hu] at h
      exact .inl h
  have hsleeps : ∀ u, (Function.update s.1.phase t phase u).Waits → (s.1.phase u).Waits := by
    intro u h
    by_cases hu : u = t
    · subst hu
      rw [Function.update_self] at h
      exact absurd h hwaits
    · rwa [Function.update_of_ne hu] at h
  have hdozes : ∀ u, Dozes (Function.update s.1.phase t phase u) → Dozes (s.1.phase u) := by
    rintro u (h | h)
    · rcases hphase u _ h with hbefore | ⟨-, -, hnot⟩
      · exact .inl hbefore
      · exact absurd rfl hnot
    · exact .inr (hsleeps u h)
  refine ⟨?_, fun u h => hs.dozes u (hdozes u h), ?_, ?_⟩
  · intro u job h
    rcases hphase u _ h with hbefore | ⟨hnot, -, -⟩
    · exact hs.posts u job hbefore
    · exact absurd rfl (hnot job)
  · intro u job h hdoze
    rcases hphase u _ h with hbefore | ⟨-, hnot, -⟩
    · exact hs.ungets u job hbefore (hdozes worker hdoze)
    · exact absurd rfl (hnot job)
  · intro h hjobs
    have hwaited := hsleeps worker h
    rcases hvalue hwaited hjobs with hbefore | ⟨hpost, hplace⟩
    · obtain ⟨u, hpost, hplace⟩ := hs.awake hwaited hbefore
      refine ⟨u, hpost, fun job h => ?_⟩
      rcases hphase u _ h with hbefore | ⟨hnot, -, -⟩
      · exact hplace job hbefore
      · exact hnot job rfl
    · refine ⟨t, hpost, fun job => ?_⟩
      show (Function.update s.1.phase t phase t).place? ≠ _
      rw [Function.update_self]
      exact hplace job

theorem not_dozes_blocked {l : Place Job} (h : l ≠ .waitFor) :
    ¬ Dozes (.blocked l : Phase (Place Job) (Ret Job)) := by
  rintro (hplace | hwaits)
  · exact h (Option.some.inj hplace)
  · exact hwaits

theorem Awake.call (hs : Awake worker s) {t : ι} {op : Op Job}
    (hused : Used worker s (.event (.call t op))) (houtside : s.1.phase t = .outside) :
    Awake worker (⟨s.1.set t (.blocked op.place), s.1.owner⟩,
      posted (.event (.call t op)) s.2) := by
  obtain ⟨hnone, hop⟩ := hused
  have hposts : ∀ u, s.2 u = true → posted (.event (.call t op)) s.2 u = true := by
    intro u hu
    cases op with
    | put job =>
        by_cases hut : u = t
        · subst hut
          exact Function.update_self ..
        · exact (Function.update_of_ne hut ..).trans hu
    | _ => exact hu
  have hself : Function.update s.1.phase t (.blocked op.place) t = .blocked op.place :=
    Function.update_self ..
  have hother : ∀ u, u ≠ t → Function.update s.1.phase t (.blocked op.place) u = s.1.phase u :=
    fun u hu => Function.update_of_ne hu ..
  refine ⟨?_, ?_, ?_, ?_⟩
  · intro u job h
    show posted (.event (.call t op)) s.2 u = true
    simp only [Shared.set] at h
    by_cases hu : u = t
    · subst hu
      rw [hself] at h
      cases op <;> cases h
      exact Function.update_self ..
    · rw [hother u hu] at h
      exact hposts u (hs.posts u job h)
  · intro u h
    simp only [Shared.set] at h
    by_cases hu : u = t
    · subst hu
      rw [hself] at h
      cases op with
      | waitFor => exact hop.1
      | _ => exact absurd h (not_dozes_blocked (by simp [Op.place]))
    · rw [hother u hu] at h
      exact hs.dozes u h
  · intro u job h hdoze
    simp only [Shared.set] at h hdoze
    by_cases hworker : worker = t
    · -- it is the worker that calls
      subst hworker
      rw [hself] at hdoze
      cases op with
      | waitFor =>
          by_cases hu : u = worker
          · subst hu
            rw [hself] at h
            cases h
          · rw [hother u hu] at h
            exact hop.2 u (ungets_of_place h)
      | _ => exact absurd hdoze (not_dozes_blocked (by simp [Op.place]))
    · rw [hother worker hworker] at hdoze
      by_cases hu : u = t
      · subst hu
        rw [hself] at h
        cases op <;> cases h
        exact hop hdoze
      · rw [hother u hu] at h
        exact hs.ungets u job h hdoze
  · intro h hjobs
    simp only [Shared.set] at h
    by_cases hworker : worker = t
    · subst hworker
      rw [hself] at h
      exact h.elim
    · rw [hother worker hworker] at h
      obtain ⟨u, hpost, hplace⟩ := hs.awake h hjobs
      have hu : u ≠ t := by
        rintro rfl
        exact absurd (hpost.symm.trans hnone) (by decide)
      refine ⟨u, hposts u hpost, fun job => ?_⟩
      show (Function.update s.1.phase t _ u).place? ≠ _
      rw [hother u hu]
      exact hplace job

/-- A notification goes to the worker, or the worker does not wait. -/
theorem Awake.notify (hs : Awake worker s) {t : ι} (houtside : s.1.phase t = .outside)
    {phase : ι → Phase (Place Job) (Ret Job)} {owner : Option ι}
    (hphase : ∀ u, phase u = s.1.phase u ∨ ∃ b, phase u = .blocked (.woken b))
    (hawake : ¬ (phase worker).Waits) (hstays : phase t = .outside) :
    Awake worker (⟨⟨s.1.value, phase⟩, owner⟩, Function.update s.2 t false) := by
  have hdozes : ∀ u, Dozes (phase u) → Dozes (s.1.phase u) := by
    intro u h
    rcases hphase u with heq | ⟨b, heq⟩ <;> rw [heq] at h
    · exact h
    · exact absurd h (not_dozes_blocked nofun)
  refine ⟨?_, fun u h => hs.dozes u (hdozes u h), ?_, fun h => absurd h hawake⟩
  · intro u job h
    dsimp only at h
    have hu : u ≠ t := by
      rintro rfl
      rw [hstays] at h
      cases h
    show Function.update s.2 t false u = true
    rw [Function.update_of_ne hu]
    rcases hphase u with heq | ⟨b, heq⟩ <;> rw [heq] at h
    · exact hs.posts u job h
    · cases h
  · intro u job h hdoze
    dsimp only at h hdoze
    rcases hphase u with heq | ⟨b, heq⟩ <;> rw [heq] at h
    · exact hs.ungets u job h (hdozes worker hdoze)
    · cases h

variable [Inhabited Job]

/-- The worker begins to wait. -/
theorem Awake.wait (hs : Awake worker s) {t : ι} {l l' : Place Job} {q : JobUnitQueue Job}
    (hinside : s.1.phase t = .inside l) (hexec : exec l s.1.value = (.wait l', q)) :
    Awake worker (⟨{ s.1.set t (.waiting l') with value := q }, none⟩, s.2) := by
  obtain ⟨rfl, rfl, hempty⟩ := exec_wait hexec
  have hdoze : Dozes (s.1.phase t) := .inl (by rw [hinside]; rfl)
  obtain rfl := hs.dozes t hdoze
  have hother : ∀ u, u ≠ t → Function.update s.1.phase t (.waiting l') u = s.1.phase u :=
    fun u hu => Function.update_of_ne hu ..
  have hplace : ∀ u l, (Function.update s.1.phase t (.waiting l') u).place? = some l →
      (s.1.phase u).place? = some l := by
    intro u l h
    by_cases hu : u = t
    · subst hu
      rw [Function.update_self] at h
      cases h
    · rwa [hother u hu] at h
  refine ⟨fun u job h => hs.posts u job (hplace u _ h), ?_, ?_, fun _ h => absurd hempty h⟩
  · intro u h
    by_contra hu
    simp only [Shared.set, hother u hu] at h
    exact hu (hs.dozes u h)
  · intro u job h _
    exact hs.ungets u job (hplace u _ h) hdoze

theorem Awake.event (hs : Awake worker s) {e : Event ι (Op Job) (Ret Job)}
    {d : Shared ι (Place Job) (Ret Job) (JobUnitQueue Job)} (hused : Used worker s (.event e))
    (h : Notice monitor s.1.toShared e d) :
    Awake worker (⟨d, s.1.owner⟩, posted (.event e) s.2) := by
  cases h with
  | call t op houtside => exact hs.call hused houtside
  | wake t timedOut l hwaiting =>
      refine hs.set ?_ id fun _ hjobs => .inl hjobs
      intro l h
      cases h
      exact .inr ⟨nofun, nofun, nofun⟩
  | notify t target l houtside hwaiting =>
      have htarget : target = worker := hs.dozes target (.inr (by rw [hwaiting]; trivial))
      have hne : t ≠ target := by
        rintro rfl
        rw [hwaiting] at houtside
        cases houtside
      refine hs.notify houtside ?_ ?_ ((Function.update_of_ne hne ..).trans houtside)
      · intro u
        by_cases hu : u = target
        · subst hu
          exact .inr ⟨false, Function.update_self ..⟩
        · exact .inl (Function.update_of_ne hu ..)
      · subst htarget
        simp only [Function.update_self]
        exact id
  | nobody t houtside hnone =>
      exact hs.notify houtside (fun u => .inl rfl) (hnone worker) houtside
  | ret t r hleft =>
      refine hs.set ?_ id fun _ hjobs => .inl hjobs
      intro l h
      cases h

variable [Fintype ι] [DecidableEq Job]

theorem awake_step (hs : Awake worker s) {label : FineLabel ι (Op Job) (Ret Job)}
    (hused : Used worker s label)
    (h : system.step s label = some s') : Awake worker s' := by
  obtain ⟨hstep, hposting⟩ := System.withHistory_step h
  obtain ⟨d, posts⟩ := s'
  dsimp only at hstep hposting
  subst hposting
  cases monitor.fine_step hstep with
  | event e d hnotice => exact hs.event hused hnotice
  | acquire t l hblocked hnone =>
      refine hs.set ?_ id fun _ hjobs => .inl hjobs
      intro l' h
      rw [hblocked]
      exact .inl h
  | next t l l' q hinside hexec =>
      obtain ⟨rfl, hnext⟩ := exec_next hexec
      refine hs.set ?_ id fun _ hjobs => .inl hjobs
      intro l'' h
      cases h
      rcases hnext with ⟨-, rfl⟩ | ⟨job, -, rfl⟩
      · exact .inr ⟨nofun, nofun, nofun⟩
      · exact .inr ⟨nofun, nofun, nofun⟩
  | wait t l l' q hinside hexec => exact hs.wait hinside hexec
  | done t l r q hinside hexec =>
      refine hs.set nofun id fun hwaits hjobs => ?_
      rcases hs.done hinside hexec hwaits hjobs with hbefore | hpost
      · exact .inl hbefore
      · exact .inr ⟨hpost, nofun⟩
  | release t r hleaving =>
      refine hs.set ?_ id fun _ hjobs => .inl hjobs
      intro l' h
      cases h

/-- **No wake-up is lost.** When the worker waits although there are jobs, one of the threads that
have put them has still to notify it. -/
theorem no_lost_wakeup {ls : List (FineLabel ι (Op Job) (Ret Job))} {posts : ι → Bool}
    {c : Locked ι (Place Job) (Ret Job) (JobUnitQueue Job)}
    (h : system.Run (Used worker) (idle, fun _ => false) ls (c, posts))
    (hwaits : (c.phase worker).Waits) (hjobs : c.value.jobs ≠ []) : ∃ t, Owes (c, posts) t :=
  (h.invariant (fun _ _ _ hs hused hstep => awake_step hs hused hstep)
    (awake_idle worker)).awake hwaits hjobs

/-- The worker has begun to wait before a job is put. -/
def late : List (FineLabel Bool (Op Nat) (Ret Nat)) :=
  [.event (.call true (.put 5)), .event (.call false .waitFor), .acquire false, .exec false,
    .acquire true, .exec true, .release true]

example :
    ∃ (c : Locked Bool (Place Nat) (Ret Nat) (JobUnitQueue Nat)) (posts : Bool → Bool),
      system.Run (Used false) (idle, fun _ => false) late (c, posts)
      ∧ (c.phase false).Waits ∧ c.value = ⟨[5]⟩ ∧ ∃ t, Owes (c, posts) t := by
  obtain ⟨⟨c, posts⟩, hrun, hwaits, hvalue⟩ := @System.exists_run_of_exec _ _
    (system : System (Locked Bool (Place Nat) (Ret Nat) (JobUnitQueue Nat) × (Bool → Bool)) _)
    (Used false) _ (idle, fun _ => false) late
    (fun s => (s.1.phase false).Waits ∧ s.1.value = ⟨[5]⟩) _ (by decide +kernel)
  have hjobs : c.value.jobs ≠ [] := by
    rw [hvalue]
    exact List.cons_ne_nil 5 []
  exact ⟨c, posts, hrun, hwaits, hvalue, no_lost_wakeup hrun hwaits hjobs⟩

end WakeUps

end Iridium.JobUnitQueue
