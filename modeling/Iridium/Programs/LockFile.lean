import Iridium.Lib.Transition
import Mathlib.Logic.Function.Basic

/-!
# The lock file

`LockFile` of the programs in `examples/modem`, and how they use it: a program looks for the file until
there is none, creates it, uses the device, and removes the file at its end if it was created. The
programs run at the same time, and any of them may be killed.

`create` says nothing when it fails, and the programs do not ask. So a device is used by one of them at
a time exactly as long as no `create` finds a file that was not there before (`exclusive_iff`). A file
that a killed program leaves behind is never removed (`stale_blocks`).
-/

namespace Iridium

/-- Where a program is: looking for the file, about to create it, or using the device, having created
the file or not. -/
inductive Program where
  | looking | creating
  | working (created : Bool)
  deriving DecidableEq, Repr

/-- The file, and the programs. -/
structure LockFile (ι : Type) where
  present : Bool := false
  program : ι → Program := fun _ => .looking

namespace LockFile

variable {ι : Type}

inductive Label (ι : Type) where
  | look (i : ι)
  /-- `denied`: the file cannot be opened, be it there or not. -/
  | create (i : ι) (denied : Bool)
  /-- The end of the program, or of the block of the lock. It may be started again. -/
  | quit (i : ι)
  /-- The end without a destructor, or before the file is created. -/
  | kill (i : ι)
  deriving DecidableEq, Repr

section Steps

variable [DecidableEq ι]

def set (s : LockFile ι) (i : ι) (program : Program) : LockFile ι :=
  { s with program := Function.update s.program i program }

def step (s : LockFile ι) : Label ι → Option (LockFile ι)
  | .look i =>
    if s.program i = .looking then some (if s.present then s else s.set i .creating) else none
  | .create i denied =>
    if s.program i = .creating then
      -- `O_CREAT | O_EXCL`
      if s.present || denied then some (s.set i (.working false))
      else some { s.set i (.working true) with present := true }
    else none
  | .quit i =>
    match s.program i with
    | .working created =>
      some { s.set i .looking with present := if created then false else s.present }
    | _ => none
  | .kill i => if s.program i = .looking then none else some (s.set i .looking)

def system : System (LockFile ι) (Label ι) := ⟨step⟩

variable {s t : LockFile ι} {label : Label ι} {ls : List (Label ι)}

/-! ## What a step does -/

inductive Effect (s : LockFile ι) : Label ι → LockFile ι → Prop where
  | wait (i : ι) (hlooking : s.program i = .looking) (hpresent : s.present = true) :
      Effect s (.look i) s
  | acquire (i : ι) (hlooking : s.program i = .looking) (habsent : s.present = false) :
      Effect s (.look i) (s.set i .creating)
  | fail (i : ι) (denied : Bool) (hcreating : s.program i = .creating)
      (hfails : s.present = true ∨ denied = true) :
      Effect s (.create i denied) (s.set i (.working false))
  | create (i : ι) (hcreating : s.program i = .creating) (habsent : s.present = false) :
      Effect s (.create i false) { s.set i (.working true) with present := true }
  | remove (i : ι) (hworking : s.program i = .working true) :
      Effect s (.quit i) { s.set i .looking with present := false }
  | leave (i : ι) (hworking : s.program i = .working false) : Effect s (.quit i) (s.set i .looking)
  | kill (i : ι) (hrunning : s.program i ≠ .looking) : Effect s (.kill i) (s.set i .looking)

theorem step_effect (h : step s label = some t) : Effect s label t := by
  cases label with
  | look i =>
      simp only [step] at h
      split at h
      · next hlooking =>
          cases h
          split
          · next hpresent => exact .wait i hlooking hpresent
          · next habsent => exact .acquire i hlooking (by simpa using habsent)
      · cases h
  | create i denied =>
      simp only [step] at h
      split at h
      · next hcreating =>
          split at h
          · next hfails =>
              cases h
              exact .fail i denied hcreating (by simpa using hfails)
          · next hfree =>
              cases h
              rw [Bool.or_eq_true, not_or, Bool.not_eq_true, Bool.not_eq_true] at hfree
              obtain ⟨habsent, rfl⟩ := hfree
              exact .create i hcreating habsent
      · cases h
  | quit i =>
      simp only [step] at h
      split at h
      · next created hworking =>
          cases h
          cases created with
          | true => exact .remove i hworking
          | false => exact .leave i hworking
      · cases h
  | kill i =>
      simp only [step] at h
      split at h
      · cases h
      · next hrunning =>
          cases h
          exact .kill i hrunning

/-- The program that a step is about, and where it is then; the others stay where they are. -/
theorem program_set (s : LockFile ι) (i j : ι) (program : Program) :
    (s.set i program).program j = if j = i then program else s.program j :=
  Function.update_apply ..

@[simp] theorem present_set (s : LockFile ι) (i : ι) (program : Program) :
    (s.set i program).present = s.present := rfl

end Steps

variable {s t : LockFile ι} {label : Label ι} {ls : List (Label ι)}

/-! ## One at a time -/

/-- No process is killed, and no file is denied. -/
def Orderly (_ : LockFile ι) : Label ι → Prop
  | .look _ | .quit _ => True
  | .create _ denied => denied = false
  | .kill _ => False

/-- A program is going to create a file that is there by now. -/
def Collides (s : LockFile ι) : Label ι → Prop
  | .create _ _ => s.present = true
  | .look _ | .quit _ | .kill _ => False

def Uses (s : LockFile ι) (i : ι) : Prop := ∃ created, s.program i = .working created

/-- The device is used by one program at most. -/
def Exclusive (s : LockFile ι) : Prop := ∀ i j, s.Uses i → s.Uses j → i = j

/-- Whoever uses the device has created the file, and the file is there while someone does. -/
structure Held (s : LockFile ι) : Prop where
  created : ∀ i, s.program i ≠ .working false
  unique : ∀ i j, s.program i = .working true → s.program j = .working true → i = j
  present : s.present = true ↔ ∃ i, s.program i = .working true

theorem held_init : ({} : LockFile ι).Held where
  created _ := nofun
  unique _ _ h := nomatch h
  present := ⟨nofun, fun ⟨_, h⟩ => nomatch h⟩

theorem Held.exclusive (hs : s.Held) : s.Exclusive := by
  have howner : ∀ i, s.Uses i → s.program i = .working true := by
    rintro i ⟨created, hworking⟩
    cases created with
    | true => exact hworking
    | false => exact absurd hworking (hs.created i)
  intro i j hi hj
  exact hs.unique i j (howner i hi) (howner j hj)

section Exclusion

variable [DecidableEq ι]

theorem held_step (hs : s.Held) (horderly : s.Orderly label) (hfree : ¬ s.Collides label)
    (h : step s label = some t) : t.Held := by
  obtain ⟨hcreated, hunique, hpresent⟩ := id hs
  cases step_effect h with
  | wait i hlooking hpresent => exact hs
  | acquire i hlooking habsent => constructor <;> grind [program_set, present_set]
  | fail i denied hcreating hfails =>
      rcases hfails with hthere | hdenied
      · exact absurd hthere hfree
      · exact absurd (hdenied.symm.trans horderly) (by decide)
  | create i hcreating habsent =>
      refine ⟨?_, ?_, fun _ => ⟨i, (program_set ..).trans (if_pos rfl)⟩, fun _ => rfl⟩ <;>
        grind [program_set]
  | remove i hworking => constructor <;> grind [program_set, present_set]
  | leave i hworking => exact absurd hworking (hcreated i)
  | kill i hrunning => exact horderly.elim

/-- A program that collides with another one uses the device next to it. -/
theorem not_exclusive_of_collides (hs : s.Held) (hcollides : s.Collides label)
    (h : step s label = some t) : ¬ t.Exclusive := by
  intro hexclusive
  cases step_effect h with
  | fail i denied hcreating hfails =>
      obtain ⟨j, hj⟩ := hs.present.mp hcollides
      have hne : j ≠ i := by
        rintro rfl
        rw [hcreating] at hj
        cases hj
      have huses : (s.set i (.working false)).Uses i := ⟨false, by rw [program_set, if_pos rfl]⟩
      have hother : (s.set i (.working false)).Uses j := ⟨true, by rw [program_set, if_neg hne, hj]⟩
      exact hne (hexclusive j i hother huses)
  | create i hcreating habsent => exact absurd (habsent.symm.trans hcollides) (by decide)
  | _ => exact hcollides

/-- **The device is used by one program at a time exactly as long as none collides with another**, where
no program is killed. -/
theorem exclusive_iff (h : system.Run Orderly ({} : LockFile ι) ls s) :
    (∀ ks t, ks <+: ls → system.Run Orderly ({} : LockFile ι) ks t → t.Exclusive)
      ↔ system.Run (fun s label => ¬ s.Collides label) ({} : LockFile ι) ls s := by
  have hheld : ∀ {ks t}, system.Run (fun s label => s.Orderly label ∧ ¬ s.Collides label)
      ({} : LockFile ι) ks t → t.Held := fun hrun =>
    hrun.invariant (fun _ _ _ hs hallow hstep => held_step hs hallow.1 hallow.2 hstep) held_init
  constructor
  · intro hexclusive
    suffices hboth : system.Run (fun s label => s.Orderly label ∧ ¬ s.Collides label)
        ({} : LockFile ι) ls s from hboth.mono fun _ _ hallow => hallow.2
    induction h with
    | nil => exact .nil
    | @snoc s t ls label hrun horderly hstep ih =>
        have hbefore := ih fun ks u hks => hexclusive ks u (hks.trans (List.prefix_append ls [label]))
        refine .snoc hbefore ⟨horderly, fun hcollides => ?_⟩ hstep
        exact not_exclusive_of_collides (hheld hbefore) hcollides hstep
          (hexclusive _ t List.prefix_rfl (.snoc hrun horderly hstep))
  · intro hrun ks t hks hsome
    exact (hheld (hsome.both (hrun.of_prefix hks hsome))).exclusive

instance (s : LockFile ι) : DecidablePred s.Orderly
  | .look _ | .quit _ => inferInstanceAs (Decidable True)
  | .create _ _ => inferInstanceAs (Decidable (_ = _))
  | .kill _ => inferInstanceAs (Decidable False)

instance (s : LockFile ι) : DecidablePred s.Collides
  | .create _ _ => inferInstanceAs (Decidable (_ = _))
  | .look _ | .quit _ | .kill _ => inferInstanceAs (Decidable False)

/-- The second program waits for the first one. -/
def inTurn : List (Label Bool) :=
  [.look false, .create false false, .look true, .quit false, .look true, .create true false]

example :
    ∃ s : LockFile Bool, system.Run Orderly {} inTurn s ∧ s.program true = .working true
      ∧ ∀ ks t, ks <+: inTurn → system.Run Orderly ({} : LockFile Bool) ks t → t.Exclusive := by
  obtain ⟨s, hrun, huses⟩ := @System.exists_run_of_exec _ _ (system : System (LockFile Bool) _)
    (fun s label => s.Orderly label ∧ ¬ s.Collides label) _ {} inTurn
    (fun s => s.program true = .working true) _ (by decide)
  have horderly := hrun.mono fun _ _ hallow => hallow.1
  have hfree := hrun.mono fun _ _ hallow => hallow.2
  exact ⟨s, horderly, huses, (exclusive_iff horderly).mpr hfree⟩

end Exclusion

/-! ## A file that is left behind -/

/-- There is one owner at most, and the file is there while there is one, whatever happens. -/
structure Owned (s : LockFile ι) : Prop where
  unique : ∀ i j, s.program i = .working true → s.program j = .working true → i = j
  present : ∀ i, s.program i = .working true → s.present = true

theorem owned_init : ({} : LockFile ι).Owned where
  unique _ _ h := nomatch h
  present _ h := nomatch h

/-- The file is there, and nobody is going to remove it. -/
structure Stale (s : LockFile ι) : Prop where
  present : s.present = true
  unowned : ∀ i, s.program i ≠ .working true

section Killed

variable [DecidableEq ι]

theorem owned_step (hs : s.Owned) (h : step s label = some t) : t.Owned := by
  obtain ⟨hunique, hpresent⟩ := id hs
  cases step_effect h with
  | wait i hlooking => exact hs
  | acquire i hlooking habsent => constructor <;> grind [program_set, present_set]
  | fail i denied hcreating hfails => constructor <;> grind [program_set, present_set]
  | create i hcreating habsent => constructor <;> grind [program_set, present_set]
  | remove i hworking => constructor <;> grind [program_set, present_set]
  | leave i hworking => constructor <;> grind [program_set, present_set]
  | kill i hrunning => constructor <;> grind [program_set, present_set]

theorem stale_step (hs : s.Stale) (h : step s label = some t) :
    t.Stale ∧ ∀ i, s.program i = .looking → t.program i = .looking := by
  obtain ⟨hpresent, hunowned⟩ := id hs
  cases step_effect h with
  | wait i hlooking => exact ⟨hs, fun _ h => h⟩
  | acquire i hlooking habsent => exact absurd (habsent.symm.trans hpresent) (by decide)
  | create i hcreating habsent => exact absurd (habsent.symm.trans hpresent) (by decide)
  | remove i hworking => exact absurd hworking (hunowned i)
  | fail i denied hcreating hfails =>
      exact ⟨by constructor <;> grind [program_set, present_set], by grind [program_set]⟩
  | leave i hworking =>
      exact ⟨by constructor <;> grind [program_set, present_set], by grind [program_set]⟩
  | kill i hrunning =>
      exact ⟨by constructor <;> grind [program_set, present_set], by grind [program_set]⟩

/-- **A file is left behind for ever** when the program is killed that has created it: whoever looks for
it afterwards, the killed program when it is started again among them, keeps looking. -/
theorem stale_blocks {u : LockFile ι} {i : ι} {ks : List (Label ι)}
    (h : system.Run (fun _ _ => True) ({} : LockFile ι) ls s) (hi : s.program i = .working true)
    (hkill : step s (.kill i) = some t) (hrun : system.Run (fun _ _ => True) t ks u) :
    u.present = true ∧ ∀ j, t.program j = .looking → u.program j = .looking := by
  have howned : s.Owned := h.invariant (fun _ _ _ hs _ hstep => owned_step hs hstep) owned_init
  have hstale : t.Stale := by
    obtain ⟨hunique, hpresent⟩ := howned
    cases step_effect hkill with
    | kill => constructor <;> grind [program_set, present_set]
  have hall : u.Stale ∧ ∀ j, t.program j = .looking → u.program j = .looking := by
    induction hrun with
    | nil => exact ⟨hstale, fun _ h => h⟩
    | snoc _ _ hstep ih =>
        obtain ⟨hnext, hlooking⟩ := stale_step ih.1 hstep
        exact ⟨hnext, fun j hj => hlooking j (ih.2 j hj)⟩
  exact ⟨hall.1.present, hall.2⟩

/-- The killed program looks for the file again, and so does another one. -/
example :
    ∃ s t u : LockFile Bool, system.Run (fun _ _ => True) {} [.look false, .create false false] s
      ∧ step s (.kill false) = some t
      ∧ system.Run (fun _ _ => True) t [.look false, .look true] u
      ∧ u.present = true ∧ u.program true = .looking := by
  obtain ⟨s, hrun, hworking, hsteps⟩ := @System.exists_run_of_exec _ _
    (system : System (LockFile Bool) _) (fun _ _ => True) _ {} [.look false, .create false false]
    (fun s => s.program false = .working true ∧ ((step s (.kill false)).any fun t =>
      decide (t.program true = .looking)
        && (system.exec (fun _ _ => True) t [.look false, .look true]).isSome) = true) _ (by decide)
  obtain ⟨t, hkill, ht⟩ := (Option.any_eq_true _ _).mp hsteps
  rw [Bool.and_eq_true, decide_eq_true_iff] at ht
  obtain ⟨u, hu⟩ := Option.isSome_iff_exists.mp ht.2
  have hrun' := System.run_of_exec hu
  obtain ⟨hpresent, hlooking⟩ := stale_blocks hrun hworking hkill hrun'
  exact ⟨s, t, u, hrun, hkill, hrun', hpresent, hlooking true ht.1⟩

end Killed

end LockFile

end Iridium
