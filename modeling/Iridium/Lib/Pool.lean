import Mathlib.Data.List.Basic
import Mathlib.Logic.Function.Basic

/-!
# Pools of machines

A machine answers inputs with outputs until it stops. A pool holds any number of copies of it, which
join one after the other and are fed one input at a time, in any order; what they put out goes to
one log, with the member's number.

Members do not disturb each other: `Consistent` says that a member is where the machine gets to on
that member's own inputs, and has put out what the machine puts out on them. Both ways in which a
pool changes keep it (`consistent_join`, `consistent_feed`).
-/

/-- `step` tells the next state, `none` when the machine stops, and what is put out. -/
structure Machine (σ ι ο : Type) where
  init : σ
  step : σ → ι → Option σ × List ο

namespace Machine

variable {σ ι ο : Type} (m : Machine σ ι ο)

/-- What the machine puts out from a state on. -/
def run : σ → List ι → List ο
  | _, [] => []
  | s, x :: xs =>
    (m.step s x).2 ++ match (m.step s x).1 with
      | none => []
      | some s' => run s' xs

/-- The state that inputs lead to, `none` when the machine has stopped. -/
def after (s : σ) (xs : List ι) : Option σ :=
  xs.foldl (fun s? x => s?.bind fun s => (m.step s x).1) (some s)

@[simp] theorem after_nil (s : σ) : m.after s [] = some s := rfl

theorem after_cons (s : σ) (x : ι) (xs : List ι) :
    m.after s (x :: xs) = (m.step s x).1.bind fun s' => m.after s' xs := by
  show xs.foldl _ ((m.step s x).1) = _
  cases (m.step s x).1 with
  | some s' => rfl
  | none =>
      -- a machine that has stopped stays so
      show xs.foldl (fun s? x => s?.bind fun s => (m.step s x).1) none = none
      induction xs with
      | nil => rfl
      | cons y ys ih => exact ih

theorem after_concat (s : σ) (xs : List ι) (x : ι) :
    m.after s (xs ++ [x]) = (m.after s xs).bind fun s' => (m.step s' x).1 := by
  rw [after, List.foldl_append]
  rfl

/-- One input more, for a machine that has not stopped. -/
theorem run_concat {s s' : σ} {xs : List ι} (h : m.after s xs = some s') (x : ι) :
    m.run s (xs ++ [x]) = m.run s xs ++ (m.step s' x).2 := by
  induction xs generalizing s with
  | nil =>
      obtain rfl : s = s' := Option.some.inj h
      rw [List.nil_append, run, run, List.nil_append]
      cases (m.step s x).1 <;> exact List.append_nil _
  | cons y ys ih =>
      rw [after_cons] at h
      obtain ⟨t, ht, hys⟩ := Option.bind_eq_some_iff.mp h
      rw [List.cons_append, run, run, ht, List.append_assoc]
      exact congrArg _ (ih hys)

/-- A machine that has stopped puts out nothing more. -/
theorem run_stopped {s : σ} {xs : List ι} (h : m.after s xs = none) (ys : List ι) :
    m.run s (xs ++ ys) = m.run s xs := by
  induction xs generalizing s with
  | nil => cases h
  | cons x xs ih =>
      rw [after_cons] at h
      rw [List.cons_append, run, run]
      cases hx : (m.step s x).1 with
      | none => rfl
      | some t =>
          rw [hx] at h
          exact congrArg _ (ih h)

/-- A machine that puts out something only when it stops has not put out anything before. -/
theorem run_silent {s s' : σ} {xs : List ι} (h : m.after s xs = some s')
    (hsilent : ∀ s x s', (m.step s x).1 = some s' → (m.step s x).2 = []) : m.run s xs = [] := by
  induction xs generalizing s with
  | nil => rfl
  | cons x xs ih =>
      rw [after_cons] at h
      obtain ⟨t, ht, hxs⟩ := Option.bind_eq_some_iff.mp h
      rw [run, ht, hsilent s x t ht]
      exact ih hxs

end Machine

/-- The members in the order in which they joined, `none` for one that has stopped. -/
structure Pool (σ ο : Type) where
  members : List (Option σ) := []
  log : List (Nat × ο) := []
  deriving DecidableEq

namespace Pool

variable {σ ι ο : Type}

/-- What a member has put out. -/
def outputs (pool : Pool σ ο) (i : Nat) : List ο :=
  pool.log.filterMap fun entry => if entry.1 = i then some entry.2 else none

def join (m : Machine σ ι ο) (pool : Pool σ ο) : Pool σ ο :=
  { pool with members := pool.members ++ [some m.init] }

/-- Feed a member that has not stopped. -/
def feed (m : Machine σ ι ο) (pool : Pool σ ο) (i : Nat) (x : ι) : Option (Pool σ ο) :=
  match pool.members[i]? with
  | some (some s) => some {
      members := pool.members.set i (m.step s x).1
      log := pool.log ++ (m.step s x).2.map (Prod.mk i) }
  | _ => none

/-- Feeding is possible for a member that has not stopped, and that is what it does. -/
theorem feed_cases {m : Machine σ ι ο} {pool pool' : Pool σ ο} {i : Nat} {x : ι}
    (h : pool.feed m i x = some pool') :
    ∃ s, pool.members[i]? = some (some s)
      ∧ pool'.members = pool.members.set i (m.step s x).1
      ∧ pool'.log = pool.log ++ (m.step s x).2.map (Prod.mk i) := by
  unfold feed at h
  split at h
  · next s hs =>
      cases h
      exact ⟨s, hs, rfl, rfl⟩
  · cases h

theorem outputs_log_append {pool pool' : Pool σ ο} {i j : Nat} {out : List ο}
    (h : pool'.log = pool.log ++ out.map (Prod.mk i)) :
    pool'.outputs j = if j = i then pool.outputs j ++ out else pool.outputs j := by
  rw [outputs, h, List.filterMap_append, List.filterMap_map]
  by_cases hj : j = i
  · subst hj
    rw [if_pos rfl]
    have hout : out.filterMap ((fun entry : Nat × ο => if entry.1 = j then some entry.2 else none)
        ∘ Prod.mk j) = out := by
      simp
    rw [hout]
    rfl
  · rw [if_neg hj]
    refine (congrArg _ (List.filterMap_eq_nil_iff.mpr fun a _ => ?_)).trans (List.append_nil _)
    exact if_neg fun hij => hj hij.symm

/-- The members are where their own inputs lead, and so is what they have put out. -/
structure Consistent (m : Machine σ ι ο) (pool : Pool σ ο) (inputs : Nat → List ι) : Prop where
  absent : ∀ i, pool.members[i]? = none → inputs i = [] ∧ pool.outputs i = []
  present : ∀ i s, pool.members[i]? = some s →
    s = m.after m.init (inputs i) ∧ pool.outputs i = m.run m.init (inputs i)

namespace Consistent

variable {m : Machine σ ι ο} {pool pool' : Pool σ ο} {inputs : Nat → List ι}

/-- **What a member of a pool has put out is what the machine puts out alone**, on the inputs of
that member. -/
theorem outputs_eq (h : pool.Consistent m inputs) (i : Nat) :
    pool.outputs i = m.run m.init (inputs i) := by
  cases hi : pool.members[i]? with
  | none =>
      obtain ⟨hinputs, houtputs⟩ := h.absent i hi
      rw [hinputs, houtputs]
      rfl
  | some s => exact (h.present i s hi).2

end Consistent

theorem consistent_empty (m : Machine σ ι ο) : Consistent m ({} : Pool σ ο) fun _ => [] := by
  refine ⟨fun i _ => ⟨rfl, rfl⟩, ?_⟩
  intro i s hs
  cases hs

theorem consistent_join {m : Machine σ ι ο} {pool : Pool σ ο} {inputs : Nat → List ι}
    (h : pool.Consistent m inputs) : (pool.join m).Consistent m inputs := by
  refine ⟨?_, ?_⟩
  · intro i hi
    apply h.absent i
    rw [List.getElem?_eq_none_iff] at hi ⊢
    have hlen : (pool.join m).members.length = pool.members.length + 1 := List.length_append
    omega
  · intro i s hs
    rcases Nat.lt_or_ge i pool.members.length with hlt | hge
    · apply h.present i s
      rwa [join, List.getElem?_append_left hlt] at hs
    · -- the one that joins has no inputs yet
      obtain ⟨hinputs, houtputs⟩ := h.absent i (List.getElem?_eq_none hge)
      rw [join, List.getElem?_append_right hge] at hs
      rw [hinputs]
      refine ⟨?_, houtputs⟩
      exact (List.mem_singleton.mp (List.mem_of_getElem? hs)).trans rfl

theorem consistent_feed {m : Machine σ ι ο} {pool pool' : Pool σ ο} {inputs : Nat → List ι}
    {i : Nat} {x : ι} (h : pool.Consistent m inputs) (hfeed : pool.feed m i x = some pool') :
    pool'.Consistent m (Function.update inputs i (inputs i ++ [x])) := by
  obtain ⟨s, hs, hmembers, hlog⟩ := feed_cases hfeed
  obtain ⟨hafter, houtputs⟩ := h.present i _ hs
  have hlt : i < pool.members.length := (List.getElem?_eq_some_iff.mp hs).1
  refine ⟨?_, ?_⟩
  · intro j hj
    have hji : j ≠ i := by
      rintro rfl
      rw [hmembers, List.getElem?_eq_none_iff, List.length_set] at hj
      omega
    rw [hmembers, List.getElem?_set_ne hji.symm] at hj
    rw [Function.update_of_ne hji, outputs_log_append hlog, if_neg hji]
    exact h.absent j hj
  · intro j t ht
    rw [outputs_log_append hlog]
    by_cases hji : j = i
    · subst hji
      rw [hmembers, List.getElem?_set_self hlt, Option.some.injEq] at ht
      rw [Function.update_self, if_pos rfl, Machine.after_concat, ← hafter,
        Machine.run_concat m hafter.symm, houtputs]
      exact ⟨ht.symm, rfl⟩
    · rw [hmembers, List.getElem?_set_ne (Ne.symm hji)] at ht
      rw [Function.update_of_ne hji, if_neg hji]
      exact h.present j t ht

end Pool
