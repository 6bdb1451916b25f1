import Iridium.Lib.Transition
import Mathlib.Data.List.ReduceOption

/-!
# Store and forward

What a sender with a queue is for: items are posted, wait in order, are taken one at a time, and
are delivered or given back to the front of the queue. An `Outbox` is its bookkeeping, with every
item ever posted on record.

Three operations do not belong to an orderly sender: it may make up an item when it finds nothing
to take, lose the item it holds, or clear its queue. An item that was made up is `none` among the
items. Without the operation that spoils it, each of these holds along every run: every posted
item is delivered, held or waiting, in the order of posting (`Run.conserved`); no item is made up
(`Run.genuine`); and in any case nothing is duplicated, reordered or invented unnoticed
(`Run.sublist`).
-/

/-- The record of a sender. -/
structure Outbox (α : Type) where
  posted : List α := []
  delivered : List (Option α) := []
  held : Option (Option α) := none
  waiting : List (Option α) := []
  deriving Repr, DecidableEq

namespace Outbox

variable {α : Type}

inductive Op (α : Type) where
  | post (a : α)
  | take
  | makeUp
  | deliver
  | giveBack
  | lose
  | clear
  deriving DecidableEq, Repr

/-- One operation, where it is possible. -/
def apply (o : Outbox α) : Op α → Option (Outbox α)
  | .post a => some { o with posted := o.posted ++ [a], waiting := o.waiting ++ [some a] }
  | .take =>
    match o.held, o.waiting with
    | none, e :: es => some { o with held := some e, waiting := es }
    | _, _ => none
  | .makeUp =>
    match o.held, o.waiting with
    | none, [] => some { o with held := some none }
    | _, _ => none
  | .deliver => o.held.map fun e => { o with delivered := o.delivered ++ [e], held := none }
  | .giveBack => o.held.map fun e => { o with waiting := e :: o.waiting, held := none }
  | .lose => o.held.map fun _ => { o with held := none }
  | .clear => some { o with waiting := [] }

/-- Outboxes as a transition system. -/
def system (α : Type) : System (Outbox α) (Op α) := ⟨apply⟩

/-- All items on record, in the order in which they were posted. -/
def items (o : Outbox α) : List (Option α) := o.delivered ++ o.held.toList ++ o.waiting

/-- What one operation does to the items. -/
theorem items_apply {o o' : Outbox α} {op : Op α} (h : o.apply op = some o') :
    match op with
    | .post a => o'.items = o.items ++ [some a] ∧ o'.posted = o.posted ++ [a]
    | .take | .deliver | .giveBack => o'.items = o.items ∧ o'.posted = o.posted
    | .makeUp => o'.items = o.items ++ [none] ∧ o'.posted = o.posted
    | .lose | .clear => o'.items.Sublist o.items ∧ o'.posted = o.posted := by
  cases op with
  | post a =>
      cases h
      exact ⟨(List.append_assoc _ _ _).symm, rfl⟩
  | take =>
      obtain ⟨posted, delivered, _ | e, _ | ⟨e', es⟩⟩ := o <;> cases h
      exact ⟨by simp [items], rfl⟩
  | makeUp =>
      obtain ⟨posted, delivered, _ | e, _ | ⟨e', es⟩⟩ := o <;> cases h
      exact ⟨by simp [items], rfl⟩
  | deliver =>
      obtain ⟨posted, delivered, _ | e, waiting⟩ := o <;> cases h
      exact ⟨by simp [items], rfl⟩
  | giveBack =>
      obtain ⟨posted, delivered, _ | e, waiting⟩ := o <;> cases h
      exact ⟨by simp [items], rfl⟩
  | lose =>
      obtain ⟨posted, delivered, _ | e, waiting⟩ := o <;> cases h
      refine ⟨?_, rfl⟩
      simp [items]
  | clear =>
      cases h
      refine ⟨?_, rfl⟩
      simp [items]

/-! ## What holds along a run -/

/-- No item is lost. -/
def Keeps (_ : Outbox α) (op : Op α) : Prop := op ≠ .lose ∧ op ≠ .clear

/-- No item is made up. -/
def Honest (_ : Outbox α) (op : Op α) : Prop := op ≠ .makeUp

section Run

variable {o : Outbox α} {ops : List (Op α)}

/-- **Conservation**: where nothing is lost, the items are those posted. -/
theorem Run.conserved (h : (system α).Run Keeps {} ops o) : o.items.reduceOption = o.posted := by
  refine @System.Run.invariant _ _ _ _ _ _ _ (fun o => o.items.reduceOption = o.posted) ?_ h rfl
  intro o op o' hinv hkeeps hstep
  have happly := items_apply hstep
  cases op with
  | post a => rw [happly.1, happly.2, List.reduceOption_append, hinv]; rfl
  | take | deliver | giveBack => rw [happly.1, happly.2, hinv]
  | makeUp => rw [happly.1, happly.2, List.reduceOption_append, hinv]; simp
  | lose => exact absurd rfl hkeeps.1
  | clear => exact absurd rfl hkeeps.2

/-- Where nothing is made up, every item is genuine. -/
theorem Run.genuine (h : (system α).Run Honest {} ops o) : none ∉ o.items := by
  refine @System.Run.invariant _ _ _ _ _ _ _ (fun o => none ∉ o.items) ?_ h (by simp [items])
  intro o op o' hinv hhonest hstep
  have happly := items_apply hstep
  cases op with
  | post a =>
      rw [happly.1, List.mem_append, not_or]
      exact ⟨hinv, by simp⟩
  | take | deliver | giveBack => rwa [happly.1]
  | makeUp => exact absurd rfl hhonest
  | lose | clear => exact fun hmem => hinv (happly.1.subset hmem)

/-- Where nothing is lost and nothing is made up, the items are exactly those posted. -/
theorem Run.exact (h : (system α).Run (fun o op => Keeps o op ∧ Honest o op) {} ops o) :
    o.items = o.posted.map some := by
  have hconserved := Run.conserved (h.mono fun _ _ hok => hok.1)
  have hgenuine := Run.genuine (h.mono fun _ _ hok => hok.2)
  rw [← hconserved]
  generalize o.items = items at hgenuine
  induction items with
  | nil => rfl
  | cons e es ih =>
      rw [List.mem_cons, not_or] at hgenuine
      obtain ⟨a, rfl⟩ := Option.ne_none_iff_exists'.mp (Ne.symm hgenuine.1)
      rw [List.reduceOption_cons_of_some, List.map_cons, ← ih hgenuine.2]

/-- In any case the genuine items are some of those posted, in the order of posting. -/
theorem Run.sublist {allow : Outbox α → Op α → Prop} (h : (system α).Run allow {} ops o) :
    o.items.reduceOption.Sublist o.posted := by
  refine @System.Run.invariant _ _ _ _ _ _ _ (fun o => o.items.reduceOption.Sublist o.posted)
    ?_ h (List.Sublist.refl [])
  intro o op o' hinv _ hstep
  have happly := items_apply hstep
  cases op with
  | post a =>
      rw [happly.1, happly.2, List.reduceOption_append]
      exact hinv.append (List.Sublist.refl _)
  | take | deliver | giveBack => rwa [happly.1, happly.2]
  | makeUp =>
      rw [happly.1, happly.2, List.reduceOption_append]
      simpa using hinv
  | lose | clear =>
      rw [happly.2]
      exact (happly.1.filterMap id).trans hinv

end Run

end Outbox
