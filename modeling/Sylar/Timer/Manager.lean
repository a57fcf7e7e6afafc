import Mathlib.Data.List.Basic
import Mathlib.Data.List.Pairwise

/-! # The timer list

`TimerManager` (`timer.h`, `timer.cc`) is not among the sources; `IOManager` derives from it and the
hooks call `addTimer`, `addConditionTimer`, `Timer::cancel` and, in the idle loop,
`listExpiredCb`. The definitions below follow the spec's timer wheel: entries keyed by absolute
deadline, ties in insertion order; `cancel` is safe on an entry already expired or cancelled;
`listExpired` hands out the callables of the expired entries, in order, and removes them. Only
one-shot entries are used by the hooks. A condition timer is an entry whose callable checks its
weak condition when it runs, so here the condition is part of the callable.

The order is kept as a field (`sorted`), so that `listExpired_rest` and `listExpired_due` hold of
every list: what is emitted is due, and what stays is not. -/

namespace Sylar.Timer.Manager

/-- An entry: its handle, its absolute deadline in milliseconds, and its callable. -/
structure Timer (α : Type) where
  id : Nat
  next : Nat
  cb : α
deriving DecidableEq, Repr

/-- Entries in deadline order. -/
def Sorted {α : Type} (l : List (Timer α)) : Prop := l.Pairwise fun a b => a.next ≤ b.next

/-- Insertion after every entry due no later (ties keep insertion order). -/
def insert {α : Type} (t : Timer α) : List (Timer α) → List (Timer α)
  | [] => [t]
  | u :: l => if t.next < u.next then t :: u :: l else u :: insert t l

variable {α : Type}

theorem mem_insert {t x : Timer α} : ∀ {l : List (Timer α)}, x ∈ insert t l ↔ x = t ∨ x ∈ l
  | [] => by simp [insert]
  | u :: l => by
    unfold insert
    split_ifs
    · simp
    · simp only [List.mem_cons, mem_insert]; tauto

theorem insert_sorted (t : Timer α) : ∀ {l : List (Timer α)}, Sorted l → Sorted (insert t l)
  | [], _ => List.pairwise_singleton _ _
  | u :: l, h => by
    rw [Sorted, List.pairwise_cons] at h
    unfold insert
    split_ifs with hlt
    · refine List.pairwise_cons.mpr ⟨fun x hx => ?_, List.pairwise_cons.mpr h⟩
      rcases List.mem_cons.mp hx with rfl | hx
      · exact Nat.le_of_lt hlt
      · exact Nat.le_trans (Nat.le_of_lt hlt) (h.1 x hx)
    · refine List.pairwise_cons.mpr ⟨fun x hx => ?_, insert_sorted t h.2⟩
      rcases mem_insert.mp hx with rfl | hx
      · exact Nat.le_of_not_lt hlt
      · exact h.1 x hx

/-- Modelled from the spec: **`TimerManager`**, its entries in deadline order and the next
handle. -/
structure TimerManager (α : Type) where
  timers : List (Timer α)
  nextId : Nat
  sorted : Sorted timers

def TimerManager.empty : TimerManager α := ⟨[], 0, List.Pairwise.nil⟩

namespace TimerManager

/-- Modelled from the spec: **`addTimer(ms, cb)`** at time `now`: deadline `now + ms`; returns the
manager and the new entry's handle. -/
def addTimer (tm : TimerManager α) (now ms : Nat) (cb : α) : TimerManager α × Nat :=
  (⟨insert ⟨tm.nextId, now + ms, cb⟩ tm.timers, tm.nextId + 1, insert_sorted _ tm.sorted⟩,
   tm.nextId)

/-- Modelled from the spec: **`Timer::cancel()`**: the entry goes if it is still there. -/
def cancel (tm : TimerManager α) (id : Nat) : TimerManager α :=
  ⟨tm.timers.filter (·.id ≠ id), tm.nextId, tm.sorted.filter _⟩

/-- Modelled from the spec: **`listExpiredCb`** at time `now`: the callables of the entries due by
`now`, in order, and the manager without them. -/
def listExpired (tm : TimerManager α) (now : Nat) : List α × TimerManager α :=
  ((tm.timers.takeWhile (·.next ≤ now)).map (·.cb),
   ⟨tm.timers.dropWhile (·.next ≤ now), tm.nextId, tm.sorted.sublist (List.dropWhile_sublist _)⟩)

@[simp] theorem addTimer_handle (tm : TimerManager α) (now ms : Nat) (cb : α) :
    (tm.addTimer now ms cb).2 = tm.nextId := rfl

theorem mem_addTimer {tm : TimerManager α} {now ms : Nat} {cb : α} {x : Timer α} :
    x ∈ (tm.addTimer now ms cb).1.timers ↔ x = ⟨tm.nextId, now + ms, cb⟩ ∨ x ∈ tm.timers :=
  mem_insert

theorem mem_cancel {tm : TimerManager α} {id : Nat} {x : Timer α} :
    x ∈ (tm.cancel id).timers ↔ x ∈ tm.timers ∧ x.id ≠ id := by
  simp [cancel]

/-- What `listExpired` emits was due. -/
theorem listExpired_due (tm : TimerManager α) (now : Nat) :
    ∀ x ∈ tm.timers.takeWhile (·.next ≤ now), x.next ≤ now := fun x hx => by
  simpa using List.mem_takeWhile_imp hx

/-- What `listExpired` keeps is not due yet. -/
theorem listExpired_rest (tm : TimerManager α) (now : Nat) :
    ∀ x ∈ (tm.listExpired now).2.timers, now < x.next := by
  have key : ∀ l : List (Timer α), Sorted l → ∀ x ∈ l.dropWhile (·.next ≤ now), now < x.next := by
    intro l
    induction l with
    | nil => simp
    | cons u l ih =>
      intro h x hx
      rw [Sorted, List.pairwise_cons] at h
      by_cases hu : u.next ≤ now
      · exact ih h.2 x (by simpa [List.dropWhile_cons, hu] using hx)
      · simp only [List.dropWhile_cons, hu, decide_False, Bool.false_eq_true, if_false] at hx
        rcases List.mem_cons.mp hx with rfl | hx
        · omega
        · exact Nat.lt_of_lt_of_le (by omega) (h.1 x hx)
  exact key tm.timers tm.sorted

/-- Every entry is emitted or kept, once. -/
theorem listExpired_split (tm : TimerManager α) (now : Nat) :
    tm.timers.takeWhile (·.next ≤ now) ++ (tm.listExpired now).2.timers = tm.timers :=
  List.takeWhile_append_dropWhile _ _

end TimerManager

end Sylar.Timer.Manager
