import Mathlib.Logic.Function.Basic

/-! # The scheduler's task queue

`Scheduler::m_fibers` is a FIFO of `FiberAndThread` entries: a fiber or a callback, and the thread
that may run it (`-1`: any). `scheduleNoLock` appends an entry when it carries something; the
pointer constructors used by `triggerEvent` move the fiber or callback out of its slot.

A worker of `Scheduler::run` takes, under the queue lock, the first entry it may run: its affinity
is `-1` or the worker's thread id, and it is not a fiber whose state is `EXEC` (`take`). -/

namespace Sylar.Scheduler.Queue

/-- `Fiber::State`. -/
inductive FiberState
  | INIT
  | HOLD
  | EXEC
  | TERM
  | READY
  | EXCEPT
deriving DecidableEq, Repr

/-- What an entry runs: a fiber (`Fiber::ptr`) or a callback (`std::function<void()>`), each by
identity. -/
inductive Task
  | fiber (f : Nat)
  | cb (c : Nat)
deriving DecidableEq, Repr

/-- **`FiberAndThread`** as it sits in the queue: `scheduleNoLock` only appends entries that carry a
fiber or a callback. -/
structure FiberAndThread where
  task : Task
  thread : Int
deriving DecidableEq, Repr

/-- **`scheduleNoLock(fc, thread)`**: the entry is appended if `fc` is non-empty; the result says
whether the queue was empty before (`need_tickle`). -/
def scheduleNoLock (q : List FiberAndThread) (fc : Option Task) (thread : Int) :
    List FiberAndThread × Bool :=
  match fc with
  | some t => (q ++ [⟨t, thread⟩], q.isEmpty)
  | none => (q, q.isEmpty)

/-- The run loop's test on an entry: its affinity admits thread `tid`, and it is not a fiber that
is executing (`it->fiber->getState() == Fiber::EXEC`). -/
def runnable (state : Nat → FiberState) (tid : Int) (e : FiberAndThread) : Bool :=
  (e.thread == -1 || e.thread == tid) &&
    match e.task with
    | .fiber f => state f != .EXEC
    | .cb _ => true

/-- **The scan of `Scheduler::run`**: remove and return the first runnable entry. -/
def take (state : Nat → FiberState) (tid : Int) :
    List FiberAndThread → Option (FiberAndThread × List FiberAndThread)
  | [] => none
  | e :: q =>
    if runnable state tid e then some (e, q)
    else (take state tid q).map fun r => (r.1, e :: r.2)

theorem take_runnable {state : Nat → FiberState} {tid : Int} :
    ∀ {q : List FiberAndThread} {e : FiberAndThread} {q' : List FiberAndThread},
      take state tid q = some (e, q') → runnable state tid e = true
  | [], _, _, h => by simp [take] at h
  | x :: q, e, q', h => by
    unfold take at h
    split at h
    · cases h; assumption
    · obtain ⟨r, hr, he⟩ := Option.map_eq_some'.mp h
      cases he
      exact take_runnable hr

/-- The entry a worker takes admits the worker's thread. -/
theorem take_thread {state : Nat → FiberState} {tid : Int} {q : List FiberAndThread}
    {e : FiberAndThread} {q' : List FiberAndThread} (h : take state tid q = some (e, q')) :
    e.thread = -1 ∨ e.thread = tid := by
  have := take_runnable h
  simp only [runnable, Bool.and_eq_true, Bool.or_eq_true, beq_iff_eq] at this
  exact this.1

/-- The entry taken was in the queue, and what is left of the queue was in it. -/
theorem take_sub {state : Nat → FiberState} {tid : Int} :
    ∀ {q : List FiberAndThread} {e : FiberAndThread} {q' : List FiberAndThread},
      take state tid q = some (e, q') → e ∈ q ∧ ∀ x ∈ q', x ∈ q
  | [], _, _, h => by simp [take] at h
  | x :: q, e, q', h => by
    unfold take at h
    split at h
    · cases h; exact ⟨List.mem_cons_self _ _, fun y hy => List.mem_cons_of_mem _ hy⟩
    · obtain ⟨r, hr, he⟩ := Option.map_eq_some'.mp h
      cases he
      obtain ⟨h1, h2⟩ := take_sub hr
      refine ⟨List.mem_cons_of_mem _ h1, fun y hy => ?_⟩
      rcases List.mem_cons.mp hy with rfl | hy
      · exact List.mem_cons_self _ _
      · exact List.mem_cons_of_mem _ (h2 y hy)

end Sylar.Scheduler.Queue
