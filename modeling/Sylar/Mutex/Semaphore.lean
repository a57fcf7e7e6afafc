import Mathlib.Logic.Function.Basic

/-! # `FiberSemaphore`: a counting semaphore for fibers

`FiberSemaphore` (`mutex.h`, `mutex.cc`) keeps its free permits in `m_concurrency` and the fibers
waiting for one in `m_waiters`, each queued with the scheduler it runs on. All three operations run
under `m_mutex`, so a run is any interleaving of whole calls:

* `tryWait`: take a permit if there is one;
* `wait`: take a permit if there is one, else queue `(Scheduler::GetThis(), Fiber::GetThis())` and
  `YieldToHold()`;
* `notify`: hand the first waiter to its scheduler (`next.first->schedule(next.second)`), else add a
  permit.

`tryWait` and `wait` begin with `SYLAR_ASSERT(Scheduler::GetThis())`; a failed assertion aborts,
and the model returns its text. `reset()` writes `m_concurrency` without the lock and is left out.

A run keeps beside the semaphore what its calls did (`St`). In every run (`counting_semaphore`) no
permit is left while a fiber waits, permits are conserved, and the waiters are handed to their
schedulers in the order they queued, each once. -/

namespace Sylar.Mutex.Semaphore

/-- **`FiberSemaphore`**: `m_waiters`, pairs of a scheduler and a fiber, and `m_concurrency`. -/
structure FiberSemaphore where
  waiters : List (Nat × Nat)
  concurrency : Nat
deriving DecidableEq, Repr

namespace FiberSemaphore

/-- **`FiberSemaphore(initial_concurrency)`**. -/
def new (n : Nat) : FiberSemaphore := ⟨[], n⟩

/-- **`tryWait()`** on a thread whose `Scheduler::GetThis()` is `sched`. -/
def tryWait (s : FiberSemaphore) (sched : Option Nat) : Except String (FiberSemaphore × Bool) :=
  match sched with
  | none => .error "Scheduler::GetThis()"
  | some _ =>
    if 0 < s.concurrency then .ok ({ s with concurrency := s.concurrency - 1 }, true)
    else .ok (s, false)

/-- **`wait()`** by fiber `fiber`: `none` if it took a permit and returned, else the waiter it
queued before `YieldToHold()`. -/
def wait (s : FiberSemaphore) (sched : Option Nat) (fiber : Nat) :
    Except String (FiberSemaphore × Option (Nat × Nat)) :=
  match sched with
  | none => .error "Scheduler::GetThis()"
  | some sc =>
    if 0 < s.concurrency then .ok ({ s with concurrency := s.concurrency - 1 }, none)
    else .ok ({ s with waiters := s.waiters ++ [(sc, fiber)] }, some (sc, fiber))

/-- **`notify()`**: the waiter handed to its scheduler, if there was one. -/
def notify (s : FiberSemaphore) : FiberSemaphore × Option (Nat × Nat) :=
  match s.waiters with
  | next :: rest => ({ s with waiters := rest }, some next)
  | [] => ({ s with concurrency := s.concurrency + 1 }, none)

theorem tryWait_ok {s s' : FiberSemaphore} {sched : Option Nat} {ok : Bool}
    (h : s.tryWait sched = .ok (s', ok)) :
    (ok = true ∧ 0 < s.concurrency ∧ s' = { s with concurrency := s.concurrency - 1 }) ∨
      (ok = false ∧ s.concurrency = 0 ∧ s' = s) := by
  unfold tryWait at h
  split at h
  · cases h
  · split_ifs at h with hc <;> cases h
    · exact .inl ⟨rfl, hc, rfl⟩
    · exact .inr ⟨rfl, by omega, rfl⟩

theorem wait_ok {s s' : FiberSemaphore} {sched : Option Nat} {fiber : Nat}
    {q : Option (Nat × Nat)} (h : s.wait sched fiber = .ok (s', q)) :
    (q = none ∧ 0 < s.concurrency ∧ s' = { s with concurrency := s.concurrency - 1 }) ∨
      ∃ sc, q = some (sc, fiber) ∧ s.concurrency = 0 ∧
        s' = { s with waiters := s.waiters ++ [(sc, fiber)] } := by
  unfold wait at h
  split at h
  · cases h
  · split_ifs at h with hc <;> cases h
    · exact .inl ⟨rfl, hc, rfl⟩
    · exact .inr ⟨_, rfl, by omega, rfl⟩

end FiberSemaphore

/-! ### Runs -/

/-- A call of one fiber, under `m_mutex`. -/
inductive Action
  | tryWait (sched : Option Nat)
  | wait (sched : Option Nat) (fiber : Nat)
  | notify
deriving DecidableEq, Repr

/-- The semaphore and what the calls of the run did: the `notify` calls, the `tryWait` calls that
got a permit, the `wait` calls that returned at once, every waiter queued and every waiter handed
to its scheduler, in order. -/
structure St where
  sem : FiberSemaphore
  notifies : Nat
  acquired : Nat
  immediate : Nat
  queued : List (Nat × Nat)
  handed : List (Nat × Nat)
deriving DecidableEq, Repr

/-- A semaphore constructed with `n` permits, before any call. -/
def St.initial (n : Nat) : St := ⟨.new n, 0, 0, 0, [], []⟩

/-- **One call.** -/
def step (st : St) : Action → Except String St
  | .tryWait sched =>
    match st.sem.tryWait sched with
    | .error msg => .error msg
    | .ok (s, ok) => .ok { st with sem := s, acquired := if ok then st.acquired + 1 else st.acquired }
  | .wait sched fiber =>
    match st.sem.wait sched fiber with
    | .error msg => .error msg
    | .ok (s, none) => .ok { st with sem := s, immediate := st.immediate + 1 }
    | .ok (s, some w) => .ok { st with sem := s, queued := st.queued ++ [w] }
  | .notify =>
    let r := st.sem.notify
    .ok { st with sem := r.1, notifies := st.notifies + 1, handed := st.handed ++ r.2.toList }

/-- The states a run reaches from `n` permits. -/
inductive Reach (n : Nat) : St → Prop
  | init : Reach n (St.initial n)
  | step {st st' : St} (a : Action) : Reach n st → step st a = .ok st' → Reach n st'

/-- Run a list of calls. -/
def run (st : St) : List Action → Except String St
  | [] => .ok st
  | a :: as =>
    match step st a with
    | .error msg => .error msg
    | .ok st' => run st' as

theorem run_reach {n : Nat} : ∀ {st st' : St} {as : List Action}, Reach n st →
    run st as = .ok st' → Reach n st'
  | _, _, [], hs, h => by cases h; exact hs
  | _, _, a :: as, hs, h => by
    unfold run at h
    split at h
    · cases h
    · exact run_reach (.step a hs ‹_›) h

/-! ### The semaphore counts -/

/-- **The invariant**: no free permit while a fiber waits; the permits given out, plus those left,
are the initial ones plus one per `notify`; the waiters handed out, then those still queued, are
the waiters queued. -/
structure Counting (n : Nat) (st : St) : Prop where
  exclusive : 0 < st.sem.concurrency → st.sem.waiters = []
  conserved :
    n + st.notifies = st.acquired + st.immediate + st.handed.length + st.sem.concurrency
  fifo : st.handed ++ st.sem.waiters = st.queued

theorem counting_initial (n : Nat) : Counting n (St.initial n) :=
  ⟨fun _ => rfl, by simp [St.initial, FiberSemaphore.new], rfl⟩

theorem counting_step {n : Nat} {st st' : St} {a : Action} (hc : Counting n st)
    (h : step st a = .ok st') : Counting n st' := by
  cases a with
  | tryWait sched =>
    simp only [step] at h
    split at h
    · cases h
    · rename_i s ok hs
      cases h
      rcases FiberSemaphore.tryWait_ok hs with ⟨rfl, hpos, rfl⟩ | ⟨rfl, -, rfl⟩
      · exact ⟨fun h0 => hc.exclusive hpos, by simp only [if_true]; have := hc.conserved; omega,
          hc.fifo⟩
      · exact ⟨hc.exclusive, hc.conserved, hc.fifo⟩
  | wait sched fiber =>
    simp only [step] at h
    split at h
    · cases h
    · rename_i s hs
      cases h
      rcases FiberSemaphore.wait_ok hs with ⟨-, hpos, rfl⟩ | ⟨sc, hq, -, -⟩
      · exact ⟨fun _ => hc.exclusive hpos, by have := hc.conserved; simp only; omega, hc.fifo⟩
      · cases hq
    · rename_i s w hs
      cases h
      rcases FiberSemaphore.wait_ok hs with ⟨hq, -, -⟩ | ⟨sc, hq, h0, rfl⟩
      · cases hq
      · cases hq
        exact ⟨fun hpos => absurd h0 (Nat.pos_iff_ne_zero.mp hpos), hc.conserved,
          by rw [← List.append_assoc, hc.fifo]⟩
  | notify =>
    cases h
    simp only [FiberSemaphore.notify]
    cases hw : st.sem.waiters with
    | cons next rest =>
      refine ⟨fun hpos => absurd (hc.exclusive hpos) (by simp [hw]), ?_, ?_⟩
      · have := hc.conserved; simp only [Option.toList_some, List.length_append,
          List.length_singleton]; omega
      · rw [← hc.fifo, hw]; simp
    | nil =>
      refine ⟨fun _ => rfl, ?_, ?_⟩
      · have := hc.conserved; simp only [Option.toList_none, List.append_nil]; omega
      · simpa [hw] using hc.fifo

theorem counting_of_reach {n : Nat} {st : St} (h : Reach n st) : Counting n st := by
  induction h with
  | init => exact counting_initial n
  | step _ _ hs ih => exact counting_step ih hs

/-- **`FiberSemaphore` is a counting semaphore.** In every run from `n` permits, with `tryWait`,
`wait` and `notify` interleaved in any order: a free permit means no fiber waits; `n` plus the
`notify` calls equals the successful `tryWait` calls, plus the `wait` calls that returned at once,
plus the waiters handed to their schedulers, plus the free permits; and the waiters handed out are
the first ones queued, in the order they queued, each once, the rest still queued. -/
theorem counting_semaphore {n : Nat} {st : St} (h : Reach n st) :
    (0 < st.sem.concurrency → st.sem.waiters = []) ∧
      n + st.notifies = st.acquired + st.immediate + st.handed.length + st.sem.concurrency ∧
      st.handed ++ st.sem.waiters = st.queued :=
  let hc := counting_of_reach h
  ⟨hc.exclusive, hc.conserved, hc.fifo⟩

/-- One permit: fiber `1` takes it, fibers `2` and `3` queue on scheduler `0`, two `notify` calls
hand them out in order, a third leaves a permit that `tryWait` takes. -/
def semRun : List Action :=
  [.wait (some 0) 1, .wait (some 0) 2, .wait (some 0) 3, .notify, .notify, .notify,
   .tryWait (some 0)]

/-- The state `semRun` reaches. -/
def semRunState : St :=
  match run (St.initial 1) semRun with
  | .ok st => st
  | .error _ => St.initial 1

theorem counting_semaphore_run :
    semRunState.handed = [(0, 2), (0, 3)] ∧ semRunState.sem = ⟨[], 0⟩ ∧
      ((0 < semRunState.sem.concurrency → semRunState.sem.waiters = []) ∧
        1 + semRunState.notifies = semRunState.acquired + semRunState.immediate +
          semRunState.handed.length + semRunState.sem.concurrency ∧
        semRunState.handed ++ semRunState.sem.waiters = semRunState.queued) :=
  ⟨rfl, rfl, counting_semaphore (run_reach .init (rfl : run (St.initial 1) semRun = .ok semRunState))⟩

end Sylar.Mutex.Semaphore
