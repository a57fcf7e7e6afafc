import Sylar.Scheduler.Worker

/-! # Where a fiber runs

Two things decide which worker runs a fiber: the affinity of the queue entry a worker takes, and
the run loop's test that skips a fiber that is `EXEC`.

* `affinity_per_entry`: in every run, an entry a worker takes has affinity `-1` or was pinned to that
  worker by `schedule(fc, thread)` or `switchTo(thread)`. Re-queued and woken fibers get `-1`, so a
  fiber pinned to a worker that yields can resume elsewhere (`pinned_fiber_resumes_elsewhere`).
* `worker_resumes_fiber_mid_yield`: a wake-up delivered while its fiber is between the state write of
  `YieldToHold` and the context save of `swapOut` lets a second worker swap the fiber in before its
  context is saved; the first worker then marks the running fiber `HOLD`. -/

namespace Sylar.Scheduler.Placement

open Sylar.Scheduler.Queue Sylar.Scheduler.Worker

/-- **Where affinities come from**: every queued entry with an affinity, and every taken one, is an
entry a caller pinned; a taken entry with an affinity was taken by that worker. -/
structure Pinned (s : Sched) : Prop where
  queue : ∀ e ∈ s.fibers, e.thread = -1 ∨ e ∈ s.pinned
  runs : ∀ p ∈ s.runs, p.2.thread = -1 ∨ (p.2.thread = p.1 ∧ p.2 ∈ s.pinned)

theorem Pinned.frame {s s' : Sched} (h : Pinned s) (hq : ∀ e ∈ s'.fibers, e ∈ s.fibers ∨ e.thread = -1)
    (hr : s'.runs = s.runs) (hp : s'.pinned = s.pinned) : Pinned s' := by
  refine ⟨fun e he => ?_, fun p hp' => ?_⟩
  · rw [hp]
    rcases hq e he with he | he
    · exact h.queue e he
    · exact .inl he
  · rw [hr] at hp'; rw [hp]; exact h.runs p hp'

/-- `schedule(fc, thread)` with a chosen affinity records the entry as pinned. -/
theorem Pinned.pin {s : Sched} (h : Pinned s) (t : Task) (th : Int) : Pinned (s.pin t th) := by
  refine ⟨fun e he => ?_, fun p hp => ?_⟩
  · simp only [Sched.pin_fibers, Sched.pin_pinned, List.mem_append, List.mem_singleton] at he ⊢
    rcases he with he | rfl
    · exact (h.queue e he).imp_right .inl
    · exact .inr (.inr rfl)
  · simp only [Sched.pin_pinned, List.mem_append]
    exact (h.runs p hp).imp_right fun h => ⟨h.1, .inl h.2⟩

/-- A re-queued or woken fiber gets affinity `-1`. -/
theorem Pinned.schedule {s : Sched} (h : Pinned s) (t : Task) : Pinned (s.schedule t (-1)) := by
  refine h.frame (fun e he => ?_) rfl rfl
  simp only [Sched.schedule_fibers, List.mem_append, List.mem_singleton] at he
  rcases he with he | rfl
  · exact .inl he
  · exact .inr rfl

theorem pinned_step {s s' : Sched} {a : Action} (hs : Pinned s) (h : step s a = .ok s') :
    Pinned s' := by
  cases stepCase_of_step h with
  | stutter => exact hs
  | spawn | switchTo => exact (hs.pin _ _).frame (fun e he => .inl he) rfl rfl
  | dequeue _ _ ht =>
    obtain ⟨he, hq⟩ := take_sub ht
    refine ⟨fun e' he' => hs.queue e' (hq e' he'), fun p hp => ?_⟩
    simp only [List.mem_append, List.mem_singleton] at hp
    rcases hp with hp | rfl
    · exact hs.runs p hp
    · rcases take_thread ht with h1 | h1
      · exact .inl h1
      · exact (hs.queue _ he).imp_right fun h2 => ⟨h1, h2⟩
  | resumeFiber _ _ hsw | resumeCb _ _ hsw | resumeNewCb _ _ hsw =>
    obtain ⟨h1, h2, h3⟩ := swapIn_frame hsw
    exact hs.frame (fun e he => .inl (h1 ▸ he)) h2 h3
  | skipDone | yieldToReady | yieldToHold | finish | park | save | stop =>
    exact hs.frame (fun e he => .inl he) rfl rfl
  | post =>
    obtain ⟨h1 | h1, h2, h3⟩ := afterRun_frame _ _ _ _
    · exact hs.frame (fun e he => .inl (h1 ▸ he)) h2 h3
    · exact (hs.schedule _).frame (fun e he => .inl (h1 ▸ he)) h2 h3
  | wake => exact (hs.schedule _).frame (fun e he => .inl he) rfl rfl

/-- **Affinity is honoured per entry.** In every run, an entry a worker takes has affinity `-1` or
is one a caller pinned (`schedule(fc, thread)`, `switchTo(thread)`) to that worker's thread. -/
theorem affinity_per_entry {s : Sched} (h : Reachable s) :
    ∀ p ∈ s.runs, p.2.thread = -1 ∨ (p.2.thread = p.1 ∧ p.2 ∈ s.pinned) := by
  suffices Pinned s from this.runs
  induction h with
  | init n => exact ⟨fun e he => (List.not_mem_nil e he).elim, fun p hp => (List.not_mem_nil p hp).elim⟩
  | step _ _ hstep ih => exact pinned_step ih hstep

/-- Two workers, after a fiber is scheduled pinned to worker `1` and worker `1` takes it. -/
def pinnedRun : Sched :=
  match run (initial 2) [.spawn true 1, .dequeue 1] with
  | .ok s => s
  | .error _ => initial 2

theorem affinity_per_entry_pinned :
    (1, ⟨.fiber 0, 1⟩) ∈ pinnedRun.runs ∧
      ((⟨.fiber 0, 1⟩ : FiberAndThread).thread = -1 ∨
        ((⟨.fiber 0, 1⟩ : FiberAndThread).thread = ((1 : Nat) : Int) ∧
          ⟨.fiber 0, 1⟩ ∈ pinnedRun.pinned)) :=
  ⟨by decide, affinity_per_entry
    (run_reachable (.init 2) (rfl : run (initial 2) [.spawn true 1, .dequeue 1] = .ok pinnedRun))
    (1, ⟨.fiber 0, 1⟩) (by decide)⟩

/-- Fiber `0` runs on worker `0`, hands out a wake-up (it registers with the reactor) and yields
`HOLD`; the wake-up is delivered before the yield saves its context, and worker `1` takes the
entry. -/
def midYieldTrace : List Action :=
  [.spawn true (-1), .dequeue 0, .resume 0, .park 0, .wake 0, .yieldToHold 0, .dequeue 1]

/-- **A worker swaps in a fiber whose yield has not saved its context.** After `midYieldTrace`,
fiber `0` is in `swapOut` on worker `0` and worker `1` holds its entry; worker `1`'s `swapIn` passes
its assertion (the state is `HOLD`) and runs the fiber, and after worker `0` saves the context and
finishes its loop the fiber is marked `HOLD` while it runs on worker `1`. -/
theorem worker_resumes_fiber_mid_yield :
    ∃ s, Reachable s ∧ s.phase 0 = .saving 0 false ∧ s.host 0 = some 0 ∧
      s.phase 1 = .picked ⟨.fiber 0, -1⟩ ∧
      ∃ s', step s (.resume 1) = .ok s' ∧ s'.phase 1 = .running 0 false ∧
        ((run s' [.save 0, .post 0]).toOption.map fun s'' => (s''.state 0, s''.phase 1)) =
          some (.HOLD, .running 0 false) :=
  ⟨_, run_reachable (.init 2) (rfl : run (initial 2) midYieldTrace = .ok _), rfl, rfl, rfl, _, rfl,
    rfl, rfl⟩

/-- A fiber pinned to worker `1` yields `READY` there and is re-queued by the run loop. -/
def pinnedTrace : List Action :=
  [.spawn true 1, .dequeue 1, .resume 1, .yieldToReady 1, .save 1, .post 1, .dequeue 0]

/-- **A pinned fiber resumes on another worker.** Fiber `0` was scheduled with affinity `1` and ran
on worker `1`; after its `YieldToReady` the run loop re-queues it with `-1`, and worker `0` takes it
and runs it. -/
theorem pinned_fiber_resumes_elsewhere :
    ∃ s, Reachable s ∧ (1, ⟨.fiber 0, 1⟩) ∈ s.runs ∧ s.phase 0 = .picked ⟨.fiber 0, -1⟩ ∧
      ((step s (.resume 0)).toOption.map fun s' => (s'.phase 0, s'.host 0)) =
        some (.running 0 false, some 0) :=
  ⟨_, run_reachable (.init 2) (rfl : run (initial 2) pinnedTrace = .ok _), by decide, rfl, rfl⟩

end Sylar.Scheduler.Placement
