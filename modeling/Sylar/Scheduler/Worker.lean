import Sylar.Scheduler.Queue

/-! # The workers of `Scheduler::run`

Each worker runs `Scheduler::run`: under the queue lock it takes the first entry it may run
(`take`), then, without the lock, swaps into the entry's fiber (or wraps a callback in its reusable
`cb_fiber`), and when the fiber swaps back it does `--m_activeThreadCount` and then, in a later
step that takes the lock, re-queues the fiber if it yielded `READY` and otherwise marks it `HOLD`. A
fiber that yields does it in two parts: `YieldToHold`/`YieldToReady` write its state, then
`swapOut`'s `swapcontext` saves its context. Between the two the fiber still runs on its worker.

Other parties only append to the queue: new tasks (`schedule(fc, thread)`), a fiber's own
`switchTo(thread)`, and the wake-ups that the reactor, the timers and `FiberSemaphore` deliver to a
fiber that handed one out (`park`), each with thread `-1`. A wake-up can arrive before the fiber has
yielded.

The run loop's only protection against running a fiber twice is to skip entries whose fiber is
`EXEC`. Between a fiber's state write and its context save that test passes, so another worker can
swap in a fiber that has not saved its context (`worker_resumes_fiber_mid_yield`). The affinity of an
entry is honoured when it is taken (`affinity_per_entry`), but the run loop and the wake-ups re-queue
a fiber with thread `-1`, so a pinned fiber that yields can resume on any worker
(`pinned_fiber_resumes_elsewhere`). -/

namespace Sylar.Scheduler.Worker

open Sylar.Scheduler.Queue

/-- Where a worker is in its loop. -/
inductive WorkerPhase
  | loop
  /-- An entry taken under the lock, not yet started. -/
  | picked (ft : FiberAndThread)
  /-- Swapped into fiber `f` (`cb`: the worker's `cb_fiber`). -/
  | running (f : Nat) (cb : Bool)
  /-- `f` has written its state in a yield and is in `swapOut`, its context not yet saved. -/
  | saving (f : Nat) (cb : Bool)
  /-- `swapIn` has returned and `--m_activeThreadCount` is done: the re-queue or `HOLD` write is
  next. -/
  | back (f : Nat) (cb : Bool)
deriving DecidableEq, Repr

/-- A worker that has taken an entry and not yet finished the bookkeeping after it. -/
def WorkerPhase.busy : WorkerPhase → Bool
  | .loop => false
  | _ => true

@[simp] theorem WorkerPhase.busy_eq_false (ph : WorkerPhase) : ph.busy = false ↔ ph = .loop := by
  cases ph <;> simp [WorkerPhase.busy]

/-- A worker between taking an entry and the `--m_activeThreadCount` after it. -/
def WorkerPhase.active : WorkerPhase → Bool
  | .picked _ | .running _ _ | .saving _ _ => true
  | .loop | .back _ _ => false

theorem WorkerPhase.active_eq_false (ph : WorkerPhase) :
    ph.active = false ↔ ph = .loop ∨ ∃ f cb, ph = .back f cb := by
  cases ph <;> simp [WorkerPhase.active]

/-- **A `Scheduler`** with `m_threadCount` workers, numbered by their thread ids. Fibers are
numbered; `state` is each fiber's `m_state`, `host` the worker whose stack it is executing on, `armed`
the wake-ups it has handed out and not yet received. Two records are kept beside the code's state:
`runs`, every entry a worker took, and `pinned`, every entry whose affinity a caller chose
(`schedule(fc, thread)` and `switchTo(thread)`). -/
structure Sched where
  threadCount : Nat
  fibers : List FiberAndThread
  state : Nat → FiberState
  host : Nat → Option Nat
  phase : Nat → WorkerPhase
  cbFiber : Nat → Option Nat
  activeThreadCount : Nat
  /-- `m_autoStop` and the member `m_stopping` (not the method `stopping()`), set by `stop()`. -/
  autoStop : Bool
  mStopping : Bool
  next : Nat
  armed : Nat → Nat
  runs : List (Nat × FiberAndThread)
  pinned : List FiberAndThread

/-- A constructed scheduler whose workers have started. -/
def initial (n : Nat) : Sched where
  threadCount := n
  fibers := []
  state _ := .INIT
  host _ := none
  phase _ := .loop
  cbFiber _ := none
  activeThreadCount := 0
  autoStop := false
  mStopping := false
  next := 0
  armed _ := 0
  runs := []
  pinned := []

/-- A step of a worker, of a fiber on it, or of another party. -/
inductive Action
  /-- `schedule(fc, thread)` of a new fiber or callback. -/
  | spawn (isFiber : Bool) (thread : Int)
  /-- The locked scan of the run loop. -/
  | dequeue (w : Nat)
  /-- `swapIn` of the taken fiber, or of `cb_fiber` for a callback. -/
  | resume (w : Nat)
  | yieldToReady (w : Nat)
  | yieldToHold (w : Nat)
  /-- `MainFunc` ends the fiber: `TERM`, or `EXCEPT` after an exception. -/
  | finish (w : Nat) (ok : Bool)
  /-- The running fiber hands out a wake-up: `addEvent`, a timer, a semaphore wait. -/
  | park (w : Nat)
  | switchTo (w : Nat) (thread : Int)
  /-- `swapOut`'s `swapcontext` saves the yielding fiber's context and returns into the worker's
  `swapIn`, after which the run loop does `--m_activeThreadCount`. The worker writes nothing else
  in between, and the model keeps no `m_ctx`, so the two are one step. -/
  | save (w : Nat)
  /-- The run loop's bookkeeping after the decrement: the re-queue or the `HOLD` write. -/
  | post (w : Nat)
  /-- A handed-out wake-up is delivered: `schedule(fiber)` with thread `-1`. -/
  | wake (f : Nat)
  /-- **`Scheduler::stop()`** by a thread outside the scheduler: `m_autoStop = true` and
  `m_stopping = true`; its tickles and joins change nothing the workers read. -/
  | stop

namespace Sched

/-- `schedule(fc, thread)`: `scheduleNoLock` under the lock. -/
def schedule (s : Sched) (t : Task) (thread : Int) : Sched :=
  { s with fibers := (scheduleNoLock s.fibers (some t) thread).1 }

/-- `schedule(fc, thread)` with an affinity chosen by the caller, recorded in `pinned`. -/
def pin (s : Sched) (t : Task) (thread : Int) : Sched :=
  { s.schedule t thread with pinned := s.pinned ++ [⟨t, thread⟩] }

def setState (s : Sched) (f : Nat) (st : FiberState) : Sched :=
  { s with state := Function.update s.state f st }

def setPhase (s : Sched) (w : Nat) (ph : WorkerPhase) : Sched :=
  { s with phase := Function.update s.phase w ph }

/-- **`Scheduler::stopping()`**: `m_autoStop && m_stopping && m_fibers.empty() &&
m_activeThreadCount == 0`. -/
def stopping (s : Sched) : Bool :=
  s.autoStop && s.mStopping && s.fibers.isEmpty && s.activeThreadCount == 0

end Sched

/-- **`Fiber::swapIn`** on worker `w`: `SYLAR_ASSERT(m_state != EXEC)`, `m_state = EXEC`, and the
fiber runs on `w`. -/
def swapIn (s : Sched) (w f : Nat) (cb : Bool) : Except String Sched :=
  if s.state f = .EXEC then .error "m_state != EXEC" else
  .ok { (s.setState f .EXEC).setPhase w (.running f cb) with
        host := Function.update s.host f (some w) }

/-- The state write of `YieldToReady`/`YieldToHold`: `SYLAR_ASSERT(cur->m_state == EXEC)`. -/
def yieldTo (s : Sched) (w : Nat) (st : FiberState) : Except String Sched :=
  match s.phase w with
  | .running f cb =>
    if s.state f = .EXEC then .ok ((s.setState f st).setPhase w (.saving f cb))
    else .error "cur->m_state == EXEC"
  | _ => .ok s

/-- A terminated or failed fiber. -/
def FiberState.done (st : FiberState) : Bool := st = .TERM || st = .EXCEPT

/-- **The run loop's bookkeeping after `--m_activeThreadCount`**: re-queue a `READY` fiber with
thread `-1` (`schedule` takes the lock), keep a finished one, and mark any other `HOLD`. The
worker's `cb_fiber` is dropped when it escapes and `reset(nullptr)` (back to `INIT`) when it
finished. -/
def afterRun (s : Sched) (w f : Nat) (cb : Bool) : Sched :=
  let s := s.setPhase w .loop
  if s.state f = .READY then
    { s.schedule (.fiber f) (-1) with
      cbFiber := if cb then Function.update s.cbFiber w none else s.cbFiber }
  else if FiberState.done (s.state f) then (if cb then s.setState f .INIT else s)
  else { s.setState f .HOLD with
         cbFiber := if cb then Function.update s.cbFiber w none else s.cbFiber }

/-- **One step.** A step its worker cannot take leaves the state as it is. -/
def step (s : Sched) : Action → Except String Sched
  | .spawn isFiber thread =>
    let n := s.next
    .ok { (s.pin (if isFiber then .fiber n else .cb n) thread).setState n .INIT with
          next := n + 1 }
  | .dequeue w =>
    if w < s.threadCount ∧ s.phase w = .loop then
      match take s.state w s.fibers with
      | none => .ok s
      | some (e, q) =>
        .ok { s.setPhase w (.picked e) with
              fibers := q, activeThreadCount := s.activeThreadCount + 1, runs := s.runs ++ [(w, e)] }
    else .ok s
  | .resume w =>
    match s.phase w with
    | .picked ⟨.fiber f, _⟩ =>
      if FiberState.done (s.state f) then
        .ok { s.setPhase w .loop with activeThreadCount := s.activeThreadCount - 1 }
      else swapIn s w f false
    | .picked ⟨.cb _, _⟩ =>
      match s.cbFiber w with
      | some g =>
        if FiberState.done (s.state g) || s.state g = .INIT then swapIn (s.setState g .INIT) w g true
        else .error "m_state == TERM || m_state == EXCEPT || m_state == INIT"
      | none =>
        let g := s.next
        swapIn { s.setState g .INIT with
                 next := g + 1, cbFiber := Function.update s.cbFiber w (some g) } w g true
    | _ => .ok s
  | .yieldToReady w => yieldTo s w .READY
  | .yieldToHold w => yieldTo s w .HOLD
  | .finish w ok =>
    match s.phase w with
    | .running f cb => .ok ((s.setState f (if ok then .TERM else .EXCEPT)).setPhase w (.saving f cb))
    | _ => .ok s
  | .park w =>
    match s.phase w with
    | .running f _ => .ok { s with armed := Function.update s.armed f (s.armed f + 1) }
    | _ => .ok s
  | .switchTo w thread =>
    match s.phase w with
    | .running f _ =>
      if thread = -1 ∨ thread = w then .ok s else yieldTo (s.pin (.fiber f) thread) w .HOLD
    | _ => .ok s
  | .save w =>
    match s.phase w with
    | .saving f cb =>
      .ok { s.setPhase w (.back f cb) with
            host := Function.update s.host f none, activeThreadCount := s.activeThreadCount - 1 }
    | _ => .ok s
  | .post w =>
    match s.phase w with
    | .back f cb => .ok (afterRun s w f cb)
    | _ => .ok s
  | .wake f =>
    if s.armed f = 0 then .ok s
    else .ok { s.schedule (.fiber f) (-1) with armed := Function.update s.armed f (s.armed f - 1) }
  | .stop => .ok { s with autoStop := true, mStopping := true }

/-- **What a step does**, one case per branch of `step` that changes the state. -/
inductive StepCase : Sched → Action → Sched → Prop
  | stutter (s : Sched) (a : Action) : StepCase s a s
  | spawn (s : Sched) (isFiber : Bool) (thread : Int) :
      StepCase s (.spawn isFiber thread)
        { (s.pin (if isFiber then .fiber s.next else .cb s.next) thread).setState s.next .INIT with
          next := s.next + 1 }
  | dequeue {s : Sched} {w : Nat} {e : FiberAndThread} {q : List FiberAndThread} :
      w < s.threadCount → s.phase w = .loop → take s.state w s.fibers = some (e, q) →
      StepCase s (.dequeue w)
        { s.setPhase w (.picked e) with
          fibers := q, activeThreadCount := s.activeThreadCount + 1, runs := s.runs ++ [(w, e)] }
  | skipDone {s : Sched} {w f : Nat} {t : Int} : s.phase w = .picked ⟨.fiber f, t⟩ →
      FiberState.done (s.state f) = true →
      StepCase s (.resume w) { s.setPhase w .loop with activeThreadCount := s.activeThreadCount - 1 }
  | resumeFiber {s s' : Sched} {w f : Nat} {t : Int} : s.phase w = .picked ⟨.fiber f, t⟩ →
      FiberState.done (s.state f) = false → swapIn s w f false = .ok s' → StepCase s (.resume w) s'
  | resumeCb {s s' : Sched} {w c g : Nat} {t : Int} : s.phase w = .picked ⟨.cb c, t⟩ →
      s.cbFiber w = some g → swapIn (s.setState g .INIT) w g true = .ok s' →
      StepCase s (.resume w) s'
  | resumeNewCb {s s' : Sched} {w c : Nat} {t : Int} : s.phase w = .picked ⟨.cb c, t⟩ →
      s.cbFiber w = none →
      swapIn { s.setState s.next .INIT with
               next := s.next + 1, cbFiber := Function.update s.cbFiber w (some s.next) }
        w s.next true = .ok s' →
      StepCase s (.resume w) s'
  | yieldToReady {s : Sched} {w f : Nat} {cb : Bool} : s.phase w = .running f cb →
      s.state f = .EXEC →
      StepCase s (.yieldToReady w) ((s.setState f .READY).setPhase w (.saving f cb))
  | yieldToHold {s : Sched} {w f : Nat} {cb : Bool} : s.phase w = .running f cb →
      s.state f = .EXEC →
      StepCase s (.yieldToHold w) ((s.setState f .HOLD).setPhase w (.saving f cb))
  | finish {s : Sched} {w f : Nat} {cb : Bool} (ok : Bool) : s.phase w = .running f cb →
      StepCase s (.finish w ok)
        ((s.setState f (if ok then .TERM else .EXCEPT)).setPhase w (.saving f cb))
  | park {s : Sched} {w f : Nat} {cb : Bool} : s.phase w = .running f cb →
      StepCase s (.park w) { s with armed := Function.update s.armed f (s.armed f + 1) }
  | switchTo {s : Sched} {w f : Nat} {cb : Bool} {thread : Int} : s.phase w = .running f cb →
      ¬(thread = -1 ∨ thread = w) → s.state f = .EXEC →
      StepCase s (.switchTo w thread)
        (((s.pin (.fiber f) thread).setState f .HOLD).setPhase w (.saving f cb))
  | save {s : Sched} {w f : Nat} {cb : Bool} : s.phase w = .saving f cb →
      StepCase s (.save w)
        { s.setPhase w (.back f cb) with
          host := Function.update s.host f none, activeThreadCount := s.activeThreadCount - 1 }
  | post {s : Sched} {w f : Nat} {cb : Bool} : s.phase w = .back f cb →
      StepCase s (.post w) (afterRun s w f cb)
  | wake {s : Sched} {f : Nat} : s.armed f ≠ 0 →
      StepCase s (.wake f)
        { s.schedule (.fiber f) (-1) with armed := Function.update s.armed f (s.armed f - 1) }
  | stop (s : Sched) : StepCase s .stop { s with autoStop := true, mStopping := true }

theorem yieldTo_cases {s s' : Sched} {w : Nat} {st : FiberState} (h : yieldTo s w st = .ok s') :
    (s' = s ∧ ∀ f cb, s.phase w ≠ .running f cb) ∨
    ∃ f cb, s.phase w = .running f cb ∧ s.state f = .EXEC ∧
      s' = (s.setState f st).setPhase w (.saving f cb) := by
  unfold yieldTo at h
  split at h
  · split at h
    · cases h; exact .inr ⟨_, _, ‹_›, ‹_›, rfl⟩
    · cases h
  · cases h; exact .inl ⟨rfl, ‹_›⟩

theorem stepCase_of_step {s s' : Sched} {a : Action} (h : step s a = .ok s') : StepCase s a s' := by
  cases a with
  | spawn isFiber thread => cases h; exact .spawn s isFiber thread
  | dequeue w =>
    simp only [step] at h
    split at h
    · rename_i hg
      split at h
      · cases h; exact .stutter _ _
      · cases h; exact .dequeue hg.1 hg.2 ‹_›
    · cases h; exact .stutter _ _
  | resume w =>
    simp only [step] at h
    split at h
    · split at h
      · cases h; exact .skipDone ‹_› ‹_›
      · rename_i hd
        exact .resumeFiber ‹_› (by simpa using hd) h
    · split at h
      · split at h
        · exact .resumeCb ‹_› ‹_› h
        · cases h
      · exact .resumeNewCb ‹_› ‹_› h
    · cases h; exact .stutter _ _
  | yieldToReady w =>
    rcases yieldTo_cases h with ⟨rfl, -⟩ | ⟨f, cb, hph, hst, rfl⟩
    exacts [.stutter _ _, .yieldToReady hph hst]
  | yieldToHold w =>
    rcases yieldTo_cases h with ⟨rfl, -⟩ | ⟨f, cb, hph, hst, rfl⟩
    exacts [.stutter _ _, .yieldToHold hph hst]
  | finish w ok =>
    simp only [step] at h
    split at h <;> cases h
    exacts [.finish ok ‹_›, .stutter _ _]
  | park w =>
    simp only [step] at h
    split at h <;> cases h
    exacts [.park ‹_›, .stutter _ _]
  | switchTo w thread =>
    simp only [step] at h
    split at h
    · rename_i f cb hph
      split at h
      · cases h; exact .stutter _ _
      · rcases yieldTo_cases h with ⟨-, hne⟩ | ⟨f', cb', hph', hst, rfl⟩
        · exact absurd hph (hne f cb)
        · simp only [Sched.pin, Sched.schedule] at hph' hst
          rw [hph] at hph'
          cases hph'
          exact .switchTo hph ‹_› hst
    · cases h; exact .stutter _ _
  | save w =>
    simp only [step] at h
    split at h <;> cases h
    exacts [.save ‹_›, .stutter _ _]
  | post w =>
    simp only [step] at h
    split at h <;> cases h
    exacts [.post ‹_›, .stutter _ _]
  | wake f =>
    simp only [step] at h
    split at h <;> cases h
    exacts [.stutter _ _, .wake ‹_›]
  | stop => cases h; exact .stop s

/-! ### The queue and the records under each step -/

namespace Sched

@[simp] theorem schedule_fibers (s : Sched) (t : Task) (th : Int) :
    (s.schedule t th).fibers = s.fibers ++ [⟨t, th⟩] := rfl
@[simp] theorem schedule_runs (s : Sched) (t : Task) (th : Int) : (s.schedule t th).runs = s.runs :=
  rfl
@[simp] theorem schedule_pinned (s : Sched) (t : Task) (th : Int) :
    (s.schedule t th).pinned = s.pinned := rfl
@[simp] theorem pin_fibers (s : Sched) (t : Task) (th : Int) :
    (s.pin t th).fibers = s.fibers ++ [⟨t, th⟩] := rfl
@[simp] theorem pin_runs (s : Sched) (t : Task) (th : Int) : (s.pin t th).runs = s.runs := rfl
@[simp] theorem pin_pinned (s : Sched) (t : Task) (th : Int) :
    (s.pin t th).pinned = s.pinned ++ [⟨t, th⟩] := rfl
@[simp] theorem setState_fibers (s : Sched) (f : Nat) (st : FiberState) :
    (s.setState f st).fibers = s.fibers := rfl
@[simp] theorem setState_runs (s : Sched) (f : Nat) (st : FiberState) :
    (s.setState f st).runs = s.runs := rfl
@[simp] theorem setState_pinned (s : Sched) (f : Nat) (st : FiberState) :
    (s.setState f st).pinned = s.pinned := rfl
@[simp] theorem setPhase_fibers (s : Sched) (w : Nat) (ph : WorkerPhase) :
    (s.setPhase w ph).fibers = s.fibers := rfl
@[simp] theorem setPhase_runs (s : Sched) (w : Nat) (ph : WorkerPhase) :
    (s.setPhase w ph).runs = s.runs := rfl
@[simp] theorem setPhase_pinned (s : Sched) (w : Nat) (ph : WorkerPhase) :
    (s.setPhase w ph).pinned = s.pinned := rfl
@[simp] theorem pin_activeThreadCount (s : Sched) (t : Task) (th : Int) :
    (s.pin t th).activeThreadCount = s.activeThreadCount := rfl
@[simp] theorem setState_activeThreadCount (s : Sched) (f : Nat) (st : FiberState) :
    (s.setState f st).activeThreadCount = s.activeThreadCount := rfl
@[simp] theorem setPhase_activeThreadCount (s : Sched) (w : Nat) (ph : WorkerPhase) :
    (s.setPhase w ph).activeThreadCount = s.activeThreadCount := rfl

end Sched

theorem swapIn_frame {s s' : Sched} {w f : Nat} {cb : Bool} (h : swapIn s w f cb = .ok s') :
    s'.fibers = s.fibers ∧ s'.runs = s.runs ∧ s'.pinned = s.pinned := by
  unfold swapIn at h
  split at h
  · cases h
  · cases h; exact ⟨rfl, rfl, rfl⟩

theorem afterRun_frame (s : Sched) (w f : Nat) (cb : Bool) :
    ((afterRun s w f cb).fibers = s.fibers ∨ (afterRun s w f cb).fibers = s.fibers ++ [⟨.fiber f, -1⟩]) ∧
      (afterRun s w f cb).runs = s.runs ∧ (afterRun s w f cb).pinned = s.pinned := by
  simp only [afterRun]
  split_ifs <;> simp

/-- The states reached from a constructed scheduler. -/
inductive Reachable : Sched → Prop
  | init (n : Nat) : Reachable (initial n)
  | step {s s' : Sched} (a : Action) : Reachable s → step s a = .ok s' → Reachable s'

/-- Run a list of steps. -/
def run (s : Sched) : List Action → Except String Sched
  | [] => .ok s
  | a :: as =>
    match step s a with
    | .error msg => .error msg
    | .ok s' => run s' as

theorem run_reachable : ∀ {s s' : Sched} {as : List Action}, Reachable s → run s as = .ok s' →
    Reachable s'
  | s, s', [], hs, h => by cases h; exact hs
  | s, s', a :: as, hs, h => by
    unfold run at h
    split at h
    · cases h
    · exact run_reachable (.step a hs ‹_›) h

end Sylar.Scheduler.Worker
