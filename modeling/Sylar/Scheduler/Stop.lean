import Sylar.Scheduler.Worker
import Mathlib.Data.List.Range

/-! # When the scheduler may stop

`Scheduler::stopping()` is `m_autoStop && m_stopping && m_fibers.empty() && m_activeThreadCount ==
0`, so it says that no worker has a task only if `m_activeThreadCount` counts them. A worker adds
one when it takes an entry under the queue lock and takes it back on each way out: after `swapIn`
of a fiber returns, after `swapIn` of `cb_fiber` returns, and, for a fiber already `TERM` or
`EXCEPT`, in the `is_active` branch that `continue`s. After `swapIn` the decrement comes before the
bookkeeping: a `READY` fiber is re-queued, with the lock, only after it.

* `activeCount`: the workers between taking an entry and the decrement after it;
* `Balance`: `m_activeThreadCount` is that number, and the numbers past `m_threadCount` are never
  workers; `balance_step` is one case per `StepCase`;
* `stopping_iff_none_running`: in every run the count balances, so `stopping()` holds exactly when
  stop was requested, the queue is empty and every worker is in its loop or past its decrement;
* `stopping_with_ready_fiber_held`: so `stopping()` can hold while a worker holds a `READY` fiber
  it has not yet re-queued, and `m_activeThreadCount` is then not the number of workers that have
  not finished the bookkeeping after their entry. -/

namespace Sylar.Scheduler.Stop

open Sylar.Scheduler.Queue Sylar.Scheduler.Worker

/-! ### Active workers -/

/-- The number of workers that have taken an entry and not yet decremented the count. -/
def activeCount (s : Sched) : Nat := (List.range s.threadCount).countP fun w => (s.phase w).active

/-- The number of workers that have taken an entry and not finished the bookkeeping after it. -/
def busyCount (s : Sched) : Nat := (List.range s.threadCount).countP fun w => (s.phase w).busy

theorem countP_range_update_of_le {α : Type} (q : α → Bool) (f : Nat → α) {n w : Nat}
    (hw : n ≤ w) (x : α) :
    (List.range n).countP (fun v => q (Function.update f w x v)) =
      (List.range n).countP fun v => q (f v) :=
  List.countP_congr fun v hv => by
    rw [Function.update_noteq (by rw [List.mem_range] at hv; omega)]

/-- Changing one entry below `n` changes the count by what the entry was and what it becomes. -/
theorem countP_range_update {α : Type} (q : α → Bool) (f : Nat → α) (x : α) :
    ∀ {n w : Nat}, w < n →
      (List.range n).countP (fun v => q (Function.update f w x v)) + (if q (f w) then 1 else 0) =
        (List.range n).countP (fun v => q (f v)) + (if q x then 1 else 0)
  | 0, _, hw => absurd hw (Nat.not_lt_zero _)
  | n + 1, w, hw => by
    simp only [List.range_succ, List.countP_append, List.countP_singleton]
    rcases Nat.lt_succ_iff_lt_or_eq.mp hw with hlt | rfl
    · have ih := countP_range_update q f x hlt
      rw [Function.update_noteq (Nat.ne_of_gt hlt)]
      omega
    · rw [countP_range_update_of_le q f le_rfl x, Function.update_same]
      omega

/-! ### The count balances -/

/-- **The invariant**: `m_activeThreadCount` counts the active workers, and the numbers past
`m_threadCount` are never workers. -/
structure Balance (s : Sched) : Prop where
  count : s.activeThreadCount = activeCount s
  idle : ∀ w, s.threadCount ≤ w → s.phase w = .loop

variable {s s' : Sched}

theorem Balance.lt_of_ne_loop (h : Balance s) {w : Nat} (hw : s.phase w ≠ .loop) :
    w < s.threadCount :=
  Nat.lt_of_not_le fun hle => hw (h.idle w hle)

/-- A step that changes no worker's phase and not the count. -/
theorem Balance.frame (h : Balance s) (hp : s'.phase = s.phase)
    (ht : s'.threadCount = s.threadCount) (ha : s'.activeThreadCount = s.activeThreadCount) :
    Balance s' := by
  refine ⟨?_, fun w hw => ?_⟩
  · rw [ha, h.count, activeCount, activeCount, hp, ht]
  · rw [hp]; exact h.idle w (ht ▸ hw)

/-- A step that moves worker `w` to `ph` and the count by as much as `w`'s activity changes. -/
theorem Balance.update (h : Balance s) {w : Nat} {ph : WorkerPhase} (hw : w < s.threadCount)
    (hp : s'.phase = Function.update s.phase w ph) (ht : s'.threadCount = s.threadCount)
    (ha : s'.activeThreadCount + (if (s.phase w).active then 1 else 0) =
      s.activeThreadCount + (if ph.active then 1 else 0)) : Balance s' := by
  refine ⟨?_, fun v hv => ?_⟩
  · have hc := countP_range_update WorkerPhase.active s.phase ph hw
    have h0 := h.count
    simp only [activeCount, hp, ht] at h0 ⊢
    omega
  · rw [hp, Function.update_noteq (by omega)]
    exact h.idle v (ht ▸ hv)

/-- Worker `w`, which has an entry, moves to a phase as active as the one it leaves; the count
stays. -/
theorem Balance.move (h : Balance s) {w : Nat} {ph : WorkerPhase}
    (hp : s'.phase = Function.update s.phase w ph) (ht : s'.threadCount = s.threadCount)
    (ha : s'.activeThreadCount = s.activeThreadCount) (hw : s.phase w ≠ .loop)
    (hph : ph.active = (s.phase w).active) : Balance s' :=
  h.update (h.lt_of_ne_loop hw) hp ht (by rw [ha, hph])

/-- Worker `w` decrements the count: it leaves an active phase for an inactive one. -/
theorem Balance.leave (h : Balance s) {w : Nat} {ph : WorkerPhase}
    (hw : (s.phase w).active = true) (hp : s'.phase = Function.update s.phase w ph)
    (ht : s'.threadCount = s.threadCount) (ha : s'.activeThreadCount = s.activeThreadCount - 1)
    (hph : ph.active = false) : Balance s' := by
  have hlt : w < s.threadCount := h.lt_of_ne_loop fun h0 => by simp [h0, WorkerPhase.active] at hw
  have hpos : 0 < s.activeThreadCount := by
    rw [h.count, activeCount]
    exact List.countP_pos_iff.2 ⟨w, List.mem_range.2 hlt, hw⟩
  refine h.update hlt hp ht ?_
  rw [ha, hw, hph, if_pos rfl, if_neg Bool.false_ne_true]
  omega

theorem swapIn_phase {w f : Nat} {cb : Bool} (h : swapIn s w f cb = .ok s') :
    s'.phase = Function.update s.phase w (.running f cb) ∧
      s'.activeThreadCount = s.activeThreadCount ∧ s'.threadCount = s.threadCount := by
  unfold swapIn at h
  split at h
  · cases h
  · cases h; exact ⟨rfl, rfl, rfl⟩

theorem afterRun_phase (s : Sched) (w f : Nat) (cb : Bool) :
    (afterRun s w f cb).phase = Function.update s.phase w .loop ∧
      (afterRun s w f cb).activeThreadCount = s.activeThreadCount ∧
      (afterRun s w f cb).threadCount = s.threadCount := by
  simp only [afterRun]
  split_ifs <;> exact ⟨rfl, rfl, rfl⟩

theorem balance_step {a : Action} (hb : Balance s) (h : step s a = .ok s') : Balance s' := by
  cases stepCase_of_step h with
  | stutter => exact hb
  | spawn | park | wake | stop => exact hb.frame rfl rfl rfl
  | dequeue hw hph _ => exact hb.update hw rfl rfl (by simp [hph, WorkerPhase.active])
  | skipDone hph _ => exact hb.leave (by simp [hph, WorkerPhase.active]) rfl rfl rfl rfl
  | resumeFiber hph _ hsw | resumeCb hph _ hsw | resumeNewCb hph _ hsw =>
    obtain ⟨hp, ha, ht⟩ := swapIn_phase hsw
    exact hb.move hp ht (by simpa using ha) (by simp [hph]) (by simp [hph, WorkerPhase.active])
  | yieldToReady hph _ | yieldToHold hph _ | finish _ hph | switchTo hph _ _ =>
    exact hb.move rfl rfl (by simp) (by simp [hph]) (by simp [hph, WorkerPhase.active])
  | save hph => exact hb.leave (by simp [hph, WorkerPhase.active]) rfl rfl rfl rfl
  | post hph =>
    obtain ⟨hp, ha, ht⟩ := afterRun_phase s _ _ _
    exact hb.move hp ht ha (by simp [hph]) (by simp [hph, WorkerPhase.active])

theorem balance_of_reachable (h : Reachable s) : Balance s := by
  induction h with
  | init n => exact ⟨by simp [initial, activeCount, WorkerPhase.active], fun _ _ => rfl⟩
  | step _ _ hs ih => exact balance_step ih hs

/-- **When the scheduler stops.** In every run of the workers, `m_activeThreadCount` is the number
of workers that have taken an entry and not yet done the `--m_activeThreadCount` after it,
whatever branch the entry took; so `stopping()` holds exactly when `stop()` set both flags, the
queue is empty and every worker is in its loop or past its decrement, before the re-queue or
`HOLD` write. -/
theorem stopping_iff_none_running (h : Reachable s) :
    s.activeThreadCount = activeCount s ∧
      (s.stopping = true ↔
        s.autoStop = true ∧ s.mStopping = true ∧ s.fibers = [] ∧
          ∀ w, s.phase w = .loop ∨ ∃ f cb, s.phase w = .back f cb) := by
  have hb := balance_of_reachable h
  refine ⟨hb.count, ?_⟩
  have hidle :
      s.activeThreadCount = 0 ↔ ∀ w, s.phase w = .loop ∨ ∃ f cb, s.phase w = .back f cb := by
    simp only [← WorkerPhase.active_eq_false]
    rw [hb.count, activeCount, List.countP_eq_zero]
    refine ⟨fun h0 w => ?_, fun h0 w _ => by simp [h0 w]⟩
    by_cases hw : w < s.threadCount
    · simpa using h0 w (List.mem_range.mpr hw)
    · rw [hb.idle w (Nat.le_of_not_lt hw)]; rfl
  simp only [Sched.stopping, Bool.and_eq_true, List.isEmpty_iff, beq_iff_eq, hidle, and_assoc]

/-- Two workers; a callback runs to its end on worker `0`, then `stop()`. -/
def stopTrace : List Action :=
  [.spawn false (-1), .dequeue 0, .resume 0, .finish 0 true, .save 0, .post 0, .stop]

/-- The state `stopTrace` reaches. -/
def stopped : Sched :=
  match run (initial 2) stopTrace with
  | .ok s => s
  | .error _ => initial 2

theorem stopping_iff_none_running_stopped :
    stopped.stopping = true ∧ stopped.activeThreadCount = activeCount stopped ∧
      (stopped.stopping = true ↔ stopped.autoStop = true ∧ stopped.mStopping = true ∧
        stopped.fibers = [] ∧ ∀ w, stopped.phase w = .loop ∨ ∃ f cb, stopped.phase w = .back f cb) :=
  ⟨rfl, stopping_iff_none_running
    (run_reachable (.init 2) (rfl : run (initial 2) stopTrace = .ok stopped))⟩

/-- Fiber `0` yields `READY` on worker `0` and its context is saved; `stop()` is called before the
run loop re-queues it. -/
def readyHeldTrace : List Action :=
  [.spawn true (-1), .dequeue 0, .resume 0, .yieldToReady 0, .save 0, .stop]

/-- **`stopping()` holds while a `READY` fiber is held.** After `readyHeldTrace` worker `0` has not
finished the bookkeeping after its entry, so `m_activeThreadCount` (`0`) is not the number of such
workers (`1`), and `stopping()` holds although fiber `0` is `READY` and in no queue; the run loop's
next step puts it back in the queue. -/
theorem stopping_with_ready_fiber_held :
    ∃ s, Reachable s ∧ s.stopping = true ∧ s.phase 0 = .back 0 false ∧ s.state 0 = .READY ∧
      s.activeThreadCount ≠ busyCount s ∧
      ((step s (.post 0)).toOption.map fun s' => (s'.fibers, s'.stopping)) =
        some ([⟨.fiber 0, -1⟩], false) :=
  ⟨_, run_reachable (.init 2) (rfl : run (initial 2) readyHeldTrace = .ok _), rfl, rfl, rfl,
    by decide, rfl⟩

end Sylar.Scheduler.Stop
