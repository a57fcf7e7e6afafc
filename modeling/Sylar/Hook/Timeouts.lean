import Sylar.Hook.Io

/-! # The delays the hooks compute

Two hooks turn a caller's duration into the `uint64_t` milliseconds of a timer.

* The sleeps arm `addTimer(ms, schedule(fiber))` with `seconds * 1000` in `unsigned int`,
  `usec / 1000`, and `int timeout_ms = req->tv_sec * 1000 + req->tv_nsec / 1000 / 1000`
  (`SleepCall.ms`). The first and the last wrap: the delay is the caller's exactly when it fits in
  the type (`sleep_delays_wrap`).
* The hooked `setsockopt(SO_RCVTIMEO or SO_SNDTIMEO)` stores `tv_sec * 1000 + tv_usec / 1000`
  (`timevalMs`), and `do_io` treats only `(uint64_t)-1` as no timeout. A `timeval` below one
  millisecond, `{0, 0}` included, is stored as `0`: the next wait arms a condition timer that is
  already due, and the call fails with `ETIMEDOUT` before any time has passed
  (`sub_ms_socket_timeout_fails_at_once`). -/

namespace Sylar.Hook.Timeouts

open Sylar.Kernel.Epoll Sylar.IOManager.Context.Event Sylar.Hook.FdTable Sylar.Hook.Io
open Sylar.Timer.Manager

/-! ### The sleeps -/

theorem sleep_ms_exact (s : Nat) : (SleepCall.sleep s).ms = s * 1000 ↔ s * 1000 < 2 ^ 32 := by
  simp only [SleepCall.ms]; omega

/-- For a `timespec` with `0 ≤ tv_nsec < 10^9` whose `long` expression does not overflow, the
delay is the caller's exactly when it fits in an `int`. -/
theorem nanosleep_ms_exact {sec nsec : Int} (hs : 0 ≤ sec) (hn0 : 0 ≤ nsec)
    (hn : nsec < 1000000000) (hv : sec * 1000 + nsec / 1000000 < 2 ^ 63) :
    ((SleepCall.nanosleep sec nsec).ms : Int) = sec * 1000 + nsec / 1000000 ↔
      sec * 1000 + nsec / 1000000 < 2 ^ 31 := by
  have h1 : Int.tdiv nsec 1000 = nsec / 1000 := Int.tdiv_eq_ediv hn0 (by decide)
  have h2 : Int.tdiv (nsec / 1000) 1000 = nsec / 1000 / 1000 :=
    Int.tdiv_eq_ediv (Int.ediv_nonneg hn0 (by decide)) (by decide)
  have h3 : nsec / 1000 / 1000 = nsec / 1000000 := by omega
  simp only [SleepCall.ms, h1, h2, h3]
  rw [Int.toNat_of_nonneg (Int.emod_nonneg _ (by decide))]
  exact toInt32_emod_eq_iff (by omega) hv

/-- A hooked sleep on an `IOManager`'s worker arms the entry `schedule(fiber)` `sc.ms` after now
and parks the coroutine. -/
theorem sleep_arms_timer {w : World} {i : Nat} (hen : w.thread.hookEnable = true)
    (hiom : w.thread.iom = true) (hfree : (w.cos i).free = true) (sc : SleepCall) :
    ∃ w', step w (.sleep i sc) = .ok w' ∧ w'.cos i = .sleeping ∧
      ⟨w.timers.nextId, w.now + sc.ms, .schedule i⟩ ∈ w'.timers.timers :=
  ⟨{ w with timers := (w.timers.addTimer w.now sc.ms (.schedule i)).1 }.setCo i .sleeping,
   by simp [step, hfree, sleepHook, hen, hiom], by simp [World.setCo],
   TimerManager.mem_addTimer.mpr (.inl rfl)⟩

/-- **The hooked sleeps' delays wrap.** On a worker of an `IOManager`, `sleep(s)`, `usleep(u)` and
`nanosleep(req)` park the coroutine on a timer `ms` after now; `ms` is `s * 1000` only when that
fits in an `unsigned int`, and `tv_sec * 1000 + tv_nsec / 10^6` only when that fits in an `int`.
`sleep(4294968)`, some 49.7 days, sleeps 704 ms; `nanosleep` of 24.9 days sleeps for
`2^64 - 2147483296` ms. -/
theorem sleep_delays_wrap (w : World) (i : Nat) (hen : w.thread.hookEnable = true)
    (hiom : w.thread.iom = true) (hfree : (w.cos i).free = true) :
    (∀ sc, ∃ w', step w (.sleep i sc) = .ok w' ∧ w'.cos i = .sleeping ∧
      ⟨w.timers.nextId, w.now + sc.ms, .schedule i⟩ ∈ w'.timers.timers) ∧
    (∀ s, (SleepCall.sleep s).ms = s * 1000 ↔ s * 1000 < 2 ^ 32) ∧
    (∀ sec nsec : Int, 0 ≤ sec → 0 ≤ nsec → nsec < 1000000000 →
      sec * 1000 + nsec / 1000000 < 2 ^ 63 →
      (((SleepCall.nanosleep sec nsec).ms : Int) = sec * 1000 + nsec / 1000000 ↔
        sec * 1000 + nsec / 1000000 < 2 ^ 31)) :=
  ⟨sleep_arms_timer hen hiom hfree, sleep_ms_exact, fun _ _ hs hn0 hn hv => nanosleep_ms_exact hs hn0 hn hv⟩

example : (SleepCall.sleep 4294968).ms = 704 ∧
    (SleepCall.nanosleep 2147484 0).ms = 2 ^ 64 - 2147483296 := by decide

theorem sleep_delays_wrap_ioWorld :
    ioWorld.thread.hookEnable = true ∧ ioWorld.thread.iom = true ∧ (ioWorld.cos 0).free = true ∧
      ∃ w', step ioWorld (.sleep 0 (.sleep 4294968)) = .ok w' ∧ w'.cos 0 = .sleeping ∧
        ⟨ioWorld.timers.nextId, ioWorld.now + (SleepCall.sleep 4294968).ms, .schedule 0⟩ ∈
          w'.timers.timers :=
  ⟨rfl, rfl, rfl, (sleep_delays_wrap ioWorld 0 rfl rfl rfl).1 _⟩

/-! ### Socket timeouts -/

/-- Every `timeval` below one millisecond is stored as a timeout of `0`. -/
theorem timevalMs_sub_ms {usec : Int} (h0 : 0 ≤ usec) (h1 : usec < 1000) : timevalMs 0 usec = 0 := by
  simp [timevalMs, Int.tdiv_eq_ediv h0, Int.ediv_eq_zero_of_lt h0 h1]

/-- `setsockopt` reads its `timeval` only through `timevalMs`. -/
theorem step_setsockopt_congr (w : World) {hooked : Bool} {fd : Int} {optname : Nat}
    {sec usec sec' usec' : Int} (h : timevalMs sec usec = timevalMs sec' usec') :
    step w (.call (.setsockopt hooked fd optname sec usec)) =
      step w (.call (.setsockopt hooked fd optname sec' usec')) := by
  simp only [step, call, hookStep, h]

/-- A hooked socket `5`, and its receive timeout set to `{0, usec}`. -/
def subMsTrace (usec : Int) : List Action :=
  [.call (.socket true 5 false), .call (.setsockopt true 5 SO_RCVTIMEO 0 usec)]

/-- Then `read(5)` finds `EAGAIN` and parks; the idle loop's `listExpiredCb` finds its timer due
and a worker runs it; the reader resumes. -/
def readTimesOut : List Action := [.startIo 0 5 READ SO_RCVTIMEO, .raw 0 (.err EAGAIN), .expire,
  .runCb 0, .resume 0]

/-- **A socket timeout below one millisecond fails the next blocking call at once.** On an
`IOManager`'s worker, after the hooked `setsockopt(5, SOL_SOCKET, SO_RCVTIMEO, {0, usec})` with
`usec < 1000` (`{0, 0}`, the POSIX "no timeout", included), a hooked `read(5)` that has to wait
returns `-1` with `ETIMEDOUT` while the clock has not moved. -/
theorem sub_ms_socket_timeout_fails_at_once (usec : Int) (h0 : 0 ≤ usec) (h1 : usec < 1000) :
    ∃ w, run ioWorld (subMsTrace usec ++ readTimesOut) = .ok w ∧ Reach w ∧ w.now = 0 ∧
      w.cos 0 = .done (-1) (some ETIMEDOUT) := by
  have hrun : run ioWorld (subMsTrace usec ++ readTimesOut) =
      run ioWorld (subMsTrace 0 ++ readTimesOut) := by
    simp only [subMsTrace, readTimesOut, List.cons_append, List.nil_append, run,
      step_setsockopt_congr _ ((timevalMs_sub_ms h0 h1).trans
        (timevalMs_sub_ms (Int.le_refl 0) (by decide)).symm)]
  exact ⟨_, hrun.trans rfl, run_reach (.init _ 3 4 2 (by decide)) (hrun.trans rfl), rfl, rfl⟩

theorem sub_ms_socket_timeout_fails_at_once_zero :
    (0 : Int) ≤ 0 ∧ (0 : Int) < 1000 ∧ ∃ w, run ioWorld (subMsTrace 0 ++ readTimesOut) = .ok w ∧
      Reach w ∧ w.now = 0 ∧ w.cos 0 = .done (-1) (some ETIMEDOUT) :=
  ⟨Int.le_refl 0, by decide, sub_ms_socket_timeout_fails_at_once 0 (Int.le_refl 0) (by decide)⟩

end Sylar.Hook.Timeouts
