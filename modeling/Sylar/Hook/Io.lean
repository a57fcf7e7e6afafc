import Sylar.Hook.FdTable
import Sylar.IOManager.Run
import Sylar.Timer.Manager

/-! # Hooked I/O: `do_io`, `connect_with_timeout`, the sleeps and `close`

Coroutines on the workers of one scheduler call the hooks. Each coroutine runs its hook from one
suspension point to the next in one step, so a run is any interleaving of those steps with the
idle loop's (`ready`: readiness dispatch, `expire`: `listExpiredCb`, `runCb`: an emitted timer
callable run by some worker) and with calls of other threads (`call`). The reactor is the model of
`Sylar.IOManager.Ops`, its operations taken whole (lookup, resize, locked section); the
continuations it hands off wake the coroutines parked on them.

* `do_io`: the checks of `t_hook_enable` and of the `FdCtx`, one `timer_info` for the whole call,
  then `retry:` the raw call; `EINTR` repeats it, `EAGAIN` arms the condition timer (when the
  timeout is not `-1`), `addEvent`s and parks; on resume `timer->cancel()`, `ETIMEDOUT` if the
  `timer_info` says so, else `goto retry`.
* `connect_with_timeout`: the raw `connect`, on `EINPROGRESS` the same wait on `WRITE`, then
  `getsockopt(SO_ERROR)`.
* `sleep`, `usleep`, `nanosleep`: `addTimer` rescheduling the coroutine, and `YieldToHold`.
* `close` with hooking on: `cancelAll(fd)` when the thread has an `IOManager`, then what
  `hookStep` does.

Every raw call and every registration a hooked call makes is logged with the file its call began on
and the file open under the number when it is made (`Access`). -/

namespace Sylar.Hook.Io

open Sylar.Kernel.Epoll Sylar.Scheduler.Queue Sylar.IOManager.Context Sylar.IOManager.Context.Event
open Sylar.IOManager.Ops Sylar.Hook.FdTable Sylar.Timer.Manager

/-! ### The thread a hook runs on -/

/-- What `Scheduler::GetThis()` points to. -/
inductive SchedulerKind
  | scheduler
  | ioManager
deriving DecidableEq, Repr

/-- A thread's `t_hook_enable` and `t_scheduler`. -/
structure ThreadCtx where
  hookEnable : Bool
  scheduler : Option SchedulerKind
deriving DecidableEq, Repr

/-- **`Scheduler::run`**'s first lines on a worker: `set_hook_enable(true); setThis();`. -/
def Scheduler.run (kind : SchedulerKind) (t : ThreadCtx) : ThreadCtx :=
  { t with hookEnable := true, scheduler := some kind }

/-- **`IOManager::GetThis()`** is not null: `dynamic_cast<IOManager*>(Scheduler::GetThis())`. -/
def ThreadCtx.iom (t : ThreadCtx) : Bool := t.scheduler = some .ioManager

/-! ### The sleeps -/

/-- A hooked sleep and its argument. -/
inductive SleepCall
  | sleep (seconds : Nat)
  | usleep (usec : Nat)
  | nanosleep (sec nsec : Int)
deriving DecidableEq, Repr

/-- The `uint64_t` delay each passes to `addTimer`: `seconds * 1000` in `unsigned int`,
`usec / 1000`, and `int timeout_ms = req->tv_sec * 1000 + req->tv_nsec / 1000 / 1000`. -/
def SleepCall.ms : SleepCall → Nat
  | .sleep s => s * 1000 % 2 ^ 32
  | .usleep u => u / 1000
  | .nanosleep sec nsec =>
    (toInt32 (sec * 1000 + Int.tdiv (Int.tdiv nsec 1000) 1000) % 2 ^ 64).toNat

/-! ### Coroutines and the world -/

/-- A timer's callable. -/
inductive TimerCb
  /-- `std::bind(&IOManager::schedule, iom, fiber, -1)` of a sleeping coroutine. -/
  | schedule (co : Nat)
  /-- The condition timer of a wait, holding `winfo` of the call's `timer_info` `info`: if it
  still locks and `cancelled` is `0`, `cancelled = ETIMEDOUT` and `cancelEvent(fd, event)`. -/
  | ioTimeout (info : Nat) (fd : Int) (event : Event)
deriving DecidableEq, Repr

/-- Which hooked call. -/
inductive IoKind
  | doIo
  | connect
deriving DecidableEq, Repr

/-- A hooked call in progress: its descriptor, event and timeout (`noTimeout` for `-1`), its
`timer_info`, and the file open under `fd` when it began. -/
structure IoCall where
  kind : IoKind
  fd : Int
  event : Event
  timeout : Nat
  info : Nat
  file : Option Nat
deriving DecidableEq, Repr

/-- Where a coroutine is in its hooked call. -/
inductive Pc
  /-- Forwarding to the raw call, whose result it returns. -/
  | direct
  /-- `do_io`'s `retry:` label. -/
  | retry
  /-- `connect_with_timeout`'s raw `connect`. -/
  | connect
  /-- In `YieldToHold()`, with the timer armed for this wait, if any. -/
  | parked (timer : Option Nat)
  /-- Rescheduled and not yet running again. -/
  | woken (timer : Option Nat)
  /-- `connect_with_timeout`'s `getsockopt(SO_ERROR)`. -/
  | sockopt
deriving DecidableEq, Repr

/-- A coroutine. `done ret errno`: the call returned `ret`; `errno` is `none` where the hook
leaves whatever the failed `epoll_ctl` set. -/
inductive Co
  | idle
  | io (c : IoCall) (pc : Pc)
  | sleeping
  | done (ret : Int) (errno : Option Nat)
deriving DecidableEq, Repr

/-- Not inside a hooked call. -/
def Co.free : Co → Bool
  | .idle | .done _ _ => true
  | _ => false

/-- A raw call (`register = false`) or an `addEvent` made by coroutine `co` on `fd`: the file its
call began on, and the file open under `fd` at that moment. -/
structure Access where
  co : Nat
  fd : Int
  began : Option Nat
  current : Option Nat
  register : Bool
deriving DecidableEq, Repr

/-- The result of a raw call: `n ≥ 0`, or `-1` with `errno`. -/
inductive RawResult
  | ok (n : Nat)
  | err (errno : Nat)
deriving DecidableEq, Repr

/-- **The world of the hooks**: the workers' thread context, the descriptor table and contexts,
the reactor and its tickle pipe, the clock and timers, the callables `listExpiredCb` emitted and
no worker has run yet, the coroutines, the `timer_info` objects (alive, `cancelled`), and the
log. -/
structure World where
  thread : ThreadCtx
  hook : HookSt
  iom : IOManager
  tickleFd : Int
  now : Nat
  timers : TimerManager TimerCb
  expired : List TimerCb
  cos : Nat → Co
  alive : Nat → Bool
  cancelled : Nat → Nat
  nextInfo : Nat
  log : List Access

namespace World

/-- The file open under `fd`. -/
def fileAt (w : World) (fd : Int) : Option Nat := (w.hook.kernel.files fd).map (·.id)

def setCo (w : World) (i : Nat) (c : Co) : World := { w with cos := Function.update w.cos i c }

/-- Log an access of coroutine `i`'s call `c`. -/
def access (w : World) (i : Nat) (c : IoCall) (register : Bool) : World :=
  { w with log := w.log ++ [⟨i, c.fd, c.file, w.fileAt c.fd, register⟩] }

/-- The call returns; its `timer_info` is released. -/
def finish (w : World) (i : Nat) (c : IoCall) (ret : Int) (errno : Option Nat) : World :=
  { w.setCo i (.done ret errno) with alive := Function.update w.alive c.info false }

/-- `timer->cancel()` if the wait armed one. -/
def cancelTimer (w : World) : Option Nat → World
  | some t => { w with timers := w.timers.cancel t }
  | none => w

/-- A coroutine the reactor hands off is woken. -/
def wakeOne (w : World) (e : Nat × FiberAndThread) : World :=
  match e.2.task, w.cos with
  | .fiber f, cos =>
    match cos f with
    | .io c (.parked t) => w.setCo f (.io c (.woken t))
    | _ => w
  | .cb _, _ => w

/-- The state after a reactor operation. -/
def apply (w : World) (e : Effect) : World :=
  e.scheduled.foldl wakeOne { w with iom := e.iom, hook := { w.hook with kernel := e.kernel } }

/-- The reactor part of a world: the `IOManager`, the kernel, the tickle pipe. -/
def reactor (w : World) : IOManager × Kernel × Int := (w.iom, w.hook.kernel, w.tickleFd)

@[simp] theorem setCo_reactor (w : World) (i : Nat) (c : Co) : (w.setCo i c).reactor = w.reactor :=
  rfl

@[simp] theorem access_reactor (w : World) (i : Nat) (c : IoCall) (r : Bool) :
    (w.access i c r).reactor = w.reactor := rfl

@[simp] theorem finish_reactor (w : World) (i : Nat) (c : IoCall) (ret : Int) (e : Option Nat) :
    (w.finish i c ret e).reactor = w.reactor := rfl

@[simp] theorem cancelTimer_reactor (w : World) (t : Option Nat) :
    (w.cancelTimer t).reactor = w.reactor := by
  cases t <;> rfl

@[simp] theorem wakeOne_reactor (w : World) (e : Nat × FiberAndThread) :
    (w.wakeOne e).reactor = w.reactor := by
  unfold wakeOne; split <;> [split <;> rfl; rfl]

theorem foldl_wakeOne_reactor (l : List (Nat × FiberAndThread)) :
    ∀ w : World, (l.foldl wakeOne w).reactor = w.reactor := by
  induction l with
  | nil => intro w; rfl
  | cons e l ih => intro w; rw [List.foldl_cons, ih, wakeOne_reactor]

@[simp] theorem apply_reactor (w : World) (e : Effect) :
    (w.apply e).reactor = (e.iom, e.kernel, w.tickleFd) :=
  foldl_wakeOne_reactor _ _

@[simp] theorem apply_iom (w : World) (e : Effect) : (w.apply e).iom = e.iom :=
  congrArg Prod.fst (apply_reactor w e)

@[simp] theorem apply_kernel (w : World) (e : Effect) : (w.apply e).hook.kernel = e.kernel :=
  congrArg (·.2.1) (apply_reactor w e)

@[simp] theorem apply_tickleFd (w : World) (e : Effect) : (w.apply e).tickleFd = w.tickleFd :=
  congrArg (·.2.2) (apply_reactor w e)

end World

/-! ### The reactor operations, whole -/

/-- **`IOManager::addEvent(fd, event)`** with no callback, by coroutine `cur`: the read-locked
lookup, `contextResize(fd * 1.5)` if the vector is too short, and the locked section. -/
def addEvent (m : IOManager) (k : Kernel) (fd : Int) (event : Event) (cur : Nat) :
    Except String (Effect × Int) :=
  match lookup m fd with
  | .error msg => .error msg
  | .ok (some p) => addEventLocked m k p fd event (some 0) cur none
  | .ok none =>
    match resizeFor m fd with
    | .error msg => .error msg
    | .ok (m', p) => addEventLocked m' k p fd event (some 0) cur none

/-- **`IOManager::cancelEvent(fd, event)`**: `false` if the vector is too short. -/
def cancelEvent (m : IOManager) (k : Kernel) (fd : Int) (event : Event) :
    Except String (Effect × Bool) :=
  match lookup m fd with
  | .error msg => .error msg
  | .ok none => .ok ({ iom := m, kernel := k }, false)
  | .ok (some p) => cancelEventLocked m k p fd event

/-- **`IOManager::cancelAll(fd)`**: `false` if the vector is too short. -/
def cancelAll (m : IOManager) (k : Kernel) (fd : Int) : Except String (Effect × Bool) :=
  match lookup m fd with
  | .error msg => .error msg
  | .ok none => .ok ({ iom := m, kernel := k }, false)
  | .ok (some p) => cancelAllLocked m k p fd

/-- `addEvent` returning `-1`, its `epoll_ctl` having failed, leaves the kernel as it was. -/
theorem addEvent_fail {m : IOManager} {k : Kernel} {fd : Int} {event : Event} {cur : Nat}
    {e : Effect} {r : Int} (h : addEvent m k fd event cur = .ok (e, r)) (hr : r ≠ 0) :
    e.kernel = k := by
  unfold addEvent at h
  split at h
  · cases h
  · rw [addEventLocked_fail h hr]
  · split at h
    · cases h
    · rw [addEventLocked_fail h hr]

/-! ### The hooks -/

/-- What a wait calls first through `IOManager::GetThis()`. -/
def waitNullMsg (c : IoCall) : String :=
  if c.timeout ≠ noTimeout then "iom->addConditionTimer" else "iom->addEvent"

/-- `addConditionTimer(to, cb, winfo)` for a wait, unless the timeout is `-1`: the timers and the
new entry's handle. -/
def armTimer (w : World) (c : IoCall) : TimerManager TimerCb × Option Nat :=
  if c.timeout ≠ noTimeout then
    let r := w.timers.addTimer w.now c.timeout (.ioTimeout c.info c.fd c.event)
    (r.1, some r.2)
  else (w.timers, none)

/-- The wait of `do_io` after `EAGAIN` and of `connect_with_timeout` after `EINPROGRESS`:
`IOManager::GetThis()`, the condition timer, `addEvent(fd, event)`; then `YieldToHold()`, or on
failure `timer->cancel()` and `onFail`. -/
def wait (w : World) (i : Nat) (c : IoCall) (onFail : World → World) : Except String World :=
  if w.thread.iom = false then .error (waitNullMsg c) else
  match addEvent w.iom w.hook.kernel c.fd c.event i with
  | .error msg => .error msg
  | .ok (e, rt) =>
    let w' := ({ w with timers := (armTimer w c).1 }.access i c true).apply e
    if rt ≠ 0 then .ok (onFail (w'.cancelTimer (armTimer w c).2))
    else .ok (w'.setCo i (.io c (.parked (armTimer w c).2)))

/-- The kernel's answer to a raw call on `fd`: `EBADF` if nothing is open under it. A file whose
`O_NONBLOCK` is clear does not answer `EAGAIN` or `EINPROGRESS`: its call blocks until it has
another answer, so with those the call has not returned (`none`). -/
def rawResult (w : World) (fd : Int) (r : RawResult) : Option RawResult :=
  match w.hook.kernel.files fd with
  | none => some (.err EBADF)
  | some f =>
    if f.nonblock = false ∧ (r = .err EAGAIN ∨ r = .err EINPROGRESS) then none else some r

/-- **The raw call** of coroutine `i`, with the environment's result `r`; a call that blocks leaves
the world as it is. -/
def raw (w : World) (i : Nat) (r : RawResult) : Except String World :=
  match w.cos i with
  | .io c pc =>
    let w' := w.access i c false
    match pc, rawResult w c.fd r with
    | .direct, some (.ok n) => .ok (w'.finish i c n none)
    | .direct, some (.err e) => .ok (w'.finish i c (-1) (some e))
    | .retry, some (.ok n) => .ok (w'.finish i c n none)
    | .retry, some (.err e) =>
      if e = EINTR then .ok w'
      else if e = EAGAIN then wait w' i c fun w => w.finish i c (-1) none
      else .ok (w'.finish i c (-1) (some e))
    | .connect, some (.ok n) => .ok (w'.finish i c n none)
    | .connect, some (.err e) =>
      if e = EINPROGRESS then wait w' i c fun w => w.setCo i (.io c .sockopt)
      else .ok (w'.finish i c (-1) (some e))
    | .sockopt, some (.ok 0) => .ok (w'.finish i c 0 none)
    | .sockopt, some (.ok n) => .ok (w'.finish i c (-1) (some n))
    | .sockopt, some (.err e) => .ok (w'.finish i c (-1) (some e))
    | _, _ => .ok w
  | _ => .ok w

/-- The raw call on a non-blocking file gets the environment's answer. -/
theorem rawResult_nonblock {w : World} {fd : Int} {f : File} (hf : w.hook.kernel.files fd = some f)
    (hn : f.nonblock = true) (r : RawResult) : rawResult w fd r = some r := by
  simp [rawResult, hf, hn]

/-- **The resumed coroutine** after `YieldToHold()`: `timer->cancel()`; `-1` with the
`timer_info`'s `cancelled` if it is set; else `goto retry` (`do_io`) or `getsockopt`
(`connect_with_timeout`). -/
def resume (w : World) (i : Nat) : Except String World :=
  match w.cos i with
  | .io c (.woken timer) =>
    let w := w.cancelTimer timer
    if w.cancelled c.info ≠ 0 then .ok (w.finish i c (-1) (some (w.cancelled c.info)))
    else .ok (w.setCo i (.io c (match c.kind with
      | .doIo => .retry
      | .connect => .sockopt)))
  | _ => .ok w

/-- A fresh `timer_info` for a call. -/
def newInfo (w : World) : World :=
  { w with alive := Function.update w.alive w.nextInfo true,
           cancelled := Function.update w.cancelled w.nextInfo 0, nextInfo := w.nextInfo + 1 }

@[simp] theorem newInfo_reactor (w : World) : (newInfo w).reactor = w.reactor := rfl

/-- **`do_io(fd, fun, name, event, timeout_so)`** up to `retry:`. -/
def startIo (w : World) (i : Nat) (fd : Int) (event : Event) (so : Nat) : Except String World :=
  let c : IoCall := ⟨.doIo, fd, event, noTimeout, w.nextInfo, w.fileAt fd⟩
  if w.thread.hookEnable = false then .ok (w.setCo i (.io c .direct)) else
  match w.hook.fdMgr.get w.hook.kernel fd false with
  | .error msg => .error msg
  | .ok (_, _, none) => .ok (w.setCo i (.io c .direct))
  | .ok (_, _, some ctx) =>
    if ctx.isClosed then .ok (w.setCo i (.done (-1) (some EBADF)))
    else if !ctx.isSocket || ctx.userNonblock then .ok (w.setCo i (.io c .direct))
    else .ok ((newInfo w).setCo i (.io { c with timeout := ctx.getTimeout so } .retry))

/-- **`connect_with_timeout(fd, addr, addrlen, timeout_ms)`** up to its raw `connect`. -/
def startConnect (w : World) (i : Nat) (fd : Int) (timeoutMs : Nat) : Except String World :=
  let c : IoCall := ⟨.connect, fd, WRITE, timeoutMs, w.nextInfo, w.fileAt fd⟩
  if w.thread.hookEnable = false then .ok (w.setCo i (.io c .direct)) else
  match w.hook.fdMgr.get w.hook.kernel fd false with
  | .error msg => .error msg
  | .ok (_, _, none) => .ok (w.setCo i (.done (-1) (some EBADF)))
  | .ok (_, _, some ctx) =>
    if ctx.isClosed then .ok (w.setCo i (.done (-1) (some EBADF)))
    else if !ctx.isSocket || ctx.userNonblock then .ok (w.setCo i (.io c .direct))
    else .ok ((newInfo w).setCo i (.io c .connect))

/-- **`sleep`, `usleep`, `nanosleep`**: forwarded with hooking off; else
`iom->addTimer(ms, schedule(fiber))` through `IOManager::GetThis()` and `YieldToHold()`. -/
def sleepHook (w : World) (i : Nat) (sc : SleepCall) : Except String World :=
  if w.thread.hookEnable = false then .ok (w.setCo i (.done 0 none))
  else if w.thread.iom = false then .error "iom->addTimer"
  else .ok ({ w with timers := (w.timers.addTimer w.now sc.ms (.schedule i)).1 }.setCo i .sleeping)

/-- An emitted timer callable, run by a worker. -/
def runTimerCb (w : World) : TimerCb → Except String World
  | .schedule co =>
    match w.cos co with
    | .sleeping => .ok (w.setCo co (.done 0 none))
    | _ => .ok w
  | .ioTimeout info fd event =>
    if w.alive info = false ∨ w.cancelled info ≠ 0 then .ok w else
    let w := { w with cancelled := Function.update w.cancelled info ETIMEDOUT }
    (cancelEvent w.iom w.hook.kernel fd event).map fun r => w.apply r.1

/-- A call of the descriptor table, by any thread; the hooked `close` of a context on a thread
with an `IOManager` first runs `cancelAll(fd)`. -/
def call (w : World) (c : Call) : Except String World :=
  let onTable (w : World) := (hookStep w.hook c).map fun h => { w with hook := h }
  match c with
  | .close true fd =>
    match w.hook.fdMgr.get w.hook.kernel fd false with
    | .error msg => .error msg
    | .ok (_, _, some _) =>
      if w.thread.iom then
        match cancelAll w.iom w.hook.kernel fd with
        | .error msg => .error msg
        | .ok (e, _) => onTable (w.apply e)
      else onTable w
    | .ok (_, _, none) => onTable w
  | _ => onTable w

/-! ### Steps and runs -/

/-- A step of a coroutine, of the idle loop, of the clock, or of another thread. -/
inductive Action
  | startIo (co : Nat) (fd : Int) (event : Event) (so : Nat)
  | startConnect (co : Nat) (fd : Int) (timeoutMs : Nat)
  | sleep (co : Nat) (call : SleepCall)
  | raw (co : Nat) (r : RawResult)
  | resume (co : Nat)
  | call (c : Call)
  | ready (fd : Int) (mask : EpollMask)
  | tick (ms : Nat)
  | expire
  | runCb (k : Nat)

/-- **One step.** A coroutine already in a call does not start another. -/
def step (w : World) : Action → Except String World
  | .startIo i fd event so => if (w.cos i).free then startIo w i fd event so else .ok w
  | .startConnect i fd ms => if (w.cos i).free then startConnect w i fd ms else .ok w
  | .sleep i sc => if (w.cos i).free then sleepHook w i sc else .ok w
  | .raw i r => raw w i r
  | .resume i => resume w i
  | .call c => call w c
  | .ready fd mask =>
    match w.hook.kernel.interest fd with
    | some reg => (dispatch w.iom w.hook.kernel w.tickleFd (report reg mask)).map w.apply
    | none => .ok w
  | .tick ms => .ok { w with now := w.now + ms }
  | .expire =>
    .ok { w with timers := (w.timers.listExpired w.now).2,
                 expired := w.expired ++ (w.timers.listExpired w.now).1 }
  | .runCb k =>
    match w.expired.get? k with
    | some cb => runTimerCb { w with expired := w.expired.eraseIdx k } cb
    | none => .ok w

/-- The world when the workers start: the constructed `IOManager` with its tickle pipe `(r, w)`
(`Sylar.IOManager.Run.initial`), no contexts, no timer, every coroutine idle; new files are
numbered from `n`. -/
def World.initial (t : ThreadCtx) (r w : Int) (n : Nat) : World :=
  { thread := t, hook := ⟨(IOManager.Run.initial r w).kernel, .initial, n⟩,
    iom := (IOManager.Run.initial r w).iom,
    tickleFd := r, now := 0, timers := .empty, expired := [], cos := fun _ => .idle,
    alive := fun _ => false, cancelled := fun _ => 0, nextInfo := 0, log := [] }

/-- The worlds a run reaches. -/
inductive Reach : World → Prop
  | init (t : ThreadCtx) (r w : Int) (n : Nat) : r ≠ w → Reach (World.initial t r w n)
  | step {w w' : World} (a : Action) : Reach w → step w a = .ok w' → Reach w'

/-- Run a list of steps. -/
def run (w : World) : List Action → Except String World
  | [] => .ok w
  | a :: as =>
    match step w a with
    | .error msg => .error msg
    | .ok w' => run w' as

theorem run_reach : ∀ {w w' : World} {as : List Action}, Reach w → run w as = .ok w' → Reach w'
  | _, _, [], hw, h => by cases h; exact hw
  | w, _, a :: as, hw, h => by
    unfold run at h
    split at h
    · cases h
    · exact run_reach (.step a hw ‹_›) h

/-! ### A plain `Scheduler` -/

/-- **On a worker of a plain `Scheduler`** hooking is on and `IOManager::GetThis()` is null, so
every hooked sleep, and every hooked `do_io` or `connect` that has to wait, calls through the null
pointer. -/
theorem plain_scheduler_hooks_null_iom (t : ThreadCtx) (w : World)
    (hw : w.thread = Scheduler.run .scheduler t) :
    w.thread.hookEnable = true ∧ w.thread.iom = false ∧
      (∀ i sc, (w.cos i).free = true → step w (.sleep i sc) = .error "iom->addTimer") ∧
      (∀ i c f, w.cos i = .io c .retry → w.hook.kernel.files c.fd = some f → f.nonblock = true →
        step w (.raw i (.err EAGAIN)) = .error (waitNullMsg c)) ∧
      ∀ i c f, w.cos i = .io c .connect → w.hook.kernel.files c.fd = some f → f.nonblock = true →
        step w (.raw i (.err EINPROGRESS)) = .error (waitNullMsg c) := by
  have hen : w.thread.hookEnable = true := by rw [hw]; rfl
  have hiom : w.thread.iom = false := by rw [hw]; rfl
  refine ⟨hen, hiom, fun i sc hi => ?_, fun i c f hc hf hn => ?_, fun i c f hc hf hn => ?_⟩
  · simp [step, hi, sleepHook, hiom, hen]
  · simp [step, raw, hc, rawResult_nonblock hf hn, wait, World.access, hiom, EAGAIN, EINTR]
  · simp [step, raw, hc, rawResult_nonblock hf hn, wait, World.access, hiom]

/-- A plain `Scheduler`'s worker, its tickle pipe `(3, 4)` the only files. -/
def plainWorld : World := World.initial (Scheduler.run .scheduler ⟨false, none⟩) 3 4 2

/-- A socket `5` from the hooked `socket`, and a coroutine in `read(5)`. -/
def plainReadTrace : List Action := [.call (.socket true 5 false), .startIo 0 5 READ SO_RCVTIMEO]

/-- The world `plainReadTrace` reaches, the coroutine at `retry:`. -/
def plainRead : World :=
  match run plainWorld plainReadTrace with
  | .ok w => w
  | .error _ => plainWorld

theorem plain_scheduler_read_null_iom :
    Reach plainRead ∧ plainRead.cos 0 = .io ⟨.doIo, 5, READ, noTimeout, 0, some 2⟩ .retry ∧
      step plainRead (.raw 0 (.err EAGAIN)) = .error "iom->addEvent" :=
  ⟨run_reach (.init _ 3 4 2 (by decide)) (rfl : run plainWorld plainReadTrace = .ok plainRead), rfl,
   (plain_scheduler_hooks_null_iom ⟨false, none⟩ plainRead rfl).2.2.2.1 0 _ _ rfl rfl rfl⟩

/-! ### Runs on an `IOManager` -/

/-- An `IOManager`'s worker, its tickle pipe `(3, 4)` the only files. -/
def ioWorld : World := World.initial (Scheduler.run .ioManager ⟨false, none⟩) 3 4 2

/-- A `read(5)` with a one-second `SO_RCVTIMEO` parks; the timer expires and is emitted while the
socket turns readable; the reader resumes first, finds `EAGAIN` again and parks on a new timer;
then the first wait's callable runs. -/
def staleTrace : List Action :=
  [.call (.socket true 5 false), .call (.setsockopt true 5 SO_RCVTIMEO 1 0),
   .startIo 0 5 READ SO_RCVTIMEO, .raw 0 (.err EAGAIN), .tick 1000, .expire,
   .ready 5 { epollin := true }, .resume 0, .raw 0 (.err EAGAIN), .runCb 0]

theorem stale_timeout_fails_later_wait :
    ∃ w c t, Reach w ∧ w.cos 0 = .io c (.woken (some t)) ∧
      (∃ x ∈ w.timers.timers, x.id = t ∧ w.now < x.next) ∧
      (step w (.resume 0)).toOption.map (·.cos 0) = some (.done (-1) (some ETIMEDOUT)) :=
  ⟨_, ⟨.doIo, 5, READ, 1000, 0, some 2⟩, 1,
   run_reach (.init _ 3 4 2 (by decide)) (rfl : run ioWorld staleTrace = .ok _), by decide,
   by decide, by decide⟩

/-- A `read(5)` parks; another coroutine's hooked `close(5)` wakes it and a new socket takes the
number; the reader resumes. -/
def closeReuseTrace : List Action :=
  [.call (.socket true 5 false), .startIo 0 5 READ SO_RCVTIMEO, .raw 0 (.err EAGAIN),
   .call (.close true 5), .call (.socket true 5 false), .resume 0, .raw 0 (.err EAGAIN)]

theorem close_wakes_io_onto_reused_number :
    ∃ w, Reach w ∧ w.cos 0 = .io ⟨.doIo, 5, READ, noTimeout, 0, some 2⟩ (.parked none) ∧
      ⟨0, 5, some 2, some 3, false⟩ ∈ w.log ∧ ⟨0, 5, some 2, some 3, true⟩ ∈ w.log :=
  ⟨_, run_reach (.init _ 3 4 2 (by decide)) (rfl : run ioWorld closeReuseTrace = .ok _), by decide,
   by decide,
   by decide⟩

end Sylar.Hook.Io
